import TypeGraph.Proofs.Signature.Token
import TypeGraph.Signature.Reader

/-!
This file shows that blanks between tokens do not matter. Where two parts of a text cannot run into
one token, the lexemes of the whole are those of the first part and those of the second one behind
them. So blanks that come between the parts move the second lexemes and change no token.
-/

namespace TypeGraph.Signature

open Text

/-! ### Parts that are apart -/

/-- Two parts of a text are apart when no word and no ellipsis can run from one into the other. -/
def Apart (front back : List Char) : Prop :=
  ∀ last ∈ front.getLast?, ∀ first ∈ back.head?,
    ¬ (isIdentifierPart last = true ∧ isIdentifierPart first = true) ∧
      ¬ (last = '.' ∧ first = '.')

/-- What the first part starts with plays no role as long as something is left of it. -/
theorem Apart.of_append {front middle back : List Char} (apart : Apart (front ++ middle) back) :
    Apart middle back := by
  intro last isLast
  apply apart last
  rw [List.getLast?_append, Option.mem_def.mp isLast]
  rfl

/-- Parts stay apart when blanks come between them. -/
theorem Apart.blanks {front back blanks : List Char} (apart : Apart front back)
    (blank : Blank blanks) : Apart front (blanks ++ back) := by
  cases blanks with
  | nil => exact apart
  | cons first others =>
      intro last _ _ isFirst
      obtain rfl := Option.some.inj isFirst
      have visible := blank first List.mem_cons_self
      constructor
      · intro parts
        rw [isIdentifierPart_of_isBlank visible] at parts
        cases parts.2
      · rintro ⟨-, rfl⟩
        rw [isBlank_of_mem_punctuation (by decide)] at visible
        cases visible

/-- A token that ends in the first part ends in the whole. -/
theorem Token.Ends.append {token : Token} {rest back : List Char} (ends : token.Ends rest)
    (apart : Apart (token.spelling ++ rest) back) : token.Ends (rest ++ back) := by
  cases token with
  | ellipsis => trivial
  | word letters =>
      obtain ⟨⟨nonempty, parts⟩, ended⟩ := ends
      refine ⟨⟨nonempty, parts⟩, ?_⟩
      cases rest with
      | cons first others => exact ended
      | nil =>
          cases back with
          | nil => rfl
          | cons first others =>
              have isLast : letters.getLast nonempty ∈ (letters ++ []).getLast? := by
                rw [List.append_nil, List.getLast?_eq_some_getLast nonempty]
                rfl
              have separate := (apart _ isLast first rfl).1
              simpa [startsWord, parts _ (List.getLast_mem nonempty)] using separate
  | symbol character =>
      refine ⟨ends.1, ends.2.1, ?_⟩
      rintro later rfl same
      rcases List.append_eq_cons_iff.mp same with ⟨rfl, rfl⟩ | ⟨others, rfl, more⟩
      · exact (apart '.' rfl '.' rfl).2 ⟨rfl, rfl⟩
      · rcases List.append_eq_cons_iff.mp more.symm with ⟨rfl, rfl⟩ | ⟨_, rfl, -⟩
        · exact (apart '.' rfl '.' rfl).2 ⟨rfl, rfl⟩
        · exact ends.2.2 _ rfl rfl

namespace Lexeme

/-! ### Lexemes of a text in two parts -/

/-- The lexemes of parts that are apart come one after the other. -/
theorem scan_append {front back : List Char} (apart : Apart front back) (start : Nat) :
    scan start (front ++ back) = scan start front ++ scan (start + String.utf8Len front) back := by
  induction front using Token.induct_text generalizing start with
  | blank blanks blank =>
      rw [scan_blanks blank, scan_of_blank blank, List.nil_append]
  | spelled blanks token rest blank ends inductionHypothesis =>
      have spelledApart := apart.of_append
      have later := inductionHypothesis spelledApart.of_append
      rw [ends.scan blank, List.append_assoc, List.append_assoc,
        (ends.append spelledApart).scan blank, later, List.cons_append]
      simp only [String.utf8Len_append, Nat.add_assoc]

/-- A moved lexeme is the same token in a later place. -/
def move (distance : Nat) (lexeme : Lexeme) : Lexeme :=
  ⟨lexeme.token, lexeme.start + distance, lexeme.stop + distance⟩

/-- The lexemes of a text in a later place are moved there. -/
theorem scan_add (start distance : Nat) (text : List Char) :
    scan (start + distance) text = (scan start text).map (move distance) := by
  induction text using Token.induct_text generalizing start with
  | blank blanks blank =>
      rw [scan_of_blank blank, scan_of_blank blank, List.map_nil]
  | spelled blanks token rest blank ends inductionHypothesis =>
      rw [ends.scan blank, ends.scan blank, List.map_cons, ← inductionHypothesis, move]
      simp only [Nat.add_right_comm _ distance]

/-- Blanks between parts that are apart move the lexemes of the second part. -/
theorem scan_insertBlanks {front back blanks : List Char} (apart : Apart front back)
    (blank : Blank blanks) (start : Nat) :
    scan start (front ++ blanks ++ back) =
      scan start front ++
        (scan (start + String.utf8Len front) back).map (move (String.utf8Len blanks)) := by
  rw [List.append_assoc, scan_append (apart.blanks blank), scan_blanks blank, scan_add]

/-- Every lexeme lies inside the text. -/
theorem bounds_of_mem_scan {lexeme : Lexeme} {start : Nat} {text : List Char}
    (listed : lexeme ∈ scan start text) :
    start ≤ lexeme.start ∧ lexeme.start ≤ lexeme.stop ∧
      lexeme.stop ≤ start + String.utf8Len text := by
  induction text using Token.induct_text generalizing start with
  | blank blanks blank =>
      rw [scan_of_blank blank] at listed
      cases listed
  | spelled blanks token rest blank ends inductionHypothesis =>
      rw [ends.scan blank] at listed
      simp only [String.utf8Len_append]
      rcases List.mem_cons.mp listed with rfl | later
      · dsimp only
        omega
      · have inside := inductionHypothesis later
        omega

end Lexeme

/-! ### Offsets of faults -/

/-- Where the lexemes behind a place are moved, an offset in front of it stays and one behind it
moves with them. -/
theorem Stuck.offset_move (stuck : Stuck) {before behind : List Lexeme} {place size : Nat}
    (distance : Nat) (isBefore : ∀ lexeme ∈ before, lexeme.start ≤ place ∧ lexeme.stop ≤ place)
    (isBehind : ∀ lexeme ∈ behind, place ≤ lexeme.start ∧ place ≤ lexeme.stop)
    (inside : place ≤ size) :
    let plain := stuck.offset (before ++ behind) size
    let moved := stuck.offset (before ++ behind.map (Lexeme.move distance)) (size + distance)
    (moved = plain ∧ plain ≤ place) ∨ (moved = plain + distance ∧ place ≤ plain) := by
  have sameLength : (before ++ behind.map (Lexeme.move distance)).length =
      (before ++ behind).length := by simp
  intro plain moved
  simp only [plain, moved, offset, sameLength]
  generalize (before ++ behind).length - stuck.rest.length = read
  cases stuck.place with
  | beforeNext =>
      -- The next lexeme is the first one that is left of either part.
      simp only [List.drop_append, List.head?_append, ← List.map_drop, List.head?_map]
      cases next : (before.drop read).head? with
      | some lexeme =>
          have listed := List.mem_of_mem_drop (List.mem_of_head? next)
          exact .inl ⟨rfl, (isBefore lexeme listed).1⟩
      | none =>
          cases next : (behind.drop (read - before.length)).head? with
          | some lexeme =>
              have listed := List.mem_of_mem_drop (List.mem_of_head? next)
              exact .inr ⟨rfl, (isBehind lexeme listed).1⟩
          | none => exact .inr ⟨rfl, inside⟩
  | afterLast =>
      -- The last lexeme that was read is one of the second part, if any of these was read.
      simp only [List.take_append, List.getLast?_append, ← List.map_take, List.getLast?_map]
      cases last : (behind.take (read - before.length)).getLast? with
      | some lexeme =>
          have listed := List.mem_of_mem_take (List.mem_of_getLast? last)
          exact .inr ⟨rfl, (isBehind lexeme listed).2⟩
      | none =>
          cases last : (before.take read).getLast? with
          | some lexeme =>
              have listed := List.mem_of_mem_take (List.mem_of_getLast? last)
              exact .inl ⟨rfl, (isBefore lexeme listed).2⟩
          | none => exact .inl ⟨rfl, Nat.zero_le place⟩

/-! ### Texts with more blanks -/

/-- A text with blanks between two parts that are apart is read like the text without these blanks:
both denote the same signature, or both are rejected for the same fault. The offset of the fault
stays in the first part or moves with the second one. -/
theorem parse_insertBlanks {front blanks back : String} (apart : Apart front.toList back.toList)
    (blank : Blank blanks.toList) :
    (parse (front ++ blanks ++ back)).mapError Malformed.fault =
        (parse (front ++ back)).mapError Malformed.fault ∧
      ∀ malformed later, parse (front ++ back) = .error malformed →
        parse (front ++ blanks ++ back) = .error later →
          (later.offset = malformed.offset ∧ malformed.offset ≤ front.utf8ByteSize) ∨
          (later.offset = malformed.offset + blanks.utf8ByteSize ∧
            front.utf8ByteSize ≤ malformed.offset) := by
  have plain := Lexeme.scan_append apart 0
  have spaced := Lexeme.scan_insertBlanks apart blank 0
  simp only [← String.toList_append, String.utf8Len_toList, Nat.zero_add] at plain spaced
  have isBefore : ∀ lexeme ∈ Lexeme.scan 0 front.toList,
      lexeme.start ≤ front.utf8ByteSize ∧ lexeme.stop ≤ front.utf8ByteSize := by
    intro lexeme listed
    have inside := Lexeme.bounds_of_mem_scan listed
    rw [String.utf8Len_toList] at inside
    omega
  have isBehind : ∀ lexeme ∈ Lexeme.scan front.utf8ByteSize back.toList,
      front.utf8ByteSize ≤ lexeme.start ∧ front.utf8ByteSize ≤ lexeme.stop := by
    intro lexeme listed
    have inside := Lexeme.bounds_of_mem_scan listed
    omega
  have tokens : (Lexeme.scan 0 (front ++ blanks ++ back).toList).map Lexeme.token =
      (Lexeme.scan 0 (front ++ back).toList).map Lexeme.token := by
    rw [plain, spaced, List.map_append, List.map_append, List.map_map]
    rfl
  unfold parse
  dsimp only
  rw [tokens]
  cases readWhole ((Lexeme.scan 0 (front ++ back).toList).map Lexeme.token) with
  | ok signature =>
      refine ⟨rfl, ?_⟩
      intro malformed later failed
      cases failed
  | error stuck =>
      refine ⟨rfl, ?_⟩
      intro malformed later failed failedLater
      cases failed
      cases failedLater
      have offsets := stuck.offset_move blanks.utf8ByteSize isBefore isBehind
        (Nat.le_add_right front.utf8ByteSize back.utf8ByteSize)
      dsimp only at offsets ⊢
      rw [plain, spaced, String.utf8ByteSize_append, String.utf8ByteSize_append,
        String.utf8ByteSize_append, Nat.add_right_comm front.utf8ByteSize]
      exact offsets

/-- The blanks behind the ampersand move the fault by the four bytes that they take. -/
theorem parse_insertBlanks_behindAmpersand :
    let front := "Größe<? extends é<a.b>&"
    let blanks := "\u3000\t"
    let back := "T.>"
    Apart front.toList back.toList ∧ Blank blanks.toList ∧
      parse (front ++ back) = .error ⟨front ++ back, 28, .expectedIdentifier⟩ ∧
      (parse (front ++ blanks ++ back)).mapError Malformed.fault = .error .expectedIdentifier ∧
      ∀ later, parse (front ++ blanks ++ back) = .error later → later.offset = 32 := by
  intro front blanks back
  have apart : Apart front.toList back.toList := by
    have ampersand : front.toList.getLast? = some '&' := by decide +kernel
    have part : isIdentifierPart '&' = false := isIdentifierPart_of_mem_punctuation (by decide)
    intro last isLast first _
    obtain rfl : '&' = last := Option.some.inj (ampersand.symm.trans isLast)
    simp [part]
  have blank : Blank blanks.toList := by
    have all : blanks.toList.all isBlank = true := by decide +kernel
    exact List.all_eq_true.mp all
  have failed : parse (front ++ back) = .error ⟨front ++ back, 28, .expectedIdentifier⟩ := by
    decide +kernel
  have size : front.utf8ByteSize = 26 ∧ blanks.utf8ByteSize = 4 := by decide +kernel
  obtain ⟨same, moved⟩ := parse_insertBlanks apart blank
  refine ⟨apart, blank, failed, ?_, ?_⟩
  · rw [same, failed]
    rfl
  · intro later failedLater
    have offsets := moved _ later failed failedLater
    dsimp only at offsets
    omega

end TypeGraph.Signature
