import TypeGraph.Proofs.Signature.Lookahead
import TypeGraph.Proofs.Signature.Offset
import TypeGraph.Proofs.Signature.Parser

/-!
This file shows that the parser is stuck behind a viable prefix. What stands in front of the offset
of a fault can be completed to the text of a signature if types may nest deeper.
-/

namespace TypeGraph.Signature

open Text

/-! ### Larger languages -/

/-- A chain of a language is one of every larger language. -/
theorem Chain.mono {A : Type} {item larger : List Char → A → Prop} {separator : Char}
    {continues : A → Prop} {text : List Char} {values : List A}
    (implies : ∀ text value, item text value → larger text value)
    (chain : Chain item separator continues text values) :
    Chain larger separator continues text values := by
  induction chain with
  | last holds => exact .last (implies _ _ holds)
  | more holds continued separated later inductionHypothesis =>
      exact .more (implies _ _ holds) continued separated inductionHypothesis

section Mono

variable {language larger : List Char → Signature → Prop}
  (implies : ∀ text signature, language text signature → larger text signature)

include implies

/-- A segment of a language is one of every larger language. -/
theorem SegmentForm.mono {text : List Char} {segment : Segment}
    (form : SegmentForm language text segment) : SegmentForm larger text segment := by
  cases form with
  | plain identifier spelled => exact .plain identifier spelled
  | generic identifier spelled applied =>
      obtain ⟨opens, each, closes⟩ := applied
      exact .generic identifier spelled (.enclosed opens (each.mono implies) closes)

/-- A type of a language is one of every larger language. -/
theorem TypeForm.mono {text : List Char} {signature : Signature}
    (form : TypeForm language text signature) : TypeForm larger text signature := by
  cases form with
  | named name dimensions => exact .named (name.mono fun _ _ => SegmentForm.mono implies) dimensions
  | unbounded spelled => exact .unbounded spelled
  | bounded spelled introduces written ends each =>
      exact .bounded spelled introduces written ends (each.mono implies)

end Mono

/-- What derives within some levels derives within one level more. -/
theorem Derives.succ {levels : Nat} {text : List Char} {signature : Signature}
    (derives : Derives levels text signature) : Derives (levels + 1) text signature := by
  induction levels generalizing text signature with
  | zero => cases derives
  | succ levels inductionHypothesis =>
      exact TypeForm.mono (fun _ _ inner => inductionHypothesis inner) derives

/-- A sound reader is sound for every larger language. -/
theorem Sound.mono {A : Type} {limit : Nat} {reader : Reader A}
    {language larger : List Char → A → Prop} {stops : A → List Token → Prop}
    (sound : Sound limit reader language stops)
    (implies : ∀ text value, language text value → larger text value) :
    Sound limit reader larger stops := by
  intro text value rest short read
  obtain ⟨front, back, same, holds, tail, stop⟩ := sound text value rest short read
  exact ⟨front, back, same, implies front value holds, tail, stop⟩

/-! ### Viable texts -/

/-- A text is viable when it can be completed to a text of the language behind any blanks. Blanks at
the end are left to what follows. -/
def Viable {A : Type} (language : List Char → A → Prop) (front : List Char) : Prop :=
  ∀ blanks, Blank blanks → ∃ rest body after value, startsWord rest = false ∧
    front ++ (blanks ++ rest) = body ++ after ∧ Blank after ∧ language body value

theorem Blank.startsWord_eq_false {blanks : List Char} (blank : Blank blanks) :
    startsWord blanks = false := by
  cases blanks with
  | nil => rfl
  | cons first others => exact isIdentifierPart_of_isBlank (blank first List.mem_cons_self)

section Viable

variable {A B : Type} {language : List Char → A → Prop} {larger : List Char → B → Prop}
  {front : List Char}

/-- A front is viable when one ending completes it behind any blanks. -/
theorem viable_of_completion (rest : List Char) (ends : startsWord rest = false)
    (completes : ∀ blanks, Blank blanks → ∃ value, language (front ++ (blanks ++ rest)) value) :
    Viable language front := by
  intro blanks blank
  obtain ⟨value, holds⟩ := completes blanks blank
  exact ⟨rest, _, [], value, ends, (List.append_nil _).symm, blank_nil, holds⟩

/-- A text of the language is viable as it is. -/
theorem viable_of_holds {value : A} (holds : language front value) : Viable language front := by
  intro blanks blank
  exact ⟨[], front, blanks, value, rfl, by simp, blank, holds⟩

/-- A viable text may stand behind another one if its completions may. -/
theorem Viable.prepend {first : List Char} (viable : Viable language front)
    (extend : ∀ body value, (startsWord front = false → startsWord body = false) →
      language body value → ∃ other, larger (first ++ body) other) :
    Viable larger (first ++ front) := by
  intro blanks blank
  obtain ⟨rest, body, after, value, ends, same, trailing, holds⟩ := viable blanks blank
  have separate : startsWord front = false → startsWord body = false := by
    intro frontEnds
    have whole := startsWord_append frontEnds (startsWord_append blank.startsWord_eq_false ends)
    rw [same] at whole
    exact startsWord_of_append whole
  obtain ⟨other, extended⟩ := extend body value separate holds
  exact ⟨rest, first ++ body, after, other, ends, by simp [same], trailing, extended⟩

/-- What is viable in a language is viable in every larger one. -/
theorem Viable.mono (viable : Viable language front)
    (extend : ∀ body value, language body value → ∃ other, larger body other) :
    Viable larger front := by
  rw [← List.nil_append front]
  exact viable.prepend fun body value _ => extend body value

end Viable

/-! ### Completions -/

/-- A name is expected in many places, and this one is apart from every word in front of it. -/
def filler : List Char := [' ', 'a']

/-- The filler spells an identifier behind any blanks. -/
theorem terminal_filler {blanks : List Char} (blank : Blank blanks) :
    Terminal ['a'] (blanks ++ filler) :=
  ⟨blanks ++ [' '], List.forall_mem_append.mpr ⟨blank, blank_space⟩, by simp [filler]⟩

theorem startsWord_filler : startsWord filler = false := by
  decide +kernel

/-- The filler is a segment. -/
theorem SegmentForm.exists_of_terminal {language : List Char → Signature → Prop} {text : List Char}
    (spelled : Terminal ['a'] text) : ∃ segment, SegmentForm language text segment :=
  ⟨_, .plain ⟨'a', [], rfl, by decide +kernel, by simp⟩ spelled⟩

/-- The filler is a type. -/
theorem TypeForm.exists_of_terminal {language : List Char → Signature → Prop} {text : List Char}
    (spelled : Terminal ['a'] text) : ∃ signature, TypeForm language text signature := by
  obtain ⟨segment, form⟩ : ∃ segment, SegmentForm language text segment :=
    SegmentForm.exists_of_terminal spelled
  rw [← List.append_nil text]
  exact ⟨_, .named (.last form) .flat⟩

/-- The empty text is viable where the filler may stand. -/
theorem viable_nil {A : Type} {language : List Char → A → Prop}
    (names : ∀ text, Terminal ['a'] text → ∃ value, language text value) : Viable language [] :=
  viable_of_completion filler startsWord_filler fun _ blank => names _ (terminal_filler blank)

/-- A reader fails viably when it is stuck behind a viable text. -/
def FailsViably {A : Type} (limit : Nat) (reader : Reader A) (language : List Char → A → Prop) :
    Prop :=
  ∀ text stuck, (Token.ofChars text).length ≤ limit →
    reader (Token.ofChars text) = .error stuck →
      ∃ front back, text = front ++ back ∧ Token.ofChars back = stuck.rest ∧ Viable language front

/-- A chain fails viably when its items do. -/
theorem readChain_failsViably {A : Type} {limit : Nat} {item : Reader A} {separator : Char}
    {language : List Char → A → Prop} {continues : A → Prop} (shrinks : Shrinks item)
    (sound : Sound limit item language fun value rest =>
      rest.head? = some (.symbol separator) → continues value)
    (fails : FailsViably limit item language) (budget : Nat) :
    FailsViably limit (readChain item separator budget)
      (Chain language separator continues) := by
  induction budget with
  | zero =>
      intro text stuck short failed
      rcases readChain_stuck failed with first | ⟨_, _, _, impossible, -⟩
      · obtain ⟨front, back, rfl, rest, viable⟩ := fails text stuck short first
        exact ⟨front, back, rfl, rest, viable.mono fun _ value holds => ⟨[value], .last holds⟩⟩
      · cases impossible
  | succ budget inductionHypothesis =>
      intro text stuck short failed
      rcases readChain_stuck failed with first | ⟨smaller, value, later, same, read, tail⟩
      · obtain ⟨front, back, rfl, rest, viable⟩ := fails text stuck short first
        exact ⟨front, back, rfl, rest, viable.mono fun _ value holds => ⟨[value], .last holds⟩⟩
      · obtain rfl := Nat.succ.inj same
        have shorter := shrinks _ _ _ read
        obtain ⟨front, after, rfl, holds, same, allowed⟩ := sound text value _ short read
        obtain ⟨mark, others, rfl, separated, rfl, -⟩ := exists_terminal same
        rw [List.length_cons] at shorter
        obtain ⟨middle, back, rfl, rest, viable⟩ :=
          inductionHypothesis others stuck (by omega) tail
        refine ⟨(front ++ mark) ++ middle, back, by simp, rest, viable.prepend ?_⟩
        intro body values _ chain
        rw [List.append_assoc]
        exact ⟨value :: values, .more holds (allowed rfl) separated chain⟩

/-- Dimensions are stuck behind an opening bracket. -/
theorem readRank_failsViably (limit : Nat) : FailsViably limit readRank Dimensions := by
  intro text stuck short failed
  generalize same : Token.ofChars text = tokens at failed
  clear short
  fun_induction readRank tokens generalizing text with
  | case1 rest inductionHypothesis =>
      rcases bind_eq_error_iff.mp failed with later | ⟨_, _, impossible⟩
      · obtain ⟨opening, after, rfl, opens, same, -⟩ := exists_terminal same
        obtain ⟨closing, others, rfl, closes, same, -⟩ := exists_terminal same
        obtain ⟨front, back, rfl, rest, viable⟩ := inductionHypothesis others same later
        refine ⟨(opening ++ closing) ++ front, back, by simp, rest, viable.prepend ?_⟩
        intro body rank _ dimensions
        rw [List.append_assoc]
        exact ⟨rank + 1, .brackets opens closes dimensions⟩
      · cases impossible
  | case2 rest =>
      cases failed
      obtain ⟨opening, back, rfl, opens, rest, -⟩ := exists_terminal same
      refine ⟨opening, back, rfl, rest, viable_of_completion [']'] (by decide +kernel) ?_⟩
      intro blanks blank
      rw [← List.append_nil (blanks ++ [']'])]
      exact ⟨1, .brackets opens ⟨blanks, blank, rfl⟩ .flat⟩
  | case3 rest => cases failed
  | case4 rest => cases failed

section Nested

variable {limit : Nat} {nested : Place → Reader Signature}
  {language : List Char → Signature → Prop}

/-- The rest of an argument list behind its opening bracket. -/
def Enclosed (language : List Char → Signature → Prop) (text : List Char)
    (arguments : List Signature) : Prop :=
  ∃ inner closing, text = inner ++ closing ∧ Chain language ',' (fun _ => True) inner arguments ∧
    Terminal ['>'] closing

/-- Arguments that can be completed can be closed. -/
theorem Viable.enclosed {front : List Char}
    (viable : Viable (Chain language ',' fun _ => True) front) :
    Viable (Enclosed language) front := by
  intro blanks blank
  obtain ⟨rest, body, after, arguments, ends, same, trailing, each⟩ := viable blanks blank
  refine ⟨rest ++ ['>'], body ++ (after ++ ['>']), [], arguments,
    startsWord_append ends (by decide +kernel), ?_, blank_nil,
    body, after ++ ['>'], rfl, each, after, trailing, rfl⟩
  rw [List.append_nil, ← List.append_assoc blanks, ← List.append_assoc front, same,
    List.append_assoc]

variable (shrinks : ∀ place, Shrinks (nested place))
  (sound : ∀ place, Sound limit (nested place) language stopsType)
  (fails : ∀ place, FailsViably limit (nested place) language)

include shrinks sound fails

/-- A wildcard gets stuck within its bounds or at a suffix, in front of which it is complete. -/
theorem readWildcard_failsViably {mark : List Char} (spelled : Terminal ['?'] mark) :
    FailsViably limit (readWildcard limit nested) fun text => TypeForm language (mark ++ text) := by
  intro text stuck short failed
  rcases readWildcard_stuck failed with start | ⟨letters, later, bound, same, keyword, bounds⟩
  · have form : TypeForm language (mark ++ []) ⟨"?", none, 0, .unbounded, []⟩ := by
      rw [List.append_nil]
      exact .unbounded spelled
    exact ⟨[], text, rfl, start.symm, viable_of_holds form⟩
  · rw [same, List.length_cons] at short
    obtain ⟨keywordText, after, rfl, spelledWord, rfl, -, ends⟩ := exists_terminal same
    have introduces := BoundKind.ofKeyword?_eq_some_iff.mp keyword
    have written : Terminal (String.ofList letters).toList keywordText := by
      rwa [String.toList_ofList]
    rcases bounds with inside | ⟨constraints, read⟩
    · obtain ⟨front, back, rfl, rest, viable⟩ := readChain_failsViably (shrinks .afterLast)
        (sound .afterLast) (fails .afterLast) limit after stuck (by omega) inside
      refine ⟨keywordText ++ front, back, by simp, rest, viable.prepend ?_⟩
      intro body constraints separate each
      have frontEnds : startsWord front = false := startsWord_of_append ends
      exact ⟨_, .bounded spelled introduces written (separate frontEnds) each⟩
    · obtain ⟨front, back, rfl, each, rest, -⟩ := readChain_sound (shrinks .afterLast)
        (sound .afterLast) after constraints _ (by omega) read
      have form : TypeForm language (mark ++ (keywordText ++ front))
          ⟨"?", none, 0, bound, constraints⟩ :=
        .bounded spelled introduces written (startsWord_of_append ends) each
      exact ⟨keywordText ++ front, back, by simp, rest, viable_of_holds form⟩

variable (names : ∀ text, Terminal ['a'] text → ∃ signature, language text signature)

include names

/-- Arguments get stuck where one more argument or a closing bracket would do. -/
theorem readArguments_failsViably :
    FailsViably limit (readArguments limit nested) (Enclosed language) := by
  have items : Sound limit (nested .beforeNext) language fun _ rest =>
      rest.head? = some (.symbol ',') → True := (sound _).weaken fun _ _ _ _ => trivial
  intro text stuck short failed
  rcases readArguments_stuck failed with start | inside | ⟨arguments, read⟩
  · refine ⟨[], text, rfl, start.symm, Viable.enclosed (viable_nil ?_)⟩
    intro name spelled
    obtain ⟨signature, holds⟩ := names name spelled
    exact ⟨[signature], .last holds⟩
  · obtain ⟨front, back, rfl, rest, viable⟩ :=
      readChain_failsViably (shrinks _) items (fails _) limit text stuck short inside
    exact ⟨front, back, rfl, rest, viable.enclosed⟩
  · obtain ⟨inner, back, rfl, each, rest, -⟩ :=
      readChain_sound (shrinks .beforeNext) items text arguments _ short read
    exact ⟨inner, back, rfl, rest, (viable_of_holds each).enclosed⟩

/-- A segment gets stuck where an identifier would do or within its arguments. -/
theorem readSegment_failsViably :
    FailsViably limit (readSegment limit nested) (SegmentForm language) := by
  intro text stuck short failed
  rcases readSegment_stuck failed with start | ⟨first, letters, inner, same, starts, applied⟩
  · exact ⟨[], text, rfl, start.symm, viable_nil fun _ => SegmentForm.exists_of_terminal⟩
  · rw [same, List.length_cons, List.length_cons] at short
    obtain ⟨word, after, rfl, spelled, same, ⟨-, parts⟩, -⟩ := exists_terminal same
    obtain ⟨opening, others, rfl, opens, rfl, -⟩ := exists_terminal same
    have identifier : IsIdentifier (first :: letters) :=
      ⟨first, letters, rfl, starts, fun letter listed => parts letter (List.mem_cons_of_mem _ listed)⟩
    obtain ⟨front, back, rfl, rest, viable⟩ :=
      readArguments_failsViably shrinks sound fails names others stuck (by omega) applied
    refine ⟨(word ++ opening) ++ front, back, by simp, rest, viable.prepend ?_⟩
    intro body arguments _ enclosed
    obtain ⟨between, closing, rfl, each, closes⟩ := enclosed
    rw [List.append_assoc]
    exact ⟨_, .generic identifier spelled (.enclosed opens each closes)⟩

/-- A named type gets stuck within a segment or at a bracket that is not closed. -/
theorem readNamed_failsViably :
    FailsViably limit (readNamed limit nested) (TypeForm language) := by
  have items : Sound limit (readSegment limit nested) (SegmentForm language) fun _ rest =>
      rest.head? = some (.symbol '.') → True :=
    (readSegment_sound shrinks sound).weaken fun _ _ _ _ => trivial
  intro text stuck short failed
  rcases readNamed_stuck failed with name | ⟨segments, middle, read, dimensions⟩
  · obtain ⟨front, back, rfl, rest, viable⟩ := readChain_failsViably (readSegment_shrinks shrinks)
      items (readSegment_failsViably shrinks sound fails names) limit text stuck short name
    refine ⟨front, back, rfl, rest, viable.mono ?_⟩
    intro body segments chain
    rw [← List.append_nil body]
    exact ⟨_, .named chain .flat⟩
  · obtain ⟨front, after, rfl, each, rfl, -⟩ :=
      readChain_sound (readSegment_shrinks shrinks) items text segments _ short read
    obtain ⟨between, back, rfl, rest, viable⟩ :=
      readRank_failsViably _ after stuck (Nat.le_refl _) dimensions
    refine ⟨front ++ between, back, by simp, rest, viable.prepend ?_⟩
    intro body rank _ dimensions
    exact ⟨_, .named each dimensions⟩

end Nested

/-- A type is stuck behind a text that is viable with one level more. -/
theorem readType_failsViably (limit levels : Nat) (place : Place) :
    FailsViably limit (readType limit levels place) (Derives (levels + 1)) := by
  have names (levels : Nat) : ∀ text, Terminal ['a'] text →
      ∃ signature, Derives (levels + 1) text signature :=
    fun _ => TypeForm.exists_of_terminal
  induction levels generalizing place with
  | zero =>
      intro text stuck short failed
      cases failed
      exact ⟨[], text, rfl, rfl, viable_nil (names 0)⟩
  | succ levels inductionHypothesis =>
      have shrinks := readType_shrinks limit levels
      have sound : ∀ place, Sound limit (readType limit levels place) (Derives (levels + 1))
          stopsType := fun place => (readType_sound limit levels place).mono fun _ _ => Derives.succ
      intro text stuck short failed
      rcases readType_stuck failed with start | ⟨later, same, wild⟩ | name
      · exact ⟨[], text, rfl, start.symm, viable_nil (names (levels + 1))⟩
      · rw [same, List.length_cons] at short
        obtain ⟨mark, after, rfl, spelled, rfl, -⟩ := exists_terminal same
        obtain ⟨front, back, rfl, rest, viable⟩ := readWildcard_failsViably shrinks sound
          inductionHypothesis spelled after stuck (by omega) wild
        refine ⟨mark ++ front, back, by simp, rest, viable.prepend ?_⟩
        exact fun _ signature _ form => ⟨signature, form⟩
      · exact readNamed_failsViably shrinks sound inductionHypothesis (names levels) text stuck
          short name

/-- A whole text is stuck behind a text that is viable with one level more. -/
theorem readWhole_failsViably {text : List Char} {stuck : Stuck}
    (failed : readWhole (Token.ofChars text) = .error stuck) :
    ∃ front back, text = front ++ back ∧ Token.ofChars back = stuck.rest ∧
      Viable (Derives (maximalNesting + 1)) front := by
  rcases readWhole_stuck failed with inside | ⟨signature, read⟩
  · exact readType_failsViably _ maximalNesting .beforeNext text stuck (Nat.le_refl _) inside
  · obtain ⟨front, back, rfl, derives, rest, -⟩ :=
      readType_sound _ maximalNesting .beforeNext text signature _ (Nat.le_refl _) read
    exact ⟨front, back, rfl, rest, viable_of_holds derives.succ⟩

/-- Where a text is divided before the same tokens, the divisions differ by blanks. -/
theorem exists_blanks_of_append_eq {first second front back : List Char}
    (same : first ++ second = front ++ back) (tokens : Token.ofChars second = Token.ofChars back) :
    ∃ blanks rest, Blank blanks ∧ first ++ rest = front ++ blanks := by
  rcases List.append_eq_append_iff.mp same with ⟨more, rfl, -⟩ | ⟨more, rfl, rfl⟩
  · exact ⟨[], more, blank_nil, (List.append_nil _).symm⟩
  · exact ⟨more, [], Token.blank_of_ofChars_append tokens.symm, List.append_nil _⟩

/-- A text that is rejected is reported with an offset that is the size of some text in front of it.
This front can be completed to the text of a signature, but not with the token found behind it: all
texts that have the same tokens up to this one are rejected for the same fault. -/
theorem parse_failsViably {text : String} {malformed : Malformed}
    (failed : parse text = .error malformed) :
    malformed.text = text ∧ ∃ front back : String, text = front ++ back ∧
      malformed.offset = front.utf8ByteSize ∧
      (∃ rest signature levels, Denotes levels (front ++ rest) signature) ∧
      ∀ (other : String) (later : List Token),
        Token.ofChars other.toList = Token.ofChars front.toList ++ later →
        later.head? = (Token.ofChars back.toList).head? →
          ∃ offset, parse other = .error ⟨other, offset, malformed.fault⟩ := by
  unfold parse at failed
  dsimp only at failed
  split at failed
  next => cases failed
  next stuck stops =>
    cases failed
    refine ⟨rfl, ?_⟩
    obtain ⟨first, second, divided, offset, read, left⟩ :=
      Stuck.exists_split (readWhole_forward stops)
    obtain ⟨front, back, same, unread, viable⟩ := readWhole_failsViably stops
    obtain ⟨blanks, more, blank, longer⟩ :=
      exists_blanks_of_append_eq (divided.symm.trans same) (left.trans unread.symm)
    obtain ⟨rest, body, after, signature, -, whole, trailing, derives⟩ := viable blanks blank
    refine ⟨String.ofList first, String.ofList second, ?_, ?_, ⟨String.ofList (more ++ rest),
      signature, maximalNesting + 1, body, after, ?_, trailing, derives⟩, ?_⟩
    · rw [← String.ofList_append, ← divided, String.ofList_toList]
    · rw [String.utf8ByteSize_ofList, ← offset, String.utf8Len_toList]
    · rw [String.toList_append, String.toList_ofList, String.toList_ofList, ← List.append_assoc,
        longer, List.append_assoc, whole]
    · intro other later tokens next
      rw [String.toList_ofList] at tokens next
      rw [← Token.ofChars, read] at stops
      have rejected := readWhole_parallel (next.trans (congrArg List.head? left)).symm stops
      rw [← tokens] at rejected
      exact ⟨_, by rw [parse, ← Token.ofChars, rejected]⟩

/-- The fault lies behind the wide blank, where one more argument would do. -/
theorem parse_failsViably_accented :
    let text := "Größe<é,\u3000>"
    parse text = .error ⟨text, 14, .expectedIdentifier⟩ ∧
      ∃ front back : String, text = front ++ back ∧ front.utf8ByteSize = 14 ∧
        (∃ rest signature levels, Denotes levels (front ++ rest) signature) ∧
        ∀ (other : String) (later : List Token),
          Token.ofChars other.toList = Token.ofChars front.toList ++ later →
          later.head? = (Token.ofChars back.toList).head? →
            ∃ offset, parse other = .error ⟨other, offset, .expectedIdentifier⟩ := by
  intro text
  have failed : parse text = .error ⟨text, 14, .expectedIdentifier⟩ := by decide +kernel
  obtain ⟨-, front, back, divided, offset, completed, rejected⟩ := parse_failsViably failed
  exact ⟨failed, front, back, divided, offset.symm, completed, rejected⟩

end TypeGraph.Signature
