import TypeGraph.Proofs.Signature.Reader
import TypeGraph.Proofs.Signature.Spelling

/-!
This file shows that the readers accept only texts of the language. A reader that succeeds on the
tokens of a text has read a front part of the text, which denotes the value it returns.
-/

namespace TypeGraph.Signature

open Text

/-! ### Readers shrink their input -/

/-- A reader shrinks its input when it reads at least one token on success. -/
def Shrinks {A : Type} (reader : Reader A) : Prop :=
  ∀ tokens value rest, reader tokens = .ok (value, rest) → rest.length < tokens.length

/-- A chain reads at least what its first item reads. -/
theorem readChain_shrinks {A : Type} {item : Reader A} (shrinks : Shrinks item) (separator : Char)
    (budget : Nat) : Shrinks (readChain item separator budget) := by
  intro tokens values rest read
  induction budget generalizing tokens values with
  | zero =>
      obtain ⟨⟨value, middle⟩, first, same⟩ := bind_eq_ok_iff.mp read
      cases same
      exact shrinks tokens value rest first
  | succ budget inductionHypothesis =>
      obtain ⟨value, middle, first, ⟨-, -, rfl⟩ | ⟨later, others, rfl, tail, -⟩⟩ :=
        readChain_succ_eq_ok_iff.mp read
      · exact shrinks tokens value rest first
      · have shorter := shrinks tokens value _ first
        have shortest := inductionHypothesis later others tail
        rw [List.length_cons] at shorter
        omega

/-- Dimensions may be empty, so they need not shrink the input. -/
theorem length_le_of_readRank {tokens rest : List Token} {rank : Nat}
    (read : readRank tokens = .ok (rank, rest)) : rest.length ≤ tokens.length := by
  induction rank generalizing tokens with
  | zero =>
      rcases readRank_eq_ok_iff.mp read with ⟨-, -, -, rfl⟩ | ⟨-, impossible⟩ |
        ⟨later, smaller, -, -, impossible⟩
      · exact Nat.le_refl _
      · omega
      · omega
  | succ rank inductionHypothesis =>
      rcases readRank_eq_ok_iff.mp read with ⟨-, -, impossible, -⟩ | ⟨rfl, -⟩ |
        ⟨later, smaller, rfl, tail, same⟩
      · omega
      · simp
      · have shorter := inductionHypothesis (Nat.succ.inj same ▸ tail)
        simp only [List.length_cons]
        omega

section Nested

variable {limit : Nat} {nested : Place → Reader Signature}

/-- Arguments end with the closing bracket that is read. -/
theorem readArguments_shrinks (shrinks : ∀ place, Shrinks (nested place)) :
    Shrinks (readArguments limit nested) := by
  intro tokens arguments rest read
  have chain := (readArguments_eq_ok_iff.mp read).2
  have shorter := readChain_shrinks (shrinks .beforeNext) ',' limit _ _ _ chain
  rw [List.length_cons] at shorter
  omega

theorem readSegment_shrinks (shrinks : ∀ place, Shrinks (nested place)) :
    Shrinks (readSegment limit nested) := by
  intro tokens segment rest read
  obtain ⟨first, letters, later, rfl, -, ⟨-, -, rfl⟩ | ⟨inner, arguments, rfl, applied, -⟩⟩ :=
    readSegment_eq_ok_iff.mp read
  · simp
  · have shorter := readArguments_shrinks shrinks _ _ _ applied
    simp only [List.length_cons]
    omega

/-- A named type reads at least one segment. -/
theorem readNamed_shrinks (shrinks : ∀ place, Shrinks (nested place)) :
    Shrinks (readNamed limit nested) := by
  intro tokens signature rest read
  obtain ⟨segments, middle, rank, name, dimensions, -⟩ := readNamed_eq_ok_iff.mp read
  have shorter := readChain_shrinks (readSegment_shrinks shrinks) '.' limit _ _ _ name
  have shortest := length_le_of_readRank dimensions
  omega

/-- Behind its mark a wildcard may be empty. -/
theorem length_le_of_readWildcard (shrinks : ∀ place, Shrinks (nested place))
    {tokens rest : List Token} {signature : Signature}
    (read : readWildcard limit nested tokens = .ok (signature, rest)) :
    rest.length ≤ tokens.length := by
  rcases readWildcard_eq_ok_iff.mp read with
    ⟨letters, later, bound, constraints, middle, rfl, -, chain, closed⟩ | ⟨-, closed⟩
  · have shorter := readChain_shrinks (shrinks .afterLast) '&' limit _ _ _ chain
    obtain ⟨-, -, -, rfl⟩ := closeWildcard_eq_ok_iff.mp closed
    rw [List.length_cons]
    omega
  · obtain ⟨-, -, -, rfl⟩ := closeWildcard_eq_ok_iff.mp closed
    exact Nat.le_refl _

end Nested

/-- Every type has a token of its own, the mark of a wildcard or a word. -/
theorem readType_shrinks (limit levels : Nat) (place : Place) :
    Shrinks (readType limit levels place) := by
  induction levels generalizing place with
  | zero =>
      intro tokens signature rest read
      cases read
  | succ levels inductionHypothesis =>
      intro tokens signature rest read
      rcases readType_eq_ok_iff.mp read with ⟨later, rfl, wild⟩ | ⟨-, name⟩
      · have shorter := length_le_of_readWildcard inductionHypothesis wild
        rw [List.length_cons]
        omega
      · exact readNamed_shrinks inductionHypothesis _ _ _ name

/-! ### Readers are sound -/

/-- A sound reader reads a front part that belongs to the language, from a text with no more tokens
than the limit, and it stops only where it may. -/
def Sound {A : Type} (limit : Nat) (reader : Reader A) (language : List Char → A → Prop)
    (stops : A → List Token → Prop) : Prop :=
  ∀ text value rest, (Token.ofChars text).length ≤ limit →
    reader (Token.ofChars text) = .ok (value, rest) →
      ∃ front back, text = front ++ back ∧ language front value ∧ Token.ofChars back = rest ∧
        stops value rest

/-- A terminal stands at the start of a text whose first token it spells. -/
theorem exists_terminal {text : List Char} {token : Token} {tokens : List Token}
    (same : Token.ofChars text = token :: tokens) :
    ∃ front back, text = front ++ back ∧ Terminal token.spelling front ∧
      Token.ofChars back = tokens ∧ token.Ends back := by
  obtain ⟨blanks, back, rfl, blank, ends, rest⟩ := Token.ofChars_eq_cons_iff.mp same
  exact ⟨blanks ++ token.spelling, back, by simp, ⟨blanks, blank, rfl⟩, rest, ends⟩

/-- A chain is sound when its items are, as long as the budget covers all tokens. -/
theorem readChain_sound {A : Type} {limit : Nat} {item : Reader A} {separator : Char}
    {language : List Char → A → Prop} {continues : A → Prop} (shrinks : Shrinks item)
    (sound : Sound limit item language fun value rest =>
      rest.head? = some (.symbol separator) → continues value) :
    Sound limit (readChain item separator limit) (Chain language separator continues)
      fun _ rest => notNext separator rest := by
  have within : ∀ budget ≤ limit, Sound budget (readChain item separator budget)
      (Chain language separator continues) fun _ rest => notNext separator rest := by
    intro budget covered text values rest short read
    induction budget generalizing text values with
    | zero =>
        have longer := readChain_shrinks shrinks separator 0 _ _ _ read
        omega
    | succ budget inductionHypothesis =>
        obtain ⟨value, middle, first, chain⟩ := readChain_succ_eq_ok_iff.mp read
        have shorter := shrinks _ _ _ first
        obtain ⟨front, back, rfl, holds, same, allowed⟩ := sound text value middle (by omega) first
        rcases chain with ⟨stop, rfl, rfl⟩ | ⟨later, others, rfl, tail, rfl⟩
        · exact ⟨front, back, rfl, .last holds, same, stop⟩
        · obtain ⟨mark, after, rfl, separated, rfl, -⟩ := exists_terminal same
          rw [List.length_cons] at shorter
          obtain ⟨middle, back, rfl, chain, rest, stop⟩ :=
            inductionHypothesis (by omega) after others (by omega) tail
          exact ⟨front ++ (mark ++ middle), back, by simp,
            .more holds (allowed rfl) separated chain, rest, stop⟩
  exact within limit (Nat.le_refl limit)

/-- Dimensions that are read are dimensions of the language. -/
theorem readRank_sound {text : List Char} {rest : List Token} {rank : Nat}
    (read : readRank (Token.ofChars text) = .ok (rank, rest)) :
    ∃ front back, text = front ++ back ∧ Dimensions front rank ∧ Token.ofChars back = rest := by
  induction rank generalizing text with
  | zero =>
      rcases readRank_eq_ok_iff.mp read with ⟨-, -, -, rfl⟩ | ⟨-, impossible⟩ |
        ⟨later, smaller, -, -, impossible⟩
      · exact ⟨[], text, rfl, .flat, rfl⟩
      · omega
      · omega
  | succ rank inductionHypothesis =>
      rcases readRank_eq_ok_iff.mp read with ⟨-, -, impossible, -⟩ | ⟨same, one⟩ |
        ⟨later, smaller, same, tail, more⟩
      · omega
      · obtain ⟨front, back, rfl, spelled, rest, -⟩ := exists_terminal same
        rw [one]
        exact ⟨front, back, rfl, .ellipsis spelled, rest⟩
      · obtain ⟨opening, middle, rfl, opens, same, -⟩ := exists_terminal same
        obtain ⟨closing, after, rfl, closes, rfl, -⟩ := exists_terminal same
        obtain ⟨front, back, rfl, dimensions, rest⟩ :=
          inductionHypothesis (Nat.succ.inj more ▸ tail)
        exact ⟨opening ++ (closing ++ front), back, by simp,
          .brackets opens closes dimensions, rest⟩

section Nested

variable {limit : Nat} {nested : Place → Reader Signature}
  {language : List Char → Signature → Prop}

/-- A type with bounds is never followed by an ampersand. -/
def stopsType (signature : Signature) (rest : List Token) : Prop :=
  rest.head? = some (.symbol '&') → signature.bound = .unbounded

/-- What a sound reader promises about the tokens behind its value can be weakened. -/
theorem Sound.weaken {A : Type} {reader : Reader A} {language : List Char → A → Prop}
    {stops later : A → List Token → Prop} (sound : Sound limit reader language stops)
    (implies : ∀ value rest, stops value rest → later value rest) :
    Sound limit reader language later := by
  intro text value rest short read
  obtain ⟨front, back, same, holds, tail, stop⟩ := sound text value rest short read
  exact ⟨front, back, same, holds, tail, implies value rest stop⟩

variable (shrinks : ∀ place, Shrinks (nested place))
  (sound : ∀ place, Sound limit (nested place) language stopsType)

include shrinks sound

/-- The reader of arguments starts behind the opening bracket. -/
theorem readArguments_sound {text : List Char} {arguments : List Signature} {rest : List Token}
    (short : (Token.ofChars text).length ≤ limit)
    (read : readArguments limit nested (Token.ofChars text) = .ok (arguments, rest)) :
    ∃ inner closing back, text = inner ++ (closing ++ back) ∧
      Chain language ',' (fun _ => True) inner arguments ∧ Terminal ['>'] closing ∧
      Token.ofChars back = rest := by
  have chain := (readArguments_eq_ok_iff.mp read).2
  have items : Sound limit (nested .beforeNext) language fun _ rest =>
      rest.head? = some (.symbol ',') → True := (sound _).weaken fun _ _ _ _ => trivial
  obtain ⟨inner, after, rfl, each, same, -⟩ :=
    readChain_sound (shrinks .beforeNext) items text arguments _ short chain
  obtain ⟨closing, back, rfl, closes, rest, -⟩ := exists_terminal same
  exact ⟨inner, closing, back, rfl, each, closes, rest⟩

/-- A segment that is read has the form of a segment. -/
theorem readSegment_sound :
    Sound limit (readSegment limit nested) (SegmentForm language) fun _ _ => True := by
  intro text segment rest short read
  obtain ⟨first, letters, later, same, starts, form⟩ := readSegment_eq_ok_iff.mp read
  rw [same, List.length_cons] at short
  obtain ⟨front, back, rfl, spelled, tail, ⟨-, parts⟩, -⟩ := exists_terminal same
  have identifier : IsIdentifier (first :: letters) :=
    ⟨first, letters, rfl, starts, fun letter listed => parts letter (List.mem_cons_of_mem _ listed)⟩
  rcases form with ⟨-, rfl, rfl⟩ | ⟨inner, arguments, rfl, applied, rfl⟩
  · exact ⟨front, back, rfl, .plain identifier spelled, tail, trivial⟩
  · obtain ⟨opening, middle, rfl, opens, rfl, -⟩ := exists_terminal tail
    rw [List.length_cons] at short
    obtain ⟨inner, closing, back, rfl, each, closes, rest⟩ :=
      readArguments_sound shrinks sound (by omega) applied
    exact ⟨front ++ (opening ++ (inner ++ closing)), back, by simp,
      .generic identifier spelled (.enclosed opens each closes), rest, trivial⟩

/-- A named type that is read has the form of a type, and an ampersand may follow it. -/
theorem readNamed_sound : Sound limit (readNamed limit nested) (TypeForm language) stopsType := by
  intro text signature rest short read
  obtain ⟨segments, middle, rank, name, dimensions, rfl⟩ := readNamed_eq_ok_iff.mp read
  have items : Sound limit (readSegment limit nested) (SegmentForm language) fun _ rest =>
      rest.head? = some (.symbol '.') → True :=
    (readSegment_sound shrinks sound).weaken fun _ _ _ _ => trivial
  obtain ⟨front, after, rfl, each, rfl, -⟩ :=
    readChain_sound (readSegment_shrinks shrinks) items text segments _ short name
  obtain ⟨between, back, rfl, brackets, rest⟩ := readRank_sound dimensions
  refine ⟨front ++ between, back, by simp, ?_, rest, fun _ => rfl⟩
  rw [Segment.joinArguments_eq_gather]
  exact .named each brackets

/-- A wildcard that is read has the form of a type together with the mark in front of it. -/
theorem readWildcard_sound {text mark : List Char} {signature : Signature} {rest : List Token}
    (spelled : Terminal ['?'] mark) (short : (Token.ofChars text).length ≤ limit)
    (read : readWildcard limit nested (Token.ofChars text) = .ok (signature, rest)) :
    ∃ front back, text = front ++ back ∧ TypeForm language (mark ++ front) signature ∧
      Token.ofChars back = rest ∧ stopsType signature rest := by
  rcases readWildcard_eq_ok_iff.mp read with
    ⟨letters, later, bound, constraints, middle, same, keyword, chain, closed⟩ | ⟨-, closed⟩
  · rw [same, List.length_cons] at short
    obtain ⟨keywordText, after, rfl, spelledWord, rfl, -, ends⟩ := exists_terminal same
    obtain ⟨front, back, rfl, each, tail, stop⟩ := readChain_sound (shrinks .afterLast)
      (sound .afterLast) after constraints middle (by omega) chain
    obtain ⟨-, -, rfl, rfl⟩ := closeWildcard_eq_ok_iff.mp closed
    refine ⟨keywordText ++ front, back, by simp, ?_, tail, fun head => absurd head stop⟩
    have introduces := BoundKind.ofKeyword?_eq_some_iff.mp keyword
    have separate : startsWord front = false := startsWord_of_append ends
    have written : Terminal (String.ofList letters).toList keywordText := by
      rwa [String.toList_ofList]
    exact .bounded spelled introduces written separate each
  · obtain ⟨-, -, rfl, rfl⟩ := closeWildcard_eq_ok_iff.mp closed
    refine ⟨[], text, rfl, ?_, rfl, fun _ => rfl⟩
    rw [List.append_nil]
    exact .unbounded spelled

end Nested

/-- Every reading of a type derives from the grammar with the same number of levels. -/
theorem readType_sound (limit levels : Nat) (place : Place) :
    Sound limit (readType limit levels place) (Derives levels) stopsType := by
  induction levels generalizing place with
  | zero =>
      intro text signature rest short read
      cases read
  | succ levels inductionHypothesis =>
      intro text signature rest short read
      have shrinks := readType_shrinks limit levels
      rcases readType_eq_ok_iff.mp read with ⟨later, same, wild⟩ | ⟨-, name⟩
      · rw [same, List.length_cons] at short
        obtain ⟨mark, after, rfl, spelled, rfl, -⟩ := exists_terminal same
        obtain ⟨front, back, rfl, form, tail, stop⟩ :=
          readWildcard_sound shrinks inductionHypothesis spelled (by omega) wild
        exact ⟨mark ++ front, back, by simp, form, tail, stop⟩
      · exact readNamed_sound shrinks inductionHypothesis text signature rest short name

end TypeGraph.Signature
