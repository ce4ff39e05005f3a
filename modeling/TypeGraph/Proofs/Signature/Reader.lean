import TypeGraph.Signature.Reader

/-!
This file inverts the readers. One equivalence for each reader says which tokens it reads, which
readers it calls on which tokens and what it returns when it succeeds.
-/

namespace TypeGraph.Signature

open Text

theorem bind_eq_ok_iff {E A B : Type} {first : Except E A} {next : A → Except E B} {result : B} :
    (first >>= next) = .ok result ↔ ∃ value, first = .ok value ∧ next value = .ok result := by
  cases first with
  | error fault => simp [bind, Except.bind]
  | ok value => simp [bind, Except.bind]

/-- The given symbol is not the next token. -/
def notNext (character : Char) (tokens : List Token) : Prop :=
  tokens.head? ≠ some (.symbol character)

theorem head?_ne_some {token : Token} {tokens : List Token}
    (other : ∀ later, tokens = token :: later → False) : tokens.head? ≠ some token := by
  intro head
  obtain ⟨later, same⟩ := List.head?_eq_some_iff.mp head
  exact other later same

/-- A chain ends behind its first item or goes on behind a separator. -/
theorem readChain_succ_eq_ok_iff {A : Type} {item : Reader A} {separator : Char} {budget : Nat}
    {tokens rest : List Token} {values : List A} :
    readChain item separator (budget + 1) tokens = .ok (values, rest) ↔
      ∃ value middle, item tokens = .ok (value, middle) ∧
        ((notNext separator middle ∧ values = [value] ∧ rest = middle) ∨
          ∃ later others, middle = .symbol separator :: later ∧
            readChain item separator budget later = .ok (others, rest) ∧
            values = value :: others) := by
  rw [readChain, bind_eq_ok_iff]
  constructor
  · intro parts
    obtain ⟨⟨value, middle⟩, first, next⟩ := parts
    refine ⟨value, middle, first, ?_⟩
    dsimp only at next
    split at next
    next character later =>
      split at next
      next same =>
        subst same
        obtain ⟨⟨others, final⟩, tail, same⟩ := bind_eq_ok_iff.mp next
        cases same
        exact .inr ⟨later, others, rfl, tail, rfl⟩
      next different =>
        cases next
        exact .inl ⟨by simp [notNext, different], rfl, rfl⟩
    next other =>
      cases next
      exact .inl ⟨head?_ne_some (other separator), rfl, rfl⟩
  · intro parts
    obtain ⟨value, middle, first, ⟨stop, rfl, rfl⟩ | ⟨later, others, rfl, tail, rfl⟩⟩ :=
      parts
    · refine ⟨(value, rest), first, ?_⟩
      dsimp only
      split
      next character later =>
        rw [if_neg]
        · rfl
        · intro same
          subst same
          exact stop rfl
      next => rfl
    · refine ⟨(value, .symbol separator :: later), first, ?_⟩
      simp only [if_true]
      exact bind_eq_ok_iff.mpr ⟨(others, rest), tail, rfl⟩

/-- A chain starts with an item. -/
theorem exists_item_of_readChain {A : Type} {item : Reader A} {separator : Char} {budget : Nat}
    {tokens rest : List Token} {values : List A}
    (read : readChain item separator budget tokens = .ok (values, rest)) :
    ∃ value middle, item tokens = .ok (value, middle) := by
  cases budget with
  | zero =>
      obtain ⟨⟨value, middle⟩, first, -⟩ := bind_eq_ok_iff.mp read
      exact ⟨value, middle, first⟩
  | succ budget =>
      obtain ⟨value, middle, first, -⟩ := readChain_succ_eq_ok_iff.mp read
      exact ⟨value, middle, first⟩

/-- The rank reader stops, ends with an ellipsis or reads a pair of brackets and goes on. -/
theorem readRank_eq_ok_iff {tokens rest : List Token} {rank : Nat} :
    readRank tokens = .ok (rank, rest) ↔
      (notNext '[' tokens ∧ tokens.head? ≠ some .ellipsis ∧ rank = 0 ∧ rest = tokens) ∨
      (tokens = .ellipsis :: rest ∧ rank = 1) ∨
      ∃ later smaller, tokens = .symbol '[' :: .symbol ']' :: later ∧
        readRank later = .ok (smaller, rest) ∧ rank = smaller + 1 := by
  constructor
  · intro read
    rw [readRank.eq_def] at read
    split at read
    next later =>
      obtain ⟨⟨smaller, final⟩, tail, same⟩ := bind_eq_ok_iff.mp read
      cases same
      exact .inr (.inr ⟨later, smaller, rfl, tail, rfl⟩)
    next => cases read
    next later =>
      cases read
      exact .inr (.inl ⟨rfl, rfl⟩)
    next later noBrackets noBracket noEllipsis =>
      cases read
      exact .inl ⟨head?_ne_some noBracket, head?_ne_some noEllipsis, rfl, rfl⟩
  · intro parts
    rcases parts with ⟨noBracket, noEllipsis, rfl, rfl⟩ | ⟨rfl, rfl⟩ |
      ⟨later, smaller, rfl, tail, rfl⟩
    · rw [readRank.eq_def]
      split
      next => exact absurd rfl noBracket
      next => exact absurd rfl noBracket
      next => exact absurd rfl noEllipsis
      next => rfl
    · rfl
    · rw [readRank]
      exact bind_eq_ok_iff.mpr ⟨(smaller, rest), tail, rfl⟩

section Nested

variable {limit : Nat} {nested : Place → Reader Signature} {tokens rest : List Token}

/-- Arguments are a chain that is not empty, with the closing bracket behind it. -/
theorem readArguments_eq_ok_iff {arguments : List Signature} :
    readArguments limit nested tokens = .ok (arguments, rest) ↔
      notNext '>' tokens ∧
        readChain (nested .beforeNext) ',' limit tokens =
          .ok (arguments, .symbol '>' :: rest) := by
  unfold readArguments
  split
  next later => simp [notNext]
  next notClosed =>
    have unclosed : notNext '>' tokens := head?_ne_some notClosed
    rw [bind_eq_ok_iff, and_iff_right unclosed]
    constructor
    · intro parts
      obtain ⟨⟨values, middle⟩, read, next⟩ := parts
      dsimp only at next
      split at next
      next final =>
        cases next
        exact read
      next => cases next
    · intro read
      exact ⟨(arguments, .symbol '>' :: rest), read, rfl⟩

/-- A segment is a word that starts an identifier, with the arguments attached to it. -/
theorem readSegment_eq_ok_iff {segment : Segment} :
    readSegment limit nested tokens = .ok (segment, rest) ↔
      ∃ first letters later, tokens = .word (first :: letters) :: later ∧
        isIdentifierStart first = true ∧
        ((notNext '<' later ∧ segment = ⟨first :: letters, none⟩ ∧ rest = later) ∨
          ∃ inner arguments, later = .symbol '<' :: inner ∧
            readArguments limit nested inner = .ok (arguments, rest) ∧
            segment = ⟨first :: letters, some arguments⟩) := by
  constructor
  · intro read
    unfold readSegment at read
    split at read
    next first letters later =>
      split at read
      next starts =>
        refine ⟨first, letters, later, rfl, starts, ?_⟩
        split at read
        next inner =>
          obtain ⟨⟨arguments, final⟩, applied, same⟩ := bind_eq_ok_iff.mp read
          cases same
          exact .inr ⟨inner, arguments, rfl, applied, rfl⟩
        next plain =>
          cases read
          exact .inl ⟨head?_ne_some plain, rfl, rfl⟩
      next => cases read
    next => cases read
  · intro parts
    obtain ⟨first, letters, later, rfl, starts, ⟨plain, rfl, rfl⟩ |
      ⟨inner, arguments, rfl, applied, rfl⟩⟩ := parts
    · unfold readSegment
      simp only [starts, if_true]
      split
      next => exact absurd rfl plain
      next => rfl
    · rw [readSegment, if_pos starts]
      exact bind_eq_ok_iff.mpr ⟨(arguments, rest), applied, rfl⟩

/-- A named type is a chain of segments with its dimensions behind it. -/
theorem readNamed_eq_ok_iff {signature : Signature} :
    readNamed limit nested tokens = .ok (signature, rest) ↔
      ∃ segments middle rank,
        readChain (readSegment limit nested) '.' limit tokens = .ok (segments, middle) ∧
        readRank middle = .ok (rank, rest) ∧
        signature = named (Segment.joinNames segments) (Segment.joinArguments segments) rank := by
  unfold readNamed
  simp only [bind_eq_ok_iff]
  constructor
  · intro parts
    obtain ⟨⟨segments, middle⟩, name, ⟨rank, final⟩, dimensions, same⟩ := parts
    cases same
    exact ⟨segments, middle, rank, name, dimensions, rfl⟩
  · intro parts
    obtain ⟨segments, middle, rank, name, dimensions, rfl⟩ := parts
    exact ⟨(segments, middle), name, (rank, rest), dimensions, rfl⟩

theorem closeWildcard_eq_ok_iff {bound : BoundKind} {constraints : List Signature}
    {signature : Signature} :
    closeWildcard bound constraints tokens = .ok (signature, rest) ↔
      notNext '[' tokens ∧ tokens.head? ≠ some .ellipsis ∧
        signature = wildcard bound constraints ∧ rest = tokens := by
  unfold closeWildcard
  split
  next => simp [notNext]
  next => simp
  next noBracket noEllipsis =>
    have unbracketed : notNext '[' tokens := head?_ne_some noBracket
    rw [and_iff_right unbracketed, and_iff_right (head?_ne_some noEllipsis)]
    simp [eq_comm]

/-- A wildcard has bounds exactly when a keyword comes next. -/
theorem readWildcard_eq_ok_iff {signature : Signature} :
    readWildcard limit nested tokens = .ok (signature, rest) ↔
      (∃ letters later bound constraints middle, tokens = .word letters :: later ∧
        BoundKind.ofKeyword? (String.ofList letters) = some bound ∧
        readChain (nested .afterLast) '&' limit later = .ok (constraints, middle) ∧
        closeWildcard bound constraints middle = .ok (signature, rest)) ∨
      ((∀ letters later, tokens = .word letters :: later →
          BoundKind.ofKeyword? (String.ofList letters) = none) ∧
        closeWildcard .unbounded [] tokens = .ok (signature, rest)) := by
  unfold readWildcard
  split
  next letters later =>
    split
    next bound keyword =>
      rw [bind_eq_ok_iff]
      constructor
      · intro parts
        obtain ⟨⟨constraints, middle⟩, read, closed⟩ := parts
        exact .inl ⟨letters, later, bound, constraints, middle, rfl, keyword, read, closed⟩
      · intro parts
        rcases parts with ⟨_, _, other, constraints, middle, same, introduced, read, closed⟩ |
          ⟨plain, -⟩
        · cases same
          obtain rfl := Option.some.inj (keyword.symm.trans introduced)
          exact ⟨(constraints, middle), read, closed⟩
        · rw [plain letters later rfl] at keyword
          cases keyword
    next plain =>
      constructor
      · intro closed
        refine .inr ⟨?_, closed⟩
        intro others after same
        cases same
        exact plain
      · intro parts
        rcases parts with ⟨_, _, bound, constraints, middle, same, keyword, -, -⟩ | ⟨-, closed⟩
        · cases same
          rw [plain] at keyword
          cases keyword
        · exact closed
  next noWord =>
    constructor
    · intro closed
      exact .inr ⟨fun letters later same => absurd same (noWord letters later), closed⟩
    · intro parts
      rcases parts with ⟨letters, later, bound, constraints, middle, same, -, -, -⟩ | ⟨-, closed⟩
      · exact absurd same (noWord letters later)
      · exact closed

end Nested

/-- A named type starts with a word. -/
theorem exists_word_of_readNamed {limit : Nat} {nested : Place → Reader Signature}
    {tokens rest : List Token} {signature : Signature}
    (read : readNamed limit nested tokens = .ok (signature, rest)) :
    ∃ letters later, tokens = .word letters :: later := by
  obtain ⟨segments, middle, rank, name, -, -⟩ := readNamed_eq_ok_iff.mp read
  obtain ⟨segment, after, first⟩ := exists_item_of_readChain name
  obtain ⟨letter, letters, later, rfl, -⟩ := readSegment_eq_ok_iff.mp first
  exact ⟨letter :: letters, later, rfl⟩

/-- A type that does not start with a question mark is a name. -/
theorem readType_cons_of_ne {budget levels : Nat} {place : Place} {token : Token}
    {later : List Token} (noMark : token ≠ .symbol '?') :
    readType budget (levels + 1) place (token :: later) =
      readNamed budget (readType budget levels) (token :: later) := by
  rw [readType]
  · simp
  · intro rest same
    exact noMark (List.cons.inj same).1

/-- A type is a wildcard behind a question mark and a name otherwise, one level deeper. -/
theorem readType_eq_ok_iff {budget levels : Nat} {place : Place} {tokens rest : List Token}
    {signature : Signature} :
    readType budget (levels + 1) place tokens = .ok (signature, rest) ↔
      (∃ later, tokens = .symbol '?' :: later ∧
        readWildcard budget (readType budget levels) later = .ok (signature, rest)) ∨
      (notNext '?' tokens ∧
        readNamed budget (readType budget levels) tokens = .ok (signature, rest)) := by
  cases tokens with
  | nil =>
      have failed : readType budget (levels + 1) place [] = .error (.here .expectedType []) := rfl
      rw [failed]
      constructor
      · intro impossible
        cases impossible
      · intro parts
        rcases parts with ⟨later, impossible, -⟩ | ⟨-, impossible⟩
        · cases impossible
        · obtain ⟨_, _, impossible⟩ := exists_word_of_readNamed impossible
          cases impossible
  | cons token later =>
      by_cases mark : token = .symbol '?'
      · subst mark
        have step : readType budget (levels + 1) place (.symbol '?' :: later) =
            readWildcard budget (readType budget levels) later := rfl
        rw [step]
        simp [notNext]
      · rw [readType_cons_of_ne mark]
        simp [notNext, mark]

/-- A type starts with a question mark or with a word. -/
theorem start_of_readType {budget levels : Nat} {place : Place} {tokens rest : List Token}
    {signature : Signature} (read : readType budget levels place tokens = .ok (signature, rest)) :
    (∃ later, tokens = .symbol '?' :: later) ∨
      ∃ letters later, tokens = .word letters :: later := by
  cases levels with
  | zero => cases read
  | succ levels =>
      rcases readType_eq_ok_iff.mp read with ⟨later, same, -⟩ | ⟨-, name⟩
      · exact .inl ⟨later, same⟩
      · exact .inr (exists_word_of_readNamed name)

end TypeGraph.Signature
