import TypeGraph.Proofs.Signature.Unread

/-!
This file shows that the readers look one token ahead. A run is decided by the tokens that it reads
and by the token behind them, so it goes the same way on all tokens that start with these.
-/

namespace TypeGraph.Signature

open Text

/-! ### Runs in parallel -/

/-- Two outcomes are alike when they differ only in the tokens that neither run has read. -/
inductive Alike {A : Type} (rest other : List Token) :
    Except Stuck (A × List Token) → Except Stuck (A × List Token) → Prop where
  | ok (value : A) (middle : List Token) :
      Alike rest other (.ok (value, middle ++ rest)) (.ok (value, middle ++ other))
  | error (fault : Fault) (middle : List Token) (place : Place) :
      Alike rest other (.error ⟨fault, middle ++ rest, place⟩)
        (.error ⟨fault, middle ++ other, place⟩)

/-- Two readers are parallel when their outcomes are alike behind every front, unless the first one
reads on beyond it. Their budgets suffice for as many tokens as the limits say. -/
def Parallel {A : Type} (limit otherLimit : Nat) (rest other : List Token)
    (reader otherReader : Reader A) : Prop :=
  ∀ front, (front ++ rest).length ≤ limit → (front ++ other).length ≤ otherLimit →
    rest <:+ unread (reader (front ++ rest)) →
      Alike rest other (reader (front ++ rest)) (otherReader (front ++ other))

/-- Parallel readers stay parallel under smaller limits. -/
theorem Parallel.mono {A : Type} {limit otherLimit smaller otherSmaller : Nat}
    {rest other : List Token} {reader otherReader : Reader A}
    (parallel : Parallel limit otherLimit rest other reader otherReader) (less : smaller ≤ limit)
    (otherLess : otherSmaller ≤ otherLimit) :
    Parallel smaller otherSmaller rest other reader otherReader :=
  fun front short otherShort =>
    parallel front (short.trans less) (otherShort.trans otherLess)

section Parallel

variable {A : Type} {rest other : List Token}

/-- A token that was read stands in front of the tokens that were not. -/
theorem exists_front_of_append_eq {front later : List Token} {token : Token}
    (divided : front ++ rest = token :: later) (left : rest <:+ later) :
    ∃ shorter, front = token :: shorter ∧ later = shorter ++ rest := by
  cases front with
  | nil =>
      rw [List.nil_append] at divided
      have short := left.length_le
      rw [divided, List.length_cons] at short
      omega
  | cons first shorter =>
      obtain ⟨rfl, rfl⟩ := List.cons.inj divided
      exact ⟨shorter, rfl, rfl⟩

variable {B : Type} {first second : Except Stuck (A × List Token)}

/-- A run stays alike in what follows a step, which does not read on beyond what the run leaves. -/
theorem Alike.bind {next after : A × List Token → Except Stuck (B × List Token)}
    (left : rest <:+ unread (first >>= next))
    (forward : ∀ value tokens, unread (next (value, tokens)) <:+ tokens)
    (alike : rest <:+ unread first → Alike rest other first second)
    (later : ∀ value middle, rest <:+ unread (next (value, middle ++ rest)) →
      Alike rest other (next (value, middle ++ rest)) (after (value, middle ++ other))) :
    Alike rest other (first >>= next) (second >>= after) := by
  cases alike (left.trans (unread_bind_isSuffix forward)) with
  | ok value middle => exact later value middle left
  | error fault middle place => exact .error fault middle place

/-- Outcomes stay alike when their values are changed in the same way. -/
theorem Alike.map (change : A → B) (alike : Alike rest other first second) :
    Alike rest other (first >>= fun (value, final) => .ok (change value, final))
      (second >>= fun (value, final) => .ok (change value, final)) := by
  cases alike with
  | ok value middle => exact .ok (change value) middle
  | error fault middle place => exact .error fault middle place

variable (same : rest.head? = other.head?)

include same

/-- Behind every front the two runs see the same next token. -/
theorem head?_append_eq (front : List Token) :
    (front ++ rest).head? = (front ++ other).head? := by
  rw [List.head?_append, List.head?_append, same]

/-- The end of a wildcard is decided by the token that both runs see next. -/
theorem closeWildcard_parallel (limit otherLimit : Nat) (bound : BoundKind)
    (constraints : List Signature) :
    Parallel limit otherLimit rest other (closeWildcard bound constraints)
      (closeWildcard bound constraints) := by
  intro front _ _ _
  rw [closeWildcard_eq, closeWildcard_eq, head?_append_eq same]
  split
  next => exact .error _ front _
  next => exact .ok _ front

/-- Dimensions are read alike, since each bracket that is read lies in the common front. -/
theorem readRank_parallel (limit otherLimit : Nat) :
    Parallel limit otherLimit rest other readRank readRank := by
  intro front short otherShort left
  clear short otherShort
  induction size : front.length using Nat.strong_induction_on generalizing front with
  | _ size inductionHypothesis =>
      by_cases opened : (front ++ rest).head? = some (.symbol '[')
      · -- The bracket is read whatever follows, so it stands in the front.
        obtain ⟨later, divided⟩ := List.head?_eq_some_iff.mp opened
        rw [divided] at left
        obtain ⟨shorter, rfl, rfl⟩ := exists_front_of_append_eq divided
          (left.trans (unread_readRank_open_isSuffix later))
        rw [List.cons_append, List.cons_append, readRank_open, readRank_open,
          ← head?_append_eq same]
        rw [readRank_open] at left
        split
        next closed =>
          rw [if_pos closed] at left
          obtain ⟨final, divided⟩ := List.head?_eq_some_iff.mp closed
          rw [divided, List.tail_cons] at left
          have tail := left.trans (unread_bind_isSuffix fun _ => List.suffix_refl)
          obtain ⟨shortest, rfl, rfl⟩ :=
            exists_front_of_append_eq divided (tail.trans (readRank_forward final))
          refine (inductionHypothesis shortest.length ?_ shortest tail rfl).map (· + 1)
          rw [← size, List.length_cons, List.length_cons]
          omega
        next unclosed => exact .error _ shorter _
      · have otherUnopened : notNext '[' (front ++ other) := by
          rwa [notNext, ← head?_append_eq same]
        rw [readRank_of_notNext opened] at left ⊢
        rw [readRank_of_notNext otherUnopened, ← head?_append_eq same]
        split
        next dots =>
          rw [if_pos dots] at left
          obtain ⟨later, divided⟩ := List.head?_eq_some_iff.mp dots
          rw [divided] at left
          obtain ⟨shorter, rfl, rfl⟩ := exists_front_of_append_eq divided left
          exact .ok 1 shorter
        next plain => exact .ok 0 front

end Parallel

/-! ### Chains in parallel -/

section Chain

variable {A : Type} {item otherItem : Reader A} {separator : Char} {tokens : List Token}

/-- A chain fails as its first item does. -/
theorem readChain_eq_error {stuck : Stuck} (failed : item tokens = .error stuck) (budget : Nat) :
    readChain item separator budget tokens = .error stuck := by
  cases budget <;> rw [readChain, failed] <;> rfl

/-- Behind a separator a chain goes on with one item less to spare. -/
theorem readChain_succ_of_separator {later : List Token} {value : A}
    (read : item tokens = .ok (value, .symbol separator :: later)) (budget : Nat) :
    readChain item separator (budget + 1) tokens =
      readChain item separator budget later >>= fun (values, final) =>
        .ok (value :: values, final) := by
  rw [readChain, read]
  exact if_pos rfl

/-- Without a separator a chain ends with its first item. -/
theorem readChain_succ_of_notNext {middle : List Token} {value : A}
    (read : item tokens = .ok (value, middle)) (stop : notNext separator middle) (budget : Nat) :
    readChain item separator (budget + 1) tokens = .ok ([value], middle) :=
  readChain_succ_eq_ok_iff.mpr ⟨value, middle, read, .inl ⟨stop, rfl, rfl⟩⟩

/-- Chains are parallel when their items are, whatever their two budgets are. -/
theorem readChain_parallel {rest other : List Token} (same : rest.head? = other.head?)
    (shrinks : Shrinks item) (otherShrinks : Shrinks otherItem) (forward : Forward item)
    {budget otherBudget : Nat}
    (parallel : Parallel budget otherBudget rest other item otherItem) :
    Parallel budget otherBudget rest other (readChain item separator budget)
      (readChain otherItem separator otherBudget) := by
  intro front short otherShort left
  induction budget using Nat.strong_induction_on generalizing otherBudget front with
  | _ budget inductionHypothesis =>
      have alike := parallel front short otherShort
        (left.trans (unread_readChain_isSuffix forward separator budget _))
      generalize first : item (front ++ rest) = outcome at alike
      generalize second : otherItem (front ++ other) = otherOutcome at alike
      cases alike with
      | error fault middle place =>
          rw [readChain_eq_error first, readChain_eq_error second]
          exact .error fault middle place
      | ok value middle =>
          -- An item was read, so the budgets are not used up.
          have shorter := shrinks _ _ _ first
          have otherShorter := otherShrinks _ _ _ second
          obtain ⟨smaller, rfl⟩ := Nat.exists_eq_succ_of_ne_zero (n := budget) (by omega)
          obtain ⟨otherSmaller, rfl⟩ := Nat.exists_eq_succ_of_ne_zero (n := otherBudget) (by omega)
          by_cases separates : (middle ++ rest).head? = some (.symbol separator)
          · obtain ⟨later, divided⟩ := List.head?_eq_some_iff.mp separates
            rw [divided] at first
            rw [readChain_succ_of_separator first] at left ⊢
            have tail := left.trans (unread_bind_isSuffix fun _ => List.suffix_refl)
            obtain ⟨behind, rfl, rfl⟩ := exists_front_of_append_eq divided
              (tail.trans (readChain_forward forward separator smaller later))
            rw [readChain_succ_of_separator second]
            refine (inductionHypothesis smaller (Nat.lt_succ_self _) ?_ behind ?_ ?_ tail).map
              (List.cons value)
            · exact parallel.mono (Nat.le_succ _) (Nat.le_succ _)
            · simp only [List.cons_append, List.length_cons] at shorter
              omega
            · simp only [List.cons_append, List.length_cons] at otherShorter
              omega
          · have otherSeparates : notNext separator (middle ++ other) := by
              rwa [notNext, ← head?_append_eq same]
            rw [readChain_succ_of_notNext first separates,
              readChain_succ_of_notNext second otherSeparates]
            exact .ok [value] middle

end Chain

/-! ### Types in parallel -/

section Nested

variable {rest other : List Token} (same : rest.head? = other.head?) {limit otherLimit : Nat}
  {nested otherNested : Place → Reader Signature} (shrinks : ∀ place, Shrinks (nested place))
  (otherShrinks : ∀ place, Shrinks (otherNested place)) (forward : ∀ place, Forward (nested place))
  (parallel : ∀ place, Parallel limit otherLimit rest other (nested place) (otherNested place))

include same shrinks otherShrinks forward parallel

/-- Argument lists are read alike when the types in them are. -/
theorem readArguments_parallel :
    Parallel limit otherLimit rest other (readArguments limit nested)
      (readArguments otherLimit otherNested) := by
  intro front short otherShort left
  rw [readArguments_eq] at left ⊢
  rw [readArguments_eq otherLimit, ← head?_append_eq same]
  split
  next => exact .error _ front _
  next unclosed =>
    rw [if_neg unclosed] at left
    refine Alike.bind left unread_closeArguments_isSuffix (readChain_parallel same
      (shrinks .beforeNext) (otherShrinks .beforeNext) (forward .beforeNext)
      (parallel .beforeNext) front short otherShort) ?_
    intro arguments middle left
    dsimp only at left ⊢
    rw [← head?_append_eq same]
    split
    next closed =>
      rw [if_pos closed] at left
      obtain ⟨final, divided⟩ := List.head?_eq_some_iff.mp closed
      rw [divided] at left
      obtain ⟨behind, rfl, rfl⟩ := exists_front_of_append_eq divided left
      exact .ok arguments behind
    next => exact .error _ middle _

/-- Segments are read alike, since they choose by a word that lies in the common front. -/
theorem readSegment_parallel :
    Parallel limit otherLimit rest other (readSegment limit nested)
      (readSegment otherLimit otherNested) := by
  intro front short otherShort left
  by_cases word : ∃ first letters, isIdentifierStart first = true ∧
      (front ++ rest).head? = some (.word (first :: letters))
  · obtain ⟨first, letters, starts, head⟩ := word
    obtain ⟨later, divided⟩ := List.head?_eq_some_iff.mp head
    rw [divided] at left
    obtain ⟨shorter, rfl, rfl⟩ := exists_front_of_append_eq divided
      (left.trans (unread_readSegment_word_isSuffix forward starts letters later))
    rw [readSegment_word limit nested _ starts] at left
    rw [List.cons_append, List.cons_append, readSegment_word limit nested _ starts,
      readSegment_word otherLimit otherNested _ starts, ← head?_append_eq same]
    split
    next opened =>
      rw [if_pos opened] at left
      obtain ⟨final, divided⟩ := List.head?_eq_some_iff.mp opened
      rw [divided, List.tail_cons] at left
      have tail := left.trans (unread_bind_isSuffix fun _ => List.suffix_refl)
      obtain ⟨behind, rfl, rfl⟩ := exists_front_of_append_eq divided
        (tail.trans (readArguments_forward forward final))
      simp only [List.cons_append, List.length_cons] at short otherShort
      exact (readArguments_parallel same shrinks otherShrinks forward parallel behind (by omega)
        (by omega) tail).map fun arguments => Segment.mk (first :: letters) (some arguments)
    next => exact .ok _ shorter
  · rw [readSegment_eq_error limit nested word]
    rw [head?_append_eq same] at word
    rw [readSegment_eq_error otherLimit otherNested word]
    exact .error _ front _

theorem readNamed_parallel :
    Parallel limit otherLimit rest other (readNamed limit nested)
      (readNamed otherLimit otherNested) := by
  intro front short otherShort left
  have segments := readSegment_parallel same shrinks otherShrinks forward parallel
  refine Alike.bind left ?_ (readChain_parallel same (readSegment_shrinks shrinks)
    (readSegment_shrinks otherShrinks) (readSegment_forward forward) segments front short
    otherShort) ?_
  · intro segments tokens
    exact (unread_bind_isSuffix fun _ => List.suffix_refl).trans (readRank_forward tokens)
  · intro segments middle left
    have dimensions := readRank_parallel same _ _ middle (Nat.le_refl _) (Nat.le_refl _)
      (left.trans (unread_bind_isSuffix fun _ => List.suffix_refl))
    exact dimensions.map
      (named (Segment.joinNames segments) (Segment.joinArguments segments))

/-- Wildcards are read alike, with bounds or without. -/
theorem readWildcard_parallel :
    Parallel limit otherLimit rest other (readWildcard limit nested)
      (readWildcard otherLimit otherNested) := by
  intro front short otherShort left
  have unbounded := closeWildcard_parallel same limit otherLimit .unbounded [] front short otherShort
  rw [readWildcard_eq] at left ⊢
  rw [readWildcard_eq otherLimit, ← head?_append_eq same]
  split
  next letters head =>
    rw [head] at left
    dsimp only at left
    split
    next bound keyword =>
      rw [keyword] at left
      obtain ⟨later, divided⟩ := List.head?_eq_some_iff.mp head
      rw [divided] at left
      have tail := left.trans (unread_bind_isSuffix (closeWildcard_forward bound))
      obtain ⟨shorter, rfl, rfl⟩ := exists_front_of_append_eq divided
        (tail.trans (readChain_forward (forward .afterLast) '&' limit later))
      simp only [List.cons_append, List.length_cons] at short otherShort
      refine Alike.bind left (closeWildcard_forward bound) ?_ ?_
      · exact readChain_parallel same (shrinks .afterLast) (otherShrinks .afterLast)
          (forward .afterLast) (parallel .afterLast) shorter (by omega) (by omega)
      · intro constraints middle
        exact closeWildcard_parallel same _ _ bound constraints middle (Nat.le_refl _)
          (Nat.le_refl _)
    next plain =>
      rw [plain] at left
      exact unbounded left
  next noWord =>
    split at left
    next letters head => exact absurd head (noWord letters)
    next => exact unbounded left

end Nested

/-- Types are read alike at every level of nesting, though the budgets of the runs may differ. -/
theorem readType_parallel {rest other : List Token} (same : rest.head? = other.head?)
    (limit otherLimit levels : Nat) (place : Place) :
    Parallel limit otherLimit rest other (readType limit levels place)
      (readType otherLimit levels place) := by
  induction levels generalizing place with
  | zero => exact fun front _ _ _ => .error _ front place
  | succ levels inductionHypothesis =>
      intro front short otherShort left
      have shrinks := readType_shrinks limit levels
      have otherShrinks := readType_shrinks otherLimit levels
      have forward := readType_forward limit levels
      rw [readType_succ_eq] at left ⊢
      rw [readType_succ_eq otherLimit, ← head?_append_eq same]
      split
      next => exact .error _ front _
      next token head =>
        rw [head] at left
        dsimp only at left
        split
        next mark =>
          rw [if_pos mark] at left
          obtain ⟨later, divided⟩ := List.head?_eq_some_iff.mp head
          rw [divided] at left
          obtain ⟨shorter, rfl, rfl⟩ := exists_front_of_append_eq divided
            (left.trans (readWildcard_forward forward later))
          simp only [List.cons_append, List.length_cons] at short otherShort
          exact readWildcard_parallel same shrinks otherShrinks forward inductionHypothesis shorter
            (by omega) (by omega) left
        next name =>
          rw [if_neg name] at left
          exact readNamed_parallel same shrinks otherShrinks forward inductionHypothesis front short
            otherShort left

/-- Tokens that go on alike behind those that were read are rejected for the same fault. -/
theorem readWhole_parallel {front rest other : List Token} {fault : Fault} {place : Place}
    (same : rest.head? = other.head?)
    (failed : readWhole (front ++ rest) = .error ⟨fault, rest, place⟩) :
    readWhole (front ++ other) = .error ⟨fault, other, place⟩ := by
  have left : rest <:+ unread (readType (front ++ rest).length maximalNesting .beforeNext
      (front ++ rest)) := by
    rcases readWhole_stuck failed with inside | ⟨signature, read⟩
    · rw [inside]
      exact List.suffix_refl rest
    · rw [read]
      exact List.suffix_refl rest
  have alike := readType_parallel same _ (front ++ other).length maximalNesting .beforeNext front
    (Nat.le_refl _) (Nat.le_refl _) left
  unfold readWhole at failed ⊢
  generalize readType _ _ _ (front ++ rest) = outcome at alike failed
  generalize readType _ _ _ (front ++ other) = otherOutcome at alike ⊢
  cases alike with
  | ok signature middle =>
      dsimp only [bind, Except.bind] at failed
      split at failed
      next => cases failed
      next nonempty =>
        obtain ⟨rfl, unchanged, rfl⟩ := Stuck.mk.inj (Except.error.inj failed)
        obtain rfl := List.append_left_eq_self.mp unchanged
        cases rest with
        | nil => exact absurd rfl nonempty
        | cons token later =>
            obtain ⟨others, rfl⟩ := List.head?_eq_some_iff.mp same.symm
            rfl
  | error fault middle place =>
      obtain ⟨rfl, unchanged, rfl⟩ := Stuck.mk.inj (Except.error.inj failed)
      obtain rfl := List.append_left_eq_self.mp unchanged
      rfl

end TypeGraph.Signature
