import TypeGraph.Proofs.Signature.Reader

/-!
This file says where a reader can get stuck. It is stuck in one of the readers that it calls, behind
the tokens that the readers before it have read, or at a token that it does not expect itself.
-/

namespace TypeGraph.Signature

open Text

theorem bind_eq_error_iff {E A B : Type} {first : Except E A} {next : A → Except E B} {fault : E} :
    (first >>= next) = .error fault ↔
      first = .error fault ∨ ∃ value, first = .ok value ∧ next value = .error fault := by
  cases first with
  | error other => simp [bind, Except.bind]
  | ok value => simp [bind, Except.bind]

variable {tokens : List Token} {stuck : Stuck}

/-- A chain is stuck in its first item or behind a separator. -/
theorem readChain_stuck {A : Type} {item : Reader A} {separator : Char} {budget : Nat}
    (failed : readChain item separator budget tokens = .error stuck) :
    item tokens = .error stuck ∨
      ∃ smaller value later, budget = smaller + 1 ∧
        item tokens = .ok (value, .symbol separator :: later) ∧
        readChain item separator smaller later = .error stuck := by
  cases budget with
  | zero =>
      rcases bind_eq_error_iff.mp failed with first | ⟨_, _, impossible⟩
      · exact .inl first
      · cases impossible
  | succ budget =>
      rcases bind_eq_error_iff.mp failed with first | ⟨⟨value, middle⟩, read, next⟩
      · exact .inl first
      · right
        dsimp only at next
        split at next
        next character later =>
          split at next
          next same =>
            subst same
            rcases bind_eq_error_iff.mp next with tail | ⟨_, _, impossible⟩
            · exact ⟨budget, value, later, rfl, read, tail⟩
            · cases impossible
          next => cases next
        next => cases next

/-- A segment is stuck at its start or in its arguments. -/
theorem readSegment_stuck {limit : Nat} {nested : Place → Reader Signature}
    (failed : readSegment limit nested tokens = .error stuck) :
    stuck.rest = tokens ∨
      ∃ first letters inner, tokens = .word (first :: letters) :: .symbol '<' :: inner ∧
        isIdentifierStart first = true ∧ readArguments limit nested inner = .error stuck := by
  unfold readSegment at failed
  split at failed
  next first letters rest =>
    split at failed
    next starts =>
      split at failed
      next inner =>
        rcases bind_eq_error_iff.mp failed with applied | ⟨_, _, impossible⟩
        · exact .inr ⟨first, letters, inner, rfl, starts, applied⟩
        · cases impossible
      next => cases failed
    next =>
      cases failed
      exact .inl rfl
  next =>
    cases failed
    exact .inl rfl

/-- Arguments are stuck at their start, in one of them or behind the last one. -/
theorem readArguments_stuck {limit : Nat} {nested : Place → Reader Signature}
    (failed : readArguments limit nested tokens = .error stuck) :
    stuck.rest = tokens ∨ readChain (nested .beforeNext) ',' limit tokens = .error stuck ∨
      ∃ arguments,
        readChain (nested .beforeNext) ',' limit tokens = .ok (arguments, stuck.rest) := by
  unfold readArguments at failed
  split at failed
  next =>
    cases failed
    exact .inl rfl
  next =>
    right
    rcases bind_eq_error_iff.mp failed with inside | ⟨⟨arguments, rest⟩, read, next⟩
    · exact .inl inside
    · dsimp only at next
      split at next
      next => cases next
      next =>
        cases next
        exact .inr ⟨arguments, read⟩

/-- A named type is stuck in its segments or in its dimensions. -/
theorem readNamed_stuck {limit : Nat} {nested : Place → Reader Signature}
    (failed : readNamed limit nested tokens = .error stuck) :
    readChain (readSegment limit nested) '.' limit tokens = .error stuck ∨
      ∃ segments middle,
        readChain (readSegment limit nested) '.' limit tokens = .ok (segments, middle) ∧
        readRank middle = .error stuck := by
  rcases bind_eq_error_iff.mp failed with name | ⟨⟨segments, middle⟩, read, next⟩
  · exact .inl name
  · rcases bind_eq_error_iff.mp next with dimensions | ⟨_, _, impossible⟩
    · exact .inr ⟨segments, middle, read, dimensions⟩
    · cases impossible

theorem closeWildcard_stuck {bound : BoundKind} {constraints : List Signature}
    (failed : closeWildcard bound constraints tokens = .error stuck) : stuck.rest = tokens := by
  unfold closeWildcard at failed
  split at failed
  next =>
    cases failed
    rfl
  next =>
    cases failed
    rfl
  next => cases failed

/-- A wildcard is stuck at its end, which is its start if no keyword comes, or in its bounds. -/
theorem readWildcard_stuck {limit : Nat} {nested : Place → Reader Signature}
    (failed : readWildcard limit nested tokens = .error stuck) :
    stuck.rest = tokens ∨
      ∃ letters later bound, tokens = .word letters :: later ∧
        BoundKind.ofKeyword? (String.ofList letters) = some bound ∧
        (readChain (nested .afterLast) '&' limit later = .error stuck ∨
          ∃ constraints,
            readChain (nested .afterLast) '&' limit later = .ok (constraints, stuck.rest)) := by
  unfold readWildcard at failed
  split at failed
  next letters later =>
    split at failed
    next bound keyword =>
      refine .inr ⟨letters, later, bound, rfl, keyword, ?_⟩
      rcases bind_eq_error_iff.mp failed with inside | ⟨⟨constraints, middle⟩, read, closed⟩
      · exact .inl inside
      · rw [closeWildcard_stuck closed]
        exact .inr ⟨constraints, read⟩
    next => exact .inl (closeWildcard_stuck failed)
  next => exact .inl (closeWildcard_stuck failed)

/-- A type is stuck at its start, behind a question mark or in its name. -/
theorem readType_stuck {budget levels : Nat} {place : Place}
    (failed : readType budget (levels + 1) place tokens = .error stuck) :
    stuck.rest = tokens ∨
      (∃ later, tokens = .symbol '?' :: later ∧
        readWildcard budget (readType budget levels) later = .error stuck) ∨
      readNamed budget (readType budget levels) tokens = .error stuck := by
  cases tokens with
  | nil =>
      cases failed
      exact .inl rfl
  | cons token later =>
      by_cases mark : token = .symbol '?'
      · subst mark
        exact .inr (.inl ⟨later, rfl, failed⟩)
      · rw [readType_cons_of_ne mark] at failed
        exact .inr (.inr failed)

/-- A whole text is stuck in its type or behind it. -/
theorem readWhole_stuck (failed : readWhole tokens = .error stuck) :
    readType tokens.length maximalNesting .beforeNext tokens = .error stuck ∨
      ∃ signature,
        readType tokens.length maximalNesting .beforeNext tokens = .ok (signature, stuck.rest) := by
  unfold readWhole at failed
  rcases bind_eq_error_iff.mp failed with inside | ⟨⟨signature, rest⟩, read, next⟩
  · exact .inl inside
  · cases rest with
    | nil => cases next
    | cons token later =>
        cases next
        exact .inr ⟨signature, read⟩

end TypeGraph.Signature
