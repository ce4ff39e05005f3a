import TypeGraph.Report.Event

/-!
This file counts what a resolution removed or gave up.
-/

namespace TypeGraph

/-- A tally counts removed members, dropped interfaces and bounds that failed to resolve. -/
@[ext]
structure Tally where
  removedMembers : Nat
  droppedInterfaces : Nat
  unresolvedBounds : Nat
deriving DecidableEq, Repr

namespace Tally

/-- An empty tally counts nothing. -/
def zero : Tally :=
  ⟨0, 0, 0⟩

instance : Add Tally where
  add first second :=
    ⟨first.removedMembers + second.removedMembers,
      first.droppedInterfaces + second.droppedInterfaces,
      first.unresolvedBounds + second.unresolvedBounds⟩

@[simp] theorem removedMembers_zero : zero.removedMembers = 0 := rfl

@[simp] theorem droppedInterfaces_zero : zero.droppedInterfaces = 0 := rfl

@[simp] theorem unresolvedBounds_zero : zero.unresolvedBounds = 0 := rfl

@[simp] theorem removedMembers_add (first second : Tally) :
    (first + second).removedMembers = first.removedMembers + second.removedMembers := rfl

@[simp] theorem droppedInterfaces_add (first second : Tally) :
    (first + second).droppedInterfaces = first.droppedInterfaces + second.droppedInterfaces := rfl

@[simp] theorem unresolvedBounds_add (first second : Tally) :
    (first + second).unresolvedBounds = first.unresolvedBounds + second.unresolvedBounds := rfl

@[simp] theorem zero_add (tally : Tally) : zero + tally = tally := by
  ext <;> simp

@[simp] theorem add_zero (tally : Tally) : tally + zero = tally := by
  ext <;> simp

theorem add_assoc (first second third : Tally) :
    first + second + third = first + (second + third) := by
  ext <;> simp [Nat.add_assoc]

end Tally

/-- A settled value comes with its tally and with the events that led to it. -/
structure Settled (α : Type) where
  value : α
  tally : Tally
  events : List Event

end TypeGraph
