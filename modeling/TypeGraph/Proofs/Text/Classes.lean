import TypeGraph.Text.Blank
import TypeGraph.Text.Identifier

/-!
This file keeps the character classes of signatures apart. A blank is never part of an identifier,
and the punctuation of signatures is neither blank nor part of an identifier.
-/

namespace TypeGraph.Text

/-- Membership of a table with short ranges is decided code point by code point. -/
theorem RangeTable.contains_of_ranges {table : RangeTable} {code : Nat} {motive : Nat → Prop}
    (member : table.contains code = true)
    (all : ∀ range ∈ table, ∀ step < range.2 + 1 - range.1, motive (range.1 + step)) :
    motive code := by
  obtain ⟨range, listed, lower, upper⟩ := RangeTable.exists_range_of_contains member
  have reached := all range listed (code - range.1) (by omega)
  rwa [Nat.add_sub_cancel' lower] at reached

/-- No blank belongs to an identifier. -/
theorem isIdentifierPart_of_isBlank {character : Char} (blank : isBlank character = true) :
    isIdentifierPart character = false := by
  have apart : alphabeticRanges.contains character.toNat = false ∧
      numericRanges.contains character.toNat = false ∧
      character.toNat ≠ '_'.toNat ∧ character.toNat ≠ '$'.toNat := by
    apply RangeTable.contains_of_ranges (motive := fun code =>
      alphabeticRanges.contains code = false ∧ numericRanges.contains code = false ∧
        code ≠ '_'.toNat ∧ code ≠ '$'.toNat) blank
    decide +kernel
  obtain ⟨alphabetic, numeric, underscore, dollar⟩ := apart
  have notUnderscore : character ≠ '_' := fun same => underscore (congrArg Char.toNat same)
  have notDollar : character ≠ '$' := fun same => dollar (congrArg Char.toNat same)
  simp [isIdentifierPart, isIdentifierStart, isAlphabetic, isNumeric, alphabetic, numeric,
    notUnderscore, notDollar]

/-- The punctuation of signatures. -/
def punctuation : List Char :=
  ['?', '<', '>', ',', '.', '[', ']', '&']

theorem isBlank_of_mem_punctuation {character : Char} (listed : character ∈ punctuation) :
    isBlank character = false := by
  have all : punctuation.all (fun character => !isBlank character) = true := by decide +kernel
  simpa using List.all_eq_true.mp all character listed

theorem isIdentifierPart_of_mem_punctuation {character : Char} (listed : character ∈ punctuation) :
    isIdentifierPart character = false := by
  have all : punctuation.all (fun character => !isIdentifierPart character) = true := by
    decide +kernel
  simpa using List.all_eq_true.mp all character listed

end TypeGraph.Text
