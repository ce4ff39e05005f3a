import TypeGraph.Text.Alphabetic
import TypeGraph.Text.Numeric
import TypeGraph.Text.Blank

/-!
This file classifies the characters of identifiers. Blanks and the punctuation of signatures never
belong to an identifier.
-/

namespace TypeGraph.Text

/-- An identifier starts with a letter, an underscore or a dollar sign. -/
def isIdentifierStart (character : Char) : Bool :=
  isAlphabetic character || character == '_' || character == '$'

/-- An identifier goes on with starting characters and with numbers of every category. -/
def isIdentifierPart (character : Char) : Bool :=
  isIdentifierStart character || isNumeric character

/-- Every starting character may also appear later. -/
theorem isIdentifierPart_of_isIdentifierStart {character : Char}
    (starts : isIdentifierStart character = true) : isIdentifierPart character = true := by
  simp [isIdentifierPart, starts]

-- The letters and the digits of Unicode 16.0 are the latest that count.
example : isIdentifierStart (Char.ofNat 0x1C89) = true ∧
    isIdentifierStart (Char.ofNat 0x10D40) = false ∧
    isIdentifierPart (Char.ofNat 0x10D40) = true := by
  decide +kernel

end TypeGraph.Text
