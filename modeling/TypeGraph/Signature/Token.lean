import TypeGraph.Text.Identifier

/-!
This file cuts a text into words, ellipses and single symbols. Blanks separate tokens and are
dropped; each token keeps its place in the text, counted in bytes of the UTF-8 form.
-/

namespace TypeGraph.Signature

open Text

/-- A word is a maximal run of identifier characters. -/
inductive Token where
  | word (letters : List Char)
  | ellipsis
  | symbol (character : Char)
deriving DecidableEq, Repr

/-- A lexeme is a token together with the byte offsets of its two ends. -/
structure Lexeme where
  token : Token
  start : Nat
  stop : Nat
deriving DecidableEq, Repr

/-- A text starts inside a word when its first character is an identifier character. -/
def startsWord : List Char → Bool
  | [] => false
  | character :: _ => isIdentifierPart character

/-- A character in front of the first word joins that word. -/
def Lexeme.join (character : Char) (start : Nat) : List Lexeme → List Lexeme
  | ⟨.word letters, _, stop⟩ :: later => ⟨.word (character :: letters), start, stop⟩ :: later
  | other => ⟨.word [character], start, start + character.utf8Size⟩ :: other

/-- The scan reads the lexemes of a text whose first byte has the given offset. -/
def Lexeme.scan (start : Nat) : List Char → List Lexeme
  | [] => []
  | '.' :: '.' :: '.' :: rest => ⟨.ellipsis, start, start + 3⟩ :: scan (start + 3) rest
  | character :: rest =>
      let next := start + character.utf8Size
      if isBlank character then scan next rest
      else if isIdentifierPart character then
        if startsWord rest then join character start (scan next rest)
        else ⟨.word [character], start, next⟩ :: scan next rest
      else ⟨.symbol character, start, next⟩ :: scan next rest

/-- The tokens of a text are its lexemes without their places. -/
def Token.ofChars (characters : List Char) : List Token :=
  (Lexeme.scan 0 characters).map Lexeme.token

end TypeGraph.Signature
