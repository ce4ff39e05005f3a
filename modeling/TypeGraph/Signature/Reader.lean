import TypeGraph.Signature.Basic
import TypeGraph.Signature.Fault
import TypeGraph.Signature.Token

/-!
This file reads signatures from tokens. A type is a wildcard with optional bounds, or a dotted name
whose segments may carry arguments and whose end may carry array dimensions; an ellipsis counts as
one last dimension. Types nest to a limited depth.
-/

namespace TypeGraph.Signature

open Text

/-- A fault lies at the token that comes next or directly after the last token read. -/
inductive Place where
  | beforeNext
  | afterLast
deriving DecidableEq, Repr

/-- A reader that is stuck reports its fault, the tokens it has not read and the place. -/
structure Stuck where
  fault : Fault
  rest : List Token
  place : Place
deriving DecidableEq, Repr

/-- A reader takes a value from the front of the tokens and leaves the others. -/
abbrev Reader (α : Type) := List Token → Except Stuck (α × List Token)

/-- Most faults lie at the next token. -/
def Stuck.here (fault : Fault) (rest : List Token) : Stuck :=
  ⟨fault, rest, .beforeNext⟩

/-- One item is read, and another one for every separator that follows.

The budget bounds the number of separators; the number of tokens is always enough. -/
def readChain {α : Type} (item : Reader α) (separator : Char) :
    (budget : Nat) → Reader (List α)
  | 0, tokens => do
      let (value, rest) ← item tokens
      return ([value], rest)
  | budget + 1, tokens => do
      let (value, rest) ← item tokens
      match rest with
      | .symbol character :: later =>
          if character = separator then
            let (values, final) ← readChain item separator budget later
            return (value :: values, final)
          else return ([value], rest)
      | _ => return ([value], rest)

/-- Each pair of brackets is one dimension, and an ellipsis is the last one. -/
def readRank : Reader Nat
  | .symbol '[' :: .symbol ']' :: rest => do
      let (rank, final) ← readRank rest
      return (rank + 1, final)
  | .symbol '[' :: rest => .error (.here .expectedCloseBracket rest)
  | .ellipsis :: rest => .ok (1, rest)
  | rest => .ok (0, rest)

/-- A segment is one identifier of a dotted name with the arguments attached to it. -/
structure Segment where
  letters : List Char
  arguments : Option (List Signature)

/-- The arguments of all segments form one list, which is absent when no segment has any. -/
def Segment.joinArguments : List Segment → Option (List Signature)
  | [] => none
  | ⟨_, none⟩ :: rest => joinArguments rest
  | ⟨_, some arguments⟩ :: rest => some (arguments ++ (joinArguments rest).getD [])

/-- The identifiers of all segments are joined by dots. -/
def Segment.joinNames (segments : List Segment) : String :=
  ".".intercalate (segments.map fun segment => String.ofList segment.letters)

section Nested

variable (budget : Nat) (nested : Place → Reader Signature)

/-- The arguments after an opening bracket are separated by commas and closed by a bracket. -/
def readArguments : Reader (List Signature)
  | .symbol '>' :: rest => .error (.here .emptyArguments (.symbol '>' :: rest))
  | tokens => do
      let (arguments, rest) ← readChain (nested .beforeNext) ',' budget tokens
      match rest with
      | .symbol '>' :: final => return (arguments, final)
      | _ => .error (.here .expectedCommaOrClose rest)

/-- A segment starts with a word whose first character may start an identifier. -/
def readSegment : Reader Segment
  | .word (first :: letters) :: rest =>
      if isIdentifierStart first then
        match rest with
        | .symbol '<' :: inner => do
            let (arguments, final) ← readArguments budget nested inner
            return (⟨first :: letters, some arguments⟩, final)
        | _ => return (⟨first :: letters, none⟩, rest)
      else .error (.here .expectedIdentifier (.word (first :: letters) :: rest))
  | tokens => .error (.here .expectedIdentifier tokens)

/-- A named type is a chain of segments followed by its dimensions. -/
def readNamed : Reader Signature
  | tokens => do
      let (segments, rest) ← readChain (readSegment budget nested) '.' budget tokens
      let (rank, final) ← readRank rest
      return (named (Segment.joinNames segments) (Segment.joinArguments segments) rank, final)

/-- A wildcard ends without dimensions. -/
def closeWildcard (bound : BoundKind) (constraints : List Signature) : Reader Signature
  | .symbol '[' :: rest => .error (.here .suffixOnWildcard (.symbol '[' :: rest))
  | .ellipsis :: rest => .error (.here .suffixOnWildcard (.ellipsis :: rest))
  | rest => .ok (wildcard bound constraints, rest)

/-- A keyword after the question mark introduces bounds, which are joined by ampersands. -/
def readWildcard : Reader Signature
  | .word letters :: rest =>
      match BoundKind.ofKeyword? (String.ofList letters) with
      | some bound => do
          let (constraints, final) ← readChain (nested .afterLast) '&' budget rest
          closeWildcard bound constraints final
      | none => closeWildcard .unbounded [] (.word letters :: rest)
  | tokens => closeWildcard .unbounded [] tokens

end Nested

/-- A type is read while levels of nesting remain; the place is where a lack of them shows. -/
def readType (budget : Nat) : (levels : Nat) → Place → Reader Signature
  | 0, place, tokens => .error ⟨.nestingTooDeep, tokens, place⟩
  | _ + 1, _, [] => .error (.here .expectedType [])
  | levels + 1, _, .symbol '?' :: rest => readWildcard budget (readType budget levels) rest
  | levels + 1, _, tokens => readNamed budget (readType budget levels) tokens

/-- Types nest at most this deep, the outermost one included. -/
def maximalNesting : Nat := 256

/-- A whole text holds one type and nothing after it. -/
def readWhole (tokens : List Token) : Except Stuck Signature := do
  let (signature, rest) ← readType tokens.length maximalNesting .beforeNext tokens
  match rest with
  | [] => return signature
  | _ => .error (.here .trailingText rest)

/-- The offset of a fault is the start of the next lexeme or the stop of the last one read. -/
def Stuck.offset (stuck : Stuck) (lexemes : List Lexeme) (size : Nat) : Nat :=
  let read := lexemes.length - stuck.rest.length
  match stuck.place with
  | .beforeNext => ((lexemes.drop read).head?.map Lexeme.start).getD size
  | .afterLast => ((lexemes.take read).getLast?.map Lexeme.stop).getD 0

/-- The parser turns a text into the signature that it denotes. -/
def parse (text : String) : Except Malformed Signature :=
  let lexemes := Lexeme.scan 0 text.toList
  match readWhole (lexemes.map Lexeme.token) with
  | .ok signature => .ok signature
  | .error stuck => .error ⟨text, stuck.offset lexemes text.utf8ByteSize, stuck.fault⟩

end TypeGraph.Signature
