/-!
This file lists the ways in which a text can fail to be a signature.
-/

namespace TypeGraph.Signature

/-- Each fault names what was missing or what was in excess at one place of a text. -/
inductive Fault where
  | trailingText
  | nestingTooDeep
  | expectedType
  | suffixOnWildcard
  | expectedIdentifier
  | emptyArguments
  | expectedCommaOrClose
  | expectedCloseBracket
deriving DecidableEq, Repr

/-- The message states the fault in words. -/
def Fault.message : Fault → String
  | .trailingText => "unexpected trailing text"
  | .nestingTooDeep => "type nesting too deep"
  | .expectedType => "expected a type name"
  | .suffixOnWildcard => "array suffix on a wildcard"
  | .expectedIdentifier => "expected an identifier"
  | .emptyArguments => "empty type argument list"
  | .expectedCommaOrClose => "expected ',' or '>'"
  | .expectedCloseBracket => "expected ']'"

/-- A malformed text is reported with its first fault and the byte offset of that fault. -/
structure Malformed where
  text : String
  offset : Nat
  fault : Fault
deriving DecidableEq, Repr

/-- The message repeats the text and says where and why it is malformed. -/
def Malformed.message (malformed : Malformed) : String :=
  "invalid type name '" ++ malformed.text ++ "' at offset " ++ toString malformed.offset ++ ": " ++
    malformed.fault.message

end TypeGraph.Signature
