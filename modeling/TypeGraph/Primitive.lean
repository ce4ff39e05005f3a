/-!
This file lists the types that are written as keywords.
-/

namespace TypeGraph

/-- A primitive type is known by its keyword and is never declared. -/
inductive Primitive where
  | boolean
  | byte
  | char
  | short
  | int
  | long
  | float
  | double
  | void
deriving DecidableEq, Repr, Inhabited

namespace Primitive

/-- The keyword spells the type in signatures. -/
def keyword : Primitive → String
  | boolean => "boolean"
  | byte => "byte"
  | char => "char"
  | short => "short"
  | int => "int"
  | long => "long"
  | float => "float"
  | double => "double"
  | void => "void"

/-- This list holds every primitive type once. -/
def all : List Primitive :=
  [boolean, byte, char, short, int, long, float, double, void]

/-- A word denotes a primitive type only when it is exactly its keyword. -/
def ofKeyword? (word : String) : Option Primitive :=
  all.find? fun primitive => primitive.keyword == word

/-- Reading a keyword gives back the type that it spells. -/
theorem ofKeyword?_eq_some_iff {word : String} {primitive : Primitive} :
    ofKeyword? word = some primitive ↔ primitive.keyword = word := by
  constructor
  · intro found
    simpa using List.find?_some found
  · rintro rfl
    cases primitive <;> decide

end Primitive

end TypeGraph
