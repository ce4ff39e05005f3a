import TypeGraph.Declaration.Slot

/-!
This file defines the members of declarations: fields, methods and constructors.
-/

namespace TypeGraph

/-- A formal parameter pairs a name with the slot of its type. -/
structure FormalParameter where
  name : String
  slot : Slot
deriving DecidableEq

/-- A field has a name and a type. -/
structure Field where
  name : String
  slot : Slot
deriving DecidableEq

/-- A method may introduce type parameters of its own. -/
structure Method where
  name : String
  typeParameters : List TypeParameter
  parameters : List FormalParameter
  returns : Slot
deriving DecidableEq

/-- A constructor sees only the type parameters of its declaration. -/
structure Constructor where
  name : String
  parameters : List FormalParameter
deriving DecidableEq

/-- Members come in three kinds. -/
inductive MemberKind where
  | field
  | method
  | constructor
deriving DecidableEq, Repr

/-- A member is a field, a method or a constructor. -/
inductive Member where
  | field (content : Field)
  | method (content : Method)
  | constructor (content : Constructor)
deriving DecidableEq

/-- The formal parameters are written by their declared types between parentheses. -/
def FormalParameter.renderAll (parameters : List FormalParameter) : String :=
  "(" ++ ", ".intercalate (parameters.map fun parameter => parameter.slot.text) ++ ")"

namespace Member

/-- The kind of a member is read off its constructor. -/
def kind : Member → MemberKind
  | .field _ => .field
  | .method _ => .method
  | .constructor _ => .constructor

/-- The name of a member leaves out its parameters. -/
def name : Member → String
  | .field content => content.name
  | .method content => content.name
  | .constructor content => content.name

/-- The type parameters that a member introduces are those of a method. -/
def typeParameters : Member → List TypeParameter
  | .method content => content.typeParameters
  | _ => []

/-- Only a method takes type parameters. -/
def withTypeParameters (parameters : List TypeParameter) : Member → Member
  | .method content => .method { content with typeParameters := parameters }
  | member => member

/-- The own slots of a member are the ones it cannot live without; bounds are not among them. -/
def ownSlots : Member → List Slot
  | .field content => [content.slot]
  | .method content => content.parameters.map FormalParameter.slot ++ [content.returns]
  | .constructor content => content.parameters.map FormalParameter.slot

/-- The slots of a member are its own slots and the bounds of its type parameters. -/
def slots (member : Member) : List Slot :=
  member.ownSlots ++ TypeParameter.slots member.typeParameters

/-- A member is resolved when all of its own slots are. -/
def isResolved (member : Member) : Bool :=
  member.ownSlots.all Slot.isResolved

/-- A field is shown by its name, and the others together with their declared parameter types. -/
def render : Member → String
  | .field content => content.name
  | .method content => content.name ++ FormalParameter.renderAll content.parameters
  | .constructor content => content.name ++ FormalParameter.renderAll content.parameters

/-- The label of a member joins the name of its holder to the member. -/
def label (holder : String) (member : Member) : String :=
  holder ++ "#" ++ member.render

end Member

end TypeGraph
