import TypeGraph.Declaration.Member

/-!
This file defines declarations of classes and interfaces.
-/

namespace TypeGraph

/-- Only a class may name a superclass. -/
inductive DeclarationKind where
  | ofClass (superclass : Option Slot)
  | ofInterface
deriving DecidableEq

/-- A declaration is one class or interface of a package.

Nested declarations keep their outer names inside their own name. -/
structure Declaration where
  name : String
  package : String
  kind : DeclarationKind
  typeParameters : List TypeParameter
  interfaces : List Slot
  members : List Member
deriving DecidableEq

/-- A name in the unnamed package is qualified already. -/
def qualify (package name : String) : String :=
  if package = "" then name else package ++ "." ++ name

namespace Declaration

/-- A new class has a name and nothing else. -/
def newClass (name : String) : Declaration :=
  ⟨name, "", .ofClass none, [], [], []⟩

/-- A new interface has a name and nothing else. -/
def newInterface (name : String) : Declaration :=
  ⟨name, "", .ofInterface, [], [], []⟩

/-- A class is a declaration that may name a superclass. -/
def isClass (declaration : Declaration) : Bool :=
  match declaration.kind with
  | .ofClass _ => true
  | .ofInterface => false

/-- Every declaration that is not a class is an interface. -/
def isInterface (declaration : Declaration) : Bool :=
  !declaration.isClass

/-- The superclass slot is absent in interfaces and in classes without a superclass. -/
def superclass? (declaration : Declaration) : Option Slot :=
  match declaration.kind with
  | .ofClass superclass => superclass
  | .ofInterface => none

/-- The qualified name of a declaration holds its package and its own name. -/
def qualifiedName (declaration : Declaration) : String :=
  qualify declaration.package declaration.name

/-- A class keeps its last supertype clause, and an interface lists every one as an interface. -/
def withSupertype (declaration : Declaration) (text : String) : Declaration :=
  match declaration.kind with
  | .ofClass _ => { declaration with kind := .ofClass (some (.ofText text)) }
  | .ofInterface => { declaration with interfaces := declaration.interfaces ++ [.ofText text] }

/-- New interface entries come last. -/
def withInterface (declaration : Declaration) (text : String) : Declaration :=
  { declaration with interfaces := declaration.interfaces ++ [.ofText text] }

/-- New type parameters come last. -/
def withTypeParameter (declaration : Declaration) (parameter : TypeParameter) : Declaration :=
  { declaration with typeParameters := declaration.typeParameters ++ [parameter] }

/-- New members come last. -/
def withMember (declaration : Declaration) (member : Member) : Declaration :=
  { declaration with members := declaration.members ++ [member] }

/-- Of several members with one name the first one is found. -/
def member? (declaration : Declaration) (name : String) : Option Member :=
  declaration.members.find? fun member => member.name == name

/-- The slots of a declaration are its supertypes, its bounds and the slots of its members. -/
def slots (declaration : Declaration) : List Slot :=
  declaration.superclass?.toList ++ declaration.interfaces ++
    TypeParameter.slots declaration.typeParameters ++ declaration.members.flatMap Member.slots

/-- The references of a declaration are those found for its slots so far. -/
def references (declaration : Declaration) : List Reference :=
  declaration.slots.filterMap Slot.reference

end Declaration

end TypeGraph
