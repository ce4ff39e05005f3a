import TypeGraph.Proofs.Signature.Token
import TypeGraph.Signature.Reader

/-!
This file defines the language of signatures over characters. A type is a wildcard with optional
bounds or a dotted name with arguments and dimensions; blanks may stand before every token and at
the end of the text. Every text of the language comes with the tree that it denotes.
-/

namespace TypeGraph.Signature

open Text

/-- A terminal is spelled after any number of blanks. -/
def Terminal (spelling text : List Char) : Prop :=
  ∃ blanks, Blank blanks ∧ text = blanks ++ spelling

/-- An identifier has a starting character and goes on with identifier characters. -/
def IsIdentifier (letters : List Char) : Prop :=
  ∃ first rest, letters = first :: rest ∧ isIdentifierStart first = true ∧
    ∀ letter ∈ rest, isIdentifierPart letter = true

/-- The items of a chain have separators between them, and only some items may be continued. -/
inductive Chain {α : Type} (item : List Char → α → Prop) (separator : Char)
    (continues : α → Prop) : List Char → List α → Prop where
  | last {text : List Char} {value : α} (holds : item text value) :
      Chain item separator continues text [value]
  | more {first mark rest : List Char} {value : α} {values : List α} (holds : item first value)
      (continued : continues value) (separated : Terminal [separator] mark)
      (later : Chain item separator continues rest values) :
      Chain item separator continues (first ++ (mark ++ rest)) (value :: values)

/-- Dimensions are pairs of brackets, and an ellipsis may be the last dimension. -/
inductive Dimensions : List Char → Nat → Prop where
  | flat : Dimensions [] 0
  | ellipsis {text : List Char} (spelled : Terminal ['.', '.', '.'] text) : Dimensions text 1
  | brackets {opening closing rest : List Char} {rank : Nat} (opens : Terminal ['['] opening)
      (closes : Terminal [']'] closing) (later : Dimensions rest rank) :
      Dimensions (opening ++ (closing ++ rest)) (rank + 1)

/-- The arguments of a name are those of all its segments, or absent when no segment has any. -/
def Segment.gather (segments : List Segment) : Option (List Signature) :=
  if segments.all fun segment => segment.arguments.isNone then none
  else some (segments.flatMap fun segment => segment.arguments.getD [])

/-- The dotted name of a list of segments. -/
def Segment.dotted (segments : List Segment) : String :=
  ".".intercalate (segments.map fun segment => String.ofList segment.letters)

section Forms

variable (nested : List Char → Signature → Prop)

/-- Arguments stand between angle brackets with commas between them. -/
inductive Arguments : List Char → List Signature → Prop where
  | enclosed {opening inner closing : List Char} {arguments : List Signature}
      (opens : Terminal ['<'] opening)
      (each : Chain nested ',' (fun _ => True) inner arguments)
      (closes : Terminal ['>'] closing) :
      Arguments (opening ++ (inner ++ closing)) arguments

/-- A segment is an identifier with or without arguments. -/
inductive SegmentForm : List Char → Segment → Prop where
  | plain {letters text : List Char} (identifier : IsIdentifier letters)
      (spelled : Terminal letters text) : SegmentForm text ⟨letters, none⟩
  | generic {letters text rest : List Char} {arguments : List Signature}
      (identifier : IsIdentifier letters) (spelled : Terminal letters text)
      (applied : Arguments nested rest arguments) :
      SegmentForm (text ++ rest) ⟨letters, some arguments⟩

/-- A type is a name or a wildcard. A keyword ends where no identifier character follows, and an
ampersand belongs to the innermost wildcard with bounds, so such a wildcard is never continued. -/
inductive TypeForm : List Char → Signature → Prop where
  | named {front back : List Char} {segments : List Segment} {rank : Nat}
      (name : Chain (SegmentForm nested) '.' (fun _ => True) front segments)
      (dimensions : Dimensions back rank) :
      TypeForm (front ++ back)
        ⟨Segment.dotted segments, Segment.gather segments, rank, .unbounded, []⟩
  | unbounded {mark : List Char} (spelled : Terminal ['?'] mark) :
      TypeForm mark ⟨"?", none, 0, .unbounded, []⟩
  | bounded {mark keyword rest : List Char} {bound : BoundKind} {word : String}
      {constraints : List Signature} (spelled : Terminal ['?'] mark)
      (introduces : bound.keyword? = some word) (written : Terminal word.toList keyword)
      (ends : startsWord rest = false)
      (each : Chain nested '&' (fun constraint => constraint.bound = .unbounded) rest
        constraints) :
      TypeForm (mark ++ (keyword ++ rest)) ⟨"?", none, 0, bound, constraints⟩

end Forms

/-- A text derives from a type when its types nest to at most the given number of levels. -/
def Derives : (levels : Nat) → List Char → Signature → Prop
  | 0 => fun _ _ => False
  | levels + 1 => TypeForm (Derives levels)

/-- A whole text denotes a signature when it derives from a type up to blanks at its end. -/
def Denotes (levels : Nat) (text : String) (signature : Signature) : Prop :=
  ∃ body blanks, text.toList = body ++ blanks ∧ Blank blanks ∧ Derives levels body signature

end TypeGraph.Signature
