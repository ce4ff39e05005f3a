import TypeGraph.Declaration.Basic
import TypeGraph.Resolution.Bound

/-!
This file settles members. A member lives when all of its own slots resolve, whatever becomes of the
bounds of its type parameters.
-/

namespace TypeGraph

/-- A site is the declaration whose parts are being settled, as its members see it. -/
structure Site where
  lookup : Lookup
  handle : Handle
  name : String
  typeParameters : List String

namespace Site

/-- The type parameters of the declaration are in scope everywhere in it. -/
def scope (site : Site) : Scope :=
  ⟨.declaration site.handle, site.typeParameters⟩

/-- A method sees its own type parameters before those of the declaration. -/
def methodScopes (site : Site) (label : String) (parameters : List TypeParameter) : List Scope :=
  [⟨.method site.handle label, parameters.map TypeParameter.name⟩, site.scope]

/-- The scopes of a member are those of a method only inside methods. -/
def scopesOf (site : Site) (member : Member) : List Scope :=
  match member with
  | .method content => site.methodScopes (member.label site.name) content.typeParameters
  | _ => [site.scope]

end Site

/-- Formal parameters are settled in order up to the first failure. -/
def FormalParameter.settleAll (lookup : Lookup) (scopes : List Scope) :
    List FormalParameter → Except Unresolved (List FormalParameter)
  | [] => .ok []
  | parameter :: rest =>
      match parameter.slot.settle lookup scopes with
      | .error unresolved => .error unresolved
      | .ok slot =>
          match settleAll lookup scopes rest with
          | .error unresolved => .error unresolved
          | .ok others => .ok (⟨parameter.name, slot⟩ :: others)

namespace Member

/-- The bounds of a member are settled before its own slots. -/
def settleBounds (site : Site) (member : Member) : Settled Member :=
  let settled := TypeParameter.settleAll site.lookup (site.scopesOf member)
    (member.label site.name) member.typeParameters
  ⟨member.withTypeParameters settled.value, settled.tally, settled.events⟩

/-- The own slots of a member are settled up to the first failure, the result of a method last. -/
def settleOwn (site : Site) (member : Member) : Except Unresolved Member :=
  let scopes := site.scopesOf member
  match member with
  | .field content =>
      match content.slot.settle site.lookup scopes with
      | .error unresolved => .error unresolved
      | .ok slot => .ok (.field { content with slot := slot })
  | .method content =>
      match FormalParameter.settleAll site.lookup scopes content.parameters with
      | .error unresolved => .error unresolved
      | .ok parameters =>
          match content.returns.settle site.lookup scopes with
          | .error unresolved => .error unresolved
          | .ok returns =>
              .ok (.method { content with parameters := parameters, returns := returns })
  | .constructor content =>
      match FormalParameter.settleAll site.lookup scopes content.parameters with
      | .error unresolved => .error unresolved
      | .ok parameters => .ok (.constructor { content with parameters := parameters })

/-- A member that fails is removed, and its failed bounds have been reported by then. -/
def settle (site : Site) (member : Member) : Settled (Option Member) :=
  let bounds := member.settleBounds site
  match bounds.value.settleOwn site with
  | .ok settled => ⟨some settled, bounds.tally, bounds.events⟩
  | .error unresolved =>
      let label := member.label site.name
      ⟨none, bounds.tally + ⟨1, 0, 0⟩,
        bounds.events ++
          [.unresolved unresolved, .removingMember label unresolved.cause,
            .reported (.memberRemoved label unresolved.cause)]⟩

/-- One round settles the members of one kind and leaves the others in their places. -/
def settleRound (site : Site) (kind : MemberKind) : List Member → Settled (List Member)
  | [] => ⟨[], .zero, []⟩
  | member :: rest =>
      let later := settleRound site kind rest
      if member.kind = kind then
        let settled := member.settle site
        ⟨settled.value.toList ++ later.value, settled.tally + later.tally,
          settled.events ++ later.events⟩
      else ⟨member :: later.value, later.tally, later.events⟩

/-- The rounds follow one another, each on what the one before it left. -/
def settleRounds (site : Site) : List MemberKind → List Member → Settled (List Member)
  | [], members => ⟨members, .zero, []⟩
  | kind :: rest, members =>
      let round := settleRound site kind members
      let later := settleRounds site rest round.value
      ⟨later.value, round.tally + later.tally, round.events ++ later.events⟩

end Member

end TypeGraph
