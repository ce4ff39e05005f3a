import TypeGraph.Proofs.Resolution.Signature
import TypeGraph.Proofs.Signature.Parser
import TypeGraph.Reference.Render

/-!
This file shows that the text of a resolved reference resolves to the same reference. The text
derives from the grammar without deeper nesting than the text that was resolved first, although its
segments, arguments and dimensions may be spelled in other ways.
-/

namespace TypeGraph.Signature

open Text

/-! ### Spelling names again -/

/-- The arguments of a name can all be attached to its last segment. -/
def Segment.withLast (arguments : Option (List Signature)) : List Segment → List Segment
  | [] => []
  | [segment] => [⟨segment.letters, arguments⟩]
  | segment :: second :: rest => ⟨segment.letters, none⟩ :: withLast arguments (second :: rest)

/-- Arguments are no part of a dotted name. -/
theorem Segment.dotted_withLast (arguments : Option (List Signature)) (segments : List Segment) :
    Segment.dotted (Segment.withLast arguments segments) = Segment.dotted segments := by
  have letters : ∀ segments : List Segment,
      (withLast arguments segments).map Segment.letters = segments.map Segment.letters := by
    intro segments
    fun_induction withLast arguments segments with
    | case1 => rfl
    | case2 => rfl
    | case3 segment second rest inductionHypothesis =>
        rw [List.map_cons, inductionHypothesis]
        rfl
  have same := congrArg (List.map String.ofList) (letters segments)
  simp only [List.map_map] at same
  exact congrArg (".".intercalate) same

/-- Arguments of the last segment are those of the whole name. -/
theorem Segment.gather_withLast (arguments : Option (List Signature)) {segments : List Segment}
    (nonempty : segments ≠ []) :
    Segment.gather (Segment.withLast arguments segments) = arguments := by
  fun_induction withLast arguments segments with
  | case1 => exact absurd rfl nonempty
  | case2 segment => cases arguments <;> simp [gather]
  | case3 segment second rest inductionHypothesis =>
      have tail := inductionHypothesis (List.cons_ne_nil _ _)
      rw [← joinArguments_eq_gather] at tail ⊢
      exact tail

/-- A name is spelled again without blanks, with all of its arguments at its end. -/
theorem Chain.withLast {language : List Char → Signature → Prop} {text rest : List Char}
    {segments : List Segment} {arguments : Option (List Signature)}
    (chain : Chain (SegmentForm language) '.' (fun _ => True) text segments)
    (last : ∀ letters, IsIdentifier letters →
      SegmentForm language (letters ++ rest) ⟨letters, arguments⟩) :
    Chain (SegmentForm language) '.' (fun _ => True) ((Segment.dotted segments).toList ++ rest)
      (Segment.withLast arguments segments) := by
  induction chain with
  | @last text segment holds =>
      have spelled : (Segment.dotted [segment]).toList = segment.letters := by simp [Segment.dotted]
      rw [spelled]
      exact .last (last segment.letters holds.isIdentifier)
  | @more first mark after segment segments holds _ separated later inductionHypothesis =>
      have more := later.ne_nil
      obtain ⟨second, others, rfl⟩ := List.exists_cons_of_ne_nil more
      rw [Segment.dotted_cons more]
      simp only [String.toList_append, String.toList_ofList, List.append_assoc]
      exact .more (.plain holds.isIdentifier (.refl _)) trivial (.refl _)
        inductionHypothesis

/-! ### Spelling dimensions and lists again -/

/-- The dimensions of a text are written as pairs of brackets. -/
theorem dimensions_toList (rank : Nat) : Dimensions (Reference.dimensions rank).toList rank := by
  induction rank with
  | zero => exact .flat
  | succ rank inductionHypothesis =>
      have step : (Reference.dimensions (rank + 1)).toList =
          ['['] ++ ([']'] ++ (Reference.dimensions rank).toList) := by
        simp [Reference.dimensions, List.replicate_succ]
      rw [step]
      exact .brackets (.refl _) (.refl _) inductionHypothesis

/-- An array is written as its element and its dimensions, none included. -/
theorem render_arrayOf (element : Reference) (rank : Nat) :
    (Reference.arrayOf element rank).render =
      element.render ++ Reference.dimensions rank := by
  unfold Reference.arrayOf
  split
  next flat => simp [flat, Reference.dimensions]
  next => rw [Reference.render]

variable {lookup : Lookup} {scopes : List Scope}

/-- A text is spelled again when the reference that it has derives from the grammar as well, means
the same and is as open to bounds as the text was. -/
def Respelled (lookup : Lookup) (scopes : List Scope) (levels : Nat) (signature : Signature)
    (reference : Reference) : Prop :=
  ∃ again, Derives levels reference.render.toList again ∧
    again.resolve lookup scopes = .ok reference ∧
    (signature.bound = .unbounded → again.bound = .unbounded)

/-- A chain is spelled again when its items are, with the separator and a space between them. -/
theorem Chain.respelled {levels : Nat} {separator : Char} {spacing : String} {mark : List Char}
    {continues : Signature → Prop} (separated : Terminal [separator] mark)
    (spaced : spacing.toList = mark ++ [' '])
    (keeps : ∀ first second : Signature, (first.bound = .unbounded → second.bound = .unbounded) →
      continues first → continues second)
    (each : ∀ text signature reference, Derives levels text signature →
      signature.resolve lookup scopes = .ok reference →
        Respelled lookup scopes levels signature reference)
    {text : List Char} {signatures : List Signature} {references : List Reference}
    (chain : Chain (Derives levels) separator continues text signatures)
    (resolved : resolveAll lookup scopes signatures = .ok references) :
    ∃ again, Chain (Derives levels) separator continues
        (spacing.intercalate (Reference.renderAll references)).toList again ∧
      resolveAll lookup scopes again = .ok references := by
  induction chain generalizing references with
  | @last text signature holds =>
      obtain ⟨reference, others, first, rest, rfl⟩ := resolveAll_cons_eq_ok_iff.mp resolved
      rw [resolveAll_nil] at rest
      cases rest
      obtain ⟨again, derives, means, -⟩ := each text signature reference holds first
      refine ⟨[again], ?_,
        resolveAll_cons_eq_ok_iff.mpr ⟨reference, [], means, resolveAll_nil, rfl⟩⟩
      have single : (spacing.intercalate (Reference.renderAll [reference])).toList =
          reference.render.toList := by
        simp [Reference.renderAll]
      rw [single]
      exact .last derives
  | @more front between after signature signatures holds allowed _ later inductionHypothesis =>
      obtain ⟨reference, others, first, rest, rfl⟩ := resolveAll_cons_eq_ok_iff.mp resolved
      obtain ⟨again, derives, means, asOpen⟩ := each front signature reference holds first
      obtain ⟨agains, tail, meanAll⟩ := inductionHypothesis rest
      refine ⟨again :: agains, ?_,
        resolveAll_cons_eq_ok_iff.mpr ⟨reference, others, means, meanAll, rfl⟩⟩
      have more : Reference.renderAll others ≠ [] := by
        obtain ⟨second, signatures, rfl⟩ := List.exists_cons_of_ne_nil later.ne_nil
        obtain ⟨_, _, -, -, rfl⟩ := resolveAll_cons_eq_ok_iff.mp rest
        exact List.cons_ne_nil _ _
      have spelled : (spacing.intercalate (Reference.renderAll (reference :: others))).toList =
          reference.render.toList ++
            (mark ++ ([' '] ++ (spacing.intercalate (Reference.renderAll others)).toList)) := by
        rw [Reference.renderAll, String.intercalate_cons_of_ne_nil more]
        simp only [String.toList_append, spaced, List.append_assoc]
      rw [spelled]
      exact .more derives (keeps signature again asOpen allowed) separated
        (tail.prepend fun _ _ => Derives.prepend blank_space)

/-! ### Spelling types again -/

/-- The rendering of a named reference is its name with arguments and dimensions. -/
theorem render_declared (target : Handle) (name : String) (references : List Reference)
    (rank : Nat) :
    (Reference.declared target name references rank).render =
      name ++ (if references = [] then ""
        else "<" ++ ", ".intercalate (Reference.renderAll references) ++ ">") ++
          Reference.dimensions rank := by
  cases references with
  | nil => simp [Reference.render]
  | cons first rest =>
      rw [Reference.render, if_neg (List.cons_ne_nil _ _)]
      simp only [Reference.renderAll, String.append_assoc]

/-- A name without arguments is spelled again with its dimensions. -/
theorem Chain.named_plain {language : List Char → Signature → Prop} {text : List Char}
    {segments : List Segment} (rank : Nat)
    (chain : Chain (SegmentForm language) '.' (fun _ => True) text segments) :
    TypeForm language (Segment.dotted segments ++ Reference.dimensions rank).toList
      ⟨Segment.dotted segments, none, rank, .unbounded, []⟩ := by
  have last : ∀ letters, IsIdentifier letters →
      SegmentForm language (letters ++ []) ⟨letters, none⟩ := by
    intro letters identifier
    rw [List.append_nil]
    exact .plain identifier (.refl letters)
  have again := TypeForm.named (chain.withLast last) (dimensions_toList rank)
  rw [Segment.dotted_withLast, Segment.gather_withLast _ chain.ne_nil, List.append_nil,
    ← String.toList_append] at again
  exact again

/-- A name with arguments is spelled again with all of them at its end. -/
theorem Chain.named_generic {language : List Char → Signature → Prop} {text : List Char}
    {segments : List Segment} (rank : Nat) {inner : String} {arguments : List Signature}
    (chain : Chain (SegmentForm language) '.' (fun _ => True) text segments)
    (each : Chain language ',' (fun _ => True) inner.toList arguments) :
    TypeForm language
      (Segment.dotted segments ++ ("<" ++ inner ++ ">") ++ Reference.dimensions rank).toList
      ⟨Segment.dotted segments, some arguments, rank, .unbounded, []⟩ := by
  have last : ∀ letters, IsIdentifier letters →
      SegmentForm language (letters ++ (['<'] ++ (inner.toList ++ ['>']))) ⟨letters, arguments⟩ :=
    fun letters identifier =>
      .generic identifier (.refl letters) (.enclosed (.refl _) each (.refl _))
  have again := TypeForm.named (chain.withLast last) (dimensions_toList rank)
  rw [Segment.dotted_withLast, Segment.gather_withLast _ chain.ne_nil] at again
  simpa [String.toList_append] using again

/-- What a question mark means is spelled again without bounds. -/
theorem respelled_mark {levels : Nat} {signature : Signature} {reference : Reference}
    (rendered : reference.render = wildcardName)
    (resolved : resolve lookup scopes ⟨wildcardName, none, 0, .unbounded, []⟩ = .ok reference) :
    Respelled lookup scopes (levels + 1) signature reference := by
  refine ⟨⟨wildcardName, none, 0, .unbounded, []⟩, ?_, resolved, fun _ => rfl⟩
  rw [rendered]
  exact .unbounded (.refl ['?'])

/-- Every reference of a derived text has a text that derives and resolves to it. -/
theorem Derives.respelled {levels : Nat} {text : List Char} {signature : Signature}
    {reference : Reference} (derives : Derives levels text signature)
    (resolved : signature.resolve lookup scopes = .ok reference) :
    Respelled lookup scopes levels signature reference := by
  induction levels generalizing text signature reference with
  | zero => exact absurd derives id
  | succ levels inductionHypothesis =>
      cases derives with
      | @named front back segments rank name dimensions =>
          have plain := name.named_plain rank
          cases resolve_eq_ok_iff.mp resolved with
          | typeVariable owner owned =>
              refine ⟨⟨Segment.dotted segments, none, rank, .unbounded, []⟩, ?_,
                resolve_eq_ok_iff.mpr (.typeVariable owner owned), fun _ => rfl⟩
              rw [render_arrayOf, Reference.render]
              exact plain
          | wildcard bounds free wild each => exact absurd wild (dotted_ne_wildcardName name)
          | primitive kind free tame keyword _ =>
              refine ⟨⟨Segment.dotted segments, none, rank, .unbounded, []⟩, ?_,
                resolve_eq_ok_iff.mpr (.primitive kind free tame keyword rfl), fun _ => rfl⟩
              rw [render_arrayOf, Reference.render, Primitive.ofKeyword?_eq_some_iff.mp keyword]
              exact plain
          | declared target references free tame keyword found each =>
              rw [Respelled, render_declared]
              by_cases empty : references = []
              · subst empty
                refine ⟨⟨Segment.dotted segments, none, rank, .unbounded, []⟩, ?_,
                  resolve_eq_ok_iff.mpr (.declared target [] free tame keyword found
                    resolveAll_nil), fun _ => rfl⟩
                rw [if_pos rfl, String.append_empty]
                exact plain
              · rw [if_neg empty]
                cases gathered : Segment.gather segments with
                | none =>
                    simp only [argumentList, gathered, Option.getD_none, resolveAll_nil] at each
                    cases each
                    exact absurd rfl empty
                | some arguments =>
                    simp only [argumentList, gathered, Option.getD_some] at each
                    obtain ⟨inner, chain⟩ := name.exists_arguments gathered
                    have spaced : ", ".toList = [','] ++ [' '] := rfl
                    obtain ⟨agains, spelled, means⟩ := chain.respelled (.refl [',']) spaced
                      (fun _ _ _ _ => trivial) (fun _ _ _ => inductionHypothesis) each
                    exact ⟨⟨Segment.dotted segments, some agains, rank, .unbounded, []⟩,
                      name.named_generic rank spelled, resolve_eq_ok_iff.mpr
                        (.declared target references free tame keyword found means), fun _ => rfl⟩
      | unbounded spelled =>
          apply respelled_mark ?_ resolved
          cases resolve_eq_ok_iff.mp resolved with
          | typeVariable owner owned => simp [Reference.arrayOf, Reference.render, wildcardName]
          | wildcard bounds free wild each =>
              simp [Reference.arrayOf, Reference.render, BoundKind.keyword?]
          | primitive kind free tame keyword _ => exact absurd rfl tame
          | declared target references free tame keyword found each => exact absurd rfl tame
      | @bounded mark keyword rest bound word constraints spelled introduces written ends each =>
          cases resolve_eq_ok_iff.mp resolved with
          | typeVariable owner owned =>
              apply respelled_mark
              · simp [Reference.arrayOf, Reference.render, wildcardName]
              · exact resolve_eq_ok_iff.mpr (.typeVariable owner owned)
          | wildcard bounds free wild resolvedAll =>
              have separated : Terminal ['&'] [' ', '&'] := ⟨[' '], blank_space, rfl⟩
              have spaced : " & ".toList = [' ', '&'] ++ [' '] := rfl
              obtain ⟨agains, chain, means⟩ := each.respelled separated spaced
                (fun _ _ keeps => keeps) (fun _ _ _ => inductionHypothesis) resolvedAll
              refine ⟨⟨wildcardName, none, 0, bound, agains⟩, ?_,
                resolve_eq_ok_iff.mpr (.wildcard bounds free rfl means), id⟩
              have rendered : (Reference.arrayOf (.wildcard bound bounds) 0).render.toList =
                  ['?'] ++ (([' '] ++ word.toList) ++
                    ([' '] ++ (" & ".intercalate (Reference.renderAll bounds)).toList)) := by
                simp [Reference.arrayOf, Reference.render, introduces, wildcardName]
              rw [rendered]
              exact .bounded (.refl _) introduces ((Terminal.refl _).prepend blank_space)
                (startsWord_blank_append blank_space (List.cons_ne_nil _ _) _)
                (chain.prepend fun _ _ => Derives.prepend blank_space)
          | primitive kind free tame keyword _ => exact absurd rfl tame
          | declared target references free tame keyword found each => exact absurd rfl tame

end TypeGraph.Signature

namespace TypeGraph

/-- The text of a resolved reference resolves to the very same reference. -/
theorem resolveText_render {lookup : Lookup} {scopes : List Scope} {text : String}
    {reference : Reference} (resolved : resolveText lookup scopes text = .ok reference) :
    resolveText lookup scopes reference.render = .ok reference := by
  obtain ⟨signature, parsed, found⟩ := resolveText_eq_ok_iff.mp resolved
  obtain ⟨body, blanks, -, -, derives⟩ := Signature.parse_eq_ok_iff.mp parsed
  obtain ⟨again, derivesAgain, means, -⟩ := derives.respelled found
  have denotes : Signature.Denotes Signature.maximalNesting reference.render again :=
    ⟨reference.render.toList, [], by simp, Signature.blank_nil, derivesAgain⟩
  exact resolveText_eq_ok_iff.mpr ⟨again, Signature.parse_eq_ok_iff.mpr denotes, means⟩

/-- A wildcard with bounds, arguments and dimensions is read back from its own text. -/
theorem resolveText_render_bounds :
    let lookup : Lookup := fun name => if name = "a.Map" then some ⟨3⟩ else none
    let scopes : List Scope := [⟨.declaration ⟨0⟩, ["T"]⟩]
    let reference : Reference :=
      .wildcard .upper
        [.declared ⟨3⟩ "a.Map"
          [.typeVariable "T" (.declaration ⟨0⟩), .wildcard .lower [.array (.primitive .int) 1]] 0,
        .array (.typeVariable "T" (.declaration ⟨0⟩)) 2]
    resolveText lookup scopes "?extends a<T<int>> . Map<? super int[ ]>&T[] ..." = .ok reference ∧
      resolveText lookup scopes reference.render = .ok reference := by
  intro lookup scopes reference
  have resolved : resolveText lookup scopes "?extends a<T<int>> . Map<? super int[ ]>&T[] ..." =
      .ok reference := by decide +kernel
  exact ⟨resolved, resolveText_render resolved⟩

end TypeGraph
