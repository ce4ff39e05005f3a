import TypeGraph.Proofs.Signature.Grammar

/-!
This file collects what the grammar of signatures allows. Blanks may be added before every form,
chains may be joined, and the arguments of all segments of a name form one chain.
-/

namespace TypeGraph.Signature

open Text

/-! ### Blanks before a text -/

/-- Further blanks may stand in front of a terminal. -/
theorem Terminal.prepend {spelling text blanks : List Char} (blank : Blank blanks)
    (spelled : Terminal spelling text) : Terminal spelling (blanks ++ text) := by
  obtain ⟨others, otherBlank, rfl⟩ := spelled
  refine ⟨blanks ++ others, ?_, by simp⟩
  intro character listed
  exact (List.mem_append.mp listed).elim (blank character) (otherBlank character)

theorem Terminal.refl (spelling : List Char) : Terminal spelling spelling :=
  ⟨[], blank_nil, rfl⟩

/-- Blanks in front of a chain belong to its first item. -/
theorem Chain.prepend {A : Type} {item : List Char → A → Prop} {separator : Char}
    {continues : A → Prop} {text blanks : List Char} {values : List A}
    (each : ∀ text value, item text value → item (blanks ++ text) value)
    (chain : Chain item separator continues text values) :
    Chain item separator continues (blanks ++ text) values := by
  cases chain with
  | last holds => exact .last (each _ _ holds)
  | more holds continued separated later =>
      rw [← List.append_assoc]
      exact .more (each _ _ holds) continued separated later

/-- Blanks in front of a segment belong to its identifier. -/
theorem SegmentForm.prepend {language : List Char → Signature → Prop} {text blanks : List Char}
    {segment : Segment} (blank : Blank blanks) (form : SegmentForm language text segment) :
    SegmentForm language (blanks ++ text) segment := by
  cases form with
  | plain identifier spelled => exact .plain identifier (spelled.prepend blank)
  | generic identifier spelled applied =>
      rw [← List.append_assoc]
      exact .generic identifier (spelled.prepend blank) applied

/-- Blanks before a type change nothing. -/
theorem Derives.prepend {levels : Nat} {text blanks : List Char} {signature : Signature}
    (blank : Blank blanks) (derives : Derives levels text signature) :
    Derives levels (blanks ++ text) signature := by
  cases levels with
  | zero => exact derives
  | succ levels =>
      cases derives with
      | named name dimensions =>
          rw [← List.append_assoc]
          exact .named (name.prepend fun _ _ form => form.prepend blank) dimensions
      | unbounded spelled => exact .unbounded (spelled.prepend blank)
      | bounded spelled introduces written ends each =>
          rw [← List.append_assoc]
          exact .bounded (spelled.prepend blank) introduces written ends each

/-! ### Chains -/

/-- A chain has at least one item. -/
theorem Chain.ne_nil {A : Type} {item : List Char → A → Prop} {separator : Char}
    {continues : A → Prop} {text : List Char} {values : List A}
    (chain : Chain item separator continues text values) : values ≠ [] := by
  cases chain <;> exact List.cons_ne_nil _ _

/-- Every value of a chain has an item. -/
theorem Chain.exists_item {A : Type} {item : List Char → A → Prop} {separator : Char}
    {continues : A → Prop} {text : List Char} {values : List A}
    (chain : Chain item separator continues text values) :
    ∀ value ∈ values, ∃ part, item part value := by
  induction chain with
  | last holds =>
      intro value listed
      rw [List.mem_singleton.mp listed]
      exact ⟨_, holds⟩
  | more holds _ _ _ inductionHypothesis =>
      exact List.forall_mem_cons.mpr ⟨⟨_, holds⟩, inductionHypothesis⟩

/-- Two chains are joined by one more separator. -/
theorem Chain.append {A : Type} {item : List Char → A → Prop} {separator : Char}
    {first second : List Char} {values others : List A}
    (chain : Chain item separator (fun _ => True) first values)
    (later : Chain item separator (fun _ => True) second others) :
    Chain item separator (fun _ => True) (first ++ ([separator] ++ second)) (values ++ others) := by
  induction chain with
  | last holds => exact .more holds trivial (.refl _) later
  | more holds _ separated _ inductionHypothesis =>
      simp only [List.append_assoc] at inductionHypothesis ⊢
      exact .more holds trivial separated inductionHypothesis

/-! ### Segments -/

theorem IsIdentifier.isWord {letters : List Char} (identifier : IsIdentifier letters) :
    IsWord letters := by
  obtain ⟨first, rest, rfl, starts, parts⟩ := identifier
  exact ⟨List.cons_ne_nil _ _,
    List.forall_mem_cons.mpr ⟨isIdentifierPart_of_isIdentifierStart starts, parts⟩⟩

/-- No dot starts the text of an identifier, blanks included. -/
theorem IsIdentifier.ne_dot {letters text : List Char} (identifier : IsIdentifier letters)
    (spelled : Terminal letters text) (back later : List Char) : text ++ back ≠ '.' :: later := by
  obtain ⟨first, rest, rfl, starts, -⟩ := identifier
  obtain ⟨blanks, blank, rfl⟩ := spelled
  intro same
  cases blanks with
  | nil =>
      rw [(List.cons.inj same).1] at starts
      exact absurd starts (by decide +kernel)
  | cons head others =>
      have dot := blank head List.mem_cons_self
      rw [(List.cons.inj same).1] at dot
      exact absurd dot (by decide +kernel)

/-- The letters of a segment form an identifier. -/
theorem SegmentForm.isIdentifier {language : List Char → Signature → Prop} {text : List Char}
    {segment : Segment} (form : SegmentForm language text segment) :
    IsIdentifier segment.letters := by
  cases form with
  | plain identifier spelled => exact identifier
  | generic identifier spelled applied => exact identifier

/-- The name of a longer chain is its first identifier, a dot and the name of the others. -/
theorem Segment.dotted_cons {segment : Segment} {segments : List Segment} (more : segments ≠ []) :
    Segment.dotted (segment :: segments) =
      String.ofList segment.letters ++ "." ++ Segment.dotted segments := by
  rw [dotted, List.map_cons, String.intercalate_cons_of_ne_nil (by simpa using more)]
  rfl

/-- Names and wildcards are told apart by their first character. -/
theorem dotted_ne_wildcardName {language : List Char → Signature → Prop} {text : List Char}
    {segments : List Segment}
    (chain : Chain (SegmentForm language) '.' (fun _ => True) text segments) :
    Segment.dotted segments ≠ wildcardName := by
  have first : ∀ (segment : Segment) (others : List Segment), IsIdentifier segment.letters →
      Segment.dotted (segment :: others) ≠ wildcardName := by
    intro segment others identifier same
    obtain ⟨letter, letters, spelled, starts, -⟩ := identifier
    have leads : ∃ later, (Segment.dotted (segment :: others)).toList = letter :: later := by
      cases others with
      | nil => exact ⟨letters, by simp [Segment.dotted, spelled]⟩
      | cons second rest =>
          rw [Segment.dotted_cons (List.cons_ne_nil _ _)]
          simp only [String.toList_append, String.toList_ofList, spelled, List.cons_append]
          exact ⟨_, rfl⟩
    obtain ⟨later, head⟩ := leads
    have mark : letter = '?' := by
      rw [same] at head
      exact (List.cons.inj head).1.symm
    rw [mark] at starts
    exact absurd starts (by decide +kernel)
  cases chain with
  | last holds => exact first _ [] holds.isIdentifier
  | more holds _ _ _ => exact first _ _ holds.isIdentifier

/-- Gathered arguments are those that the reader joins. -/
theorem Segment.joinArguments_eq_gather (segments : List Segment) :
    Segment.joinArguments segments = Segment.gather segments := by
  induction segments with
  | nil => rfl
  | cons segment rest inductionHypothesis =>
      obtain ⟨letters, arguments⟩ := segment
      have joined : (Segment.joinArguments rest).getD [] =
          rest.flatMap fun segment => segment.arguments.getD [] := by
        rw [inductionHypothesis, Segment.gather]
        split
        next plain =>
          have empty : ∀ segment ∈ rest, segment.arguments.getD [] = [] := by
            intro segment listed
            have absent := List.all_eq_true.mp plain segment listed
            rw [Option.isNone_iff_eq_none.mp absent]
            rfl
          exact (List.flatMap_eq_nil_iff.mpr empty).symm
        next => rfl
      cases arguments with
      | none =>
          rw [Segment.joinArguments, inductionHypothesis]
          simp [Segment.gather]
      | some list =>
          rw [Segment.joinArguments, joined]
          simp [Segment.gather]

/-- The arguments of all segments form one chain. -/
theorem Chain.exists_arguments {language : List Char → Signature → Prop} {text : List Char}
    {segments : List Segment} {arguments : List Signature}
    (chain : Chain (SegmentForm language) '.' (fun _ => True) text segments)
    (gathered : Segment.gather segments = some arguments) :
    ∃ inner, Chain language ',' (fun _ => True) inner arguments := by
  rw [← Segment.joinArguments_eq_gather] at gathered
  induction chain generalizing arguments with
  | last holds =>
      cases holds with
      | plain identifier spelled => cases gathered
      | generic identifier spelled applied =>
          cases applied with
          | enclosed opens each closes =>
              rw [Segment.joinArguments, Segment.joinArguments, Option.getD_none,
                List.append_nil] at gathered
              cases gathered
              exact ⟨_, each⟩
  | more holds _ separated later inductionHypothesis =>
      cases holds with
      | plain identifier spelled => exact inductionHypothesis gathered
      | generic identifier spelled applied =>
          cases applied with
          | enclosed opens each closes =>
              rw [Segment.joinArguments] at gathered
              cases tail : Segment.joinArguments _ with
              | none =>
                  rw [tail, Option.getD_none, List.append_nil] at gathered
                  cases gathered
                  exact ⟨_, each⟩
              | some others =>
                  obtain ⟨inner, chain⟩ := inductionHypothesis tail
                  rw [tail, Option.getD_some] at gathered
                  cases gathered
                  exact ⟨_, each.append chain⟩

/-! ### Trees -/

/-- A regular signature is a name without bounds or a wildcard without arguments and dimensions.
Only wildcards have the name of wildcards, and no list of arguments is empty. -/
inductive IsRegular : Signature → Prop where
  | named {name : String} {arguments : Option (List Signature)} (rank : Nat)
      (tame : name ≠ wildcardName) (nonempty : arguments ≠ some [])
      (each : ∀ list, arguments = some list → ∀ argument ∈ list, IsRegular argument) :
      IsRegular ⟨name, arguments, rank, .unbounded, []⟩
  | wildcard {bound : BoundKind} {constraints : List Signature}
      (bounded : bound = .unbounded ↔ constraints = [])
      (each : ∀ constraint ∈ constraints, IsRegular constraint) :
      IsRegular ⟨wildcardName, none, 0, bound, constraints⟩

/-- Every tree of the grammar is regular. -/
theorem Derives.isRegular {levels : Nat} {text : List Char} {signature : Signature}
    (derives : Derives levels text signature) : signature.IsRegular := by
  induction levels generalizing text signature with
  | zero => exact absurd derives id
  | succ levels inductionHypothesis =>
      have all : ∀ {separator continues text} {signatures : List Signature},
          Chain (Derives levels) separator continues text signatures →
            ∀ signature ∈ signatures, signature.IsRegular := by
        intro separator continues text signatures chain signature listed
        obtain ⟨part, holds⟩ := chain.exists_item signature listed
        exact inductionHypothesis holds
      cases derives with
      | named name dimensions =>
          refine .named _ (dotted_ne_wildcardName name) ?_ ?_
          · intro gathered
            obtain ⟨inner, chain⟩ := name.exists_arguments gathered
            exact chain.ne_nil rfl
          · intro list gathered
            obtain ⟨inner, chain⟩ := name.exists_arguments gathered
            exact all chain
      | unbounded spelled =>
          refine .wildcard (iff_of_true rfl rfl) ?_
          intro constraint listed
          cases listed
      | bounded spelled introduces written ends each =>
          refine .wildcard (iff_of_false ?_ each.ne_nil) (all each)
          intro same
          subst same
          cases introduces

end TypeGraph.Signature
