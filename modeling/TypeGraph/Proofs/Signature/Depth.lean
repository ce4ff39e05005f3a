import TypeGraph.Proofs.Signature.Parser

/-!
This file measures the depth of angle brackets in a text. The text of a signature comes back to the
depth at which it starts, and all of its commas are deeper. So a list of such texts can be read off
when they are joined by commas.
-/

namespace TypeGraph.Signature

open Text

/-- The characters that matter to the depth. -/
def delimiters : List Char :=
  ['<', '>', ',', '(', ')']

/-- No delimiter is blank. -/
theorem isBlank_of_mem_delimiters {character : Char} (listed : character ∈ delimiters) :
    isBlank character = false := by
  have all : delimiters.all (fun character => !isBlank character) = true := by decide +kernel
  simpa using List.all_eq_true.mp all character listed

/-- No delimiter belongs to an identifier. -/
theorem isIdentifierPart_of_mem_delimiters {character : Char} (listed : character ∈ delimiters) :
    isIdentifierPart character = false := by
  have all : delimiters.all (fun character => !isIdentifierPart character) = true := by
    decide +kernel
  simpa using List.all_eq_true.mp all character listed

/-- Brackets change the depth. There is none behind a bracket that closes nothing, behind a comma
outside of all brackets and behind a parenthesis. -/
def depthAfter (depth : Nat) : Char → Option Nat
  | '<' => some (depth + 1)
  | '>' => if depth = 0 then none else some (depth - 1)
  | ',' => if depth = 0 then none else some depth
  | '(' => none
  | ')' => none
  | _ => some depth

/-- A text keeps its depth when it comes back to every depth from the least one on. -/
def KeepsDepth (least : Nat) (text : List Char) : Prop :=
  ∀ depth, least ≤ depth → text.foldlM depthAfter depth = some depth

/-- Other characters leave the depth as it is. -/
theorem depthAfter_of_notMem {character : Char} (free : character ∉ delimiters) (depth : Nat) :
    depthAfter depth character = some depth := by
  unfold depthAfter
  split
  case h_6 => rfl
  all_goals exact absurd (by decide) free

/-! ### Texts that keep their depth -/

variable {least : Nat} {text : List Char}

theorem keepsDepth_nil : KeepsDepth least [] :=
  fun _ _ => rfl

/-- Texts that keep their depth can be put together. -/
theorem KeepsDepth.append {first second : List Char} (firstKeeps : KeepsDepth least first)
    (secondKeeps : KeepsDepth least second) : KeepsDepth least (first ++ second) := by
  intro depth above
  rw [List.foldlM_append, firstKeeps depth above]
  exact secondKeeps depth above

theorem KeepsDepth.mono (keeps : KeepsDepth 0 text) (least : Nat) : KeepsDepth least text :=
  fun depth _ => keeps depth (Nat.zero_le depth)

/-- A text without delimiters keeps its depth. -/
theorem keepsDepth_of_notMem (free : ∀ character ∈ text, character ∉ delimiters) :
    KeepsDepth least text := by
  intro depth above
  induction text with
  | nil => rfl
  | cons first rest inductionHypothesis =>
      rw [List.foldlM_cons, depthAfter_of_notMem (free first List.mem_cons_self)]
      exact inductionHypothesis fun character listed => free character (List.mem_cons_of_mem _ listed)

theorem Blank.keepsDepth (blank : Blank text) : KeepsDepth least text := by
  apply keepsDepth_of_notMem
  intro character listed delimits
  have visible := blank character listed
  rw [isBlank_of_mem_delimiters delimits] at visible
  cases visible

theorem IsWord.keepsDepth (word : IsWord text) : KeepsDepth least text := by
  apply keepsDepth_of_notMem
  intro character listed delimits
  have part := word.2 character listed
  rw [isIdentifierPart_of_mem_delimiters delimits] at part
  cases part

/-- The depth behind a terminal depends on its spelling only. -/
theorem Terminal.foldlM_depthAfter {spelling : List Char} (spelled : Terminal spelling text)
    (depth : Nat) : text.foldlM depthAfter depth = spelling.foldlM depthAfter depth := by
  obtain ⟨blanks, blank, rfl⟩ := spelled
  rw [List.foldlM_append, blank.keepsDepth depth (Nat.zero_le depth)]
  rfl

theorem Terminal.keepsDepth {spelling : List Char} (spelled : Terminal spelling text)
    (keeps : KeepsDepth least spelling) : KeepsDepth least text :=
  fun depth above => (spelled.foldlM_depthAfter depth).trans (keeps depth above)

/-- A chain keeps its depth when its items and its separator do. -/
theorem Chain.keepsDepth {A : Type} {item : List Char → A → Prop} {separator : Char}
    {continues : A → Prop} {values : List A} (separates : KeepsDepth least [separator])
    (items : ∀ text value, item text value → KeepsDepth least text)
    (chain : Chain item separator continues text values) : KeepsDepth least text := by
  induction chain with
  | last holds => exact items _ _ holds
  | more holds continued separated later inductionHypothesis =>
      exact (items _ _ holds).append ((separated.keepsDepth separates).append inductionHypothesis)

theorem Dimensions.keepsDepth {rank : Nat} (dimensions : Dimensions text rank) :
    KeepsDepth least text := by
  induction dimensions with
  | flat => exact keepsDepth_nil
  | ellipsis spelled => exact spelled.keepsDepth (keepsDepth_of_notMem (by simp [delimiters]))
  | brackets opens closes later inductionHypothesis =>
      have bracket : KeepsDepth least ['['] := keepsDepth_of_notMem (by simp [delimiters])
      have closingBracket : KeepsDepth least [']'] := keepsDepth_of_notMem (by simp [delimiters])
      exact (opens.keepsDepth bracket).append
        ((closes.keepsDepth closingBracket).append inductionHypothesis)

section Nested

variable {language : List Char → Signature → Prop}
  (nested : ∀ text signature, language text signature → KeepsDepth 0 text)

include nested

/-- Arguments are one level deeper, so commas are allowed between them. -/
theorem Arguments.keepsDepth {arguments : List Signature}
    (applied : Arguments language text arguments) : KeepsDepth 0 text := by
  cases applied with
  | @enclosed opening inner closing _ opens each closes =>
      have commas : KeepsDepth 1 [','] := by
        intro depth above
        simp [depthAfter, show depth ≠ 0 by omega]
      have inside : KeepsDepth 1 inner :=
        each.keepsDepth commas fun text signature holds => (nested text signature holds).mono 1
      intro depth _
      rw [List.foldlM_append, opens.foldlM_depthAfter]
      change (inner ++ closing).foldlM depthAfter (depth + 1) = some depth
      rw [List.foldlM_append, inside (depth + 1) (Nat.le_add_left 1 depth)]
      exact closes.foldlM_depthAfter (depth + 1)

/-- A segment closes every bracket that it opens. -/
theorem SegmentForm.keepsDepth {segment : Segment} (form : SegmentForm language text segment) :
    KeepsDepth 0 text := by
  cases form with
  | plain identifier spelled => exact spelled.keepsDepth identifier.isWord.keepsDepth
  | generic identifier spelled applied =>
      exact (spelled.keepsDepth identifier.isWord.keepsDepth).append (applied.keepsDepth nested)

/-- A type closes every bracket that it opens when the types in it do. -/
theorem TypeForm.keepsDepth {signature : Signature} (form : TypeForm language text signature) :
    KeepsDepth 0 text := by
  have mark {character : Char} (free : character ∉ delimiters) : KeepsDepth 0 [character] :=
    keepsDepth_of_notMem (List.forall_mem_singleton.mpr free)
  cases form with
  | named name dimensions =>
      have segments := name.keepsDepth (mark (by decide)) fun _ _ form => form.keepsDepth nested
      exact segments.append dimensions.keepsDepth
  | unbounded spelled => exact spelled.keepsDepth (mark (by decide))
  | @bounded _ _ _ bound word _ spelled introduces written _ each =>
      have keyword : KeepsDepth 0 word.toList := (isWord_of_keyword? introduces).keepsDepth
      exact (spelled.keepsDepth (mark (by decide))).append
        ((written.keepsDepth keyword).append (each.keepsDepth (mark (by decide)) nested))

end Nested

/-- Every text of the grammar closes its brackets, by induction on the levels of nesting. -/
theorem Derives.keepsDepth {levels : Nat} {signature : Signature}
    (derives : Derives levels text signature) : KeepsDepth 0 text := by
  induction levels generalizing text signature with
  | zero => cases derives
  | succ levels inductionHypothesis =>
      exact TypeForm.keepsDepth (fun _ _ inner => inductionHypothesis inner) derives

/-- The texts behind a list are each introduced by a comma and a space. -/
def behind (texts : List (List Char)) : List Char :=
  texts.flatMap fun text => ',' :: ' ' :: text

variable {texts others : List String}

end TypeGraph.Signature
