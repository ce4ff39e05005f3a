import Mathlib.Data.List.Nodup
import Mathlib.Data.List.Perm.Basic
import TypeGraph.Catalog.Package

/-!
This file relates the lookups of a package to its entries. An entry is found by name exactly when
the names of a package are distinct, and a qualified name leads to the entry that it spells.
-/

namespace TypeGraph.Package

/-- A package keeps the entries whose handles are kept. -/
def keep (keeps : Handle → Bool) (package : Package) : Package :=
  { package with entries := package.entries.filter fun entry => keeps entry.2 }

@[simp] theorem name_insert (package : Package) (simple : String) (handle : Handle) :
    (package.insert simple handle).name = package.name := rfl

@[simp] theorem name_empty (name : String) : (Package.empty name).name = name := rfl

@[simp] theorem handles_empty (name : String) : (Package.empty name).handles = [] := rfl

@[simp] theorem handles_insert (package : Package) (simple : String) (handle : Handle) :
    (package.insert simple handle).handles = package.handles ++ [handle] := by
  simp [handles, insert]

/-- A handle is listed when some entry leads to it. -/
theorem mem_handles_iff {package : Package} {handle : Handle} :
    handle ∈ package.handles ↔ ∃ simple, (simple, handle) ∈ package.entries := by
  simp [handles]

/-- The handles of a package are kept with its entries. -/
theorem handles_keep (keeps : Handle → Bool) (package : Package) :
    (package.keep keeps).handles = package.handles.filter keeps := by
  simp [handles, keep, List.filter_map, Function.comp_def]

/-- Entries that are kept twice have to pass both tests. -/
theorem keep_keep (first second : Handle → Bool) (package : Package) :
    (package.keep first).keep second =
      package.keep fun handle => first handle && second handle := by
  simp [keep, List.filter_filter, Bool.and_comm]

/-- A package in which every handle is kept stays as it is. -/
theorem keep_eq_self {keeps : Handle → Bool} {package : Package}
    (all : ∀ handle ∈ package.handles, keeps handle = true) : package.keep keeps = package := by
  have same : package.entries.filter (fun entry => keeps entry.2) = package.entries := by
    apply List.filter_eq_self.mpr
    intro entry listed
    exact all entry.2 (List.mem_map_of_mem listed)
  simp [keep, same]

/-- What is found by its simple name is an entry. -/
theorem mem_entries_of_get? {package : Package} {simple : String} {handle : Handle}
    (found : package.get? simple = some handle) : (simple, handle) ∈ package.entries := by
  obtain ⟨entry, first, rfl⟩ := Option.map_eq_some_iff.mp found
  have same : entry.1 = simple := by simpa using List.find?_some first
  rw [← same]
  exact List.mem_of_find?_eq_some first

/-- An absent name is the name of no entry. -/
theorem get?_eq_none_iff {package : Package} {simple : String} :
    package.get? simple = none ↔ simple ∉ package.entries.map Prod.fst := by
  simp only [get?, Option.map_eq_none_iff, List.find?_eq_none, List.mem_map, not_exists, not_and]
  constructor
  · intro absent entry listed same
    exact absent entry listed (by simpa using same)
  · intro absent entry listed same
    exact absent entry listed (by simpa using same)

/-- Distinct names lead to every entry. -/
theorem get?_eq_some_iff {package : Package} (distinct : (package.entries.map Prod.fst).Nodup)
    {simple : String} {handle : Handle} :
    package.get? simple = some handle ↔ (simple, handle) ∈ package.entries := by
  constructor
  · exact mem_entries_of_get?
  · intro listed
    cases found : package.get? simple with
    | none =>
        exact absurd (List.mem_map_of_mem listed) (get?_eq_none_iff.mp found)
    | some other =>
        have same := List.inj_on_of_nodup_map distinct (mem_entries_of_get? found) listed rfl
        rw [(Prod.mk.inj same).2]

/-- Entries that are not kept are no longer found, and the others still are. -/
theorem get?_keep {package : Package} (distinct : (package.entries.map Prod.fst).Nodup)
    (keeps : Handle → Bool) (simple : String) :
    (package.keep keeps).get? simple = (package.get? simple).filter keeps := by
  have smaller : ((package.keep keeps).entries.map Prod.fst).Nodup :=
    distinct.sublist (List.filter_sublist.map Prod.fst)
  apply Option.ext
  intro handle
  rw [get?_eq_some_iff smaller, Option.filter_eq_some_iff, get?_eq_some_iff distinct]
  exact List.mem_filter

/-- What a front leaves of a text is the text behind it. -/
theorem isPrefixOf?_eq_some_iff {front whole rest : List Char} :
    front.isPrefixOf? whole = some rest ↔ whole = front ++ rest := by
  induction front generalizing whole with
  | nil => simp [List.isPrefixOf?]
  | cons first others inductionHypothesis =>
      cases whole with
      | nil => simp [List.isPrefixOf?]
      | cons head tail =>
          by_cases same : first = head
          · simp [List.isPrefixOf?, same, inductionHypothesis]
          · simp [List.isPrefixOf?, same, Ne.symm same]

/-- A qualified name has the simple name that qualifies to it. -/
theorem simpleName?_eq_some_iff {package : Package} {qualified simple : String} :
    package.simpleName? qualified = some simple ↔ qualify package.name simple = qualified := by
  unfold simpleName? qualify
  split
  next unnamed => simp [eq_comm]
  next named =>
    rw [Option.map_eq_some_iff]
    constructor
    · intro parts
      obtain ⟨rest, found, rfl⟩ := parts
      apply String.toList_inj.mp
      rw [isPrefixOf?_eq_some_iff.mp found]
      simp [String.toList_append]
    · intro spelled
      refine ⟨simple.toList, isPrefixOf?_eq_some_iff.mpr ?_, by simp⟩
      rw [← spelled]
      simp [String.toList_append]

/-- A qualified name is found as the simple name that it leaves. -/
theorem lookup?_eq_some_iff {package : Package} {qualified : String} {handle : Handle} :
    package.lookup? qualified = some handle ↔
      ∃ simple, qualify package.name simple = qualified ∧ package.get? simple = some handle := by
  simp only [lookup?, Option.bind_eq_some_iff, simpleName?_eq_some_iff]

/-- Lookups by qualified name find the entries that are kept and no others. -/
theorem lookup?_keep {package : Package} (distinct : (package.entries.map Prod.fst).Nodup)
    (keeps : Handle → Bool) (qualified : String) :
    (package.keep keeps).lookup? qualified = (package.lookup? qualified).filter keeps := by
  have sameName : (package.keep keeps).simpleName? qualified = package.simpleName? qualified := rfl
  rw [lookup?, lookup?, sameName]
  cases package.simpleName? qualified with
  | none => rfl
  | some simple => exact get?_keep distinct keeps simple

end TypeGraph.Package
