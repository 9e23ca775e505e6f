import Bindery.Package.Generation
import Mathlib.Data.List.Induction
import Mathlib.Data.List.Count
import Mathlib.Data.List.Nodup
import Mathlib.Data.List.Sort

/-!
Reports of generations. The outcomes of modules bear the places of the modules in the list, and the
report sorts them by these. So it tells of each module once, in the order in which the modules were
first asked for, whatever the order of the outcomes is (`GenerationReport.tells_ofOutcomes`), and
what it tells is determined by what the generations returned (`GenerationReport.Tells.unique`).
-/

set_option autoImplicit false
set_option relaxedAutoImplicit false

namespace Bindery

/-- Without repetitions, a list is in the order of first occurrences. -/
theorem pairwise_addAllNew {α : Type} [BEq α] [LawfulBEq α] (l : List α) :
    (addAllNew [] l).Pairwise fun a b ↦ l.idxOf a < l.idxOf b := by
  induction l using List.reverseRecOn with
  | nil => exact List.Pairwise.nil
  | append_singleton l c ih =>
    have hmem {a : α} (ha : a ∈ addAllNew [] l) : a ∈ l := by simpa using mem_addAllNew.1 ha
    have hkept : (addAllNew [] l).Pairwise fun a b ↦ (l ++ [c]).idxOf a < (l ++ [c]).idxOf b :=
      ih.imp_of_mem fun ha hb hlt ↦ by
        rwa [List.idxOf_append_of_mem (hmem ha), List.idxOf_append_of_mem (hmem hb)]
    rw [addAllNew, List.foldl_append]
    change (addNew (addAllNew [] l) c).Pairwise _
    rw [addNew]
    split <;> rename_i hc
    · exact hkept
    · have hfresh : c ∉ l := fun h ↦ hc (List.contains_iff_mem.2 (mem_addAllNew.2 (.inr h)))
      refine List.pairwise_append.2 ⟨hkept, List.pairwise_singleton _ _, fun a ha b hb ↦ ?_⟩
      rw [List.mem_singleton.1 hb, List.idxOf_append_of_mem (hmem ha),
        List.idxOf_append_of_notMem hfresh]
      exact Nat.lt_add_right _ (List.idxOf_lt_length_of_mem (hmem ha))

namespace Outcome

/-- A module with its place. -/
def entry (outcome : Outcome) : String × Nat := (outcome.module, outcome.place)

/-- What the generation of the module returned. -/
def returned (outcome : Outcome) : String × Except Error Unit := (outcome.module, outcome.result)

def generated? (outcome : Outcome) : Option String :=
  match outcome.result with
  | .ok () => some outcome.module
  | .error _ => none

def failure? (outcome : Outcome) : Option (String × Error) :=
  match outcome.result with
  | .ok () => none
  | .error e => some (outcome.module, e)

theorem generated?_eq_some_iff {outcome : Outcome} {module : String} :
    outcome.generated? = some module ↔ outcome.returned = (module, .ok ()) := by
  rcases outcome with ⟨place, name, _ | _⟩ <;> simp [generated?, returned]

theorem failure?_eq_some_iff {outcome : Outcome} {failure : String × Error} :
    outcome.failure? = some failure ↔ outcome.returned = (failure.1, .error failure.2) := by
  rcases outcome with ⟨place, name, _ | _⟩ <;> simp [failure?, returned, Prod.ext_iff]

end Outcome

namespace GenerationReport

theorem foldl_add (outcomes : List Outcome) (report : GenerationReport) :
    outcomes.foldl add report =
      { generated := report.generated ++ outcomes.filterMap Outcome.generated?
        failures := report.failures ++ outcomes.filterMap Outcome.failure? } := by
  induction outcomes generalizing report with
  | nil => simp
  | cons outcome outcomes ih =>
    rw [List.foldl_cons, ih]
    rcases outcome with ⟨place, name, _ | _⟩ <;>
      simp [add, Outcome.generated?, Outcome.failure?, List.filterMap_cons]

/-- Each outcome is either a module that was generated or one that failed. -/
theorem perm_listed (outcomes : List Outcome) :
    (outcomes.filterMap Outcome.generated? ++
      (outcomes.filterMap Outcome.failure?).map Prod.fst).Perm (outcomes.map Outcome.module) := by
  induction outcomes with
  | nil => exact .nil
  | cons outcome outcomes ih =>
    rcases outcome with ⟨place, name, e | _⟩
    · simpa [Outcome.generated?, Outcome.failure?, List.filterMap_cons] using
        List.perm_middle.trans (ih.cons name)
    · simpa [Outcome.generated?, Outcome.failure?, List.filterMap_cons] using ih

/-- Of each module that was asked for, the report tells once what its generation returned, in the
order in which the modules were first asked for. -/
structure Tells (report : GenerationReport) (modules : List String)
    (returns : List (String × Except Error Unit)) : Prop where
  count_listed : ∀ module, (report.generated ++ report.failures.map Prod.fst).count module =
    if module ∈ modules then 1 else 0
  mem_generated : ∀ module, module ∈ report.generated ↔ (module, .ok ()) ∈ returns
  mem_failures : ∀ module e, (module, e) ∈ report.failures ↔ (module, .error e) ∈ returns
  generated_ordered : report.generated.Pairwise fun a b ↦ modules.idxOf a < modules.idxOf b
  failures_ordered : report.failures.Pairwise fun a b ↦ modules.idxOf a.1 < modules.idxOf b.1

variable {modules : List String} {outcomes : List Outcome}

/-- Sorted by their places, the outcomes are in the order of the list. -/
theorem entries_mergeSort {names : List String}
    (h : (outcomes.map Outcome.entry).Perm names.zipIdx) :
    (outcomes.mergeSort fun a b ↦ decide (a.place ≤ b.place)).map Outcome.entry =
      names.zipIdx := by
  have hsorted : (outcomes.mergeSort fun a b ↦ decide (a.place ≤ b.place)).Pairwise
      fun a b ↦ a.place ≤ b.place := by
    have htotal := @List.pairwise_mergeSort _ (fun a b : Outcome ↦ decide (a.place ≤ b.place))
      (fun a b c hab hbc ↦ by simp at *; omega) (fun a b ↦ by simp; omega) outcomes
    exact htotal.imp fun hle ↦ of_decide_eq_true hle
  have hplaces : names.zipIdx.Pairwise fun a b ↦ a.2 ≤ b.2 := by
    rw [← List.pairwise_map (f := Prod.snd) (R := (· ≤ ·)), List.zipIdx_map_snd]
    exact List.pairwise_le_range'
  have hperm := ((List.mergeSort_perm outcomes fun a b ↦ decide (a.place ≤ b.place)).map
    Outcome.entry).trans h
  refine hperm.eq_of_pairwise (fun a b ha hb hab hba ↦ ?_) (List.pairwise_map.2 hsorted) hplaces
  have ha := List.mem_zipIdx_iff_getElem?.1 (hperm.mem_iff.1 ha)
  have hb := List.mem_zipIdx_iff_getElem?.1 hb
  rw [Nat.le_antisymm hab hba, hb] at ha
  exact Prod.ext (Option.some.inj ha).symm (Nat.le_antisymm hab hba)

/-- When each module has one outcome, the report tells what the outcomes are. -/
theorem tells_ofOutcomes (h : (outcomes.map Outcome.entry).Perm (addAllNew [] modules).zipIdx) :
    (ofOutcomes outcomes).Tells modules (outcomes.map Outcome.returned) := by
  have hentries := entries_mergeSort h
  have hperm := List.mergeSort_perm outcomes fun a b ↦ decide (a.place ≤ b.place)
  rw [ofOutcomes, foldl_add]
  generalize outcomes.mergeSort (fun a b ↦ decide (a.place ≤ b.place)) = sorted at *
  have hnames : sorted.map Outcome.module = addAllNew [] modules := by
    have hfst := congrArg (List.map Prod.fst) hentries
    simpa [Outcome.entry, Function.comp_def] using hfst
  have hordered : sorted.Pairwise fun a b ↦ modules.idxOf a.module < modules.idxOf b.module := by
    rw [← List.pairwise_map (f := Outcome.module)
      (R := fun a b ↦ modules.idxOf a < modules.idxOf b), hnames]
    exact pairwise_addAllNew modules
  have hmodule {outcome : Outcome} {module : String} {result : Except Error Unit}
      (hreturned : outcome.returned = (module, result)) : outcome.module = module :=
    congrArg Prod.fst hreturned
  exact {
    count_listed := fun module ↦ by
      have hcount := (perm_listed sorted).count_eq module
      rw [hnames, (nodup_addAllNew List.nodup_nil modules).count] at hcount
      simpa [mem_addAllNew] using hcount
    mem_generated := fun module ↦ by
      simp only [List.nil_append, List.mem_filterMap, List.mem_map, hperm.mem_iff,
        Outcome.generated?_eq_some_iff]
    mem_failures := fun module e ↦ by
      simp only [List.nil_append, List.mem_filterMap, List.mem_map, hperm.mem_iff,
        Outcome.failure?_eq_some_iff]
    generated_ordered := List.pairwise_filterMap.2 <| hordered.imp fun hlt a ha b hb ↦ by
      rwa [← hmodule (Outcome.generated?_eq_some_iff.1 ha),
        ← hmodule (Outcome.generated?_eq_some_iff.1 hb)]
    failures_ordered := List.pairwise_filterMap.2 <| hordered.imp fun hlt a ha b hb ↦ by
      rwa [← hmodule (Outcome.failure?_eq_some_iff.1 ha),
        ← hmodule (Outcome.failure?_eq_some_iff.1 hb)] }

/-- The order in which generations ended does not count. -/
theorem Tells.of_returns {report : GenerationReport}
    {returns returns' : List (String × Except Error Unit)} (h : report.Tells modules returns)
    (hreturns : ∀ r, r ∈ returns ↔ r ∈ returns') : report.Tells modules returns' :=
  { h with
    mem_generated := fun module ↦ (h.mem_generated module).trans (hreturns _)
    mem_failures := fun module e ↦ (h.mem_failures module e).trans (hreturns _) }

/-- Lists that are strictly ordered by a key are determined by their elements. -/
theorem eq_of_ordered {α : Type} {key : α → Nat} {l l' : List α}
    (h : l.Pairwise fun a b ↦ key a < key b) (h' : l'.Pairwise fun a b ↦ key a < key b)
    (hmem : ∀ a, a ∈ l ↔ a ∈ l') : l = l' :=
  have : Std.Irrefl fun a b ↦ key a < key b := ⟨fun _ ↦ Nat.lt_irrefl _⟩
  h.eq_of_mem_iff h' hmem

/-- What was returned determines the report. -/
theorem Tells.unique {report report' : GenerationReport}
    {returns returns' : List (String × Except Error Unit)} (h : report.Tells modules returns)
    (h' : report'.Tells modules returns') (hreturns : ∀ r, r ∈ returns ↔ r ∈ returns') :
    report = report' := by
  obtain ⟨generated, failures⟩ := report
  obtain ⟨generated', failures'⟩ := report'
  have hgenerated : generated = generated' :=
    eq_of_ordered h.generated_ordered h'.generated_ordered fun module ↦ by
      rw [h.mem_generated, h'.mem_generated, hreturns]
  have hfailures : failures = failures' :=
    eq_of_ordered h.failures_ordered h'.failures_ordered fun failure ↦ by
      rw [h.mem_failures, h'.mem_failures, hreturns]
  rw [hgenerated, hfailures]

end GenerationReport

end Bindery
