import Bindery.Proofs.Package.Lookup
import Bindery.Proofs.Package.Outputs
import Mathlib.Data.List.Pairwise

/-!
What a session knows about a package. In an orderly package (`Package.Orderly`) each module can be
prepared on its own, and no two of them get in each other's way. What sessions work out for such a
package is then settled by its policies and the files it starts with: a session is coherent
(`Package.Coherent`) when its extractions, its index and its registry say nothing else. Every step
of an analysis starts and ends in coherent sessions, whichever module asks for it, and its outcome
is settled too (`run_extract`, `run_owner`, `run_ensureInterface`, `run_prepare`).
-/

set_option autoImplicit false
set_option relaxedAutoImplicit false

namespace Bindery

namespace Package

variable {package : Package} {files : Files} {s t u : Session} {policy : Policy}
  {extraction : Extraction} {name module : String}

/-! ### What the files settle -/

/-- The names of the classes that a module generates. -/
def generatedNames (package : Package) (files : Files) (policy : Policy) : List String :=
  match package.extraction files policy with
  | .ok extraction => (View.generatedClasses ⟨policy, extraction.module⟩).map Class.name
  | .error _ => []

/-- Whether some module generates a class. -/
def knows (package : Package) (files : Files) (name : String) : Bool :=
  package.policies.any fun policy ↦ (package.generatedNames files policy).contains name

/-- The interface that the declarations of a module give a class. -/
def interfaceIn? (package : Package) (files : Files) (name : String) (policy : Policy) :
    Option ClassInterface :=
  match package.extraction files policy with
  | .ok extraction =>
    let view : View := ⟨policy, extraction.module⟩
    view.interfaceAmong? view.generatedClasses name
  | .error _ => none

/-- The interface that the declarations give a class of the package. -/
def interface? (package : Package) (files : Files) (name : String) : Option ClassInterface :=
  package.policies.findSome? (package.interfaceIn? files name)

/-- The extraction that the files give a module of the package. -/
structure Extracts (package : Package) (files : Files) (policy : Policy)
    (extraction : Extraction) : Prop where
  mem : policy ∈ package.policies
  extracted : package.extraction files policy = .ok extraction

theorem Extracts.unique {other : Extraction} (h : package.Extracts files policy extraction)
    (hother : package.Extracts files policy other) : extraction = other :=
  Except.ok.inj (h.extracted.symm.trans hother.extracted)

theorem Extracts.generatedNames_eq (h : package.Extracts files policy extraction) :
    package.generatedNames files policy =
      (View.generatedClasses ⟨policy, extraction.module⟩).map Class.name := by
  rw [generatedNames, h.extracted]

theorem Extracts.mem_generatedNames (h : package.Extracts files policy extraction) {c : Class}
    (hc : c ∈ View.generatedClasses ⟨policy, extraction.module⟩) :
    c.name ∈ package.generatedNames files policy := by
  rw [h.generatedNames_eq]
  exact List.mem_map_of_mem hc

theorem knows_iff :
    package.knows files name = true ↔
      ∃ policy ∈ package.policies, name ∈ package.generatedNames files policy := by
  simp only [knows, List.any_eq_true, List.contains_iff_mem]

/-! ### Single modules -/

/-- A module of the package that can be extracted on its own, and its classes registered. -/
structure Prepares (package : Package) (files : Files) (policy : Policy) : Prop where
  mem : policy ∈ package.policies
  ok : ((package.prepare policy.moduleName).run { files }).1.isOk = true

section Prepares

variable (hprepares : package.Prepares files policy)

include hprepares

/-- How a module is prepared in a new session. -/
theorem Prepares.eq_ok :
    ∃ extraction t, package.Extracts files policy extraction ∧
      (∀ c ∈ View.generatedClasses ⟨policy, extraction.module⟩,
        ∃ base, View.baseClass ⟨policy, extraction.module⟩ c = .ok base) ∧
      (View.registerClasses ⟨policy, extraction.module⟩).run
        ((View.indexed ⟨policy, extraction.module⟩ { files }).keepExtraction policy.moduleName
          extraction) = (.ok (), t) := by
  have hok := hprepares.ok
  rcases hrun : (package.prepare policy.moduleName).run { files } with ⟨outcome, t⟩
  rw [hrun] at hok
  cases outcome with
  | error e => cases hok
  | ok prepared =>
    rw [prepare, policy_of_mem hprepares.mem, Run.run_ofExcept_bind_ok] at hrun
    obtain ⟨extraction, kept, hextract, hrun⟩ := Run.run_bind_eq_ok.1 hrun
    obtain ⟨_, registered, hregister, -⟩ := Run.run_bind_eq_ok.1 hrun
    obtain ⟨hextracted, hbases, rfl⟩ := extract_new_eq_ok rfl hextract
    exact ⟨extraction, registered, ⟨hprepares.mem, hextracted⟩, hbases, hregister⟩

theorem Prepares.exists_extracts : ∃ extraction, package.Extracts files policy extraction := by
  obtain ⟨extraction, -, hextracts, -⟩ := hprepares.eq_ok
  exact ⟨extraction, hextracts⟩

/-- The bases of generated classes are known. -/
theorem Prepares.baseClass_eq_ok (h : package.Extracts files policy extraction) :
    ∀ c ∈ View.generatedClasses ⟨policy, extraction.module⟩,
      ∃ base, View.baseClass ⟨policy, extraction.module⟩ c = .ok base := by
  obtain ⟨found, -, hfound, hbases, -⟩ := hprepares.eq_ok
  obtain rfl := h.unique hfound
  exact hbases

/-- Of the generated classes of one name, the interface of the first can be built. -/
theorem Prepares.interfaceOf_eq_ok (h : package.Extracts files policy extraction) {c : Class}
    (hc : (View.generatedClasses ⟨policy, extraction.module⟩).find?
      (View.className ⟨policy, extraction.module⟩ · == name) = some c) :
    ∃ i, View.interfaceOf ⟨policy, extraction.module⟩ c = .ok i := by
  obtain ⟨found, t, hfound, -, hregister⟩ := hprepares.eq_ok
  obtain rfl := h.unique hfound
  exact View.interfaceOf_of_forM_registerClass hregister rfl hc

end Prepares

/-- No class of the module is generated under another name. -/
theorem className_eq (hplain : policy.templatesAsClass = []) (m : Module) (c : Class) :
    View.className ⟨policy, m⟩ c = c.name := by
  rw [View.className, Policy.className, hplain]
  rfl

/-- The classes that a module generates are registered when all of its interface classes are. -/
theorem Extracts.hasClass (h : package.Extracts files policy extraction)
    (hplain : policy.templatesAsClass = []) {registry : InterfaceRegistry}
    (hregisters : ∀ c ∈ View.generatedClasses ⟨policy, extraction.module⟩,
      registry.hasClass (View.className ⟨policy, extraction.module⟩ c) = true)
    (hname : name ∈ package.generatedNames files policy) : registry.hasClass name = true := by
  rw [h.generatedNames_eq] at hname
  obtain ⟨c, hc, rfl⟩ := List.mem_map.1 hname
  rw [← className_eq hplain extraction.module c]
  exact hregisters c hc

/-- An interface is given to classes that the module generates. -/
theorem mem_generatedNames_of_interfaceIn? (hpolicy : policy ∈ package.policies)
    (hplain : policy.templatesAsClass = []) {i : ClassInterface}
    (h : package.interfaceIn? files name policy = some i) :
    name ∈ package.generatedNames files policy := by
  unfold interfaceIn? at h
  split at h
  · rename_i extraction hextraction
    obtain ⟨c, hfind, -⟩ := Option.bind_eq_some_iff.1 h
    have hname : View.className ⟨policy, extraction.module⟩ c = name :=
      beq_iff_eq.1 (List.find?_some (p := fun d ↦
        View.className ⟨policy, extraction.module⟩ d == name) hfind)
    rw [← hname, className_eq hplain]
    exact Extracts.mem_generatedNames ⟨hpolicy, hextraction⟩ (List.mem_of_find?_eq_some hfind)
  · cases h

/-! ### Orderly packages -/

/-- A package whose modules can be prepared, and generate and write different things. -/
structure Regular (package : Package) (files : Files) : Prop where
  /-- Every module can be extracted, and its classes registered. -/
  prepares : ∀ policy ∈ package.policies,
    ((package.prepare policy.moduleName).run { files }).1.isOk = true
  /-- No two modules generate a class of the same name. -/
  generates : package.policies.Pairwise fun policy other ↦
    ∀ name ∈ package.generatedNames files policy, name ∉ package.generatedNames files other
  /-- No class is generated under another name. -/
  plain : ∀ policy ∈ package.policies, policy.templatesAsClass = []
  /-- The outputs are different files. -/
  outputs : (package.allOutputs.map Files.destination).Nodup

/-- A regular package whose outputs do not stand in each other's way: none of them is a directory
that the path of another passes. -/
structure Orderly (package : Package) (files : Files) : Prop extends package.Regular files where
  separate : ∀ path ∈ package.allOutputs, ∀ other ∈ package.allOutputs,
    Files.destination path ∉ Files.dirsAbove other

section Orderly

variable (horderly : package.Orderly files)

include horderly

theorem Orderly.prepares_of_mem (hpolicy : policy ∈ package.policies) :
    package.Prepares files policy := ⟨hpolicy, horderly.prepares policy hpolicy⟩

theorem Orderly.exists_extracts (hpolicy : policy ∈ package.policies) :
    ∃ extraction, package.Extracts files policy extraction :=
  (horderly.prepares_of_mem hpolicy).exists_extracts

theorem Orderly.baseClass_eq_ok (h : package.Extracts files policy extraction) :
    ∀ c ∈ View.generatedClasses ⟨policy, extraction.module⟩,
      ∃ base, View.baseClass ⟨policy, extraction.module⟩ c = .ok base :=
  (horderly.prepares_of_mem h.mem).baseClass_eq_ok h

theorem Orderly.interfaceOf_eq_ok (h : package.Extracts files policy extraction) {c : Class}
    (hc : (View.generatedClasses ⟨policy, extraction.module⟩).find?
      (View.className ⟨policy, extraction.module⟩ · == name) = some c) :
    ∃ i, View.interfaceOf ⟨policy, extraction.module⟩ c = .ok i :=
  (horderly.prepares_of_mem h.mem).interfaceOf_eq_ok h hc

theorem Orderly.className_eq (hpolicy : policy ∈ package.policies) (m : Module) (c : Class) :
    View.className ⟨policy, m⟩ c = c.name :=
  Package.className_eq (horderly.plain policy hpolicy) m c

theorem Orderly.hasClass (h : package.Extracts files policy extraction)
    {registry : InterfaceRegistry}
    (hregisters : ∀ c ∈ View.generatedClasses ⟨policy, extraction.module⟩,
      registry.hasClass (View.className ⟨policy, extraction.module⟩ c) = true)
    (hname : name ∈ package.generatedNames files policy) : registry.hasClass name = true :=
  h.hasClass (horderly.plain policy h.mem) hregisters hname

/-- A class is generated by one module only. -/
theorem Orderly.eq_of_mem_generatedNames {other : Policy} (hpolicy : policy ∈ package.policies)
    (hother : other ∈ package.policies) (h : name ∈ package.generatedNames files policy)
    (hname : name ∈ package.generatedNames files other) : policy = other := by
  by_contra hne
  have hsymm : Std.Symm fun policy other : Policy ↦
      ∀ name ∈ package.generatedNames files policy, name ∉ package.generatedNames files other :=
    ⟨fun _ _ hdisjoint name hmem hname ↦ hdisjoint name hname hmem⟩
  exact horderly.generates.forall hpolicy hother hne name h hname

theorem Orderly.mem_generatedNames_of_interfaceIn? (hpolicy : policy ∈ package.policies)
    {i : ClassInterface} (h : package.interfaceIn? files name policy = some i) :
    name ∈ package.generatedNames files policy :=
  Package.mem_generatedNames_of_interfaceIn? hpolicy (horderly.plain policy hpolicy) h

/-- The interface of a class is given by the module that generates it. -/
theorem Orderly.interface?_eq (hpolicy : policy ∈ package.policies)
    (hname : name ∈ package.generatedNames files policy) :
    package.interface? files name = package.interfaceIn? files name policy := by
  have honly {other : Policy} {i : ClassInterface} (hother : other ∈ package.policies)
      (hi : package.interfaceIn? files name other = some i) : other = policy :=
    horderly.eq_of_mem_generatedNames hother hpolicy
      (horderly.mem_generatedNames_of_interfaceIn? hother hi) hname
  cases hfound : package.interface? files name with
  | some i =>
    obtain ⟨other, hother, hi⟩ := List.exists_of_findSome?_eq_some hfound
    rw [← honly hother hi, hi]
  | none => rw [List.findSome?_eq_none_iff.1 hfound policy hpolicy]

theorem Orderly.knows_of_interface? {i : ClassInterface}
    (h : package.interface? files name = some i) : package.knows files name = true := by
  obtain ⟨policy, hpolicy, hi⟩ := List.exists_of_findSome?_eq_some h
  exact knows_iff.2 ⟨policy, hpolicy, horderly.mem_generatedNames_of_interfaceIn? hpolicy hi⟩

theorem Orderly.separateOutputs : Files.Separate package.allOutputs where
  names _ hpath := (hasOutputEnding_of_mem_allOutputs hpath).isFileName
  apart := horderly.separate

end Orderly

/-! ### Coherent sessions -/

/-- What the session has worked out is what the policies and the files settle, up to dropped
methods. -/
structure Coherent (package : Package) (files : Files) (s : Session) : Prop where
  /-- Only outputs have been written since the start. -/
  grown : Files.Grown package.allOutputs files s.files
  /-- A module that has been extracted has indexed its classes. -/
  kept : ∀ policy ∈ package.policies, ∀ extraction,
    s.extractions.find? policy.moduleName = some extraction →
      package.extraction files policy = .ok extraction ∧
        ∀ name ∈ package.generatedNames files policy,
          s.classIndex.find? name = some policy.moduleName
  indexed : ∀ name module, s.classIndex.find? name = some module →
    ∃ policy ∈ package.policies, policy.moduleName = module ∧
      name ∈ package.generatedNames files policy
  registered : ∀ name i, s.registry.interface? name = some i →
    ∃ built, package.interface? files name = some built ∧ built.Within i

theorem coherent_start (package : Package) (files : Files) : package.Coherent files { files } where
  grown := .refl _ files
  kept _ _ _ h := by cases h
  indexed _ _ h := by cases h
  registered _ _ h := by cases h

/-- Except for some names, classes are registered as the declarations give them, and those that were
registered stay as they are. -/
def Fills (package : Package) (files : Files) (except : String → Prop) (s t : Session) : Prop :=
  ∀ name, ¬except name → t.registry.interface? name = s.registry.interface? name ∨
    s.registry.interface? name = none ∧
      t.registry.interface? name = package.interface? files name

theorem fills_of_registry_eq {except : String → Prop} (h : t.registry = s.registry) :
    package.Fills files except s t := fun _ _ ↦ .inl (by rw [h])

theorem Fills.trans {except : String → Prop} (hst : package.Fills files except s t)
    (htu : package.Fills files except t u) : package.Fills files except s u := by
  intro name hname
  rcases hst name hname with hold | ⟨hfree, hnew⟩
  · rcases htu name hname with hkept | ⟨hfree, hnew⟩
    · exact .inl (hkept.trans hold)
    · exact .inr ⟨hold ▸ hfree, hnew⟩
  · rcases htu name hname with hkept | ⟨-, hlater⟩
    · exact .inr ⟨hfree, hkept.trans hnew⟩
    · exact .inr ⟨hfree, hlater⟩

/-- Dropping methods of registered classes keeps a session coherent. -/
theorem Coherent.settle (hs : package.Coherent files s) (found : List Finding) :
    package.Coherent files (s.settle found) where
  grown := hs.grown
  kept := hs.kept
  indexed := hs.indexed
  registered name i hi := by
    obtain ⟨old, hold, hdrops⟩ := InterfaceRegistry.exists_of_foldl_settle hi
    obtain ⟨built, hbuilt, hwithin⟩ := hs.registered name old hold
    exact ⟨built, hbuilt, hwithin.trans hdrops⟩

section Steps

variable (horderly : package.Orderly files) (hs : package.Coherent files s)

include horderly hs

/-- A module is extracted as the files at the start give it, whenever it is asked for. -/
theorem run_extract (h : package.Extracts files policy extraction) :
    ∃ t, (package.extract policy).run s = (.ok extraction, t) ∧ package.Coherent files t ∧
      t.registry = s.registry := by
  cases hknown : s.extractions.find? policy.moduleName with
  | some known =>
    obtain ⟨hextraction, -⟩ := hs.kept policy h.mem known hknown
    have heq : extraction = known := Except.ok.inj (h.extracted.symm.trans hextraction)
    exact ⟨s, by rw [run_extract_of_known hknown, heq], hs, rfl⟩
  | none =>
    have hextraction :=
      extraction_of_grown hs.grown (fun _ ↦ hasOutputEnding_of_mem_allOutputs) h.extracted
    have hindex := View.find?_indexed (horderly.baseClass_eq_ok h) s
    rw [← h.generatedNames_eq] at hindex
    refine ⟨_, run_extract_of_sound hknown hextraction (horderly.baseClass_eq_ok h),
      ⟨hs.grown, ?_, ?_, hs.registered⟩, rfl⟩
    · intro other hother found hfound
      change (s.extractions.set policy.moduleName extraction).find? other.moduleName = some found
        at hfound
      change _ ∧ ∀ name ∈ package.generatedNames files other,
        (View.indexed _ s).classIndex.find? name = some other.moduleName
      by_cases hsame : other.moduleName = policy.moduleName
      · obtain rfl := eq_of_moduleName_eq hother h.mem hsame
        rw [Table.set, Table.find?_alter_self] at hfound
        refine ⟨h.extracted.trans (congrArg _ (Option.some.inj hfound)), fun name hname ↦ ?_⟩
        rw [hindex, if_pos hname]
      · rw [Table.set, Table.find?_alter_of_ne _ hsame] at hfound
        obtain ⟨hextracted, hnames⟩ := hs.kept other hother found hfound
        refine ⟨hextracted, fun name hname ↦ ?_⟩
        rw [hindex, if_neg, hnames name hname]
        intro hmem
        exact hsame (congrArg _ (horderly.eq_of_mem_generatedNames hother h.mem hname hmem))
    · intro name module hmodule
      change (View.indexed _ s).classIndex.find? name = some module at hmodule
      rw [hindex] at hmodule
      split at hmodule
      · rename_i hname
        exact ⟨policy, h.mem, Option.some.inj hmodule, hname⟩
      · exact hs.indexed name module hmodule

/-- The classes of a module can be registered at any time. -/
theorem run_registerClasses (h : package.Extracts files policy extraction)
    (except : String → Prop) :
    ∃ t, (View.registerClasses ⟨policy, extraction.module⟩).run s = (.ok (), t) ∧
      package.Coherent files t ∧ package.Fills files except s t := by
  let view : View := ⟨policy, extraction.module⟩
  have hbuilt : ∀ name, s.registry.hasClass name = false → ∀ c,
      view.generatedClasses.find? (view.className · == name) = some c →
        ∃ i, view.interfaceOf c = .ok i :=
    fun name _ c hc ↦ horderly.interfaceOf_eq_ok h hc
  obtain ⟨registry, hrun, hregistry⟩ := View.run_forM_registerClass hbuilt
  have hnew {name : String} (hfree : s.registry.interface? name = none) {i : ClassInterface}
      (hi : registry.interface? name = some i) : package.interface? files name = some i := by
    rw [hregistry, hfree, Option.none_or] at hi
    have hin : package.interfaceIn? files name policy = some i := by
      rw [interfaceIn?, h.extracted]
      exact hi
    rw [horderly.interface?_eq h.mem (horderly.mem_generatedNames_of_interfaceIn? h.mem hin), hin]
  refine ⟨s.withRegistry registry, hrun, ⟨hs.grown, hs.kept, hs.indexed, ?_⟩, ?_⟩
  · intro name i hi
    change registry.interface? name = some i at hi
    cases hold : s.registry.interface? name with
    | none => exact ⟨i, hnew hold hi, .refl i⟩
    | some old =>
      rw [hregistry, hold, Option.some_or] at hi
      exact hs.registered name i (hold.trans hi)
  · intro name _
    change registry.interface? name = s.registry.interface? name ∨ _ ∧
      registry.interface? name = package.interface? files name
    cases hold : s.registry.interface? name with
    | some old =>
      rw [hregistry, hold]
      exact .inl rfl
    | none =>
      cases hi : registry.interface? name with
      | none => exact .inl rfl
      | some i => exact .inr ⟨rfl, (hnew hold hi).symm⟩

omit horderly in
theorem run_indexedOwner?_of_none (hnone : package.knows files name = false) :
    (package.indexedOwner? name).run s = (.ok none, s) := by
  rw [run_indexedOwner?]
  cases hindex : s.classIndex.find? name with
  | none => rfl
  | some module =>
    obtain ⟨policy, hpolicy, -, hname⟩ := hs.indexed name module hindex
    rw [knows_iff.2 ⟨policy, hpolicy, hname⟩] at hnone
    cases hnone

/-- The owner of a class is the module that generates it, or it has not been indexed yet. -/
theorem run_indexedOwner?_cases (hpolicy : policy ∈ package.policies)
    (hname : name ∈ package.generatedNames files policy) :
    (package.indexedOwner? name).run s = (.ok (some policy), s) ∨
      (package.indexedOwner? name).run s = (.ok none, s) ∧ s.classIndex.find? name = none := by
  rw [run_indexedOwner?]
  cases hindex : s.classIndex.find? name with
  | none => exact .inr ⟨rfl, rfl⟩
  | some module =>
    obtain ⟨other, hother, rfl, hmem⟩ := hs.indexed name module hindex
    obtain rfl := horderly.eq_of_mem_generatedNames hother hpolicy hmem hname
    refine .inl ?_
    simp only [policy_of_mem hother]
    rfl

/-- A search that passes the module of a class ends there. -/
theorem run_searchOwner {policies : List Policy}
    (hpolicies : ∀ policy ∈ policies, policy ∈ package.policies) (hpolicy : policy ∈ policies)
    (hname : name ∈ package.generatedNames files policy) :
    ∃ t, (package.searchOwner name policies).run s = (.ok policy, t) ∧
      package.Coherent files t ∧ t.registry = s.registry := by
  induction policies generalizing s with
  | nil => exact (List.not_mem_nil hpolicy).elim
  | cons first rest ih =>
    obtain ⟨hfirst, hrest⟩ := List.forall_mem_cons.1 hpolicies
    obtain ⟨extraction, hextracts⟩ := horderly.exists_extracts hfirst
    obtain ⟨u, hextract, hu, hregistry⟩ := run_extract horderly hs hextracts
    rw [searchOwner, Run.run_bind_of_ok hextract]
    rcases run_indexedOwner?_cases horderly hu (hpolicies policy hpolicy) hname with
      howner | ⟨howner, hindex⟩
    · rw [Run.run_bind_of_ok howner]
      exact ⟨u, rfl, hu, hregistry⟩
    · rw [Run.run_bind_of_ok howner]
      rcases List.mem_cons.1 hpolicy with rfl | hlater
      · obtain ⟨-, hnames⟩ := hu.kept policy hfirst extraction (find?_of_extract_eq_ok hextract)
        rw [hnames name hname] at hindex
        cases hindex
      · obtain ⟨t, hrun, ht, hsame⟩ := ih hu hrest hlater
        exact ⟨t, hrun, ht, hsame.trans hregistry⟩

theorem run_searchOwner_of_unknown {policies : List Policy}
    (hpolicies : ∀ policy ∈ policies, policy ∈ package.policies)
    (hname : package.knows files name = false) :
    ∃ t, (package.searchOwner name policies).run s = (.error (.unknownOwner name), t) ∧
      package.Coherent files t ∧ t.registry = s.registry := by
  induction policies generalizing s with
  | nil => exact ⟨s, rfl, hs, rfl⟩
  | cons first rest ih =>
    obtain ⟨hfirst, hrest⟩ := List.forall_mem_cons.1 hpolicies
    obtain ⟨extraction, hextracts⟩ := horderly.exists_extracts hfirst
    obtain ⟨u, hextract, hu, hregistry⟩ := run_extract horderly hs hextracts
    rw [searchOwner, Run.run_bind_of_ok hextract,
      Run.run_bind_of_ok (run_indexedOwner?_of_none hu hname)]
    obtain ⟨t, hrun, ht, hsame⟩ := ih hu hrest
    exact ⟨t, hrun, ht, hsame.trans hregistry⟩

/-- The module of a class is found, whatever has been extracted before. -/
theorem run_owner (hpolicy : policy ∈ package.policies)
    (hname : name ∈ package.generatedNames files policy) :
    ∃ t, (package.owner name).run s = (.ok policy, t) ∧ package.Coherent files t ∧
      t.registry = s.registry := by
  rw [owner]
  rcases run_indexedOwner?_cases horderly hs hpolicy hname with howner | ⟨howner, -⟩
  · rw [Run.run_bind_of_ok howner]
    exact ⟨s, rfl, hs, rfl⟩
  · rw [Run.run_bind_of_ok howner]
    exact run_searchOwner horderly hs (fun _ h ↦ h) hpolicy hname

theorem run_owner_of_unknown (hname : package.knows files name = false) :
    ∃ t, (package.owner name).run s = (.error (.unknownOwner name), t) ∧
      package.Coherent files t ∧ t.registry = s.registry := by
  rw [owner, Run.run_bind_of_ok (run_indexedOwner?_of_none hs hname)]
  exact run_searchOwner_of_unknown horderly hs (fun _ h ↦ h) hname

/-- The interface of a class of the package can be made known at any time. -/
theorem run_ensureInterface (except : String → Prop) (hname : package.knows files name = true) :
    ∃ t, (package.ensureInterface name).run s = (.ok (), t) ∧ package.Coherent files t ∧
      package.Fills files except s t ∧ t.registry.hasClass name = true := by
  rw [ensureInterface, Run.run_get_bind]
  by_cases hclass : s.registry.hasClass name = true
  · rw [if_pos hclass]
    exact ⟨s, rfl, hs, fills_of_registry_eq rfl, hclass⟩
  · rw [if_neg hclass]
    obtain ⟨policy, hpolicy, hmem⟩ := knows_iff.1 hname
    obtain ⟨extraction, hextracts⟩ := horderly.exists_extracts hpolicy
    obtain ⟨u, howner, hu, hsame⟩ := run_owner horderly hs hpolicy hmem
    obtain ⟨v, hextract, hv, hkept⟩ := run_extract horderly hu hextracts
    obtain ⟨t, hregister, ht, hfills⟩ := run_registerClasses horderly hv hextracts except
    rw [Run.run_bind_of_ok howner, Run.run_bind_of_ok hextract]
    refine ⟨t, hregister, ht, (fills_of_registry_eq (hkept.trans hsame)).trans hfills, ?_⟩
    exact horderly.hasClass hextracts
      (fun _ hc ↦ View.hasClass_of_registerClasses hregister hc) hmem

theorem run_ensureInterface_of_unknown (except : String → Prop)
    (hname : package.knows files name = false) :
    ∃ t, (package.ensureInterface name).run s = (.error (.unknownOwner name), t) ∧
      package.Coherent files t ∧ package.Fills files except s t := by
  have hclass : ¬s.registry.hasClass name = true := by
    rw [InterfaceRegistry.hasClass_eq_isSome, Option.isSome_iff_exists]
    rintro ⟨i, hi⟩
    obtain ⟨built, hbuilt, -⟩ := hs.registered name i hi
    rw [horderly.knows_of_interface? hbuilt] at hname
    cases hname
  obtain ⟨t, howner, ht, hsame⟩ := run_owner_of_unknown horderly hs hname
  rw [ensureInterface, Run.run_get_bind, if_neg hclass, Run.run_bind_of_error howner]
  exact ⟨t, rfl, ht, fills_of_registry_eq hsame⟩

/-- A module can be prepared at any time. -/
theorem run_prepare (h : package.Extracts files policy extraction) (except : String → Prop) :
    ∃ t, (package.prepare policy.moduleName).run s = (.ok (policy, extraction), t) ∧
      package.Coherent files t ∧ package.Fills files except s t := by
  obtain ⟨u, hextract, hu, hsame⟩ := run_extract horderly hs h
  obtain ⟨t, hregister, ht, hfills⟩ := run_registerClasses horderly hu h except
  rw [prepare, policy_of_mem h.mem, Run.run_ofExcept_bind_ok, Run.run_bind_of_ok hextract,
    Run.run_bind_of_ok hregister]
  exact ⟨t, rfl, ht, (fills_of_registry_eq hsame).trans hfills⟩

end Steps

end Package

end Bindery
