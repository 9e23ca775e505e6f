import Bindery.Proofs.Interface.Lookups
import Bindery.Proofs.Package.Coherence
import Bindery.Proofs.Package.Passed

/-!
The verdict on a module. In an orderly package the check of a module ends in the same way in every
coherent session (`run_check`): its first base that no module generates fails it, and otherwise it
finds what the declarations settle (`Package.verdict`). A session is settled (`Package.Settled`)
when moreover the modules that have passed are those that it says have, and their interfaces are
without just what their checks have dropped. An analysis starts and ends in settled sessions, and
its outcome is the verdict (`run_analyze`).
-/

set_option autoImplicit false
set_option relaxedAutoImplicit false

namespace Bindery

namespace Package

variable {package : Package} {files : Files} {s t u : Session} {policy : Policy}
  {extraction : Extraction} {name module : String} {view : View}

/-! ### What the files settle -/

/-- The methods that the declarations give a class. -/
def methodsOf (package : Package) (files : Files) (name : String) :
    Table String RegisteredMethod :=
  ((package.interface? files name).map ClassInterface.methods).getD []

/-- What the check of a module finds when all of its bases are known. -/
def found (package : Package) (files : Files) (view : View) : List Finding :=
  view.generatedClasses.flatMap (view.decided (package.methodsOf files))

/-- How the check of a module ends. -/
def verdict (package : Package) (files : Files) (view : View) : Except Error Report :=
  match (view.generatedClasses.flatMap view.baseList).find? (!package.knows files ·) with
  | some base => .error (.unknownOwner base)
  | none => Report.toResult ((package.found files view).map Finding.diagnostic)
      view.policy.moduleName view.policy.package

/-- The interface of a class of a module that has passed the check. -/
def checkedInterface? (package : Package) (files : Files) (view : View) (name : String) :
    Option ClassInterface :=
  (package.interface? files name).map
    ((package.found files view).foldl (ClassInterface.settle name))

/-- A registered class has the methods that the declarations give it. -/
theorem Coherent.methodsOf_eq (hs : package.Coherent files s)
    (hname : s.registry.hasClass name = true) :
    s.registry.methodsOf name = package.methodsOf files name := by
  rw [InterfaceRegistry.hasClass_eq_isSome] at hname
  obtain ⟨i, hi⟩ := Option.isSome_iff_exists.1 hname
  obtain ⟨built, hbuilt, hwithin⟩ := hs.registered name i hi
  rw [InterfaceRegistry.methodsOf_of_interface? hi, hwithin.methods, methodsOf, hbuilt]
  rfl

/-! ### Checks -/

/-- From a coherent session, the run leads to a coherent one with more classes registered. -/
def Leads (package : Package) (files : Files) (except : String → Prop) (s t : Session) : Prop :=
  package.Coherent files s → package.Coherent files t ∧ package.Fills files except s t

instance (package : Package) (files : Files) (except : String → Prop) :
    IsPreorder Session (package.Leads files except) where
  refl _ hs := ⟨hs, fills_of_registry_eq rfl⟩
  trans _ _ _ hst htu hs :=
    have ht := hst hs
    have hu := htu ht.1
    ⟨hu.1, ht.2.trans hu.2⟩

/-- Findings about classes among the exceptions can be settled. -/
theorem leads_settle {except : String → Prop} (s : Session) {found : List Finding}
    (hfound : ∀ finding ∈ found, except finding.className) :
    package.Leads files except s (s.settle found) := by
  refine fun hs ↦ ⟨hs.settle found, fun name hname ↦ .inl ?_⟩
  change (found.foldl Finding.settle s.registry).interface? name = _
  rw [InterfaceRegistry.interface?_foldl_settle]
  have hkept (i : ClassInterface) : found.foldl (ClassInterface.settle name) i = i := by
    induction found with
    | nil => rfl
    | cons finding found ih =>
      obtain ⟨hfirst, hrest⟩ := List.forall_mem_cons.1 hfound
      have hother : ¬(finding.conflict = .needless ∧ finding.className = name) :=
        fun h ↦ hname (h.2 ▸ hfirst)
      rw [List.foldl_cons, ClassInterface.settle, if_neg hother]
      exact ih hrest
  rw [funext hkept, Option.map_id']

/-- All classes of a module are registered. -/
def Registers (s : Session) (view : View) : Prop :=
  ∀ c ∈ view.generatedClasses, s.registry.hasClass (view.className c) = true

theorem Registers.of_grows (h : Registers s view) (hgrows : s.RegistryGrows t) :
    Registers t view :=
  fun c hc ↦ hgrows.hasClass (h c hc)

/-- Looking up interfaces leaves registered classes as they are. -/
theorem extends_ensureInterface (package : Package) (name : String) :
    (package.ensureInterface name).Moves Session.RegistryExtends :=
  moves_ensureInterface Session.allows_registryExtends package name

/-- A check that comes to its end in a coherent session finds what the declarations settle. -/
theorem Coherent.found_eq (ht : package.Coherent files t) (hregisters : Registers t view)
    {all : List Finding}
    (h : (view.findings package.ensureInterface).run s = (.ok all, t)) :
    all = package.found files view := by
  have hensure : ∀ name, (package.ensureInterface name).Moves Session.RegistryGrows :=
    fun name s ↦ (extends_ensureInterface package name s).grows
  obtain ⟨hall, -⟩ := View.findings_eq_ok hensure h
  rw [hall, found, List.flatMap_def, List.flatMap_def]
  congr 1
  refine List.map_congr_left fun c hc ↦ View.decided_congr ?_ fun base hbase ↦ ?_
  · exact ht.methodsOf_eq (hregisters c hc)
  · exact ht.methodsOf_eq (View.hasClass_of_findings hensure h hc hbase)

section Orderly

variable (horderly : package.Orderly files)

include horderly

theorem moves_ensureInterface_leads (except : String → Prop) (name : String) :
    (package.ensureInterface name).Moves (package.Leads files except) := by
  intro s hs
  cases hname : package.knows files name with
  | true =>
    obtain ⟨t, hrun, ht, hfills, -⟩ := run_ensureInterface horderly hs except hname
    rw [hrun]
    exact ⟨ht, hfills⟩
  | false =>
    obtain ⟨t, hrun, ht, hfills⟩ := run_ensureInterface_of_unknown horderly hs except hname
    rw [hrun]
    exact ⟨ht, hfills⟩

theorem knows_ensureInterface (view : View) :
    View.Knows package.ensureInterface (package.knows files)
      (fun s ↦ package.Coherent files s ∧ Registers s view) where
  finds name s hname hs := by
    obtain ⟨t, hrun, ht, -, hclass⟩ :=
      run_ensureInterface horderly hs.1 (fun _ ↦ False) hname
    have hextends : s.RegistryExtends t := (extends_ensureInterface package name).of_eq hrun
    exact ⟨t, hrun, ⟨ht, hs.2.of_grows (InterfaceRegistry.Extends.grows hextends)⟩, hclass⟩
  fails name s hname hs := by
    obtain ⟨t, hrun, ht, -⟩ :=
      run_ensureInterface_of_unknown horderly hs.1 (fun _ ↦ False) hname
    have hextends : s.RegistryExtends t := (extends_ensureInterface package name).of_eq hrun
    exact ⟨t, hrun, ht, hs.2.of_grows (InterfaceRegistry.Extends.grows hextends)⟩
  settles s found hs := ⟨hs.1.settle found, hs.2.of_grows (View.registryGrows_settle s found)⟩

/-- The check of a module ends with its verdict. It drops methods of its own classes only, and when
it comes to its end, just those that it finds needless. -/
theorem run_check (hs : package.Coherent files s) (h : package.Extracts files policy extraction)
    (hregisters : Registers s ⟨policy, extraction.module⟩) :
    ∃ t, (View.check package.ensureInterface ⟨policy, extraction.module⟩).run s =
        (package.verdict files ⟨policy, extraction.module⟩, t) ∧
      package.Coherent files t ∧
      package.Fills files (· ∈ package.generatedNames files policy) s t ∧
      ((package.verdict files ⟨policy, extraction.module⟩).isOk = true →
        Session.Settles (package.found files ⟨policy, extraction.module⟩) s t) := by
  let view : View := ⟨policy, extraction.module⟩
  obtain ⟨outcome, t, hrun, ⟨ht, hkept⟩, hstops⟩ :=
    View.run_findings (knows_ensureInterface horderly view)
      (fun c hc ↦ knows_iff.2 ⟨policy, h.mem, h.mem_generatedNames hc⟩)
      (fun s hs ↦ hs.2) ⟨hs, hregisters⟩
  have hmoves : (view.findings package.ensureInterface).Moves
      (package.Leads files (· ∈ package.generatedNames files policy)) := by
    refine View.moves_findings (moves_ensureInterface_leads horderly _) fun s found hfound ↦ ?_
    refine leads_settle s fun finding hmem ↦ ?_
    obtain ⟨c, hc, hname⟩ := hfound finding hmem
    rw [hname, horderly.className_eq h.mem]
    exact h.mem_generatedNames hc
  obtain ⟨-, hfills⟩ := hmoves.of_eq hrun hs
  rw [View.StopsAtUnknown] at hstops
  cases hunknown : (view.generatedClasses.flatMap view.baseList).find?
      (!package.knows files ·) with
  | some base =>
    have hverdict : package.verdict files view = .error (.unknownOwner base) := by
      rw [verdict, hunknown]
    rw [hunknown] at hstops
    subst hstops
    refine ⟨t, ?_, ht, hfills, fun hok ↦ ?_⟩
    · rw [View.check, Run.run_bind_of_error hrun, hverdict]
    · rw [hverdict] at hok
      cases hok
  | none =>
    rw [hunknown] at hstops
    obtain ⟨all, rfl⟩ := hstops
    have hall : all = package.found files view := ht.found_eq hkept hrun
    refine ⟨t, ?_, ht, hfills, fun _ ↦ ?_⟩
    · rw [View.run_check_of_findings hrun, verdict, hunknown, hall]
    · have hsettles := View.findings_settles (extends_ensureInterface package) hrun
      rwa [hall] at hsettles

end Orderly

/-! ### Analyses -/

/-- The modules that have passed are prepared, and have a verdict that lets them. The interfaces of
a module with such a verdict are as its declarations give them, or without just what the check has
dropped. -/
structure Settled (package : Package) (files : Files) (s : Session) : Prop where
  coherent : package.Coherent files s
  passed : ∀ policy extraction, package.Extracts files policy extraction →
    policy.moduleName ∈ s.checked →
      (package.verdict files ⟨policy, extraction.module⟩).isOk = true ∧
        package.IsPrepared s policy.moduleName policy extraction
  exact : ∀ policy extraction, package.Extracts files policy extraction →
    (package.verdict files ⟨policy, extraction.module⟩).isOk = true →
      ∀ name ∈ package.generatedNames files policy, ∀ i,
        s.registry.interface? name = some i →
          (if policy.moduleName ∈ s.checked
            then package.checkedInterface? files ⟨policy, extraction.module⟩ name
            else package.interface? files name) = some i

theorem settled_start (package : Package) (files : Files) : package.Settled files { files } where
  coherent := coherent_start package files
  passed _ _ _ h := (List.not_mem_nil h).elim
  exact _ _ _ _ _ _ _ h := by cases h

section Orderly

variable (horderly : package.Orderly files) (hs : package.Settled files s)

include horderly hs

/-- The interfaces of a prepared module are registered. -/
theorem Settled.hasClass (h : package.Extracts files policy extraction)
    (hchecked : policy.moduleName ∈ s.checked)
    (hname : name ∈ package.generatedNames files policy) : s.registry.hasClass name = true :=
  horderly.hasClass h (hs.passed policy extraction h hchecked).2.2.2 hname

/-- The interfaces of a module that has passed. -/
theorem Settled.interface?_eq (h : package.Extracts files policy extraction)
    (hchecked : policy.moduleName ∈ s.checked)
    (hname : name ∈ package.generatedNames files policy) :
    s.registry.interface? name =
      package.checkedInterface? files ⟨policy, extraction.module⟩ name := by
  have hclass := hs.hasClass horderly h hchecked hname
  rw [InterfaceRegistry.hasClass_eq_isSome] at hclass
  obtain ⟨i, hi⟩ := Option.isSome_iff_exists.1 hclass
  have hexact := hs.exact policy extraction h (hs.passed policy extraction h hchecked).1 name hname
    i hi
  rw [if_pos hchecked] at hexact
  rw [hi, hexact]

/-- Registering further classes leaves the interfaces of a module exact. -/
theorem Settled.exact_of_fills {except : String → Prop}
    (hfills : package.Fills files except s t) (h : package.Extracts files policy extraction)
    (hok : (package.verdict files ⟨policy, extraction.module⟩).isOk = true)
    (hname : name ∈ package.generatedNames files policy) (hexcept : ¬except name)
    {i : ClassInterface} (hi : t.registry.interface? name = some i) :
    (if policy.moduleName ∈ s.checked
      then package.checkedInterface? files ⟨policy, extraction.module⟩ name
      else package.interface? files name) = some i := by
  rcases hfills name hexcept with hold | ⟨hfree, hnew⟩
  · exact hs.exact policy extraction h hok name hname i (hold ▸ hi)
  · have hunchecked : policy.moduleName ∉ s.checked := by
      intro hchecked
      have hclass := hs.hasClass horderly h hchecked hname
      rw [InterfaceRegistry.hasClass_eq_isSome, hfree] at hclass
      cases hclass
    rw [if_neg hunchecked, ← hnew, hi]

/-- A session stays settled while further classes are registered. Interfaces may change otherwise
only where they belong to a module whose verdict is an error. -/
theorem Settled.of_fills {except : String → Prop} (ht : package.Coherent files t)
    (hgrows : s.Grows t) (hfills : package.Fills files except s t)
    (hexcept : ∀ policy extraction, package.Extracts files policy extraction →
      (package.verdict files ⟨policy, extraction.module⟩).isOk = true →
        ∀ name ∈ package.generatedNames files policy, ¬except name) :
    package.Settled files t where
  coherent := ht
  passed policy extraction h hchecked := by
    rw [hgrows.checked] at hchecked
    obtain ⟨hok, hprepared⟩ := hs.passed policy extraction h hchecked
    exact ⟨hok, hprepared.mono hgrows.registry hgrows.extractions⟩
  exact policy extraction h hok name hname i hi := by
    rw [hgrows.checked]
    exact hs.exact_of_fills horderly hfills h hok hname (hexcept policy extraction h hok name hname)
      hi

omit hs in
/-- A check that passes settles the interfaces of its module, and leaves all others exact. -/
theorem settled_of_check (hs : package.Settled files s)
    (h : package.Extracts files policy extraction) (hnew : policy.moduleName ∉ s.checked)
    (hprepared : package.IsPrepared s policy.moduleName policy extraction)
    (ht : package.Coherent files t) (hgrows : s.Grows t)
    (hfills : package.Fills files (· ∈ package.generatedNames files policy) s t)
    (hok : (package.verdict files ⟨policy, extraction.module⟩).isOk = true)
    (hsettles : Session.Settles (package.found files ⟨policy, extraction.module⟩) s t) :
    package.Settled files { t with checked := t.checked ++ [policy.moduleName] } where
  coherent := ⟨ht.grown, ht.kept, ht.indexed, ht.registered⟩
  passed other found hother hchecked := by
    rcases List.mem_append.1 hchecked with hold | hlast
    · rw [hgrows.checked] at hold
      obtain ⟨hpasses, hkept⟩ := hs.passed other found hother hold
      exact ⟨hpasses, hkept.mono hgrows.registry hgrows.extractions⟩
    · obtain rfl := eq_of_moduleName_eq hother.mem h.mem (List.mem_singleton.1 hlast)
      obtain rfl := h.unique hother
      exact ⟨hok, hprepared.mono hgrows.registry hgrows.extractions⟩
  exact other found hother hpasses name hname i hi := by
    change t.registry.interface? name = some i at hi
    by_cases hsame : name ∈ package.generatedNames files policy
    · obtain rfl := horderly.eq_of_mem_generatedNames hother.mem h.mem hname hsame
      obtain rfl := h.unique hother
      rw [if_pos (List.mem_append_right _ (List.mem_singleton_self _))]
      have hclass : s.registry.hasClass name = true := horderly.hasClass h hprepared.2.2 hname
      rw [InterfaceRegistry.hasClass_eq_isSome] at hclass
      obtain ⟨old, hold⟩ := Option.isSome_iff_exists.1 hclass
      have hbuilt := hs.exact other extraction hother hpasses name hname old hold
      rw [if_neg hnew] at hbuilt
      rw [checkedInterface?, hbuilt, Option.map_some, ← hi, hsettles name old hold]
    · have hexact := hs.exact_of_fills horderly hfills hother hpasses hname hsame hi
      have hne : other.moduleName ≠ policy.moduleName := by
        intro heq
        rw [eq_of_moduleName_eq hother.mem h.mem heq] at hname
        exact hsame hname
      rw [hgrows.checked]
      simpa [hne] using hexact

/-- The outcome of an analysis is the verdict on its module. -/
theorem run_analyze (h : package.Extracts files policy extraction) :
    ∃ t, (package.analyze policy.moduleName).run s =
        ((package.verdict files ⟨policy, extraction.module⟩).map fun _ ↦ extraction, t) ∧
      package.Settled files t ∧ t.files = s.files ∧
      ((package.verdict files ⟨policy, extraction.module⟩).isOk = true →
        policy.moduleName ∈ t.checked) := by
  by_cases hmarked : policy.moduleName ∈ s.checked
  · obtain ⟨hok, hprepared⟩ := hs.passed policy extraction h hmarked
    refine ⟨s, ?_, hs, rfl, fun _ ↦ hmarked⟩
    rw [hprepared.run_analyze hmarked]
    cases hverdict : package.verdict files ⟨policy, extraction.module⟩ with
    | ok report => rfl
    | error e =>
      rw [hverdict] at hok
      cases hok
  · obtain ⟨t, hprepare, ht, hfills⟩ :=
      run_prepare horderly hs.coherent h (fun _ ↦ False)
    have hst : s.Grows t :=
      (moves_prepare Session.allows_grows package policy.moduleName).of_eq hprepare
    have hprepared := isPrepared_of_prepare_eq_ok hprepare
    have hsettled : package.Settled files t :=
      hs.of_fills horderly ht hst hfills fun _ _ _ _ _ _ hfalse ↦ hfalse
    have hnew : policy.moduleName ∉ t.checked := hst.checked ▸ hmarked
    obtain ⟨u, hcheck, hu, hfillsCheck, hsettles⟩ :=
      run_check horderly ht h hprepared.2.2
    have htu : t.Grows u := (moves_check_grows _).of_eq hcheck
    cases hverdict : package.verdict files ⟨policy, extraction.module⟩ with
    | error e =>
      rw [hverdict] at hcheck
      refine ⟨u, run_analyze_of_unmarked hprepare hnew hcheck, ?_, htu.files.trans hst.files,
        fun hok ↦ ?_⟩
      · refine hsettled.of_fills horderly hu htu hfillsCheck
          fun other found hother hpasses name hname hmem ↦ ?_
        obtain rfl := horderly.eq_of_mem_generatedNames hother.mem h.mem hname hmem
        obtain rfl := h.unique hother
        rw [hverdict] at hpasses
        cases hpasses
      · cases hok
    | ok report =>
      have hok : (package.verdict files ⟨policy, extraction.module⟩).isOk = true := by
        rw [hverdict]
        rfl
      rw [hverdict] at hcheck
      refine ⟨{ u with checked := u.checked ++ [policy.moduleName] },
        run_analyze_of_unmarked hprepare hnew hcheck, ?_, htu.files.trans hst.files,
        fun _ ↦ List.mem_append_right _ (List.mem_singleton_self _)⟩
      exact settled_of_check horderly hsettled h hnew hprepared hu htu hfillsCheck hok
        (hsettles hok)

end Orderly

end Package

end Bindery
