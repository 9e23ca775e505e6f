import Bindery.Proofs.Extract.Failures
import Bindery.Proofs.Interface.Lookups
import Bindery.Proofs.Interface.Repetition
import Bindery.Proofs.Package.Indexing

/-!
What a package never takes back. An extraction that is kept stays, and so do the members and methods
of a registered class. Methods are dropped by checks only: building an interface drops nothing, and
nor does anything else that a task does, so that a method dropped in the end has been dropped at
first, or in a task whose check generates the class (`Package.DropsIn`). And a check that has come
to a verdict comes to the same one when it is done again, since no lookup of it fails with a verdict
(`failsBy_ensureInterface`).
-/

set_option autoImplicit false
set_option relaxedAutoImplicit false

namespace Bindery

namespace Session

/-- The class is registered without the method. -/
def Drops (s : Session) (name signature : String) : Prop :=
  ∃ i, s.registry.interface? name = some i ∧ signature ∈ i.dropped

/-- Methods are dropped of certain classes only. -/
def DropsOnly (allowed : String → Prop) (s t : Session) : Prop :=
  ∀ name signature, t.Drops name signature → s.Drops name signature ∨ allowed name

instance (allowed : String → Prop) : IsPreorder Session (DropsOnly allowed) where
  refl _ _ _ h := .inl h
  trans _ _ _ hst htu name signature h :=
    (htu name signature h).elim (hst name signature) .inr

theorem drops_congr {s t : Session} (h : t.registry = s.registry) {name signature : String} :
    t.Drops name signature ↔ s.Drops name signature := by rw [Drops, Drops, h]

theorem dropsOnly_of_registry_eq {s t : Session} (allowed : String → Prop)
    (h : t.registry = s.registry) : DropsOnly allowed s t :=
  fun _ _ hdrops ↦ .inl ((drops_congr h).1 hdrops)

/-- Settling findings drops methods of the classes that they are about. -/
theorem dropsOnly_settle {allowed : String → Prop} (s : Session) {found : List Finding}
    (hfound : ∀ finding ∈ found, allowed finding.className) :
    DropsOnly allowed s (s.settle found) := by
  rintro name signature ⟨i, hi, hdropped⟩
  have hsettled := InterfaceRegistry.interface?_foldl_settle s.registry found name
  obtain ⟨old, hold, rfl⟩ := Option.map_eq_some_iff.1 (hsettled.symm.trans hi)
  rcases ClassInterface.mem_dropped_foldl_settle.1 hdropped with
    hbefore | ⟨finding, hmem, -, hname, -⟩
  · exact .inl ⟨old, hold, hbefore⟩
  · exact .inr (hname ▸ hfound finding hmem)

/-- What is never taken back: extractions, and the members and methods of registered classes. -/
structure Lasts (s t : Session) : Prop where
  extractions : ∀ module extraction, s.extractions.find? module = some extraction →
    t.extractions.find? module = some extraction
  registry : s.registry.Grows t.registry

instance : IsPreorder Session Lasts where
  refl s := ⟨fun _ _ h ↦ h, .refl s.registry⟩
  trans _ _ _ hst htu :=
    ⟨fun module extraction h ↦ htu.extractions module extraction
      (hst.extractions module extraction h), hst.registry.trans htu.registry⟩

theorem allows_lasts : Allows Lasts where
  index s _ _ := ⟨fun _ _ h ↦ h, .refl s.registry⟩
  keep s module extraction hnew :=
    ⟨(allows_grows.keep s module extraction hnew).extractions, .refl s.registry⟩
  register s className interface hnew :=
    ⟨fun _ _ h ↦ h, (allows_grows.register s className interface hnew).registry⟩

end Session

namespace View

variable {view : View} {s : Session}

/-- A class is registered with all of its methods. -/
theorem dropped_of_interfaceAmong? {classes : List Class} {name : String} {i : ClassInterface}
    (h : view.interfaceAmong? classes name = some i) : i.dropped = [] := by
  obtain ⟨c, -, hinterface⟩ := Option.bind_eq_some_iff.1 h
  exact (builds_interfaceOf (eq_ok_of_toOption hinterface)).dropped

theorem dropsOnly_registerClasses (allowed : String → Prop) (view : View) :
    view.registerClasses.Moves (Session.DropsOnly allowed) := by
  intro s
  obtain ⟨outcome, registry, hrun, hregistry⟩ :=
    view.run_forM_registerClass_cases view.generatedClasses s
  rw [registerClasses, hrun]
  rintro name signature ⟨i, hi, hdropped⟩
  change registry.interface? name = some i at hi
  rcases hregistry name with hold | ⟨-, hnew⟩
  · exact .inl ⟨i, hold ▸ hi, hdropped⟩
  · rw [dropped_of_interfaceAmong? (hnew.symm.trans hi)] at hdropped
    cases hdropped

end View

namespace Package

variable {package : Package} {s t : Session} {name module signature : String}

/-! ### Dropped methods -/

theorem admits_dropsOnly (package : Package) (allowed : String → Prop) :
    package.Admits (Session.DropsOnly allowed) := by
  have hextract (policy : Policy) :
      (package.extract policy).Moves (Session.DropsOnly allowed) :=
    fun s ↦ Session.dropsOnly_of_registry_eq allowed (registry_of_extract rfl)
  exact ⟨fun policy _ ↦ hextract policy, fun policy _ ↦ (hextract policy).bind fun extraction ↦
    View.dropsOnly_registerClasses allowed ⟨policy, extraction.module⟩⟩

/-- A check only drops methods of classes that its module generates. -/
theorem dropsOnly_check (package : Package) (view : View) :
    (view.check package.ensureInterface).Moves
      (Session.DropsOnly (· ∈ view.generatedClasses.map view.className)) := by
  refine View.moves_check (admits_dropsOnly package _).ensureInterface fun s found hfound ↦ ?_
  refine Session.dropsOnly_settle s fun finding hmem ↦ ?_
  obtain ⟨c, hc, hname⟩ := hfound finding hmem
  exact hname ▸ List.mem_map_of_mem hc

/-- A call drops a method in its check: the module of the call is prepared and has not passed
before, it generates the class, and the check drops the method. -/
def DropsIn (package : Package) (s : Session) (call : Call) (name signature : String) : Prop :=
  ∃ policy extraction prepared outcome checked,
    (package.prepare call.module).run s = (.ok (policy, extraction), prepared) ∧
    call.module ∉ prepared.checked ∧
    (View.check package.ensureInterface ⟨policy, extraction.module⟩).run prepared =
      (outcome, checked) ∧
    (∃ c ∈ View.generatedClasses ⟨policy, extraction.module⟩,
      View.className ⟨policy, extraction.module⟩ c = name) ∧
    ¬prepared.Drops name signature ∧ checked.Drops name signature

theorem drops_perform (call : Call)
    (h : ((package.perform call).run s).2.Drops name signature) :
    s.Drops name signature ∨ package.DropsIn s call name signature := by
  -- What follows the analysis, and the mark of the module, leave the registry as it is.
  have hanalyzed : ((package.analyze call.module).run s).2.Drops name signature := by
    rw [perform_eq] at h
    rcases hrun : (package.analyze call.module).run s with ⟨outcome, u⟩
    cases outcome with
    | error e => rwa [Run.run_bind_of_error hrun] at h
    | ok extraction =>
      rw [Run.run_bind_of_ok hrun] at h
      have hwrites := writes_emit package call extraction u
      rw [hwrites.same] at h
      exact h
  rcases hprepare : (package.prepare call.module).run s with ⟨outcome, prepared⟩
  have hbefore (hdrops : prepared.Drops name signature) : s.Drops name signature := by
    have hmoves := ((admits_dropsOnly package fun _ ↦ False).prepare call.module).of_eq hprepare
    exact (hmoves name signature hdrops).resolve_right id
  cases outcome with
  | error e =>
    rw [analyze, Run.run_bind_of_error hprepare] at hanalyzed
    exact .inl (hbefore hanalyzed)
  | ok pair =>
    obtain ⟨policy, extraction⟩ := pair
    by_cases hmarked : call.module ∈ prepared.checked
    · rw [run_analyze_of_marked hprepare hmarked] at hanalyzed
      exact .inl (hbefore hanalyzed)
    · rcases hcheck : (View.check package.ensureInterface ⟨policy, extraction.module⟩).run prepared
        with ⟨outcome, checked⟩
      have hchecked : checked.Drops name signature := by
        rw [run_analyze_of_unmarked hprepare hmarked hcheck] at hanalyzed
        cases outcome <;> exact hanalyzed
      by_cases hdrops : prepared.Drops name signature
      · exact .inl (hbefore hdrops)
      · have hname := ((dropsOnly_check package _).of_eq hcheck name signature hchecked)
          |>.resolve_left hdrops
        exact .inr ⟨policy, extraction, prepared, outcome, checked, hprepare, hmarked, hcheck,
          List.mem_map.1 hname, hdrops, hchecked⟩

/-- A method is dropped in one of some tasks. -/
theorem drops_afterTasks {tasks : List Task}
    (h : (package.afterTasks s tasks).Drops name signature) :
    s.Drops name signature ∨ ∃ before call after, tasks = before ++ .call call :: after ∧
      package.DropsIn (package.afterTasks s before) call name signature := by
  induction tasks using List.reverseRecOn with
  | nil => exact .inl h
  | append_singleton tasks task ih =>
    rw [afterTasks_concat] at h
    have hearlier (hdrops : (package.afterTasks s tasks).Drops name signature) :
        s.Drops name signature ∨ ∃ before call after,
          tasks ++ [task] = before ++ .call call :: after ∧
            package.DropsIn (package.afterTasks s before) call name signature := by
      rcases ih hdrops with hstart | ⟨before, call, after, rfl, hcall⟩
      · exact .inl hstart
      · exact .inr ⟨before, call, after ++ [task], by simp, hcall⟩
    cases task with
    | extract module =>
      have hextract : ((ofExcept (package.policy module) >>= package.extract :
          Run Extraction).Moves (Session.DropsOnly fun _ ↦ False)) :=
        Run.moves_ofExcept_bind fun policy hpolicy ↦
          (admits_dropsOnly package _).extract policy (mem_of_policy hpolicy).1
      exact hearlier ((hextract _ name signature h).resolve_right id)
    | call call =>
      rcases drops_perform call h with hbefore | hhere
      · exact hearlier hbefore
      · exact .inr ⟨tasks, call, [], rfl, hhere⟩

/-! ### What stays -/

theorem works_lasts (package : Package) : package.Works Session.Lasts where
  toAdmits := admits_of_allows Session.allows_lasts package
  settle s found := ⟨fun _ _ h ↦ h, InterfaceRegistry.grows_foldl_settle s.registry found⟩
  mark s _ := ⟨fun _ _ h ↦ h, .refl s.registry⟩
  write _ _ _ := Run.moves_writeIfChanged_of_files fun s ↦ ⟨fun _ _ h ↦ h, .refl s.registry⟩

/-! ### Checks that are done again -/

section Verdicts

theorem failsBy_ofNoVerdict {α : Type} {outcome : Except Error α} (h : NoVerdict outcome) :
    (ofExcept outcome : Run α).FailsBy (·.isVerdict = false) := Run.failsBy_ofExcept h

theorem noVerdict_policy (package : Package) (module : String) :
    NoVerdict (package.policy module) := by
  unfold Package.policy
  split
  · exact noVerdict_ok _
  · exact noVerdict_error rfl

theorem failsBy_extract (policy : Policy) :
    (package.extract policy).FailsBy (·.isVerdict = false) := by
  intro s e t h
  obtain ⟨-, ⟨hread, -⟩ | ⟨extraction, -, hbases, -⟩⟩ := extract_eq_error h
  · exact policy.noVerdict_extract package.config (package.source.noVerdict_load s.files) e hread
  · obtain ⟨c, hstops⟩ := View.stopsAt_of_checkBases hbases
    obtain ⟨bases, rfl⟩ := hstops.ambiguous
    rfl

theorem failsBy_indexedOwner? (name : String) :
    (package.indexedOwner? name).FailsBy (·.isVerdict = false) := by
  refine Run.failsBy_get.bind fun session ↦ ?_
  split
  · exact (failsBy_ofNoVerdict (noVerdict_policy package _)).bind fun _ ↦ Run.failsBy_pure _
  · exact Run.failsBy_pure _

theorem failsBy_owner (name : String) : (package.owner name).FailsBy (·.isVerdict = false) := by
  have hsearch (policies : List Policy) :
      (package.searchOwner name policies).FailsBy (·.isVerdict = false) := by
    induction policies with
    | nil => exact Run.failsBy_throw rfl
    | cons policy policies ih =>
      refine (failsBy_extract policy).bind fun _ ↦ (failsBy_indexedOwner? name).bind fun owner ↦ ?_
      cases owner with
      | none => exact ih
      | some owner => exact Run.failsBy_pure owner
  refine (failsBy_indexedOwner? name).bind fun owner ↦ ?_
  cases owner with
  | none => exact hsearch package.policies
  | some owner => exact Run.failsBy_pure owner

theorem failsBy_registerClasses (view : View) :
    view.registerClasses.FailsBy (·.isVerdict = false) := by
  refine Run.failsBy_forM fun c _ ↦ Run.failsBy_get.bind fun session ↦ ?_
  split
  · exact Run.failsBy_pure ()
  · refine (failsBy_ofNoVerdict (view.noVerdict_interfaceOf c)).bind fun interface ↦
      Run.failsBy_get.bind fun session ↦ (failsBy_ofNoVerdict ?_).bind fun registry ↦
        Run.failsBy_modify _
    unfold InterfaceRegistry.register
    split
    · exact noVerdict_error rfl
    · exact noVerdict_ok _

/-- Making an interface known does not fail with a verdict. -/
theorem failsBy_ensureInterface (name : String) :
    (package.ensureInterface name).FailsBy (·.isVerdict = false) := by
  refine Run.failsBy_get.bind fun session ↦ ?_
  split
  · exact Run.failsBy_pure ()
  · exact (failsBy_owner name).bind fun policy ↦ (failsBy_extract policy).bind fun extraction ↦
      failsBy_registerClasses _

end Verdicts

/-- A check that ends with a report or with a verdict has come to the end of its comparisons. -/
theorem findings_eq_ok_of_check {view : View} {outcome : Except Error Report}
    (houtcome : ∀ e, outcome = .error e → e.isVerdict = true)
    (h : (view.check package.ensureInterface).run s = (outcome, t)) :
    ∃ found, (view.findings package.ensureInterface).run s = (.ok found, t) ∧
      outcome = Report.toResult (found.map Finding.diagnostic) view.policy.moduleName
        view.policy.package := by
  rcases hfindings : (view.findings package.ensureInterface).run s with ⟨last, u⟩
  cases last with
  | ok found =>
    rw [View.run_check_of_findings hfindings] at h
    cases h
    exact ⟨found, rfl, rfl⟩
  | error e =>
    rw [View.check, Run.run_bind_of_error hfindings] at h
    cases h
    -- A lookup has failed, and so not with a verdict.
    have hlookup : e.isVerdict = false := by
      obtain ⟨name, v, hensure | hexpect⟩ := View.findings_eq_error hfindings
      · exact failsBy_ensureInterface name v e _ (Prod.ext hensure rfl)
      · unfold InterfaceRegistry.expect at hexpect
        split at hexpect <;> cases hexpect
        rfl
    rw [houtcome e rfl] at hlookup
    cases hlookup

/-- A check that ends with a report or with a verdict ends in the same way when it is done again,
and leaves the session as it is. -/
theorem run_check_again {view : View}
    (hplain : ∀ c ∈ view.generatedClasses, view.className c = c.name)
    {outcome : Except Error Report} (houtcome : ∀ e, outcome = .error e → e.isVerdict = true)
    (h : (view.check package.ensureInterface).run s = (outcome, t)) :
    (view.check package.ensureInterface).run t = (outcome, t) := by
  obtain ⟨found, hfindings, rfl⟩ := findings_eq_ok_of_check houtcome h
  have hextends (name : String) : (package.ensureInterface name).Moves Session.RegistryExtends :=
    moves_ensureInterface Session.allows_registryExtends package name
  refine View.run_check_of_findings (View.run_findings_again (fun name s ↦ (hextends name s).grows)
    (fun name signature other ↦ ?_) (fun _ _ h ↦ run_ensureInterface_of_hasClass h) hplain
    hfindings)
  have hkeeps : Session.Allows
      (Session.Keeps fun s ↦ s.registry.HasDropped name signature) :=
    { index := fun _ _ _ h ↦ h
      keep := fun _ _ _ _ h ↦ h
      register := fun _ _ interface hnew h ↦ h.append hnew interface }
  exact moves_ensureInterface hkeeps package other

/-- Whatever tasks are done in a session, and however they end: extractions that were kept stay, and
registered classes keep their members and methods. A method that a class is without in the end was
missing at first, or a check in one of the tasks has dropped it, of a module that generates the
class. And whenever a check of classes that are generated under their own names ends with a report
or a verdict, it does so again, and changes nothing. -/
theorem tasks_take_nothing_back (package : Package) (s : Session) (tasks : List Task) :
    (∀ module extraction, s.extractions.find? module = some extraction →
      (package.afterTasks s tasks).extractions.find? module = some extraction) ∧
    (∀ name i, s.registry.interface? name = some i →
      ∃ j, (package.afterTasks s tasks).registry.interface? name = some j ∧ i.Within j) ∧
    (∀ name signature, (package.afterTasks s tasks).Drops name signature →
      s.Drops name signature ∨ ∃ before call after, tasks = before ++ .call call :: after ∧
        package.DropsIn (package.afterTasks s before) call name signature) ∧
    ∀ view outcome t, (∀ c ∈ View.generatedClasses view, View.className view c = c.name) →
      (View.check package.ensureInterface view).run (package.afterTasks s tasks) = (outcome, t) →
      (∀ e, outcome = .error e → e.isVerdict = true) →
      (View.check package.ensureInterface view).run t = (outcome, t) := by
  obtain ⟨hextractions, hregistry⟩ :=
    (works_lasts package).afterOperations s (tasks.map Task.operation)
  exact ⟨hextractions, hregistry, fun _ _ h ↦ drops_afterTasks h,
    fun _ _ _ hplain h houtcome ↦ run_check_again hplain houtcome h⟩

namespace Drawing

def closedShapes : Policy := { Policy.empty "Shapes" "Drawing" with noProxies := ["Shape::Draw"] }

def closedCircles : Policy :=
  { Policy.empty "Circles" "Drawing" with noProxies := ["Circle::Draw"] }

/-- Nobody can override how shapes are drawn, so that circles need not say how they are. -/
def closed : Package where
  name := "Drawing"
  config := {}
  source
  manifest := none
  policies := [closedCircles, closedShapes]
  distinct := by decide

theorem isSome_extraction_closedCircles :
    (closed.extraction .empty closedCircles).toOption.isSome = true := by
  decide +kernel

def circlesView : View where
  policy := closedCircles
  module := ((closed.extraction .empty closedCircles).toOption.get
    isSome_extraction_closedCircles).module

end Drawing

open Drawing in
/-- The analysis drops how circles are drawn, and a later check of them changes nothing. -/
theorem circle_drops_draw :
    (∃ before call after,
      [Task.extract "Shapes", .call ⟨.analyze, "Circles"⟩] = before ++ .call call :: after ∧
        closed.DropsIn (closed.afterTasks {} before) call "Circle" "Draw()") ∧
    ∃ report t, (circlesView.check closed.ensureInterface).run
        (closed.afterTasks {} [.extract "Shapes", .call ⟨.analyze, "Circles"⟩]) =
          (.ok report, t) ∧ report.length = 1 ∧
      (circlesView.check closed.ensureInterface).run t = (.ok report, t) := by
  obtain ⟨-, -, hdrops, hagain⟩ := tasks_take_nothing_back closed {}
    [.extract "Shapes", .call ⟨.analyze, "Circles"⟩]
  constructor
  · refine (hdrops "Circle" "Draw()" ?_).resolve_left ?_
    · have hdropped : ((closed.afterTasks {} [.extract "Shapes", .call ⟨.analyze, "Circles"⟩])
          |>.registry.interface? "Circle").any (·.dropped.contains "Draw()") = true := by
        decide +kernel
      obtain ⟨i, hi, hmem⟩ := (Option.any_eq_true _ _).1 hdropped
      exact ⟨i, hi, List.contains_iff_mem.1 hmem⟩
    · rintro ⟨i, hi, -⟩
      cases hi
  · rcases hrun : (circlesView.check closed.ensureInterface).run
        (closed.afterTasks {} [.extract "Shapes", .call ⟨.analyze, "Circles"⟩]) with ⟨outcome, t⟩
    have hlength : ((circlesView.check closed.ensureInterface).run
        (closed.afterTasks {} [.extract "Shapes", .call ⟨.analyze, "Circles"⟩])).1.toOption.map
          List.length = some 1 := by
      decide +kernel
    rw [hrun] at hlength
    cases outcome with
    | error e => cases hlength
    | ok report =>
      exact ⟨report, t, rfl, Option.some.inj hlength,
        hagain circlesView (.ok report) t (fun _ _ ↦ rfl) hrun nofun⟩

end Package

end Bindery
