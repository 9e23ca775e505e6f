import Bindery.Proofs.Interface.Comparison

/-!
What stops a check. The comparisons themselves cannot fail, so that a check whose comparisons do not
come to an end has been stopped by one of its lookups (`findings_eq_error`). When it is settled
which classes the resolver knows (`Knows`), the first base that it does not know stops the check,
and without such a base the check comes to its end (`run_findings`). Only the classes that the check
looks up count, so that it is enough to know that these are found (`run_findings_of_finds`).
-/

set_option autoImplicit false
set_option relaxedAutoImplicit false

namespace Bindery

namespace View

variable {ensure : String → Run Unit} {view : View} {s t : Session}

/-! ### Any resolver -/

/-- Some lookup fails with this error. -/
def LookupFails (ensure : String → Run Unit) (e : Error) : Prop :=
  ∃ name s, ((ensure name).run s).1 = .error e ∨ s.registry.expect name = .error e

theorem failsBy_ensure (name : String) : (ensure name).FailsBy (LookupFails ensure) :=
  fun s _ _ h ↦ ⟨name, s, .inl (by rw [h])⟩

theorem failsBy_expectInterface (name : String) :
    (Run.expectInterface name).FailsBy (LookupFails ensure) := by
  intro s e t h
  rw [Run.run_expectInterface] at h
  exact ⟨name, s, .inr (Prod.mk.inj h).1⟩

theorem failsBy_compareBase (className : String) (own : Table String RegisteredMethod)
    (progress : List String × List Finding) (base : String) :
    (view.compareBase ensure className own progress base).FailsBy (LookupFails ensure) :=
  (failsBy_ensure base).bind fun _ ↦ (failsBy_expectInterface base).bind fun _ ↦
    (Run.failsBy_modify _).bind fun _ ↦ Run.failsBy_pure _

theorem failsBy_checkClass (c : Class) :
    (view.checkClass ensure c).FailsBy (LookupFails ensure) :=
  (failsBy_expectInterface _).bind fun own ↦
    (Run.failsBy_foldlM (fun base _ progress ↦
      failsBy_compareBase _ own.methods progress base) _).bind fun _ ↦ Run.failsBy_pure _

/-- The comparisons themselves cannot fail. -/
theorem findings_eq_error {e : Error} (h : (view.findings ensure).run s = (.error e, t)) :
    LookupFails ensure e := by
  have hfails : (view.findings ensure).FailsBy (LookupFails ensure) :=
    (Run.failsBy_forM fun c _ ↦ failsBy_ensure c.name).bind fun _ ↦
      (Run.failsBy_mapM fun c _ ↦ failsBy_checkClass c).bind fun _ ↦ Run.failsBy_pure _
  exact hfails s e t h

/-! ### A resolver that knows certain classes -/

/-- The resolver makes the classes in `known` known, and fails for all others. It does so in all
sessions that satisfy an invariant, which it keeps, and which dropping methods keeps. -/
structure Knows (ensure : String → Run Unit) (known : String → Bool) (Inv : Session → Prop) :
    Prop where
  finds : ∀ name s, known name = true → Inv s →
    ∃ t, (ensure name).run s = (.ok (), t) ∧ Inv t ∧ t.registry.hasClass name = true
  fails : ∀ name s, known name = false → Inv s →
    ∃ t, (ensure name).run s = (.error (.unknownOwner name), t) ∧ Inv t
  settles : ∀ s found, Inv s → Inv (s.settle found)

/-- How a run ends that looks up some bases: the first unknown one fails it. -/
def StopsAtUnknown {α : Type} (known : String → Bool) (bases : List String)
    (outcome : Except Error α) : Prop :=
  match bases.find? (!known ·) with
  | some base => outcome = .error (.unknownOwner base)
  | none => ∃ a, outcome = .ok a

section Knows

variable {known : String → Bool} {Inv : Session → Prop} (hknows : Knows ensure known Inv)

theorem stopsAtUnknown_append_of_ok {α : Type} {bases more : List String}
    {outcome : Except Error α} (h : bases.find? (!known ·) = none)
    (hmore : StopsAtUnknown known more outcome) :
    StopsAtUnknown known (bases ++ more) outcome := by
  rw [StopsAtUnknown, List.find?_append, h, Option.none_or]
  exact hmore

theorem stopsAtUnknown_append_of_error {α : Type} {bases : List String} {base : String}
    (h : bases.find? (!known ·) = some base) (more : List String) :
    StopsAtUnknown known (bases ++ more) (.error (.unknownOwner base) : Except Error α) := by
  rw [StopsAtUnknown, List.find?_append, h]
  rfl

/-- A run stops as its first step does, and goes on when that succeeds. -/
theorem exists_run_bind {α β : Type} {x : Run α} {f : α → Run β} {bases more : List String}
    (hx : ∃ outcome t, x.run s = (outcome, t) ∧ Inv t ∧ StopsAtUnknown known bases outcome)
    (hf : ∀ a t, Inv t → ∃ outcome u, (f a).run t = (outcome, u) ∧ Inv u ∧
      StopsAtUnknown known more outcome) :
    ∃ outcome t, (x >>= f).run s = (outcome, t) ∧ Inv t ∧
      StopsAtUnknown known (bases ++ more) outcome := by
  obtain ⟨outcome, t, hrun, ht, hstops⟩ := hx
  rw [StopsAtUnknown] at hstops
  cases hbases : bases.find? (!known ·) with
  | some base =>
    rw [hbases] at hstops
    rw [hstops] at hrun
    rw [Run.run_bind_of_error hrun]
    exact ⟨_, t, rfl, ht, stopsAtUnknown_append_of_error hbases more⟩
  | none =>
    rw [hbases] at hstops
    obtain ⟨a, rfl⟩ := hstops
    obtain ⟨last, u, hlast, hu, hmore⟩ := hf a t ht
    rw [Run.run_bind_of_ok hrun]
    exact ⟨last, u, hlast, hu, stopsAtUnknown_append_of_ok hbases hmore⟩

/-- A last step that cannot fail does not change how a run stops. -/
theorem exists_run_bind_pure {α β : Type} {x : Run α} {f : α → β} {bases : List String}
    (hx : ∃ outcome t, x.run s = (outcome, t) ∧ Inv t ∧ StopsAtUnknown known bases outcome) :
    ∃ outcome t, (x >>= fun a ↦ pure (f a)).run s = (outcome, t) ∧ Inv t ∧
      StopsAtUnknown known bases outcome := by
  have hlast (a : α) (t : Session) (ht : Inv t) : ∃ outcome u,
      (pure (f a) : Run β).run t = (outcome, u) ∧ Inv u ∧ StopsAtUnknown known [] outcome :=
    ⟨.ok (f a), t, rfl, ht, f a, rfl⟩
  have h := exists_run_bind hx hlast
  rwa [List.append_nil] at h

include hknows

theorem run_compareBase (className : String) (own : Table String RegisteredMethod)
    (progress : List String × List Finding) (base : String) (hs : Inv s) :
    ∃ outcome t, (view.compareBase ensure className own progress base).run s = (outcome, t) ∧
      Inv t ∧ StopsAtUnknown known [base] outcome := by
  cases hbase : known base with
  | false =>
    obtain ⟨u, hensure, hu⟩ := hknows.fails base s hbase hs
    rw [compareBase, Run.run_bind_of_error hensure]
    exact ⟨_, u, rfl, hu, by simp [StopsAtUnknown, hbase]⟩
  | true =>
    obtain ⟨u, hensure, hu, hclass⟩ := hknows.finds base s hbase hs
    rw [InterfaceRegistry.hasClass_eq_isSome] at hclass
    obtain ⟨interface, hinterface⟩ := Option.isSome_iff_exists.1 hclass
    have hexpect : (Run.expectInterface base).run u = (.ok interface, u) := by
      rw [Run.run_expectInterface, InterfaceRegistry.expect_eq_ok_iff.2 hinterface]
    rw [compareBase, Run.run_bind_of_ok hensure, Run.run_bind_of_ok hexpect]
    refine ⟨_, _, rfl, hknows.settles u _ hu, ?_⟩
    rw [StopsAtUnknown, List.find?_singleton, hbase]
    exact ⟨_, rfl⟩

theorem run_foldlM_compareBase (className : String) (own : Table String RegisteredMethod)
    (bases : List String) (progress : List String × List Finding) (hs : Inv s) :
    ∃ outcome t, (bases.foldlM (view.compareBase ensure className own) progress).run s =
      (outcome, t) ∧ Inv t ∧ StopsAtUnknown known bases outcome := by
  induction bases generalizing s progress with
  | nil => exact ⟨.ok progress, s, rfl, hs, progress, rfl⟩
  | cons base bases ih =>
    rw [List.foldlM_cons]
    rw [← List.singleton_append (x := base)]
    exact exists_run_bind (run_compareBase hknows className own progress base hs)
      fun next t ht ↦ ih next ht

/-- A class whose own interface is registered is compared up to its first unknown base. -/
theorem run_checkClass {c : Class} (hclass : s.registry.hasClass (view.className c) = true)
    (hs : Inv s) :
    ∃ outcome t, (view.checkClass ensure c).run s = (outcome, t) ∧ Inv t ∧
      StopsAtUnknown known (view.baseList c) outcome := by
  rw [InterfaceRegistry.hasClass_eq_isSome] at hclass
  obtain ⟨own, hown⟩ := Option.isSome_iff_exists.1 hclass
  have hexpect : (Run.expectInterface (view.className c)).run s = (.ok own, s) := by
    rw [Run.run_expectInterface, InterfaceRegistry.expect_eq_ok_iff.2 hown]
  rw [checkClass, Run.run_bind_of_ok hexpect]
  exact exists_run_bind_pure (f := Prod.snd)
    (run_foldlM_compareBase hknows _ own.methods (view.baseList c) ([], []) hs)

theorem run_mapM_checkClass {classes : List Class}
    (hclasses : ∀ s, Inv s → ∀ c ∈ classes, s.registry.hasClass (view.className c) = true)
    (hs : Inv s) :
    ∃ outcome t, (classes.mapM (view.checkClass ensure)).run s = (outcome, t) ∧ Inv t ∧
      StopsAtUnknown known (classes.flatMap view.baseList) outcome := by
  induction classes generalizing s with
  | nil => exact ⟨.ok [], s, rfl, hs, [], rfl⟩
  | cons c classes ih =>
    rw [List.mapM_cons, List.flatMap_cons]
    refine exists_run_bind (run_checkClass hknows (hclasses s hs c List.mem_cons_self) hs)
      fun found t ht ↦ exists_run_bind_pure ?_
    exact ih (fun s hs d hd ↦ hclasses s hs d (List.mem_cons_of_mem _ hd)) ht

theorem run_forM_ensure {classes : List Class} (hnames : ∀ c ∈ classes, known c.name = true)
    (hs : Inv s) : ∃ t, (classes.forM fun c ↦ ensure c.name).run s = (.ok (), t) ∧ Inv t := by
  induction classes generalizing s with
  | nil => exact ⟨s, rfl, hs⟩
  | cons c classes ih =>
    obtain ⟨t, hrun, ht, -⟩ := hknows.finds c.name s (hnames c List.mem_cons_self) hs
    rw [List.forM, Run.run_bind_of_ok hrun]
    exact ih (fun d hd ↦ hnames d (List.mem_cons_of_mem _ hd)) ht

/-- The check of a module whose own classes are known and registered is stopped by its first unknown
base, and comes to its end without one. -/
theorem run_findings (hnames : ∀ c ∈ view.generatedClasses, known c.name = true)
    (hclasses : ∀ s, Inv s → ∀ c ∈ view.generatedClasses,
      s.registry.hasClass (view.className c) = true) (hs : Inv s) :
    ∃ outcome t, (view.findings ensure).run s = (outcome, t) ∧ Inv t ∧
      StopsAtUnknown known (view.generatedClasses.flatMap view.baseList) outcome := by
  obtain ⟨t, hrun, ht⟩ := run_forM_ensure hknows hnames hs
  rw [findings, Run.run_bind_of_ok hrun]
  exact exists_run_bind_pure (run_mapM_checkClass hknows hclasses ht)

end Knows

/-! ### A resolver that finds what a check looks up -/

/-- Only what a check looks up counts. -/
theorem findings_congr {other : String → Run Unit}
    (hown : ∀ c ∈ view.generatedClasses, ensure c.name = other c.name)
    (hbases : ∀ base ∈ view.generatedClasses.flatMap view.baseList, ensure base = other base) :
    view.findings ensure = view.findings other := by
  have hcheck : ∀ c ∈ view.generatedClasses,
      view.checkClass ensure c = view.checkClass other c := by
    intro c hc
    have hcompare (own : Table String RegisteredMethod) :
        (view.baseList c).foldlM (view.compareBase ensure (view.className c) own) ([], []) =
          (view.baseList c).foldlM (view.compareBase other (view.className c) own) ([], []) := by
      refine foldlM_congr_left (fun base hbase progress ↦ ?_) _
      rw [compareBase, compareBase, hbases base (List.mem_flatMap.2 ⟨c, hc, hbase⟩)]
    simp only [checkClass, hcompare]
  rw [findings, findings, forM_congr_left hown, mapM_congr_left hcheck]

/-- A check comes to its end when the resolver finds its bases in all sessions that satisfy an
invariant, which it keeps, and which dropping methods keeps. -/
theorem run_findings_of_finds {Inv : Session → Prop}
    (hfinds : ∀ name, name ∈ view.generatedClasses.map Class.name ∨
        name ∈ view.generatedClasses.flatMap view.baseList → ∀ s, Inv s →
      ∃ t, (ensure name).run s = (.ok (), t) ∧ Inv t ∧ t.registry.hasClass name = true)
    (hsettles : ∀ s found, Inv s → Inv (s.settle found))
    (hclasses : ∀ s, Inv s → ∀ c ∈ view.generatedClasses,
      s.registry.hasClass (view.className c) = true) (hs : Inv s) :
    ∃ found t, (view.findings ensure).run s = (.ok found, t) ∧ Inv t := by
  let names := view.generatedClasses.map Class.name ++
    view.generatedClasses.flatMap view.baseList
  let restricted (name : String) : Run Unit :=
    if names.contains name then ensure name else throw (.unknownOwner name)
  have hsame {name : String} (hname : name ∈ names) : ensure name = restricted name :=
    (if_pos (List.contains_iff_mem.2 hname)).symm
  have hknows : Knows restricted names.contains Inv := by
    refine ⟨fun name s hname hs ↦ ?_, fun name s hname hs ↦ ⟨s, ?_, hs⟩, hsettles⟩
    · rw [← hsame (List.contains_iff_mem.1 hname)]
      exact hfinds name (List.mem_append.1 (List.contains_iff_mem.1 hname)) s hs
    · simp only [restricted, hname]
      rfl
  have hknown : (view.generatedClasses.flatMap view.baseList).find? (!names.contains ·) = none := by
    refine List.find?_eq_none.2 fun base hbase ↦ ?_
    rw [List.contains_iff_mem.2 (List.mem_append_right _ hbase)]
    exact Bool.false_ne_true
  obtain ⟨outcome, t, hrun, ht, hstops⟩ := run_findings hknows
    (fun c hc ↦ List.contains_iff_mem.2 (List.mem_append_left _ (List.mem_map_of_mem hc)))
    hclasses hs
  rw [StopsAtUnknown, hknown] at hstops
  obtain ⟨found, rfl⟩ := hstops
  have hfindings : view.findings ensure = view.findings restricted :=
    findings_congr (fun c hc ↦ hsame (List.mem_append_left _ (List.mem_map_of_mem hc)))
      fun base hbase ↦ hsame (List.mem_append_right _ hbase)
  rw [← hfindings] at hrun
  exact ⟨found, t, hrun, ht⟩

end View

end Bindery
