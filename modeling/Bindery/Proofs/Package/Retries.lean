import Bindery.Proofs.Package.Indexing
import Bindery.Proofs.Package.Retracing

/-!
Analyses that are done again. One might expect that an analysis that has failed fails again with the
same error, as long as nothing else happens. But a failed analysis leaves behind what it had done,
and the next one passes over what it finds: a class is not registered once more, though registering
its module failed behind it. So the next analysis fails with the same error, and so do all others
after it, unless a class of this kind has been left behind, or the index gives a class of the module
to another module by then (`analysis_fails_again`).
-/

set_option autoImplicit false
set_option relaxedAutoImplicit false

namespace Bindery

namespace Package

variable {package : Package} {s t v first last : Session} {policy : Policy}
  {name module : String} {e : Error}

/-! ### Lookups -/

theorem IndexedFor.of_alike (h : package.IndexedFor s name policy) (hv : s.Alike v) :
    package.IndexedFor v name policy := ⟨h.1, (hv.classIndex name).trans h.2⟩

/-- A search that has failed fails again, or the module at which it has failed has indexed the class
by then. -/
theorem searchOwner_fails_again {policies : List Policy}
    (hpolicies : ∀ policy ∈ policies, policy ∈ package.policies)
    (hs : s.classIndex.find? name = none)
    (h : (package.searchOwner name policies).run s = (.error e, last)) (hv : last.Alike v) :
    (last.classIndex.find? name = none ∧
      ∃ w, (package.searchOwner name policies).run v = (.error e, w) ∧ last.Alike w) ∨
    ∃ policy, package.IndexedFor last name policy ∧
      ∃ w, (package.extract policy).run v = (.error e, w) ∧ last.Alike w := by
  -- The modules in front of the failing one have been extracted, and have not indexed the class.
  induction policies generalizing s with
  | nil =>
    cases h
    exact .inl ⟨hs, v, rfl, hv⟩
  | cons policy rest ih =>
    obtain ⟨hpolicy, hrest⟩ := List.forall_mem_cons.1 hpolicies
    rw [searchOwner] at h ⊢
    rcases hextract : (package.extract policy).run s with ⟨outcome, u⟩
    have hindex := find?_classIndex_of_extract hextract name
    rw [hs] at hindex
    cases outcome with
    | error e' =>
      rw [Run.run_bind_of_error hextract] at h
      cases h
      obtain ⟨w, hw, hlike⟩ := extract_fails_again hextract hv
      rcases hindex with hnone | ⟨-, hnew⟩
      · exact .inl ⟨hnone, w, Run.run_bind_of_error hw _, hlike⟩
      · exact .inr ⟨policy, ⟨hpolicy, hnew⟩, w, hw, hlike⟩
    | ok extraction =>
      rw [Run.run_bind_of_ok hextract] at h
      rcases hindex with hnone | ⟨-, hnew⟩
      · rw [Run.run_bind_of_ok (run_indexedOwner?_of_unindexed hnone)] at h
        refine (ih hrest hnone h).imp_left ?_
        rintro ⟨hlast, w, hw, hlike⟩
        refine ⟨hlast, w, ?_, hlike⟩
        have hlater : u.Grows last :=
          (moves_searchOwner (admits_of_allows Session.allows_grows package).extract hrest
            name).of_eq h
        have hknown : v.extractions.find? policy.moduleName = some extraction := by
          rw [hv.extractions, hlater.extractions _ _ (find?_of_extract_eq_ok hextract)]
        have hv_none : v.classIndex.find? name = none := (hv.classIndex name).trans hlast
        rw [Run.run_bind_of_ok (run_extract_of_known hknown),
          Run.run_bind_of_ok (run_indexedOwner?_of_unindexed hv_none)]
        exact hw
      · have hindexed : package.IndexedFor u name policy := ⟨hpolicy, hnew⟩
        rw [Run.run_bind_of_ok hindexed.run_indexedOwner?] at h
        cases h

/-- A lookup that has failed fails again, if not by itself then when the module is extracted. -/
theorem owner_fails_again {α : Type} (h : (package.owner name).run s = (.error e, last))
    (hv : last.Alike v) (next : Policy → Extraction → Run α) :
    ∃ w, (package.owner name >>= fun policy ↦
        package.extract policy >>= next policy).run v = (.error e, w) ∧ last.Alike w := by
  cases hs : s.classIndex.find? name with
  | some module =>
    cases hpolicy : package.policy module with
    | ok policy =>
      obtain ⟨hmem, rfl⟩ := mem_of_policy hpolicy
      have hindexed : package.IndexedFor s name policy := ⟨hmem, hs⟩
      rw [hindexed.run_owner] at h
      cases h
    | error e' =>
      have hfails {u : Session} (hu : u.classIndex.find? name = some module) :
          (package.owner name).run u = (.error e', u) := by
        refine Run.run_bind_of_error ?_ _
        rw [run_indexedOwner?, hu]
        simp only [hpolicy, Except.map]
      rw [hfails hs] at h
      cases h
      exact ⟨v, Run.run_bind_of_error (hfails ((hv.classIndex name).trans hs)) _, hv⟩
  | none =>
    rw [owner, Run.run_bind_of_ok (run_indexedOwner?_of_unindexed hs)] at h
    rcases searchOwner_fails_again (fun _ h ↦ h) hs h hv with
      ⟨hlast, w, hw, hlike⟩ | ⟨policy, hindex, w, hw, hlike⟩
    · refine ⟨w, Run.run_bind_of_error ?_ _, hlike⟩
      have hv_none : v.classIndex.find? name = none := (hv.classIndex name).trans hlast
      rw [owner, Run.run_bind_of_ok (run_indexedOwner?_of_unindexed hv_none)]
      exact hw
    · refine ⟨w, ?_, hlike⟩
      rw [Run.run_bind_of_ok (hindex.of_alike hv).run_owner]
      exact Run.run_bind_of_error hw _

/-- The class has been registered between the two sessions, though registering its module fails
behind it. -/
def Skips (package : Package) (first last : Session) (name : String) (e : Error) : Prop :=
  first.registry.hasClass name = false ∧ last.registry.hasClass name = true ∧
    ∃ policy extraction, package.IndexedFor last name policy ∧
      last.extractions.find? policy.moduleName = some extraction ∧
        (View.registerClasses ⟨policy, extraction.module⟩).run last = (.error e, last)

theorem Skips.of_grows (h : package.Skips s last name e) (hgrows : first.Grows s) :
    package.Skips first last name e := ⟨hgrows.hasClass_eq_false h.1, h.2⟩

/-- The class is still not registered, and the index gives it to a module that had not been
extracted at first. -/
def Regiven (first last : Session) (name : String) : Prop :=
  last.registry.hasClass name = false ∧
    ∃ other, last.classIndex.find? name = some other ∧ first.extractions.find? other = none

/-- When an interface cannot be made known because its module cannot be registered, another try ends
at the same class, unless the first one got past the class itself. -/
theorem ensureInterface_fails_again_of_registerClasses {u : Session} {extraction : Extraction}
    (hnew : s.registry.hasClass name = false)
    (hextract : (package.extract policy).run u = (.ok extraction, t))
    (hindexed : package.IndexedFor t name policy)
    (h : (View.registerClasses ⟨policy, extraction.module⟩).run t = (.error e, last))
    (hskips : ¬package.Skips s last name e) (hv : last.Alike v) :
    (package.ensureInterface name).run v = (.error e, v) := by
  have hlast := View.eq_withRegistry_of_registerClasses h
  have hlast_indexed : package.IndexedFor last name policy := by
    rw [hlast]
    exact hindexed
  have hkept := find?_of_extract_eq_ok hextract
  have hknown : last.extractions.find? policy.moduleName = some extraction := by
    rw [hlast]
    exact hkept
  have hagain {x : Session} (hx : ∀ name, x.registry.hasClass name = last.registry.hasClass name) :
      (View.registerClasses ⟨policy, extraction.module⟩).run x = (.error e, x) :=
    View.run_forM_registerClass_again h hx
  -- The class can stand in front of the one that cannot be registered, or behind it.
  cases hclass : last.registry.hasClass name with
  | true =>
    exact (hskips ⟨hnew, hclass, policy, extraction, hlast_indexed, hknown,
      hagain fun _ ↦ rfl⟩).elim
  | false =>
    rw [run_ensureInterface_of_new ((hv.hasClass name).trans hclass),
      Run.run_bind_of_ok (hlast_indexed.of_alike hv).run_owner,
      Run.run_bind_of_ok (run_extract_of_known (hv.extractions ▸ hknown))]
    exact hagain hv.hasClass

/-- An interface that could not be made known cannot be made known by another try, unless the class
has been registered by the first one. -/
theorem ensureInterface_fails_again (h : (package.ensureInterface name).run s = (.error e, last))
    (hskips : ¬package.Skips s last name e) (hv : last.Alike v) :
    ∃ w, (package.ensureInterface name).run v = (.error e, w) ∧ last.Alike w := by
  have hnew : s.registry.hasClass name = false := by
    cases hclass : s.registry.hasClass name with
    | false => rfl
    | true =>
      rw [run_ensureInterface_of_hasClass hclass] at h
      cases h
  rw [run_ensureInterface_of_new hnew] at h
  rcases howner : (package.owner name).run s with ⟨outcome, u⟩
  have hu : u.registry = s.registry := registry_of_owner howner
  cases outcome with
  | error e' =>
    rw [Run.run_bind_of_error howner] at h
    cases h
    have hv_new : v.registry.hasClass name = false := by rw [hv.hasClass, hu, hnew]
    rw [run_ensureInterface_of_new hv_new]
    exact owner_fails_again howner hv _
  | ok policy =>
    rw [Run.run_bind_of_ok howner] at h
    rcases hextract : (package.extract policy).run u with ⟨outcome, w⟩
    have hindexed : package.IndexedFor w name policy :=
      (indexedFor_of_owner howner).extract hextract
    cases outcome with
    | error e' =>
      rw [Run.run_bind_of_error hextract] at h
      cases h
      have hv_new : v.registry.hasClass name = false := by
        rw [hv.hasClass, registry_of_extract hextract, hu, hnew]
      obtain ⟨w', hw', hlike⟩ := extract_fails_again hextract hv
      refine ⟨w', ?_, hlike⟩
      rw [run_ensureInterface_of_new hv_new, Run.run_bind_of_ok (hindexed.of_alike hv).run_owner]
      exact Run.run_bind_of_error hw' _
    | ok extraction =>
      rw [Run.run_bind_of_ok hextract] at h
      exact ⟨v, ensureInterface_fails_again_of_registerClasses hnew hextract hindexed h hskips hv,
        hv⟩

/-- An interface that has been made known stays known, as long as the index names the same module if
the class itself is not registered. -/
theorem ensureInterface_succeeds_again (h : (package.ensureInterface name).run s = (.ok (), t))
    (ht : t.Advances last) (hv : last.Alike v)
    (hkept : last.registry.hasClass name = false →
      last.classIndex.find? name = t.classIndex.find? name) :
    (package.ensureInterface name).run v = (.ok (), v) := by
  cases hclass : last.registry.hasClass name with
  | true => exact run_ensureInterface_of_hasClass ((hv.hasClass name).trans hclass)
  | false =>
    rcases ensureInterface_eq_ok h with hknown | ⟨policy, extraction, hindexed, hprepared⟩
    · rw [ht.registry.hasClass hknown] at hclass
      cases hclass
    · have hlast : package.IndexedFor last name policy :=
        ⟨hindexed.1, (hkept hclass).trans hindexed.2⟩
      obtain ⟨-, hknown, hclasses⟩ := hprepared.mono ht.registry ht.extractions
      rw [run_ensureInterface_of_new ((hv.hasClass name).trans hclass),
        Run.run_bind_of_ok (hlast.of_alike hv).run_owner,
        Run.run_bind_of_ok (run_extract_of_known (hv.extractions ▸ hknown))]
      exact View.run_registerClasses_of_known fun c hc ↦ (hv.hasClass _).trans (hclasses c hc)

/-- Making the interface of a class known retraces, unless the class has been left behind. -/
theorem retraces_ensureInterface (hskips : ¬package.Skips first last name e)
    (hregiven : ¬Regiven first last name) :
    (package.ensureInterface name).Retraces first last e := by
  refine ⟨package.admits_advances.ensureInterface name, fun s outcome t hs hrun ht hfails v hv ↦ ?_⟩
  cases outcome with
  | error e' =>
    obtain ⟨rfl, rfl⟩ := hfails e' rfl
    exact ensureInterface_fails_again hrun (fun h ↦ hskips (h.of_grows hs.toGrows)) hv
  | ok _ =>
    refine ⟨v, ensureInterface_succeeds_again hrun ht hv fun hclass ↦ ?_, hv⟩
    rcases ensureInterface_eq_ok hrun with hknown | ⟨policy, extraction, hindexed, -⟩
    · rw [ht.registry.hasClass hknown] at hclass
      cases hclass
    · have hst : first.Advances t :=
        IsTrans.trans _ _ _ hs ((package.admits_advances.ensureInterface name).of_eq hrun)
      have hsome : (t.classIndex.find? name).isSome = true := by
        rw [hindexed.2]
        rfl
      obtain ⟨other, hother⟩ := Option.isSome_iff_exists.1 (ht.indexed name hsome)
      refine (ht.given name other hother).elim (fun hsame ↦ hother.trans hsame.symm) fun hnew ↦ ?_
      exact (hregiven ⟨hclass, other, hother, hst.toGrows.find?_eq_none hnew⟩).elim

/-! ### Checks -/

section Check

variable {view : View}

/-- Comparing a class with a base retraces: the base is known and registered after it, or the
comparison has failed. -/
theorem retraces_compareBase {base : String} (hskips : ¬package.Skips first last base e)
    (className : String) (own : Table String RegisteredMethod)
    (progress : List String × List Finding) :
    (view.compareBase package.ensureInterface className own progress base).Retraces
      first last e := by
  refine ⟨View.moves_compareBase package.admits_advances.ensureInterface
    (fun s found _ ↦ s.advances_settle found) own progress base,
    fun s outcome t hs hrun ht hfails v hv ↦ ?_⟩
  rcases hensure : (package.ensureInterface base).run s with ⟨middle, u⟩
  cases middle with
  | error e' =>
    rw [View.compareBase, Run.run_bind_of_error hensure] at hrun
    cases hrun
    obtain ⟨rfl, rfl⟩ := hfails e' rfl
    obtain ⟨w, hw, hlike⟩ :=
      ensureInterface_fails_again hensure (fun h ↦ hskips (h.of_grows hs.toGrows)) hv
    exact ⟨w, Run.run_bind_of_error hw _, hlike⟩
  | ok _ =>
    cases hexpect : u.registry.expect base with
    | error e' =>
      rw [View.compareBase, Run.run_bind_of_ok hensure,
        Run.run_bind_of_error (Run.run_expectInterface_of_eq hexpect)] at hrun
      cases hrun
      obtain ⟨rfl, rfl⟩ := hfails e' rfl
      -- Nothing happens after the lookup, so that the index still names the same module.
      have hagain := ensureInterface_succeeds_again hensure (Std.Refl.refl _) hv fun _ ↦ rfl
      have hmissing := Run.run_expectInterface_of_eq (hv.expect_eq_error hexpect)
      exact ⟨v, (Run.run_bind_of_ok hagain _).trans (Run.run_bind_of_error hmissing _), hv⟩
    | ok i =>
      rw [View.run_compareBase_of_registered hensure hexpect] at hrun
      cases hrun
      have hgrows : u.registry.Grows last.registry :=
        (u.grows_settle _).registry.trans ht.registry
      obtain ⟨j, hj, hmethods⟩ := hv.exists_expect hgrows hexpect
      have hclass : v.registry.hasClass base = true := InterfaceRegistry.hasClass_of_expect hj
      rw [View.run_compareBase_of_registered (run_ensureInterface_of_hasClass hclass) hj, hmethods]
      exact ⟨_, rfl, hv.trans (v.alike_settle _)⟩

theorem retraces_checkClass {c : Class}
    (hskips : ∀ base ∈ view.baseList c, ¬package.Skips first last base e) :
    (view.checkClass package.ensureInterface c).Retraces first last e := by
  have hadvances : (view.checkClass package.ensureInterface c).Moves Session.Advances :=
    View.moves_checkClass package.admits_advances.ensureInterface
      fun s found _ ↦ s.advances_settle found
  refine ⟨hadvances, fun s outcome t hs hrun ht hfails v hv ↦ ?_⟩
  have hst : s.Advances t := hadvances.of_eq hrun
  cases hown : s.registry.expect (view.className c) with
  | error e' =>
    rw [View.checkClass, Run.run_bind_of_error (Run.run_expectInterface_of_eq hown)] at hrun
    cases hrun
    obtain ⟨rfl, rfl⟩ := hfails e' rfl
    have hmissing := Run.run_expectInterface_of_eq (hv.expect_eq_error hown)
    exact ⟨v, Run.run_bind_of_error hmissing _, hv⟩
  | ok own =>
    obtain ⟨later, hlater, hmethods⟩ :=
      hv.exists_expect (hst.registry.trans ht.registry) hown
    have hcompare : ((view.baseList c).foldlM (view.compareBase package.ensureInterface
        (view.className c) own.methods) ([], [])).Retraces first last e :=
      Run.retraces_foldlM (fun base hbase progress ↦
        retraces_compareBase (hskips base hbase) (view.className c) own.methods progress) _
    rw [View.checkClass, Run.run_bind_of_ok (Run.run_expectInterface_of_eq hown)] at hrun
    rw [View.checkClass, Run.run_bind_of_ok (Run.run_expectInterface_of_eq hlater), hmethods]
    exact (hcompare.bind fun progress ↦ Run.retraces_pure progress.2).again s outcome t hs hrun ht
      hfails v hv

end Check

/-- The classes that the check of a module looks up. -/
def lookedUp (view : View) : List String :=
  view.generatedClasses.map Class.name ++ view.generatedClasses.flatMap view.baseList

/-- A check retraces when nothing that it looks up has been left behind. -/
theorem retraces_check {view : View}
    (hskips : ∀ name ∈ lookedUp view, ¬package.Skips first last name e)
    (hregiven : ∀ c ∈ view.generatedClasses, ¬Regiven first last c.name) :
    (view.check package.ensureInterface).Retraces first last e := by
  have hfindings : (view.findings package.ensureInterface).Retraces first last e := by
    refine (Run.retraces_forM fun c hc ↦ ?_).bind fun _ ↦
      (Run.retraces_mapM fun c hc ↦ ?_).bind fun _ ↦ Run.retraces_pure _
    · have hname : c.name ∈ lookedUp view := List.mem_append_left _ (List.mem_map_of_mem hc)
      exact retraces_ensureInterface (hskips c.name hname) (hregiven c hc)
    · exact retraces_checkClass fun base hbase ↦ hskips base
        (List.mem_append_right _ (List.mem_flatMap.2 ⟨c, hc, hbase⟩))
  exact hfindings.bind fun _ ↦ Run.retraces_ofExcept _

/-! ### Analyses -/

/-- What a failed analysis leaves behind that makes the next one end otherwise. -/
inductive LeavesBehind (package : Package) (module : String) (e : Error) (s t : Session) : Prop
  /-- A class that the check looks up has been registered, though registering its module fails
  behind it. -/
  | skipped {policy : Policy} {extraction : Extraction} {name : String}
    (prepared : package.IsPrepared t module policy extraction)
    (looked : name ∈ lookedUp ⟨policy, extraction.module⟩)
    (skips : package.Skips s t name e)
  /-- A class that the module generates under another name has been given to another module in the
  index, which had not been extracted before. -/
  | regiven {policy : Policy} {extraction : Extraction} {c : Class} {other : String}
    (prepared : package.IsPrepared t module policy extraction)
    (generated : c ∈ View.generatedClasses ⟨policy, extraction.module⟩)
    (renamed : policy.className c.name ≠ c.name)
    (given : t.classIndex.find? c.name = some other)
    (different : other ≠ module)
    (unknown : s.extractions.find? other = none)

theorem LeavesBehind.exists_isPrepared (h : package.LeavesBehind module e s t) :
    ∃ policy extraction, package.IsPrepared t module policy extraction := by
  cases h with
  | skipped prepared => exact ⟨_, _, prepared⟩
  | regiven prepared => exact ⟨_, _, prepared⟩

/-- The check of a prepared module retraces when nothing is left behind. -/
theorem retraces_check_of_prepared {prepared : Session} {extraction : Extraction}
    (hstart : s.Advances prepared) (hend : prepared.Advances t)
    (hprepared : package.IsPrepared prepared module policy extraction)
    (hleaves : ¬package.LeavesBehind module e s t) :
    (View.check package.ensureInterface ⟨policy, extraction.module⟩).Retraces prepared t e := by
  have hlater := hprepared.mono hend.registry hend.extractions
  refine retraces_check (fun name hname hskips ↦ hleaves ?_) fun c hc hregiven ↦ hleaves ?_
  · exact .skipped hlater hname (hskips.of_grows hstart.toGrows)
  · obtain ⟨hclass, other, hother, hunknown⟩ := hregiven
    refine .regiven hlater hc (fun hsame ↦ ?_) hother (fun hsame ↦ ?_)
      (hstart.find?_eq_none hunknown)
    · have hregistered := hlater.2.2 c hc
      rw [View.className, hsame, hclass] at hregistered
      cases hregistered
    · obtain ⟨hpolicy, hknown, -⟩ := hprepared
      rw [(mem_of_policy hpolicy).2, ← hsame, hunknown] at hknown
      cases hknown

/-- An analysis that has failed fails again in every session like the one it has led to. -/
theorem analyze_fails_again (h : (package.analyze module).run s = (.error e, t))
    (hleaves : ¬package.LeavesBehind module e s t) (hv : t.Alike v) :
    ∃ w, (package.analyze module).run v = (.error e, w) ∧ t.Alike w := by
  have hprepares := package.retraces_prepare module s t e
  rcases hprepare : (package.prepare module).run s with ⟨outcome, prepared⟩
  have hstart : s.Advances prepared := hprepares.advances.of_eq hprepare
  cases outcome with
  | error e' =>
    rw [analyze, Run.run_bind_of_error hprepare] at h
    cases h
    obtain ⟨w, hw, hlike⟩ := hprepares.again s (.error e) t (Std.Refl.refl s) hprepare
      (Std.Refl.refl t) (fun _ h ↦ by cases h; exact ⟨rfl, rfl⟩) v hv
    exact ⟨w, Run.run_bind_of_error hw _, hlike⟩
  | ok result =>
    obtain ⟨policy, extraction⟩ := result
    have hprepared := isPrepared_of_prepare_eq_ok hprepare
    have hmarked : module ∉ prepared.checked := by
      intro hmarked
      rw [run_analyze_of_marked hprepare hmarked] at h
      cases h
    rcases hcheck : (View.check package.ensureInterface ⟨policy, extraction.module⟩).run prepared
      with ⟨outcome, u⟩
    rw [run_analyze_of_unmarked hprepare hmarked hcheck] at h
    cases outcome with
    | ok report => cases h
    | error e' =>
      cases h
      have hend : prepared.Advances t :=
        (package.admits_advances.check Session.advances_settle _).of_eq hcheck
      have hchecks := retraces_check_of_prepared hstart hend hprepared hleaves
      obtain ⟨w, hw, hlike⟩ := hprepares.again s (.ok (policy, extraction)) prepared
        (Std.Refl.refl s) hprepare hend (fun _ h ↦ by cases h) v hv
      obtain ⟨w', hw', hlike'⟩ := hchecks.again prepared (.error e) t (Std.Refl.refl prepared)
        hcheck (Std.Refl.refl t) (fun _ h ↦ by cases h; exact ⟨rfl, rfl⟩) w hlike
      have hw_marked : module ∉ w.checked := by rwa [hlike.checked, hend.checked]
      exact ⟨w', run_analyze_of_unmarked hw hw_marked hw', hlike'⟩

/-- When the analysis of a module has failed, every further analysis of it fails with the same
error, as long as nothing else happens to the session. The first one may have left something behind
that the next one passes over, or looks up elsewhere: these are the only exceptions. -/
theorem analysis_fails_again (h : (package.analyze module).run s = (.error e, t)) :
    package.LeavesBehind module e s t ∨ ∀ retries, ((package.analyze module).run
      (package.after t (List.replicate retries ⟨.analyze, module⟩))).1 = .error e := by
  by_cases hleaves : package.LeavesBehind module e s t
  · exact .inl hleaves
  · refine .inr fun retries ↦ ?_
    have hlike : t.Alike (package.after t (List.replicate retries ⟨.analyze, module⟩)) := by
      induction retries with
      | zero => exact .refl t
      | succ retries ih =>
        obtain ⟨w, hw, hlike⟩ := analyze_fails_again h hleaves ih
        rw [List.replicate_succ', after_append, after_analyze, hw]
        exact hlike
    obtain ⟨w, hw, -⟩ := analyze_fails_again h hleaves hlike
    rw [hw]

open Drawing in
/-- The shapes in front of an ambiguous class can never be analyzed. -/
theorem shapes_stay_ambiguous :
    ((blots.analyze "Shapes").run {}).1.map (fun _ ↦ ()) =
        .error (.ambiguousBase "Blob" ["Drop", "Stain"]) ∧
      ∀ retries, ((blots.analyze "Shapes").run (blots.after
        ((blots.analyze "Shapes").run {}).2 (List.replicate retries ⟨.analyze, "Shapes"⟩))).1 =
          .error (.ambiguousBase "Blob" ["Drop", "Stain"]) := by
  have hfails : ((blots.analyze "Shapes").run {}).1.map (fun _ ↦ ()) =
      .error (.ambiguousBase "Blob" ["Drop", "Stain"]) := by decide +kernel
  have hunknown : ((((blots.analyze "Shapes").run {}).2).extractions.find? "Shapes").isNone =
      true := by decide +kernel
  rcases hrun : (blots.analyze "Shapes").run {} with ⟨outcome, t⟩
  rw [hrun] at hfails hunknown
  cases outcome with
  | ok extraction => cases hfails
  | error e =>
    cases hfails
    refine ⟨rfl, (analysis_fails_again hrun).resolve_left fun hleaves ↦ ?_⟩
    obtain ⟨policy, extraction, hpolicy, hknown, -⟩ := hleaves.exists_isPrepared
    rw [(mem_of_policy hpolicy).2] at hknown
    rw [hknown] at hunknown
    cases hunknown

namespace Drawing

/-- Shapes and circles. Behind the shapes stand blobs, which cannot be registered. -/
def splashes : Package where
  name := "Drawing"
  config := {}
  source := .memory [
    ("Shapes", { items := [
      .ofClass { common := { name := "Shape" }, members := [methodEntry "Draw"] },
      .ofClass { common := { name := "Blob" }, members := [methodEntry "Melt"] }] }),
    ("Circles", classFile "Circle" [⟨"Shape", []⟩] ["Draw"])]
  manifest := none
  policies := [
    { Policy.empty "Shapes" "Drawing" with foldedBases := [("Blob", ["Ghost"])] },
    Policy.empty "Circles" "Drawing"]
  distinct := by decide

end Drawing

open Drawing in
/-- The first analysis of the circles fails behind the registration of the shapes. The second one
passes. -/
theorem circles_pass_on_retry :
    splashes.Reachable splashes.KeepsDeclarations {} ∧
      ((splashes.analyze "Circles").run {}).1.isOk = false ∧
      ((splashes.analyze "Circles").run ((splashes.analyze "Circles").run {}).2).1.isOk = true :=
  ⟨reachable_start splashes .empty [], by decide +kernel, by decide +kernel⟩

namespace Drawing

/-- Lists under a name of their own, with a reader of an unknown kind, and other lists, which cannot
be registered. -/
def readers : Package where
  name := "Drawing"
  config := {}
  source := .memory [
    ("Lists", { items := [
      .ofClass { common := { name := "List" }, isTemplate := true },
      .ofClass { common := { name := "Reader" }, bases := [⟨"Stream", []⟩] }] }),
    ("Chains", classFile "List" [] [])]
  manifest := none
  policies := [lists,
    { Policy.empty "Chains" "Drawing" with foldedBases := [("List", ["Ghost"])] }]
  distinct := by decide

end Drawing

open Drawing in
/-- The search for the stream has given the lists to the chains, at which the second analysis
fails. -/
example :
    ((readers.analyze "Lists").run {}).1.map (fun _ ↦ ()) = .error (.unknownOwner "Stream") ∧
      ((readers.analyze "Lists").run ((readers.analyze "Lists").run {}).2).1.map (fun _ ↦ ()) =
        .error (.unresolved "Chains" "Ghost" (.foldInto "List")) := by decide +kernel

end Package

end Bindery
