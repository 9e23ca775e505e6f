import Bindery.Proofs.Package.Passed

/-!
Runs that are done again. A run that has failed leaves behind what it had done before. A second run
finds its traces: what the first one has extracted and registered is there already, and where the
first one failed, the second one fails again. A run retraces (`Run.Retraces`) when this is so
wherever it stands on the way from a first session to the failure of a last one. Runs of one step
after another retrace as soon as their steps do.

The sessions of the two runs need not be equal. The check compares methods whether they have been
dropped or not, and the index may be written again with what it says already (`Session.Alike`).
-/

set_option autoImplicit false
set_option relaxedAutoImplicit false

namespace Bindery

namespace Session

/-! ### Sessions that look the same -/

/-- The sessions give the same answers, up to dropped methods. -/
structure Alike (s t : Session) : Prop where
  files : t.files = s.files
  extractions : t.extractions = s.extractions
  checked : t.checked = s.checked
  classIndex : ∀ name, t.classIndex.find? name = s.classIndex.find? name
  methods : ∀ name, (t.registry.interface? name).map ClassInterface.methods =
    (s.registry.interface? name).map ClassInterface.methods

variable {s t u : Session}

theorem Alike.refl (s : Session) : s.Alike s := ⟨rfl, rfl, rfl, fun _ ↦ rfl, fun _ ↦ rfl⟩

theorem Alike.trans (hst : s.Alike t) (htu : t.Alike u) : s.Alike u where
  files := htu.files.trans hst.files
  extractions := htu.extractions.trans hst.extractions
  checked := htu.checked.trans hst.checked
  classIndex name := (htu.classIndex name).trans (hst.classIndex name)
  methods name := (htu.methods name).trans (hst.methods name)

theorem Alike.hasClass (h : s.Alike t) (name : String) :
    t.registry.hasClass name = s.registry.hasClass name := by
  have hsome := congrArg Option.isSome (h.methods name)
  rwa [Option.isSome_map, Option.isSome_map, ← InterfaceRegistry.hasClass_eq_isSome,
    ← InterfaceRegistry.hasClass_eq_isSome] at hsome

/-- What was registered before can be had, with the methods that it had. -/
theorem Alike.exists_expect (h : t.Alike u) (hgrows : s.registry.Grows t.registry) {name : String}
    {i : ClassInterface} (hi : s.registry.expect name = .ok i) :
    ∃ j, u.registry.expect name = .ok j ∧ j.methods = i.methods := by
  obtain ⟨k, hk, hwithin⟩ := hgrows name i (InterfaceRegistry.expect_eq_ok_iff.1 hi)
  have hmethods := h.methods name
  rw [hk, Option.map_some] at hmethods
  obtain ⟨j, hj, hsame⟩ := Option.map_eq_some_iff.1 hmethods
  exact ⟨j, InterfaceRegistry.expect_eq_ok_iff.2 hj, hsame.trans hwithin.methods⟩

theorem Alike.expect_eq_error (h : s.Alike t) {name : String} {e : Error}
    (he : s.registry.expect name = .error e) : t.registry.expect name = .error e := by
  have hmethods := h.methods name
  unfold InterfaceRegistry.expect at he ⊢
  cases hs : s.registry.interface? name with
  | some i =>
    rw [hs] at he
    cases he
  | none =>
    rw [hs] at he hmethods
    rw [Option.map_eq_none_iff.1 (hmethods.trans rfl)]
    exact he

theorem alike_settle (s : Session) (found : List Finding) : s.Alike (s.settle found) := by
  refine ⟨rfl, rfl, rfl, fun _ ↦ rfl, fun name ↦ ?_⟩
  change ((found.foldl Finding.settle s.registry).interface? name).map _ = _
  cases hi : s.registry.interface? name with
  | none =>
    rw [InterfaceRegistry.interface?_foldl_settle, hi]
    rfl
  | some i =>
    obtain ⟨j, hj, hwithin⟩ := InterfaceRegistry.grows_foldl_settle s.registry found name i hi
    rw [hj, Option.map_some, Option.map_some, hwithin.methods]

/-- Indexing a module once more changes nothing. -/
theorem Alike.indexed {view : View} (h : (view.indexed s).Alike t) :
    (view.indexed s).Alike (view.indexed t) := by
  refine ⟨h.files, h.extractions, h.checked, fun name ↦ ?_, h.methods⟩
  have hbefore := h.classIndex name
  rw [View.indexed, View.find?_indexAll] at hbefore
  rw [View.indexed, View.indexed, View.find?_indexAll, View.find?_indexAll]
  split
  · rfl
  · rename_i hname
    rwa [if_neg hname] at hbefore

/-! ### Sessions on the way -/

/-- What an analysis keeps until it marks the module. In the index, classes stay, and none is given
to a module that has been extracted already. -/
structure Advances (s t : Session) : Prop extends s.Grows t where
  indexed : ∀ name, (s.classIndex.find? name).isSome = true →
    (t.classIndex.find? name).isSome = true
  given : ∀ name module, t.classIndex.find? name = some module →
    s.classIndex.find? name = some module ∨ s.extractions.find? module = none

theorem Grows.find?_eq_none (h : s.Grows t) {module : String}
    (hmodule : t.extractions.find? module = none) : s.extractions.find? module = none := by
  cases hs : s.extractions.find? module with
  | none => rfl
  | some extraction => rw [← hmodule, h.extractions module extraction hs]

theorem Grows.hasClass_eq_false (h : s.Grows t) {name : String}
    (hname : t.registry.hasClass name = false) : s.registry.hasClass name = false := by
  cases hs : s.registry.hasClass name with
  | false => rfl
  | true => rw [← hname, h.registry.hasClass hs]

instance : IsPreorder Session Advances where
  refl s := ⟨Std.Refl.refl s, fun _ h ↦ h, fun _ _ h ↦ .inl h⟩
  trans _ _ _ hst htu :=
    { toGrows := IsTrans.trans _ _ _ hst.toGrows htu.toGrows
      indexed := fun name h ↦ htu.indexed name (hst.indexed name h)
      given := fun name module h ↦ (htu.given name module h).elim (hst.given name module)
        fun hnew ↦ .inr (hst.toGrows.find?_eq_none hnew) }

theorem advances_of_classIndex_eq (h : s.Grows t) (hindex : t.classIndex = s.classIndex) :
    s.Advances t :=
  ⟨h, fun _ hname ↦ hindex ▸ hname, fun _ _ hname ↦ .inl (hindex ▸ hname)⟩

theorem advances_settle (s : Session) (found : List Finding) : s.Advances (s.settle found) :=
  advances_of_classIndex_eq (s.grows_settle found) rfl

end Session

/-! ### Runs -/

namespace Run

variable {α β : Type} {first last : Session} {e : Error}

/-- Wherever the run stands on the way from the first session to the last one, in which it fails if
it does: from any session like the last one it ends as it did, in a session like the last one. -/
structure Retraces (first last : Session) (e : Error) (x : Run α) : Prop where
  advances : x.Moves Session.Advances
  again : ∀ s outcome t, first.Advances s → x.run s = (outcome, t) → t.Advances last →
    (∀ e', outcome = .error e' → e' = e ∧ t = last) →
      ∀ v, last.Alike v → ∃ w, x.run v = (outcome, w) ∧ last.Alike w

theorem retraces_ofExcept (outcome : Except Error α) :
    (ofExcept outcome : Run α).Retraces first last e := by
  refine ⟨moves_ofExcept outcome, fun s outcome t _ hrun _ _ v hv ↦ ⟨v, ?_, hv⟩⟩
  rw [run_ofExcept] at hrun ⊢
  rw [(Prod.mk.inj hrun).1]

theorem retraces_pure (a : α) : (pure a : Run α).Retraces first last e :=
  retraces_ofExcept (.ok a)

theorem Retraces.bind {x : Run α} {f : α → Run β} (hx : x.Retraces first last e)
    (hf : ∀ a, (f a).Retraces first last e) : (x >>= f).Retraces first last e := by
  refine ⟨hx.advances.bind fun a ↦ (hf a).advances, fun s outcome t hs hrun ht hfails v hv ↦ ?_⟩
  rcases hfirst : x.run s with ⟨middle, u⟩
  have hsu : s.Advances u := hx.advances.of_eq hfirst
  cases middle with
  | error e' =>
    rw [run_bind_of_error hfirst] at hrun
    cases hrun
    obtain ⟨w, hw, hlike⟩ := hx.again s (.error e') t hs hfirst ht
      (fun _ h ↦ by cases h; exact hfails e' rfl) v hv
    exact ⟨w, run_bind_of_error hw f, hlike⟩
  | ok a =>
    rw [run_bind_of_ok hfirst] at hrun
    have hut : u.Advances t := (hf a).advances.of_eq hrun
    have hlast : u.Advances last := IsTrans.trans _ _ _ hut ht
    obtain ⟨w, hw, hlike⟩ := hx.again s (.ok a) u hs hfirst hlast (fun _ h ↦ by cases h) v hv
    obtain ⟨w', hw', hlike'⟩ :=
      (hf a).again u outcome t (IsTrans.trans _ _ _ hs hsu) hrun ht hfails w hlike
    exact ⟨w', (run_bind_of_ok hw f).trans hw', hlike'⟩

theorem composes_retraces (first last : Session) (e : Error) :
    Composes fun α (x : Run α) ↦ x.Retraces first last e := ⟨retraces_pure, Retraces.bind⟩

theorem retraces_forM {l : List α} {f : α → Run Unit} (hf : ∀ a ∈ l, (f a).Retraces first last e) :
    (l.forM f).Retraces first last e := (composes_retraces first last e).forM hf

theorem retraces_mapM {l : List α} {f : α → Run β} (hf : ∀ a ∈ l, (f a).Retraces first last e) :
    (l.mapM f).Retraces first last e := (composes_retraces first last e).mapM hf

theorem retraces_foldlM {l : List α} {f : β → α → Run β}
    (hf : ∀ a ∈ l, ∀ b, (f b a).Retraces first last e) (b : β) :
    (l.foldlM f b).Retraces first last e := (composes_retraces first last e).foldlM hf b

end Run

/-! ### Registering classes -/

namespace View

variable {view : View} {s t v : Session}

/-- Registering classes fails again at the class at which it has failed. -/
theorem run_forM_registerClass_again {classes : List Class} {e : Error}
    (h : (classes.forM view.registerClass).run s = (.error e, t))
    (hv : ∀ name, v.registry.hasClass name = t.registry.hasClass name) :
    (classes.forM view.registerClass).run v = (.error e, v) := by
  obtain ⟨before, c, after, rfl, hbefore, hnew, herror⟩ := exists_of_forM_registerClass_eq_error h
  have hknown : ∀ d ∈ before, v.registry.hasClass (view.className d) = true := fun d hd ↦
    (hv _).trans (hasClass_of_forM_registerClass hbefore hd)
  have hfails : (view.registerClass c).run v = (.error e, v) := by
    rw [run_registerClass_of_new ((hv _).trans hnew), herror]
  rw [Run.run_forM_append (run_forM_registerClass_of_known hknown), List.forM,
    Run.run_bind_of_error hfails]

theorem run_registerClasses_of_alike {outcome : Except Error Unit}
    (h : view.registerClasses.run s = (outcome, t)) {last : Session}
    (hlast : t.registry.Grows last.registry) (hfails : ∀ e, outcome = .error e → t = last)
    (hv : last.Alike v) : view.registerClasses.run v = (outcome, v) := by
  cases outcome with
  | ok _ =>
    refine run_registerClasses_of_known fun c hc ↦ ?_
    rw [hv.hasClass, hlast.hasClass (hasClass_of_registerClasses h hc)]
  | error e =>
    obtain rfl := hfails e rfl
    exact run_forM_registerClass_again h hv.hasClass

theorem advances_registerClasses (view : View) : view.registerClasses.Moves Session.Advances := by
  intro s
  rcases hrun : view.registerClasses.run s with ⟨outcome, t⟩
  have hgrows : s.Grows t := (moves_registerClasses Session.allows_grows view).of_eq hrun
  have hindex : t.classIndex = s.classIndex := by rw [eq_withRegistry_of_registerClasses hrun]; rfl
  exact Session.advances_of_classIndex_eq hgrows hindex

theorem retraces_registerClasses (view : View) (first last : Session) (e : Error) :
    view.registerClasses.Retraces first last e := by
  refine ⟨view.advances_registerClasses, fun s outcome t _ hrun ht hfails v hv ↦ ⟨v, ?_, hv⟩⟩
  exact run_registerClasses_of_alike hrun ht.registry (fun e' h ↦ (hfails e' h).2) hv

end View

/-! ### Extracting modules -/

namespace Package

variable {package : Package} {s t v last : Session} {policy : Policy}

theorem advances_extract (package : Package) (policy : Policy) :
    (package.extract policy).Moves Session.Advances := by
  intro s
  rcases hrun : (package.extract policy).run s with ⟨outcome, t⟩
  have hindex := find?_classIndex_of_extract hrun
  refine ⟨(moves_extract Session.allows_grows package policy).of_eq hrun, fun name hname ↦ ?_,
    fun name module hmodule ↦ ?_⟩
  · dsimp only
    rcases hindex name with hold | ⟨-, hnew⟩
    · rw [hold, hname]
    · rw [hnew]
      rfl
  · rcases hindex name with hold | ⟨hunknown, hnew⟩
    · exact .inl (hold ▸ hmodule)
    · obtain rfl := Option.some.inj (hnew.symm.trans hmodule)
      exact .inr hunknown

theorem admits_advances (package : Package) : package.Admits Session.Advances where
  extract policy _ := package.advances_extract policy
  register policy _ := (package.advances_extract policy).bind fun extraction ↦
    View.advances_registerClasses ⟨policy, extraction.module⟩

/-- A module that could not be extracted cannot be extracted in the session that this has led to. -/
theorem extract_fails_again {e : Error} (h : (package.extract policy).run s = (.error e, last))
    (hv : last.Alike v) : ∃ w, (package.extract policy).run v = (.error e, w) ∧ last.Alike w := by
  obtain ⟨hunknown, ⟨hread, rfl⟩ | ⟨extraction, hread, hbases, rfl⟩⟩ := extract_eq_error h
  · rw [← hv.extractions] at hunknown
    rw [← hv.files] at hread
    refine ⟨v, ?_, hv⟩
    rw [run_extract_of_new hunknown, hread]
  · have hv_unknown : v.extractions.find? policy.moduleName = none := hv.extractions ▸ hunknown
    have hv_read : package.extraction v.files policy = .ok extraction := hv.files ▸ hread
    refine ⟨View.indexed ⟨policy, extraction.module⟩ v, ?_, hv.indexed⟩
    rw [run_extract_of_new hv_unknown, hv_read]
    simp only [hbases]

theorem retraces_extract (package : Package) (policy : Policy) (first last : Session) (e : Error) :
    (package.extract policy).Retraces first last e := by
  refine ⟨package.advances_extract policy, fun s outcome t _ hrun ht hfails v hv ↦ ?_⟩
  cases outcome with
  | ok extraction =>
    refine ⟨v, run_extract_of_known ?_, hv⟩
    rw [hv.extractions, ht.extractions _ _ (find?_of_extract_eq_ok hrun)]
  | error e' =>
    obtain rfl := (hfails e' rfl).2
    exact extract_fails_again hrun hv

theorem retraces_prepare (package : Package) (module : String) (first last : Session) (e : Error) :
    (package.prepare module).Retraces first last e := by
  refine (Run.retraces_ofExcept (package.policy module)).bind fun policy ↦ ?_
  exact (package.retraces_extract policy first last e).bind fun extraction ↦
    (View.retraces_registerClasses _ first last e).bind fun _ ↦ Run.retraces_pure _

end Package

end Bindery
