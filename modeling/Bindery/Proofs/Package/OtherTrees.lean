import Bindery.Proofs.Package.Lookup
import Bindery.Proofs.Package.Outputs

/-!
Analyses over other files. An analysis reads files of declarations, and writes nothing. So where it
succeeds, it succeeds alike in a session with other files, if the modules that can be read are read
there as well: it ends with the same result, and with a session that differs in the files only
(`Package.transfers_analyze`). Runs of one step after another transfer to the other files as soon as
their steps do (`Run.Transfers.bind_of_ok`).
-/

set_option autoImplicit false
set_option relaxedAutoImplicit false

namespace Bindery

/-- The session over other files. -/
def Session.over (session : Session) (files : Files) : Session := { session with files }

namespace Run

variable {α β : Type} {files other : Files}

/-- Where the run succeeds over some files, it succeeds alike over other ones, and leaves both as
they are. -/
def Transfers (files other : Files) (x : Run α) : Prop :=
  ∀ s a t, s.files = files → x.run s = (.ok a, t) →
    t.files = files ∧ x.run (s.over other) = (.ok a, t.over other)

theorem transfers_ofExcept (outcome : Except Error α) :
    (ofExcept outcome : Run α).Transfers files other := by
  intro s a t hs h
  rw [run_ofExcept] at h ⊢
  obtain ⟨rfl, rfl⟩ := Prod.mk.inj h
  exact ⟨hs, rfl⟩

theorem transfers_pure (a : α) : (pure a : Run α).Transfers files other :=
  transfers_ofExcept (.ok a)

theorem transfers_modify {f : Session → Session} (hfiles : ∀ s, (f s).files = s.files)
    (hf : ∀ s, f (s.over other) = (f s).over other) :
    (modify f : Run Unit).Transfers files other := by
  intro s a t hs h
  rw [run_modify] at h ⊢
  obtain ⟨-, rfl⟩ := Prod.mk.inj h
  exact ⟨(hfiles s).trans hs, by rw [hf]⟩

/-- A second step counts only where the first has succeeded. -/
theorem Transfers.bind_of_ok {x : Run α} {f : α → Run β} (hx : x.Transfers files other)
    (hf : ∀ s a t, x.run s = (.ok a, t) → (f a).Transfers files other) :
    (x >>= f).Transfers files other := by
  intro s b t hs h
  obtain ⟨a, u, hfirst, hrest⟩ := run_bind_eq_ok.1 h
  obtain ⟨hu, hfirst'⟩ := hx s a u hs hfirst
  obtain ⟨ht, hrest'⟩ := hf s a u hfirst u b t hu hrest
  exact ⟨ht, (run_bind_of_ok hfirst' f).trans hrest'⟩

theorem Transfers.bind {x : Run α} {f : α → Run β} (hx : x.Transfers files other)
    (hf : ∀ a, (f a).Transfers files other) : (x >>= f).Transfers files other :=
  hx.bind_of_ok fun _ a _ _ ↦ hf a

/-- What is made of the session must not depend on its files. -/
theorem transfers_get_bind {f : Session → Run β} (hsame : ∀ s, f (s.over other) = f s)
    (hf : ∀ s, (f s).Transfers files other) : (get >>= f).Transfers files other := by
  intro s b t hs h
  rw [run_get_bind] at h ⊢
  rw [hsame]
  exact hf s s b t hs h

theorem transfers_expectInterface (className : String) :
    (expectInterface className).Transfers files other :=
  transfers_get_bind (fun _ ↦ rfl) fun _ ↦ transfers_ofExcept _

theorem composes_transfers (files other : Files) :
    Composes fun α (x : Run α) ↦ x.Transfers files other := ⟨transfers_pure, Transfers.bind⟩

theorem transfers_forM {l : List α} {f : α → Run Unit}
    (hf : ∀ a ∈ l, (f a).Transfers files other) : (l.forM f).Transfers files other :=
  (composes_transfers files other).forM hf

theorem transfers_mapM {l : List α} {f : α → Run β}
    (hf : ∀ a ∈ l, (f a).Transfers files other) : (l.mapM f).Transfers files other :=
  (composes_transfers files other).mapM hf

theorem transfers_foldlM {l : List α} {f : β → α → Run β}
    (hf : ∀ a ∈ l, ∀ b, (f b a).Transfers files other) (b : β) :
    (l.foldlM f b).Transfers files other := (composes_transfers files other).foldlM hf b

end Run

/-! ### Registering and checking -/

namespace View

variable {files other : Files} {view : View}

theorem transfers_settle (found : List Finding) :
    (modify (·.settle found) : Run Unit).Transfers files other :=
  Run.transfers_modify (fun _ ↦ rfl) fun _ ↦ rfl

theorem transfers_registerClass (view : View) (c : Class) :
    (view.registerClass c).Transfers files other := by
  intro s _ t hs h
  cases hknown : s.registry.hasClass (view.className c) with
  | true =>
    rw [run_registerClass_of_hasClass hknown] at h
    cases h
    exact ⟨hs, @run_registerClass_of_hasClass view c (s.over other) hknown⟩
  | false =>
    rw [run_registerClass_of_new hknown] at h
    rw [@run_registerClass_of_new view c (s.over other) hknown]
    cases hinterface : view.interfaceOf c with
    | ok interface =>
      rw [hinterface] at h
      cases h
      exact ⟨hs, rfl⟩
    | error e =>
      rw [hinterface] at h
      cases h

theorem transfers_registerClasses (view : View) : view.registerClasses.Transfers files other :=
  Run.transfers_forM fun c _ ↦ view.transfers_registerClass c

section Ensure

variable {ensure : String → Run Unit} (hensure : ∀ name, (ensure name).Transfers files other)

include hensure

theorem transfers_compareBase (className : String) (own : Table String RegisteredMethod)
    (progress : List String × List Finding) (base : String) :
    (view.compareBase ensure className own progress base).Transfers files other := by
  refine (hensure base).bind fun _ ↦ (Run.transfers_expectInterface base).bind fun interface ↦ ?_
  exact (transfers_settle _).bind fun _ ↦ Run.transfers_pure _

theorem transfers_checkClass (c : Class) :
    (view.checkClass ensure c).Transfers files other := by
  refine (Run.transfers_expectInterface _).bind fun own ↦ ?_
  exact Run.Transfers.bind (Run.transfers_foldlM (fun base _ progress ↦
    transfers_compareBase hensure _ _ progress base) _) fun _ ↦ Run.transfers_pure _

theorem transfers_check (view : View) : (view.check ensure).Transfers files other := by
  have hfindings : (view.findings ensure).Transfers files other := by
    refine (Run.transfers_forM fun c _ ↦ hensure c.name).bind fun _ ↦ ?_
    refine (Run.transfers_mapM fun c _ ↦ ?_).bind fun _ ↦ Run.transfers_pure _
    exact transfers_checkClass hensure c
  exact hfindings.bind fun _ ↦ Run.transfers_ofExcept _

end Ensure

end View

/-! ### Packages -/

namespace Package

variable {package : Package} {files other : Files} {policy : Policy}

theorem transfers_indexedOwner? (package : Package) (className : String) :
    (package.indexedOwner? className).Transfers files other := by
  refine Run.transfers_get_bind (fun _ ↦ rfl) fun s ↦ ?_
  cases s.classIndex.find? className with
  | some module => exact (Run.transfers_ofExcept _).bind fun _ ↦ Run.transfers_pure _
  | none => exact Run.transfers_pure _

variable (hkept : package.KeepsDeclarations files other)

include hkept

/-- A module that is known is not read, and any other module is read alike. -/
theorem transfers_extract (hpolicy : policy ∈ package.policies) :
    (package.extract policy).Transfers files other := by
  intro s extraction t hs h
  cases hknown : s.extractions.find? policy.moduleName with
  | some known =>
    rw [run_extract_of_known hknown] at h
    cases h
    exact ⟨hs, @run_extract_of_known package (s.over other) policy extraction hknown⟩
  | none =>
    obtain ⟨hread, hbases, rfl⟩ := extract_new_eq_ok hknown h
    rw [hs] at hread
    exact ⟨hs, @run_extract_of_sound package (s.over other) policy extraction hknown
      (hkept policy hpolicy extraction hread) hbases⟩

theorem transfers_searchOwner (className : String) {policies : List Policy}
    (hpolicies : ∀ policy ∈ policies, policy ∈ package.policies) :
    (package.searchOwner className policies).Transfers files other := by
  induction policies with
  | nil => exact fun _ _ _ _ h ↦ by cases h
  | cons policy rest ih =>
    obtain ⟨hpolicy, hrest⟩ := List.forall_mem_cons.1 hpolicies
    refine (transfers_extract hkept hpolicy).bind fun _ ↦
      (package.transfers_indexedOwner? className).bind fun owner ↦ ?_
    cases owner with
    | some owner => exact Run.transfers_pure owner
    | none => exact ih hrest

theorem transfers_owner (className : String) :
    (package.owner className).Transfers files other := by
  refine (package.transfers_indexedOwner? className).bind fun owner ↦ ?_
  cases owner with
  | some owner => exact Run.transfers_pure owner
  | none => exact transfers_searchOwner hkept className fun _ h ↦ h

theorem transfers_extract_register (hpolicy : policy ∈ package.policies) :
    (package.extract policy >>= fun extraction ↦
      View.registerClasses ⟨policy, extraction.module⟩).Transfers files other :=
  (transfers_extract hkept hpolicy).bind fun _ ↦ View.transfers_registerClasses _

theorem transfers_ensureInterface (className : String) :
    (package.ensureInterface className).Transfers files other := by
  refine Run.transfers_get_bind (fun _ ↦ rfl) fun s ↦ ?_
  split
  · exact Run.transfers_pure ()
  · exact (transfers_owner hkept className).bind_of_ok fun _ policy _ howner ↦
      transfers_extract_register hkept (indexedFor_of_owner howner).1

theorem transfers_prepare (module : String) : (package.prepare module).Transfers files other := by
  refine (Run.transfers_ofExcept (package.policy module)).bind_of_ok fun s policy t hrun ↦ ?_
  rw [Run.run_ofExcept] at hrun
  refine (transfers_extract hkept (mem_of_policy (Prod.mk.inj hrun).1).1).bind fun _ ↦ ?_
  exact (View.transfers_registerClasses _).bind fun _ ↦ Run.transfers_pure _

/-- An analysis that succeeds over some files succeeds alike over other files, if the modules of the
package that can be read are read there as well. -/
theorem transfers_analyze (module : String) : (package.analyze module).Transfers files other := by
  refine (transfers_prepare hkept module).bind fun prepared ↦ ?_
  obtain ⟨policy, extraction⟩ := prepared
  refine Run.transfers_get_bind (fun _ ↦ rfl) fun s ↦ ?_
  dsimp only
  split
  · refine (View.transfers_check (transfers_ensureInterface hkept) _).bind fun _ ↦ ?_
    refine Run.Transfers.bind (Run.transfers_modify ?_ ?_) fun _ ↦ Run.transfers_pure _
    · exact fun _ ↦ rfl
    · exact fun _ ↦ rfl
  · exact Run.transfers_pure _

end Package

end Bindery
