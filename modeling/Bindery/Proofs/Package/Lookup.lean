import Bindery.Proofs.Interface.Comparison
import Bindery.Proofs.Package.Steps
import Mathlib.Data.List.Nodup

/-!
Looking up modules and classes. A module is found by its name (`policy_of_mem`), and the module of a
class is the one that the index gives it (`indexedFor_of_owner`). Every lookup extracts modules of
the package and registers the classes of one of them. So a relation that admits these two
(`Package.Admits`) holds between the two ends of all lookups, also of those that fail, and between
those of analyses when settling findings and marking a module are admitted too.
-/

set_option autoImplicit false
set_option relaxedAutoImplicit false

namespace Bindery

namespace Package

variable {package : Package} {s t : Session} {policy : Policy} {name module : String}

/-! ### Modules -/

theorem mem_of_policy (h : package.policy module = .ok policy) :
    policy ∈ package.policies ∧ policy.moduleName = module := by
  unfold Package.policy at h
  split at h
  · rename_i found hfound
    cases h
    exact ⟨List.mem_of_find?_eq_some hfound, by simpa using List.find?_some hfound⟩
  · cases h

/-- A module is found by its name. -/
theorem policy_of_mem (h : policy ∈ package.policies) :
    package.policy policy.moduleName = .ok policy := by
  unfold Package.policy
  split
  · rename_i found hfound
    have hname : found.moduleName = policy.moduleName := by simpa using List.find?_some hfound
    have hmem := List.mem_of_find?_eq_some hfound
    rw [List.inj_on_of_nodup_map package.distinct hmem h hname]
  · rename_i hnone
    have hne := List.find?_eq_none.1 hnone policy h
    simp at hne

theorem eq_of_moduleName_eq {other : Policy} (h : policy ∈ package.policies)
    (hother : other ∈ package.policies) (hname : policy.moduleName = other.moduleName) :
    policy = other := List.inj_on_of_nodup_map package.distinct h hother hname

/-! ### The index -/

/-- The module that a session has indexed for a class. -/
def IndexedFor (package : Package) (s : Session) (name : String) (policy : Policy) : Prop :=
  policy ∈ package.policies ∧ s.classIndex.find? name = some policy.moduleName

theorem indexedFor_of_indexedOwner?
    (h : (package.indexedOwner? name).run s = (.ok (some policy), t)) :
    package.IndexedFor t name policy := by
  rw [run_indexedOwner?] at h
  cases hindex : s.classIndex.find? name with
  | none =>
    rw [hindex] at h
    cases h
  | some module =>
    simp only [hindex] at h
    cases hpolicy : package.policy module with
    | error e =>
      rw [hpolicy] at h
      cases h
    | ok found =>
      rw [hpolicy] at h
      cases h
      obtain ⟨hmem, hname⟩ := mem_of_policy hpolicy
      exact ⟨hmem, hname ▸ hindex⟩

theorem indexedFor_of_searchOwner {policies : List Policy}
    (h : (package.searchOwner name policies).run s = (.ok policy, t)) :
    package.IndexedFor t name policy := by
  induction policies generalizing s with
  | nil => cases h
  | cons first rest ih =>
    rw [searchOwner] at h
    obtain ⟨_, u, -, h⟩ := Run.run_bind_eq_ok.1 h
    obtain ⟨owner, v, howner, h⟩ := Run.run_bind_eq_ok.1 h
    cases owner with
    | none => exact ih h
    | some owner =>
      cases h
      exact indexedFor_of_indexedOwner? howner

/-- The owner that a lookup returns is the one in the index. -/
theorem indexedFor_of_owner (h : (package.owner name).run s = (.ok policy, t)) :
    package.IndexedFor t name policy := by
  rw [owner] at h
  obtain ⟨owner, v, howner, h⟩ := Run.run_bind_eq_ok.1 h
  cases owner with
  | none => exact indexedFor_of_searchOwner h
  | some owner =>
    cases h
    exact indexedFor_of_indexedOwner? howner

/-- Extracting the module of a class leaves the class to it. -/
theorem IndexedFor.extract (h : package.IndexedFor s name policy)
    {outcome : Except Error Extraction} (hrun : (package.extract policy).run s = (outcome, t)) :
    package.IndexedFor t name policy := by
  refine ⟨h.1, ?_⟩
  rcases find?_classIndex_of_extract hrun name with hold | ⟨-, hnew⟩
  · rw [hold, h.2]
  · exact hnew

theorem run_indexedOwner?_of_unindexed (h : s.classIndex.find? name = none) :
    (package.indexedOwner? name).run s = (.ok none, s) := by rw [run_indexedOwner?, h]

theorem IndexedFor.run_indexedOwner? (h : package.IndexedFor s name policy) :
    (package.indexedOwner? name).run s = (.ok (some policy), s) := by
  rw [Package.run_indexedOwner?, h.2]
  simp only [policy_of_mem h.1, Except.map]

theorem IndexedFor.run_owner (h : package.IndexedFor s name policy) :
    (package.owner name).run s = (.ok policy, s) := by
  rw [owner, Run.run_bind_of_ok h.run_indexedOwner?]
  rfl

/-! ### Interfaces -/

theorem run_ensureInterface_of_hasClass (h : s.registry.hasClass name = true) :
    (package.ensureInterface name).run s = (.ok (), s) := by
  rw [ensureInterface, Run.run_get_bind, if_pos h]
  rfl

theorem run_ensureInterface_of_new (h : s.registry.hasClass name = false) :
    (package.ensureInterface name).run s = (package.owner name >>= fun policy ↦
      package.extract policy >>= fun extraction ↦
        View.registerClasses ⟨policy, extraction.module⟩).run s := by
  have hnew : ¬s.registry.hasClass name = true := by simp [h]
  rw [ensureInterface, Run.run_get_bind, if_neg hnew]

/-! ### Moving along a relation -/

section Extract

variable {R : Session → Session → Prop} [IsPreorder Session R]
  (hextract : ∀ policy ∈ package.policies, (package.extract policy).Moves R)

include hextract

/-- A search only extracts modules. -/
theorem moves_searchOwner {policies : List Policy}
    (hpolicies : ∀ policy ∈ policies, policy ∈ package.policies) (name : String) :
    (package.searchOwner name policies).Moves R := by
  induction policies with
  | nil => exact Run.moves_throw _
  | cons first rest ih =>
    obtain ⟨hfirst, hrest⟩ := List.forall_mem_cons.1 hpolicies
    refine (hextract first hfirst).bind fun _ ↦
      (moves_indexedOwner? package name).bind fun owner ↦ ?_
    cases owner with
    | none => exact ih hrest
    | some owner => exact Run.moves_pure owner

theorem moves_owner (name : String) : (package.owner name).Moves R := by
  refine (moves_indexedOwner? package name).bind fun owner ↦ ?_
  cases owner with
  | none => exact moves_searchOwner hextract (fun _ h ↦ h) name
  | some owner => exact Run.moves_pure owner

end Extract

/-- Looking up the module of a class registers nothing. -/
theorem registry_of_owner {outcome : Except Error Policy}
    (h : (package.owner name).run s = (outcome, t)) : t.registry = s.registry :=
  (moves_owner (R := Session.Agrees Session.registry)
    (fun _ _ _ ↦ registry_of_extract rfl) name).of_eq h

/-- Preparing a module is its extraction and registration. -/
theorem moves_prepare_of_register {R : Session → Session → Prop} [IsPreorder Session R]
    (hregister : ∀ policy, package.policy module = .ok policy →
      (package.extract policy >>= fun extraction ↦
        View.registerClasses ⟨policy, extraction.module⟩).Moves R) :
    (package.prepare module).Moves R := by
  refine Run.moves_ofExcept_bind fun policy hpolicy s ↦ ?_
  have hmoves := hregister policy hpolicy s
  rcases hextract : (package.extract policy).run s with ⟨outcome, t⟩
  cases outcome with
  | error e =>
    rw [Run.run_bind_of_error hextract] at hmoves ⊢
    exact hmoves
  | ok extraction =>
    rw [Run.run_bind_of_ok hextract] at hmoves ⊢
    rcases hrun : (View.registerClasses ⟨policy, extraction.module⟩).run t with ⟨last, u⟩
    rw [hrun] at hmoves
    rw [Run.run_bind_pure hrun]
    exact hmoves

/-- A relation that holds between the two ends of an extraction, alone and with the registration of
the module. -/
structure Admits (package : Package) (R : Session → Session → Prop) : Prop where
  extract : ∀ policy ∈ package.policies, (package.extract policy).Moves R
  register : ∀ policy ∈ package.policies, (package.extract policy >>= fun extraction ↦
    View.registerClasses ⟨policy, extraction.module⟩).Moves R

section Admits

variable {R : Session → Session → Prop} [IsPreorder Session R]

theorem admits_of_allows (hR : Session.Allows R) (package : Package) : package.Admits R where
  extract policy _ := moves_extract hR package policy
  register policy _ := (moves_extract hR package policy).bind fun extraction ↦
    View.moves_registerClasses hR ⟨policy, extraction.module⟩

variable (hR : package.Admits R)

include hR

theorem Admits.ensureInterface (name : String) : (package.ensureInterface name).Moves R := by
  refine Run.moves_get.bind fun session ↦ ?_
  split
  · exact Run.moves_pure ()
  · exact (moves_owner hR.extract name).bind_of_ok fun s policy t howner ↦
      hR.register policy (indexedFor_of_owner howner).1 t

theorem Admits.prepare (module : String) : (package.prepare module).Moves R :=
  moves_prepare_of_register fun policy hpolicy ↦ hR.register policy (mem_of_policy hpolicy).1

variable (hsettle : ∀ (s : Session) (found : List Finding), R s (s.settle found))

include hsettle

theorem Admits.check (view : View) : (view.check package.ensureInterface).Moves R :=
  View.moves_check hR.ensureInterface fun s found _ ↦ hsettle s found

theorem Admits.analyze
    (hmark : ∀ (s : Session) (module : String), R s { s with checked := s.checked ++ [module] })
    (module : String) : (package.analyze module).Moves R := by
  refine (hR.prepare module).bind fun prepared ↦ Run.moves_get.bind fun session ↦ ?_
  obtain ⟨policy, extraction⟩ := prepared
  dsimp only
  split
  · exact (hR.check hsettle _).bind fun _ ↦
      (Run.moves_modify fun s ↦ hmark s module).bind fun _ ↦ Run.moves_pure _
  · exact Run.moves_pure _

end Admits

section Allows

variable {R : Session → Session → Prop} [IsPreorder Session R] (hR : Session.Allows R)

include hR

/-- Making an interface known registers the classes of one module. -/
theorem moves_ensureInterface (package : Package) (name : String) :
    (package.ensureInterface name).Moves R := (admits_of_allows hR package).ensureInterface name

theorem moves_prepare (package : Package) (module : String) : (package.prepare module).Moves R :=
  (admits_of_allows hR package).prepare module

end Allows

end Package

end Bindery
