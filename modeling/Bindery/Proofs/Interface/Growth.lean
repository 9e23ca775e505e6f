import Bindery.Interface.Check
import Bindery.Package.Session
import Mathlib.Order.Defs.Unbundled

/-!
How a registry grows. A class is registered once. After that its members and methods stay, and
methods that were dropped stay dropped (`InterfaceRegistry.Grows`). Registering another class leaves
the registered ones as they are (`InterfaceRegistry.Extends`), and settling a finding drops at most
one method of one class (`interface?_settle`).
-/

set_option autoImplicit false
set_option relaxedAutoImplicit false

namespace Bindery

namespace ClassInterface

/-- The same members and methods, of which at least as many are dropped. -/
structure Within (i j : ClassInterface) : Prop where
  publicMembers : j.publicMembers = i.publicMembers
  protectedMembers : j.protectedMembers = i.protectedMembers
  methods : j.methods = i.methods
  dropped : i.dropped ⊆ j.dropped

theorem Within.refl (i : ClassInterface) : i.Within i := ⟨rfl, rfl, rfl, List.Subset.refl _⟩

theorem Within.trans {i j k : ClassInterface} (hij : i.Within j) (hjk : j.Within k) :
    i.Within k where
  publicMembers := hjk.publicMembers.trans hij.publicMembers
  protectedMembers := hjk.protectedMembers.trans hij.protectedMembers
  methods := hjk.methods.trans hij.methods
  dropped := List.Subset.trans hij.dropped hjk.dropped

theorem mem_dropped_drop {i : ClassInterface} {s t : String} :
    t ∈ (i.drop s).dropped ↔ t = s ∨ t ∈ i.dropped := mem_addSorted

theorem within_drop (i : ClassInterface) (s : String) : i.Within (i.drop s) :=
  ⟨rfl, rfl, rfl, fun _ h ↦ mem_dropped_drop.2 (.inr h)⟩

/-- What a finding about a class does to the interface of `className`. -/
def settle (className : String) (i : ClassInterface) (finding : Finding) : ClassInterface :=
  if finding.conflict = .needless ∧ finding.className = className then i.drop finding.signature
  else i

theorem within_settle (className : String) (i : ClassInterface) (finding : Finding) :
    i.Within (i.settle className finding) := by
  unfold settle
  split
  · exact i.within_drop _
  · exact .refl i

/-- The methods that findings drop are those of its needless overrides. -/
theorem mem_dropped_foldl_settle {className : String} {found : List Finding} {i : ClassInterface}
    {signature : String} :
    signature ∈ (found.foldl (settle className) i).dropped ↔
      signature ∈ i.dropped ∨ ∃ finding ∈ found, finding.conflict = .needless ∧
        finding.className = className ∧ finding.signature = signature := by
  induction found generalizing i with
  | nil => simp
  | cons finding found ih =>
    rw [List.foldl_cons, ih]
    unfold settle
    split
    · rename_i h
      rw [mem_dropped_drop]
      constructor
      · rintro ((rfl | hold) | ⟨other, hmem, hother⟩)
        · exact .inr ⟨finding, List.mem_cons_self, h.1, h.2, rfl⟩
        · exact .inl hold
        · exact .inr ⟨other, List.mem_cons_of_mem _ hmem, hother⟩
      · rintro (hold | ⟨other, hmem, hother⟩)
        · exact .inl (.inr hold)
        · rcases List.mem_cons.1 hmem with rfl | hmem
          · exact .inl (.inl hother.2.2.symm)
          · exact .inr ⟨other, hmem, hother⟩
    · rename_i h
      simp only [List.mem_cons, exists_eq_or_imp]
      constructor
      · rintro (hold | hlater)
        · exact .inl hold
        · exact .inr (.inr hlater)
      · rintro (hold | hhere | hlater)
        · exact .inl hold
        · exact (h ⟨hhere.1, hhere.2.1⟩).elim
        · exact .inr hlater

end ClassInterface

namespace InterfaceRegistry

/-- The methods that a class registers. A class that is not registered has none. -/
def methodsOf (registry : InterfaceRegistry) (className : String) :
    Table String RegisteredMethod :=
  ((registry.interface? className).map ClassInterface.methods).getD []

theorem nodup_keys_methodsOf (registry : InterfaceRegistry) (className : String) :
    (registry.methodsOf className).keys.Nodup := by
  unfold methodsOf
  cases registry.interface? className with
  | none => exact List.nodup_nil
  | some interface => exact interface.distinct

theorem methodsOf_of_interface? {registry : InterfaceRegistry} {className : String}
    {interface : ClassInterface} (h : registry.interface? className = some interface) :
    registry.methodsOf className = interface.methods := by
  rw [methodsOf, h]
  rfl

theorem hasClass_eq_isSome (registry : InterfaceRegistry) (className : String) :
    registry.hasClass className = (registry.interface? className).isSome :=
  Table.contains_eq_isSome_find? registry className

theorem expect_eq_ok_iff {registry : InterfaceRegistry} {className : String}
    {interface : ClassInterface} :
    registry.expect className = .ok interface ↔
      registry.interface? className = some interface := by
  unfold expect
  cases registry.interface? className <;> simp

theorem hasClass_of_expect {registry : InterfaceRegistry} {className : String}
    {interface : ClassInterface} (h : registry.expect className = .ok interface) :
    registry.hasClass className = true := by
  rw [hasClass_eq_isSome, expect_eq_ok_iff.1 h]
  rfl

theorem exists_expect_eq_ok {registry : InterfaceRegistry} {className : String}
    (h : registry.hasClass className = true) :
    ∃ interface, registry.expect className = .ok interface := by
  rw [hasClass_eq_isSome] at h
  obtain ⟨interface, hinterface⟩ := Option.isSome_iff_exists.1 h
  exact ⟨interface, expect_eq_ok_iff.2 hinterface⟩

/-! ### Registering a class -/

theorem interface?_append (registry : InterfaceRegistry) (name other : String)
    (interface : ClassInterface) :
    InterfaceRegistry.interface? (registry ++ [(name, interface)]) other =
      (registry.interface? other).or (if name = other then some interface else none) := by
  have hlast : Table.find? [(name, interface)] other =
      if name = other then some interface else none := by
    rw [Table.find?_cons]
    by_cases h : name = other <;> simp [h, Table.find?]
  rw [interface?, Table.find?, List.lookup_append, ← hlast]
  rfl

/-! ### Dropping methods -/

theorem interface?_drop (registry : InterfaceRegistry) (name signature other : String) :
    (registry.drop name signature).interface? other =
      (registry.interface? other).map fun interface ↦
        if other = name then interface.drop signature else interface := by
  induction registry with
  | nil => rfl
  | cons entry registry ih =>
    obtain ⟨key, value⟩ := entry
    simp only [interface?, drop, List.map_cons, Table.find?_cons] at ih ⊢
    by_cases h : key = other
    · subst h
      by_cases hname : key = name <;> simp [hname]
    · simp only [beq_false_of_ne h, Bool.false_eq_true, if_false]
      exact ih

theorem interface?_settle (registry : InterfaceRegistry) (finding : Finding) (name : String) :
    (Finding.settle registry finding).interface? name =
      (registry.interface? name).map fun interface ↦ interface.settle name finding := by
  cases hconflict : finding.conflict with
  | needless =>
    simp only [Finding.settle, ClassInterface.settle, hconflict, interface?_drop, true_and,
      eq_comm]
  | opened => simp [Finding.settle, ClassInterface.settle, hconflict]
  | closed => simp [Finding.settle, ClassInterface.settle, hconflict]

/-- Settling findings changes no more than what is dropped. -/
theorem interface?_foldl_settle (registry : InterfaceRegistry) (found : List Finding)
    (name : String) :
    (found.foldl Finding.settle registry).interface? name =
      (registry.interface? name).map fun interface ↦
        found.foldl (ClassInterface.settle name) interface := by
  induction found generalizing registry with
  | nil => simp
  | cons finding found ih =>
    rw [List.foldl_cons, ih, interface?_settle, Option.map_map]
    rfl

/-! ### Growth -/

/-- Every registered class stays registered, and keeps its members and its methods. -/
def Grows (registry later : InterfaceRegistry) : Prop :=
  ∀ name i, registry.interface? name = some i → ∃ j, later.interface? name = some j ∧ i.Within j

/-- Every registered class stays as it is. -/
def Extends (registry later : InterfaceRegistry) : Prop :=
  ∀ name i, registry.interface? name = some i → later.interface? name = some i

theorem Grows.refl (registry : InterfaceRegistry) : registry.Grows registry :=
  fun _ i h ↦ ⟨i, h, .refl i⟩

theorem Grows.trans {first second third : InterfaceRegistry} (hfirst : first.Grows second)
    (hsecond : second.Grows third) : first.Grows third := by
  intro name i hi
  obtain ⟨j, hj, hij⟩ := hfirst name i hi
  obtain ⟨k, hk, hjk⟩ := hsecond name j hj
  exact ⟨k, hk, hij.trans hjk⟩

theorem Extends.grows {registry later : InterfaceRegistry} (h : registry.Extends later) :
    registry.Grows later := fun name i hi ↦ ⟨i, h name i hi, .refl i⟩

theorem Grows.methodsOf_eq {registry later : InterfaceRegistry} (h : registry.Grows later)
    {name : String} {i : ClassInterface} (hi : registry.interface? name = some i) :
    later.methodsOf name = i.methods := by
  obtain ⟨j, hj, hij⟩ := h name i hi
  rw [methodsOf_of_interface? hj, hij.methods]

theorem Grows.hasClass {registry later : InterfaceRegistry} (h : registry.Grows later)
    {name : String} (hname : registry.hasClass name = true) : later.hasClass name = true := by
  rw [hasClass_eq_isSome] at hname ⊢
  obtain ⟨i, hi⟩ := Option.isSome_iff_exists.1 hname
  obtain ⟨j, hj, -⟩ := h name i hi
  rw [hj]
  rfl

theorem extends_append (registry : InterfaceRegistry) (name : String)
    (interface : ClassInterface) :
    registry.Extends (registry ++ [(name, interface)] : InterfaceRegistry) := by
  intro other i hi
  rw [interface?_append, hi]
  rfl

theorem grows_foldl_settle (registry : InterfaceRegistry) (found : List Finding) :
    registry.Grows (found.foldl Finding.settle registry) := by
  intro name i hi
  refine ⟨found.foldl (ClassInterface.settle name) i, by rw [interface?_foldl_settle, hi]; rfl, ?_⟩
  clear hi
  induction found generalizing i with
  | nil => exact .refl i
  | cons finding found ih => exact (i.within_settle name finding).trans (ih _)

/-- Settling findings registers nothing. -/
theorem exists_of_foldl_settle {registry : InterfaceRegistry} {found : List Finding}
    {name : String} {i : ClassInterface}
    (h : (found.foldl Finding.settle registry).interface? name = some i) :
    ∃ old, registry.interface? name = some old ∧ old.Within i := by
  have hsettled := interface?_foldl_settle registry found name
  obtain ⟨old, hold, -⟩ := Option.map_eq_some_iff.1 (hsettled.symm.trans h)
  obtain ⟨later, hlater, hwithin⟩ := grows_foldl_settle registry found name old hold
  rw [h] at hlater
  cases hlater
  exact ⟨old, hold, hwithin⟩

end InterfaceRegistry

namespace Session

/-- Registered classes keep their members and methods. -/
def RegistryGrows (s t : Session) : Prop := s.registry.Grows t.registry

/-- Registered classes stay as they are. -/
def RegistryExtends (s t : Session) : Prop := s.registry.Extends t.registry

instance : IsPreorder Session RegistryGrows where
  refl s := .refl s.registry
  trans _ _ _ hst htu := hst.trans htu

instance : IsPreorder Session RegistryExtends where
  refl _ := fun _ _ h ↦ h
  trans _ _ _ hst htu := fun name i h ↦ htu name i (hst name i h)

end Session

end Bindery
