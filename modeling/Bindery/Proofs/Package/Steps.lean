import Bindery.Package.Analysis
import Bindery.Proofs.Except
import Bindery.Proofs.Interface.Growth
import Bindery.Proofs.Run
import Mathlib.Data.List.TakeWhile

/-!
The steps of an analysis. Extracting a module and registering its classes change a session in three
ways only: a class is indexed, an extraction is kept, and a class is registered that was not. A
relation between sessions that allows these three (`Session.Allows`) therefore holds between the two
ends of these runs, also of those that fail (`moves_extract`, `moves_registerClasses`). What they
leave behind when they fail is exact: classes are indexed up to the first whose base class is not
known (`run_forM_indexClass`), and nothing is kept of such a module (`run_extract_of_new`).
-/

set_option autoImplicit false
set_option relaxedAutoImplicit false

namespace Bindery

/-- A relation that holds between the two ends of each step of an analysis. -/
structure Session.Allows (R : Session → Session → Prop) : Prop where
  index : ∀ s className module, R s (s.indexClass className module)
  keep : ∀ s module extraction, s.extractions.find? module = none →
    R s (s.keepExtraction module extraction)
  register : ∀ s className interface, s.registry.hasClass className = false →
    R s (s.withRegistry (s.registry ++ [(className, interface)]))

theorem Session.allows_registryExtends : Session.Allows Session.RegistryExtends where
  index _ _ _ := fun _ _ h ↦ h
  keep _ _ _ _ := fun _ _ h ↦ h
  register s className interface _ :=
    InterfaceRegistry.extends_append s.registry className interface

namespace View

variable {view : View} {c : Class} {s t : Session}

/-! ### Single classes -/

theorem run_indexClass (view : View) (c : Class) (s : Session) :
    (view.indexClass c).run s =
      match view.baseClass c with
      | .ok _ => (.ok (), s.indexClass c.name view.policy.moduleName)
      | .error e => (.error e, s) := by
  cases h : view.baseClass c with
  | ok base =>
    rw [indexClass, h, Run.run_ofExcept_bind_ok]
    rfl
  | error e =>
    rw [indexClass, h, Run.run_bind_of_error (Run.run_ofExcept _ s)]

/-- A class that is registered already is passed over. -/
theorem run_registerClass_of_hasClass (h : s.registry.hasClass (view.className c) = true) :
    (view.registerClass c).run s = (.ok (), s) := by
  rw [registerClass, Run.run_get_bind, if_pos h]
  rfl

theorem run_registerClass_of_new (h : s.registry.hasClass (view.className c) = false) :
    (view.registerClass c).run s =
      match view.interfaceOf c with
      | .ok interface =>
        (.ok (), s.withRegistry (s.registry ++ [(view.className c, interface)]))
      | .error e => (.error e, s) := by
  have hnew : ¬s.registry.hasClass (view.className c) = true := by simp [h]
  rw [registerClass, Run.run_get_bind, if_neg hnew]
  cases hinterface : view.interfaceOf c with
  | ok interface =>
    rw [Run.run_ofExcept_bind_ok, Run.run_get_bind, InterfaceRegistry.register, if_neg hnew,
      Run.run_ofExcept_bind_ok]
    rfl
  | error e => rw [Run.run_bind_of_error (Run.run_ofExcept _ s)]

/-- A class whose name is taken is passed over. Of another, the interface is built and appended. -/
theorem run_registerClass_cases (view : View) (c : Class) (s : Session) :
    s.registry.hasClass (view.className c) = true ∧ (view.registerClass c).run s = (.ok (), s) ∨
    s.registry.hasClass (view.className c) = false ∧
      ((∃ e, view.interfaceOf c = .error e ∧ (view.registerClass c).run s = (.error e, s)) ∨
        ∃ i, view.interfaceOf c = .ok i ∧ (view.registerClass c).run s =
          (.ok (), s.withRegistry (s.registry ++ [(view.className c, i)]))) := by
  cases hclass : s.registry.hasClass (view.className c) with
  | true => exact .inl ⟨rfl, run_registerClass_of_hasClass hclass⟩
  | false =>
    rw [run_registerClass_of_new hclass]
    cases view.interfaceOf c with
    | error e => exact .inr ⟨rfl, .inl ⟨e, rfl, rfl⟩⟩
    | ok i => exact .inr ⟨rfl, .inr ⟨i, rfl, rfl⟩⟩

/-- A class that cannot be registered has a new name, and no interface. -/
theorem registerClass_eq_error {e : Error} (h : (view.registerClass c).run s = (.error e, t)) :
    t = s ∧ s.registry.hasClass (view.className c) = false ∧ view.interfaceOf c = .error e := by
  rcases view.run_registerClass_cases c s with
    ⟨-, hrun⟩ | ⟨hnew, ⟨e', hinterface, hrun⟩ | ⟨i, -, hrun⟩⟩
  · cases hrun.symm.trans h
  · cases hrun.symm.trans h
    exact ⟨rfl, hnew, hinterface⟩
  · cases hrun.symm.trans h

section Moves

variable {R : Session → Session → Prop} [IsPreorder Session R] (hR : Session.Allows R)

include hR

theorem moves_indexClass (view : View) (c : Class) : (view.indexClass c).Moves R := by
  intro s
  rw [run_indexClass]
  cases view.baseClass c with
  | ok base => exact hR.index s _ _
  | error e => exact Std.Refl.refl s

theorem moves_registerClass (view : View) (c : Class) : (view.registerClass c).Moves R := by
  intro s
  rcases view.run_registerClass_cases c s with
    ⟨-, hrun⟩ | ⟨hnew, ⟨e, -, hrun⟩ | ⟨i, -, hrun⟩⟩
  · rw [hrun]
    exact Std.Refl.refl s
  · rw [hrun]
    exact Std.Refl.refl s
  · rw [hrun]
    exact hR.register s _ _ hnew

theorem moves_registerClasses (view : View) : view.registerClasses.Moves R :=
  Run.moves_forM fun c _ ↦ moves_registerClass hR view c

end Moves

theorem hasClass_of_registerClass (h : (view.registerClass c).run s = (.ok (), t)) :
    t.registry.hasClass (view.className c) = true := by
  rcases view.run_registerClass_cases c s with
    ⟨hclass, hrun⟩ | ⟨-, ⟨e, -, hrun⟩ | ⟨i, -, hrun⟩⟩
  · cases hrun.symm.trans h
    exact hclass
  · cases hrun.symm.trans h
  · cases hrun.symm.trans h
    change InterfaceRegistry.hasClass (s.registry ++ [(view.className c, i)]) _ = true
    rw [InterfaceRegistry.hasClass_eq_isSome, InterfaceRegistry.interface?_append]
    simp

/-- After some classes have been registered, all of them are known. -/
theorem hasClass_of_forM_registerClass {classes : List Class}
    (h : (classes.forM view.registerClass).run s = (.ok (), t)) (hc : c ∈ classes) :
    t.registry.hasClass (view.className c) = true := by
  have hmoves : ∀ c ∈ classes, (view.registerClass c).Moves Session.RegistryExtends :=
    fun c _ ↦ moves_registerClass Session.allows_registryExtends view c
  obtain ⟨u, v, -, hrun, hlater⟩ := Run.exists_of_forM_eq_ok hmoves h hc
  exact (InterfaceRegistry.Extends.grows hlater).hasClass (hasClass_of_registerClass hrun)

theorem hasClass_of_registerClasses (h : view.registerClasses.run s = (.ok (), t))
    (hc : c ∈ view.generatedClasses) : t.registry.hasClass (view.className c) = true :=
  hasClass_of_forM_registerClass h hc

/-- Registering classes that are all known does nothing. -/
theorem run_forM_registerClass_of_known {classes : List Class}
    (h : ∀ c ∈ classes, s.registry.hasClass (view.className c) = true) :
    (classes.forM view.registerClass).run s = (.ok (), s) := by
  induction classes with
  | nil => rfl
  | cons c classes ih =>
    rw [List.forM, Run.run_bind_of_ok (run_registerClass_of_hasClass (h c List.mem_cons_self))]
    exact ih fun c hc ↦ h c (List.mem_cons_of_mem _ hc)

theorem run_registerClasses_of_known
    (h : ∀ c ∈ view.generatedClasses, s.registry.hasClass (view.className c) = true) :
    view.registerClasses.run s = (.ok (), s) := run_forM_registerClass_of_known h

/-! ### Lists of classes -/

/-- An index with some classes entered for the module. -/
def indexAll (view : View) (classes : List Class) (index : Table String String) :
    Table String String :=
  classes.foldl (fun index c ↦ index.set c.name view.policy.moduleName) index

theorem find?_indexAll (view : View) (classes : List Class) (index : Table String String)
    (name : String) : (view.indexAll classes index).find? name =
      if name ∈ classes.map Class.name then some view.policy.moduleName else index.find? name := by
  induction classes generalizing index with
  | nil => rfl
  | cons c classes ih =>
    rw [indexAll, List.foldl_cons]
    refine (ih _).trans ?_
    rw [List.map_cons]
    by_cases hrest : name ∈ classes.map Class.name
    · rw [if_pos hrest, if_pos (List.mem_cons_of_mem _ hrest)]
    · rw [if_neg hrest]
      by_cases hname : name = c.name
      · rw [if_pos (hname ▸ List.mem_cons_self), hname, Table.set, Table.find?_alter_self]
      · have hnot : name ∉ c.name :: classes.map Class.name := by
          rw [List.mem_cons, not_or]
          exact ⟨hname, hrest⟩
        rw [if_neg hnot, Table.set, Table.find?_alter_of_ne _ hname]

/-- The classes in front of the first whose base class is not known. -/
def indexable (view : View) (classes : List Class) : List Class :=
  classes.takeWhile fun c ↦ (view.baseClass c).isOk

/-- Whether the base classes of all classes are known. The first that is not gives the error. -/
def checkBases (view : View) (classes : List Class) : Except Error Unit :=
  classes.forM fun c ↦ (view.baseClass c).map fun _ ↦ ()

/-- Classes are indexed up to the first whose base class is not known. -/
theorem run_forM_indexClass (view : View) (classes : List Class) (s : Session) :
    (classes.forM view.indexClass).run s = (view.checkBases classes,
      { s with classIndex := view.indexAll (view.indexable classes) s.classIndex }) := by
  induction classes generalizing s with
  | nil => rfl
  | cons c classes ih =>
    have hfirst := run_indexClass view c s
    rw [List.forM, checkBases, List.forM, indexable, List.takeWhile_cons]
    cases hbase : view.baseClass c with
    | error e =>
      rw [hbase] at hfirst
      rw [Run.run_bind_of_error hfirst]
      rfl
    | ok base =>
      rw [hbase] at hfirst
      rw [Run.run_bind_of_ok hfirst, ih]
      rfl

theorem checkBases_eq_ok_iff {view : View} {classes : List Class} :
    view.checkBases classes = .ok () ↔ ∀ c ∈ classes, ∃ base, view.baseClass c = .ok base := by
  induction classes with
  | nil => exact iff_of_true rfl fun _ hc ↦ (List.not_mem_nil hc).elim
  | cons c classes ih =>
    rw [List.forall_mem_cons, ← ih, checkBases, List.forM]
    cases hbase : view.baseClass c with
    | error e =>
      refine iff_of_false (fun h ↦ by cases h) ?_
      rintro ⟨⟨_, h⟩, -⟩
      cases h
    | ok base => exact (and_iff_right ⟨base, rfl⟩).symm

theorem indexable_of_known {classes : List Class}
    (hbases : ∀ c ∈ classes, ∃ base, view.baseClass c = .ok base) :
    view.indexable classes = classes := by
  refine List.takeWhile_eq_self_iff.2 fun c hc ↦ ?_
  obtain ⟨base, hbase⟩ := hbases c hc
  rw [hbase]
  rfl

theorem baseClass_of_mem_indexable {classes : List Class} (h : c ∈ view.indexable classes) :
    ∃ base, view.baseClass c = .ok base := by
  have hok := List.mem_takeWhile_imp (p := fun c ↦ (view.baseClass c).isOk) h
  cases hbase : view.baseClass c with
  | ok base => exact ⟨base, rfl⟩
  | error e =>
    rw [hbase] at hok
    cases hok

/-- An error is that of the first class whose base class is not known. -/
theorem exists_of_checkBases_eq_error {classes : List Class} {e : Error}
    (h : view.checkBases classes = .error e) :
    ∃ c after, classes = view.indexable classes ++ c :: after ∧ view.baseClass c = .error e := by
  induction classes with
  | nil => cases h
  | cons c classes ih =>
    rw [indexable, List.takeWhile_cons]
    rw [checkBases, List.forM] at h
    cases hbase : view.baseClass c with
    | error e' =>
      rw [hbase] at h
      cases h
      exact ⟨c, classes, rfl, hbase⟩
    | ok base =>
      rw [hbase] at h
      obtain ⟨stopped, after, hsplit, hstopped⟩ := ih h
      exact ⟨stopped, after, congrArg (c :: ·) hsplit, hstopped⟩

/-- The session after the classes of a module have been indexed, as far as they can be. -/
def indexed (view : View) (s : Session) : Session :=
  { s with classIndex := view.indexAll (view.indexable view.generatedClasses) s.classIndex }

/-- Indexing a module enters its classes when the base classes of all of them are known. -/
theorem find?_indexed (hbases : ∀ c ∈ view.generatedClasses, ∃ base, view.baseClass c = .ok base)
    (s : Session) (name : String) : (view.indexed s).classIndex.find? name =
      if name ∈ view.generatedClasses.map Class.name then some view.policy.moduleName
      else s.classIndex.find? name := by
  rw [indexed, indexable_of_known hbases, find?_indexAll]

/-- Indexing a module enters no other classes. -/
theorem find?_indexed_cases (view : View) (s : Session) (name : String) :
    (view.indexed s).classIndex.find? name = s.classIndex.find? name ∨
      name ∈ view.generatedClasses.map Class.name ∧
        (view.indexed s).classIndex.find? name = some view.policy.moduleName := by
  rw [indexed, find?_indexAll]
  split
  · rename_i hname
    obtain ⟨c, hc, rfl⟩ := List.mem_map.1 hname
    exact .inr ⟨List.mem_map_of_mem (List.takeWhile_subset _ hc), rfl⟩
  · exact .inl rfl

/-- The interface that a list of classes gives a name. Of several classes under the name, the first
counts. -/
def interfaceAmong? (view : View) (classes : List Class) (name : String) : Option ClassInterface :=
  (classes.find? (view.className · == name)).bind fun c ↦ (view.interfaceOf c).toOption

theorem interfaceAmong?_cons (view : View) (c : Class) (classes : List Class) (name : String) :
    view.interfaceAmong? (c :: classes) name =
      if view.className c = name then (view.interfaceOf c).toOption
      else view.interfaceAmong? classes name := by
  rw [interfaceAmong?]
  split
  · rw [List.find?_cons_of_pos (by simpa), Option.bind_some]
  · rw [List.find?_cons_of_neg (by simpa), interfaceAmong?]

/-- What classes bring to a name does not change with classes behind them. -/
theorem interfaceAmong?_append_of_some {before : List Class} {name : String} {i : ClassInterface}
    (h : view.interfaceAmong? before name = some i) (after : List Class) :
    view.interfaceAmong? (before ++ after) name = some i := by
  obtain ⟨c, hc, hi⟩ := Option.bind_eq_some_iff.1 h
  rw [interfaceAmong?, List.find?_append, hc]
  exact hi

/-- Registering some classes gives each name that is new the interface that they have for it. Names
that are taken keep their interfaces. -/
theorem interface?_of_forM_registerClass {classes : List Class}
    (h : (classes.forM view.registerClass).run s = (.ok (), t)) :
    t = s.withRegistry t.registry ∧ ∀ name, t.registry.interface? name =
      (s.registry.interface? name).or (view.interfaceAmong? classes name) := by
  induction classes generalizing s with
  | nil =>
    cases h
    exact ⟨rfl, fun name ↦ (Option.or_none).symm⟩
  | cons c classes ih =>
    rw [List.forM] at h
    obtain ⟨_, u, hfirst, hrest⟩ := Run.run_bind_eq_ok.1 h
    obtain ⟨ht, hinterface⟩ := ih hrest
    rcases view.run_registerClass_cases c s with
      ⟨hclass, hrun⟩ | ⟨-, ⟨e, -, hrun⟩ | ⟨i, hi, hrun⟩⟩
    · cases hrun.symm.trans hfirst
      refine ⟨ht, fun name ↦ ?_⟩
      rw [hinterface, interfaceAmong?_cons]
      split
      · rename_i hname
        rw [InterfaceRegistry.hasClass_eq_isSome, hname, Option.isSome_iff_exists] at hclass
        obtain ⟨i, hi⟩ := hclass
        rw [hi, Option.some_or, Option.some_or]
      · rfl
    · cases hrun.symm.trans hfirst
    · cases hrun.symm.trans hfirst
      refine ⟨ht, fun name ↦ ?_⟩
      rw [hinterface, interfaceAmong?_cons, hi]
      change (InterfaceRegistry.interface? (s.registry ++ [(view.className c, i)]) name).or _ = _
      rw [InterfaceRegistry.interface?_append, Option.or_assoc]
      split
      · rfl
      · rw [Option.none_or]

/-- Registering classes stops at the first whose name is new and whose interface cannot be built.
-/
theorem exists_of_forM_registerClass_eq_error {classes : List Class} {e : Error}
    (h : (classes.forM view.registerClass).run s = (.error e, t)) :
    ∃ before c after, classes = before ++ c :: after ∧
      (before.forM view.registerClass).run s = (.ok (), t) ∧
      t.registry.hasClass (view.className c) = false ∧ view.interfaceOf c = .error e := by
  obtain ⟨before, c, after, u, hclasses, hbefore, hc⟩ := Run.exists_of_forM_eq_error h
  obtain ⟨rfl, hnew, hinterface⟩ := registerClass_eq_error hc
  exact ⟨before, c, after, hclasses, hbefore, hnew, hinterface⟩

/-- Where all classes are registered, each that comes first under a new name has an interface. -/
theorem interfaceOf_of_forM_registerClass {classes : List Class}
    (h : (classes.forM view.registerClass).run s = (.ok (), t)) {name : String}
    (hname : s.registry.hasClass name = false) {c : Class}
    (hc : classes.find? (view.className · == name) = some c) :
    ∃ i, view.interfaceOf c = .ok i := by
  have hunder : view.className c = name := by simpa using List.find?_some hc
  have hclass := hasClass_of_forM_registerClass h (List.mem_of_find?_eq_some hc)
  rw [InterfaceRegistry.hasClass_eq_isSome, Option.isSome_eq_false_iff,
    Option.isNone_iff_eq_none] at hname
  rw [InterfaceRegistry.hasClass_eq_isSome, hunder, (interface?_of_forM_registerClass h).2 name,
    hname, Option.none_or, interfaceAmong?, hc, Option.bind_some] at hclass
  obtain ⟨i, hi⟩ := Option.isSome_iff_exists.1 hclass
  exact ⟨i, eq_ok_of_toOption hi⟩

/-- Classes can be registered whose interfaces can be built, as far as their names are not taken.
Names that are taken keep their interfaces. -/
theorem run_forM_registerClass {classes : List Class}
    (hbuilt : ∀ name, s.registry.hasClass name = false → ∀ c,
      classes.find? (view.className · == name) = some c → ∃ i, view.interfaceOf c = .ok i) :
    ∃ registry, (classes.forM view.registerClass).run s = (.ok (), s.withRegistry registry) ∧
      ∀ name, registry.interface? name =
        (s.registry.interface? name).or (view.interfaceAmong? classes name) := by
  rcases hrun : (classes.forM view.registerClass).run s with ⟨outcome, t⟩
  cases outcome with
  | ok _ =>
    obtain ⟨ht, hinterface⟩ := interface?_of_forM_registerClass hrun
    exact ⟨t.registry, by rw [← ht], hinterface⟩
  | error e =>
    obtain ⟨before, c, after, rfl, hbefore, hnew, herror⟩ :=
      exists_of_forM_registerClass_eq_error hrun
    have hgrows : s.RegistryExtends t :=
      (Run.moves_forM fun c _ ↦ moves_registerClass Session.allows_registryExtends view c).of_eq
        hbefore
    have hfree : s.registry.hasClass (view.className c) = false := by
      by_contra hclass
      rw [Bool.not_eq_false] at hclass
      rw [hgrows.grows.hasClass hclass] at hnew
      cases hnew
    -- No class in front of it has its name, since those are registered.
    have hfind : before.find? (view.className · == view.className c) = none := by
      refine List.find?_eq_none.2 fun d hd hname ↦ ?_
      rw [← eq_of_beq hname, hasClass_of_forM_registerClass hbefore hd] at hnew
      cases hnew
    have hfirst : (before ++ c :: after).find? (view.className · == view.className c) = some c := by
      rw [List.find?_append, hfind, Option.none_or, List.find?_cons_of_pos (by simp)]
    obtain ⟨i, hi⟩ := hbuilt _ hfree c hfirst
    rw [herror] at hi
    cases hi

/-- Registering some classes gives a new name the interface of the first class under it, also when
it fails on the way. -/
theorem run_forM_registerClass_cases (view : View) (classes : List Class) (s : Session) :
    ∃ outcome registry, (classes.forM view.registerClass).run s =
        (outcome, s.withRegistry registry) ∧
      ∀ name, registry.interface? name = s.registry.interface? name ∨
        s.registry.interface? name = none ∧
          registry.interface? name = view.interfaceAmong? classes name := by
  rcases hrun : (classes.forM view.registerClass).run s with ⟨outcome, t⟩
  obtain ⟨before, after, rfl, hbefore⟩ : ∃ before after, classes = before ++ after ∧
      (before.forM view.registerClass).run s = (.ok (), t) := by
    cases outcome with
    | ok _ => exact ⟨classes, [], (List.append_nil _).symm, hrun⟩
    | error e =>
      obtain ⟨before, c, after, hclasses, hbefore, -⟩ := exists_of_forM_registerClass_eq_error hrun
      exact ⟨before, c :: after, hclasses, hbefore⟩
  obtain ⟨ht, hinterface⟩ := interface?_of_forM_registerClass hbefore
  refine ⟨outcome, t.registry, by rw [← ht], fun name ↦ ?_⟩
  rw [hinterface]
  cases hold : s.registry.interface? name with
  | some i => exact .inl rfl
  | none =>
    rw [Option.none_or]
    cases hnew : view.interfaceAmong? before name with
    | none => exact .inl rfl
    | some i => exact .inr ⟨rfl, (interfaceAmong?_append_of_some hnew after).symm⟩

/-- Registering classes changes the registry only. -/
theorem eq_withRegistry_of_registerClasses {outcome : Except Error Unit}
    (h : view.registerClasses.run s = (outcome, t)) : t = s.withRegistry t.registry := by
  obtain ⟨last, registry, hrun, -⟩ := view.run_forM_registerClass_cases view.generatedClasses s
  rw [registerClasses, hrun] at h
  cases h
  rfl

end View

namespace Package

variable {package : Package} {s t : Session}

/-! ### Modules -/

/-- The extraction of a module from some files. -/
def extraction (package : Package) (files : Files) (policy : Policy) : Except Error Extraction :=
  policy.extract package.config fun item ↦ package.source.load files item

theorem run_extract_of_known {policy : Policy} {extraction : Extraction}
    (h : s.extractions.find? policy.moduleName = some extraction) :
    (package.extract policy).run s = (.ok extraction, s) := by
  rw [extract, Run.run_get_bind, h]
  rfl

/-- A module that is not known yet is read, its classes are indexed, and the extraction is kept when
the base classes of all of them are known. -/
theorem run_extract_of_new {policy : Policy} (h : s.extractions.find? policy.moduleName = none) :
    (package.extract policy).run s =
      match package.extraction s.files policy with
      | .error e => (.error e, s)
      | .ok extraction =>
        let view : View := ⟨policy, extraction.module⟩
        match view.checkBases view.generatedClasses with
        | .error e => (.error e, view.indexed s)
        | .ok _ =>
          (.ok extraction, (view.indexed s).keepExtraction policy.moduleName extraction) := by
  rw [extract, Run.run_get_bind, h]
  change (ofExcept (package.extraction s.files policy) >>= _ : Run Extraction).run s = _
  cases package.extraction s.files policy with
  | error e => rw [Run.run_bind_of_error (Run.run_ofExcept _ s)]
  | ok extraction =>
    let view : View := ⟨policy, extraction.module⟩
    have hindex := view.run_forM_indexClass view.generatedClasses s
    rw [Run.run_ofExcept_bind_ok]
    cases hbases : view.checkBases view.generatedClasses with
    | error e =>
      rw [hbases] at hindex
      rw [Run.run_bind_of_error hindex]
      simp only [view] at hbases
      simp only [hbases]
      rfl
    | ok _ =>
      rw [hbases] at hindex
      rw [Run.run_bind_of_ok hindex]
      simp only [view] at hbases
      simp only [hbases]
      rfl

theorem run_extract_of_sound {policy : Policy} {extraction : Extraction}
    (h : s.extractions.find? policy.moduleName = none)
    (hextracted : package.extraction s.files policy = .ok extraction)
    (hbases : ∀ c ∈ View.generatedClasses ⟨policy, extraction.module⟩,
      ∃ base, View.baseClass ⟨policy, extraction.module⟩ c = .ok base) :
    (package.extract policy).run s = (.ok extraction, (View.indexed ⟨policy, extraction.module⟩
      s).keepExtraction policy.moduleName extraction) := by
  rw [run_extract_of_new h, hextracted]
  simp only [View.checkBases_eq_ok_iff.2 hbases]

/-- A new module that is extracted can be read, and the base classes of its classes are known. -/
theorem extract_new_eq_ok {policy : Policy} {extraction : Extraction}
    (h : s.extractions.find? policy.moduleName = none)
    (hrun : (package.extract policy).run s = (.ok extraction, t)) :
    package.extraction s.files policy = .ok extraction ∧
      (∀ c ∈ View.generatedClasses ⟨policy, extraction.module⟩,
        ∃ base, View.baseClass ⟨policy, extraction.module⟩ c = .ok base) ∧
      t = (View.indexed ⟨policy, extraction.module⟩ s).keepExtraction policy.moduleName
        extraction := by
  rw [run_extract_of_new h] at hrun
  cases hextracted : package.extraction s.files policy with
  | error e =>
    rw [hextracted] at hrun
    cases hrun
  | ok found =>
    simp only [hextracted] at hrun
    split at hrun
    · cases hrun
    · rename_i hbases
      cases hrun
      exact ⟨rfl, View.checkBases_eq_ok_iff.1 hbases, rfl⟩

/-- A module that fails is new. Either it cannot be read, and nothing happens, or the base class of
a class that it generates is not known, and the classes in front of that one are indexed. -/
theorem extract_eq_error {policy : Policy} {e : Error}
    (hrun : (package.extract policy).run s = (.error e, t)) :
    s.extractions.find? policy.moduleName = none ∧
      ((package.extraction s.files policy = .error e ∧ t = s) ∨
        ∃ extraction, package.extraction s.files policy = .ok extraction ∧
          View.checkBases ⟨policy, extraction.module⟩
              (View.generatedClasses ⟨policy, extraction.module⟩) = .error e ∧
            t = View.indexed ⟨policy, extraction.module⟩ s) := by
  cases hknown : s.extractions.find? policy.moduleName with
  | some known =>
    rw [run_extract_of_known hknown] at hrun
    cases hrun
  | none =>
    refine ⟨rfl, ?_⟩
    rw [run_extract_of_new hknown] at hrun
    cases hextracted : package.extraction s.files policy with
    | error e' =>
      rw [hextracted] at hrun
      cases hrun
      exact .inl ⟨rfl, rfl⟩
    | ok extraction =>
      simp only [hextracted] at hrun
      split at hrun
      · rename_i hbases
        cases hrun
        exact .inr ⟨extraction, rfl, hbases, rfl⟩
      · cases hrun

/-- An extraction changes the index only for a new module, and gives classes to that module only. -/
theorem find?_classIndex_of_extract {policy : Policy} {outcome : Except Error Extraction}
    (h : (package.extract policy).run s = (outcome, t)) (name : String) :
    t.classIndex.find? name = s.classIndex.find? name ∨
      s.extractions.find? policy.moduleName = none ∧
        t.classIndex.find? name = some policy.moduleName := by
  cases hknown : s.extractions.find? policy.moduleName with
  | some known =>
    rw [run_extract_of_known hknown] at h
    cases h
    exact .inl rfl
  | none =>
    have hindexed (extraction : Extraction) :=
      (View.find?_indexed_cases ⟨policy, extraction.module⟩ s name).imp_right And.right
    cases outcome with
    | error e =>
      obtain ⟨-, ⟨-, rfl⟩ | ⟨extraction, -, -, rfl⟩⟩ := extract_eq_error h
      · exact .inl rfl
      · exact (hindexed extraction).imp_right fun hnew ↦ ⟨rfl, hnew⟩
    | ok extraction =>
      obtain ⟨-, -, rfl⟩ := extract_new_eq_ok hknown h
      exact (hindexed extraction).imp_right fun hnew ↦ ⟨rfl, hnew⟩

/-- An extraction that is returned has been kept. -/
theorem find?_of_extract_eq_ok {policy : Policy} {extraction : Extraction}
    (h : (package.extract policy).run s = (.ok extraction, t)) :
    t.extractions.find? policy.moduleName = some extraction := by
  cases hknown : s.extractions.find? policy.moduleName with
  | some known =>
    rw [run_extract_of_known hknown] at h
    cases h
    exact hknown
  | none =>
    obtain ⟨-, -, rfl⟩ := extract_new_eq_ok hknown h
    exact Table.find?_alter_self _ _ _ _

/-- An extraction keeps only what has been read, with the base classes of its classes known. -/
theorem find?_extractions_of_extract {policy : Policy} {outcome : Except Error Extraction}
    (h : (package.extract policy).run s = (outcome, t)) {module : String} {extraction : Extraction}
    (hkept : t.extractions.find? module = some extraction) :
    s.extractions.find? module = some extraction ∨
      module = policy.moduleName ∧ package.extraction s.files policy = .ok extraction ∧
        ∀ c ∈ View.generatedClasses ⟨policy, extraction.module⟩,
          ∃ base, View.baseClass ⟨policy, extraction.module⟩ c = .ok base := by
  cases outcome with
  | error e =>
    obtain ⟨-, ⟨-, rfl⟩ | ⟨_, -, -, rfl⟩⟩ := extract_eq_error h
    · exact .inl hkept
    · exact .inl hkept
  | ok found =>
    cases hknown : s.extractions.find? policy.moduleName with
    | some known =>
      rw [run_extract_of_known hknown] at h
      cases h
      exact .inl hkept
    | none =>
      obtain ⟨hextracted, hbases, rfl⟩ := extract_new_eq_ok hknown h
      change (s.extractions.set policy.moduleName found).find? module = some extraction at hkept
      by_cases hsame : module = policy.moduleName
      · rw [hsame, Table.set, Table.find?_alter_self] at hkept
        cases hkept
        exact .inr ⟨hsame, hextracted, hbases⟩
      · rw [Table.set, Table.find?_alter_of_ne _ hsame] at hkept
        exact .inl hkept

theorem run_indexedOwner? (package : Package) (className : String) (s : Session) :
    (package.indexedOwner? className).run s =
      match s.classIndex.find? className with
      | some module => ((package.policy module).map some, s)
      | none => (.ok none, s) := by
  rw [indexedOwner?, Run.run_get_bind]
  cases s.classIndex.find? className with
  | none => rfl
  | some module => cases h : package.policy module <;> simp [h, Except.map] <;> rfl

/-- Extracting a module registers nothing. -/
theorem registry_of_extract {policy : Policy} {outcome : Except Error Extraction}
    (h : (package.extract policy).run s = (outcome, t)) : t.registry = s.registry := by
  cases outcome with
  | error e => obtain ⟨-, ⟨-, rfl⟩ | ⟨extraction, -, -, rfl⟩⟩ := extract_eq_error h <;> rfl
  | ok extraction =>
    cases hknown : s.extractions.find? policy.moduleName with
    | some known =>
      rw [run_extract_of_known hknown] at h
      cases h
      rfl
    | none =>
      obtain ⟨-, -, rfl⟩ := extract_new_eq_ok hknown h
      rfl

section Moves

variable {R : Session → Session → Prop} [IsPreorder Session R] (hR : Session.Allows R)

include hR

/-- Extracting a module indexes its classes, and keeps the extraction. -/
theorem moves_extract (package : Package) (policy : Policy) : (package.extract policy).Moves R := by
  intro s
  cases hknown : s.extractions.find? policy.moduleName with
  | some extraction =>
    rw [run_extract_of_known hknown]
    exact Std.Refl.refl s
  | none =>
    have hindexed (extraction : Extraction) :
        R s (View.indexed ⟨policy, extraction.module⟩ s) := by
      let view : View := ⟨policy, extraction.module⟩
      have hmoves : (view.generatedClasses.forM view.indexClass).Moves R :=
        Run.moves_forM fun c _ ↦ View.moves_indexClass hR view c
      exact hmoves.of_eq (view.run_forM_indexClass _ s)
    rw [run_extract_of_new hknown]
    split
    · exact Std.Refl.refl s
    · rename_i extraction _
      dsimp only
      split
      · exact hindexed extraction
      · exact IsTrans.trans _ _ _ (hindexed extraction) (hR.keep _ _ extraction hknown)

omit hR in
theorem moves_indexedOwner? (package : Package) (className : String) :
    (package.indexedOwner? className).Moves R := by
  intro s
  rw [run_indexedOwner?]
  cases s.classIndex.find? className <;> exact Std.Refl.refl s

end Moves

end Package

end Bindery
