import Bindery.Proofs.Decl.Revisions

/-!
Addresses under revisions. An address ends at a place with the overload that it selects there
(`Query.endpoint`), and this depends on names, on the parameters of methods and on nothing else.
Revisions keep these, so that an address leads to the same location before a revision and after it
(`locate?_revise`), and a class name to the same class (`classPlace?_revise`).
-/

set_option autoImplicit false
set_option relaxedAutoImplicit false

namespace Bindery

section Positions

variable {α : Type} {change : Nat → α → α} {p : α → Bool}

theorem findIdx?_mapIdx (h : ∀ i x, p (change i x) = p x) (xs : List α) :
    (xs.mapIdx change).findIdx? p = xs.findIdx? p := by
  induction xs generalizing change with
  | nil => rfl
  | cons x xs ih =>
    rw [List.mapIdx_cons, List.findIdx?_cons, List.findIdx?_cons, h, ih fun i ↦ h (i + 1)]

theorem findValue?_mapIdx {enum? : α → Option Enumeration} {name : String}
    (h : ∀ i x, (enum? (change i x)).bind (·.valuePosition? name) =
      (enum? x).bind (·.valuePosition? name)) (xs : List α) :
    findValue? enum? name (xs.mapIdx change) = findValue? enum? name xs := by
  induction xs generalizing change with
  | nil => rfl
  | cons x xs ih => rw [List.mapIdx_cons, findValue?, findValue?, h, ih fun i ↦ h (i + 1)]

end Positions

theorem Enumeration.exists_value_of_valuePosition? {e : Enumeration} {name : String} {slot : Nat}
    (h : e.valuePosition? name = some slot) : ∃ v, e.values[slot]? = some v :=
  ⟨_, List.getElem?_eq_getElem (List.findIdx?_eq_some_iff_getElem.1 h).1⟩

/-- What is found among enumerations is a value of one of them. -/
theorem exists_value_of_findValue? {α : Type} {enum? : α → Option Enumeration} {name : String}
    {xs : List α} {index slot : Nat} (h : findValue? enum? name xs = some (index, slot)) :
    ∃ e v, (xs[index]?).bind enum? = some e ∧ e.values[slot]? = some v := by
  induction xs generalizing index with
  | nil => cases h
  | cons x xs ih =>
    rw [findValue?] at h
    split at h
    · rename_i value hvalue
      cases h
      obtain ⟨e, he, hposition⟩ := Option.bind_eq_some_iff.1 hvalue
      obtain ⟨v, hv⟩ := Enumeration.exists_value_of_valuePosition? hposition
      exact ⟨e, v, he, hv⟩
    · obtain ⟨⟨index, slot⟩, hrest, heq⟩ := Option.map_eq_some_iff.1 h
      cases heq
      exact ih hrest

/-! ### Where an address ends -/

namespace Query

/-- Whether a query can end at a value of an enumeration. It selects nothing there. -/
def selectValue (query : Query) : Option (Option Nat) :=
  if query.args.isNone || query.path.length == 1 then some none else none

/-- The overload that a query selects of what its path leads to, if the query can end there. -/
def select (query : Query) : Target → Option (Option Nat)
  | .method chain =>
    if query.args.isNone then some none else (chain.all.findIdx? query.selects).map some
  | .value _ => query.selectValue
  | _ => if query.args.isNone then some none else none

/-- Where a query ends, with the overload that it selects there. -/
def endpoint (query : Query) (found : Way × Target) : Way × Option (Option Nat) :=
  (found.1, query.select found.2)

end Query

theorem Module.resolve?_eq (m : Module) (query : Query) : m.resolve? query =
    ((m.locatePath? query.path).map fun found ↦ (found.1, query.endpoint found.2)).bind
      fun (item, way, overload?) ↦ overload?.map fun overload ↦ { item, way, overload } := by
  rw [resolve?, Option.bind_map]
  refine congrArg (Option.bind _) (funext fun (item, way, found) ↦ ?_)
  cases hargs : query.args with
  | none => cases found <;> simp [Query.endpoint, Query.select, Query.selectValue, hargs]
  | some args =>
    cases found with
    | method chain =>
      cases hfound : chain.all.findIdx? query.selects <;>
        simp [Query.endpoint, Query.select, hargs, hfound]
    | value v =>
      simp only [Function.comp_apply, Query.endpoint, Query.select, Query.selectValue, hargs,
        Option.isNone_some, Bool.false_or]
      split <;> rfl
    | _ => simp [Query.endpoint, Query.select, hargs]

section Endpoints

variable (query : Query)

theorem Target.descend?_ofClass (c : Class) (name : String) (names : List String) :
    ((Target.ofClass c).descend? (name :: names)).map query.endpoint =
      match c.members.findIdx? (·.name == name) with
      | some index => (c.members[index]?).bind fun member ↦
        ((member.target.descend? names).map query.endpoint).map fun (way, overload?) ↦
          (.member index way, overload?)
      | none =>
        if names.isEmpty then
          (findValue? Member.enum? name c.members).map fun (index, slot) ↦
            (.member index (.value slot), query.selectValue)
        else none := by
  rw [descend?]
  cases c.members.findIdx? (·.name == name) with
  | some index =>
    simp only [Option.bind_eq_bind, Option.map_bind]
    refine congrArg (Option.bind _) (funext fun member ↦ ?_)
    rw [Function.comp_apply]
    cases member.target.descend? names <;> rfl
  | none =>
    cases names.isEmpty with
    | false => rfl
    | true =>
      cases hfind : findValue? Member.enum? name c.members with
      | none => simp
      | some found =>
        obtain ⟨e, v, he, hv⟩ := exists_value_of_findValue? hfind
        simp [he, hv, Query.endpoint, Query.select]

theorem Target.descend?_enum (e : Enumeration) (name : String) (names : List String) :
    ((Target.enum e).descend? (name :: names)).map query.endpoint =
      if names.isEmpty then
        (e.valuePosition? name).map fun slot ↦ (.value slot, query.selectValue)
      else none := by
  rw [descend?]
  cases names.isEmpty with
  | false => rfl
  | true =>
    cases hposition : e.valuePosition? name with
    | none => simp
    | some slot =>
      obtain ⟨v, hv⟩ := Enumeration.exists_value_of_valuePosition? hposition
      simp [hv, Query.endpoint, Query.select]

theorem Module.locatePath?_cons (m : Module) (first : String) (rest : List String) :
    (m.locatePath? (first :: rest)).map (fun found ↦ (found.1, query.endpoint found.2)) =
      match m.items.findIdx? (·.name == first) with
      | some index => (m.items[index]?).bind fun item ↦
        ((item.target.descend? rest).map query.endpoint).map fun found ↦ (index, found)
      | none =>
        if rest.isEmpty then
          (findValue? Item.enum? first m.items).map fun (index, slot) ↦
            (index, .value slot, query.selectValue)
        else none := by
  rw [locatePath?]
  cases m.items.findIdx? (·.name == first) with
  | some index =>
    simp only [Option.bind_eq_bind, Option.map_bind]
    refine congrArg (Option.bind _) (funext fun item ↦ ?_)
    rw [Function.comp_apply]
    cases item.target.descend? rest <;> rfl
  | none =>
    cases rest.isEmpty with
    | false => rfl
    | true =>
      cases hfind : findValue? Item.enum? first m.items with
      | none => simp
      | some found =>
        obtain ⟨e, v, he, hv⟩ := exists_value_of_findValue? hfind
        simp [he, hv, Query.endpoint, Query.select]

end Endpoints

/-! ### Revisions keep the ends of addresses -/

section SameNames

variable {f : Way → Option Nat → Info → Info} (query : Query)

theorem Query.select_mapInfos (found : Target) :
    query.select (found.mapInfos f) = query.select found := by
  cases found with
  | method chain =>
    have hselects : ∀ i (m : Method),
        query.selects (m.mapInfo (f .here (some i))) = query.selects m := fun _ _ ↦ rfl
    simp only [Target.mapInfos, select, Overloads.all_mapInfos]
    rw [findIdx?_mapIdx hselects]
  | _ => rfl

variable (hname : ∀ way i info, (f way i info).name = info.name)

include hname

theorem Enumeration.valuePosition?_mapInfos (e : Enumeration) (name : String) :
    (e.mapInfos f).valuePosition? name = e.valuePosition? name :=
  findIdx?_mapIdx (fun i v ↦ congrArg (· == name) (hname (.value i) none v.info)) e.values

theorem Member.valuePosition?_mapInfos (member : Member) (name : String) :
    (member.mapInfos f).enum?.bind (·.valuePosition? name) =
      member.enum?.bind (·.valuePosition? name) := by
  cases member with
  | enum e => exact e.valuePosition?_mapInfos hname name
  | _ => rfl

theorem Item.valuePosition?_mapInfos (item : Item) (name : String) :
    (item.mapInfos f).enum?.bind (·.valuePosition? name) =
      item.enum?.bind (·.valuePosition? name) := by
  cases item with
  | enum e => exact e.valuePosition?_mapInfos hname name
  | _ => rfl

theorem Member.name_mapInfos (member : Member) : (member.mapInfos f).name = member.name := by
  cases member with
  | inner c => exact (congrArg Info.name (c.info_mapInfos f)).trans (hname _ _ _)
  | _ => exact hname _ _ _

theorem Item.name_mapInfos (item : Item) : (item.mapInfos f).name = item.name := by
  cases item with
  | ofClass c => exact (congrArg Info.name (c.info_mapInfos f)).trans (hname _ _ _)
  | _ => exact hname _ _ _

/-- A path of names ends at the same place, and selects the same overload there. -/
theorem Target.descend?_mapInfos (names : List String) (target : Target) :
    ((target.mapInfos f).descend? names).map query.endpoint =
      (target.descend? names).map query.endpoint := by
  induction names generalizing target f with
  | nil => simp only [descend?, Option.map_some, Query.endpoint, query.select_mapInfos]
  | cons name names ih =>
    cases target with
    | ofClass c =>
      have hinside := fun i way ↦ hname (.member i way)
      rw [mapInfos, descend?_ofClass, descend?_ofClass, Class.members_mapInfos,
        findIdx?_mapIdx fun i member ↦ congrArg (· == name) (member.name_mapInfos (hinside i)),
        findValue?_mapIdx fun i member ↦ member.valuePosition?_mapInfos (hinside i) name]
      split
      · rename_i index _
        rw [List.getElem?_mapIdx, Option.bind_map]
        refine congrArg (Option.bind _) (funext fun member ↦ ?_)
        rw [Function.comp_apply, Member.target_mapInfos, ih (hinside index)]
      · rfl
    | enum e => rw [mapInfos, descend?_enum, descend?_enum, e.valuePosition?_mapInfos hname]
    | _ => rfl

end SameNames

theorem Item.descend?_adapt (query : Query) (bases : List Base → List Base)
    (paramMappings : List ParamMapping → List ParamMapping) (names : List String) (item : Item) :
    ((item.adapt bases paramMappings).target.descend? names).map query.endpoint =
      (item.target.descend? names).map query.endpoint := by
  cases item with
  | ofClass c => cases names <;> rfl
  | _ => rfl

namespace Revision

variable (e : Revision) (i : Nat) (item : Item)

theorem name_item : (e.item i item).name = item.name := by
  rw [Revision.item, Item.name_mapInfos fun way overload ↦ e.name_info ⟨i, way, overload⟩]
  cases item <;> rfl

theorem valuePosition?_item (name : String) :
    (e.item i item).enum?.bind (·.valuePosition? name) =
      item.enum?.bind (·.valuePosition? name) := by
  rw [Revision.item, Item.valuePosition?_mapInfos fun way overload ↦ e.name_info ⟨i, way, overload⟩]
  cases item <;> rfl

theorem descend?_item (query : Query) (names : List String) :
    ((e.item i item).target.descend? names).map query.endpoint =
      (item.target.descend? names).map query.endpoint := by
  rw [Revision.item, Item.target_mapInfos,
    Target.descend?_mapInfos query fun way overload ↦ e.name_info ⟨i, way, overload⟩,
    Item.descend?_adapt]

end Revision

/-- Addresses lead to the same places after a revision. -/
theorem Module.locate?_revise (m : Module) (e : Revision) (name : String) :
    (m.revise e).locate? name = m.locate? name := by
  have hends : ∀ query path,
      ((m.revise e).locatePath? path).map (fun found ↦ (found.1, Query.endpoint query found.2)) =
        (m.locatePath? path).map fun found ↦ (found.1, query.endpoint found.2) := by
    rintro query (_ | ⟨first, rest⟩)
    · rfl
    · rw [locatePath?_cons, locatePath?_cons, revise,
        findIdx?_mapIdx fun i item ↦ congrArg (· == first) (e.name_item i item),
        findValue?_mapIdx fun i item ↦ e.valuePosition?_item i item first]
      split
      · rw [List.getElem?_mapIdx, Option.bind_map]
        refine congrArg (Option.bind _) (funext fun item ↦ ?_)
        rw [Function.comp_apply, Revision.descend?_item]
      · rfl
  rw [locate?, locate?, resolve?_eq, resolve?_eq, hends]

/-- Whether a name covers a declaration: it is the address of the declaration itself or, without
argument types, the address of the overloads that the declaration is one of. -/
def Module.covers (m : Module) (name : String) (d : Location) : Bool :=
  m.locate? name == some d ||
    ((Query.parse name).args.isNone && m.locate? name == some { d with overload := none })

theorem Module.covers_revise (m : Module) (e : Revision) (name : String) :
    (m.revise e).covers name = m.covers name := by
  funext d
  rw [covers, covers, locate?_revise]

/-! ### Class names mean the same classes -/

def Item.isClass (name : String) (item : Item) : Bool := item.class?.any (·.name == name)

/-- The place of the first class of a name. -/
def Module.classPlace? (m : Module) (name : String) : Option Nat :=
  m.items.findIdx? (·.isClass name)

/-- Whether a name means the class at a place. -/
def Module.declares (m : Module) (name : String) (i : Nat) : Bool := m.classPlace? name == some i

section ByName

variable (m : Module) (name : String)

theorem Module.isSome_findClass? : (m.findClass? name).isSome = (m.classPlace? name).isSome := by
  have hany : m.classes.any (·.name == name) = m.items.any (·.isClass name) := by
    rw [classes, List.any_filterMap]
    exact congrArg m.items.any (funext fun item ↦ by cases item <;> rfl)
  rw [classPlace?, List.findIdx?_isSome, ← hany, findClass?, Bool.eq_iff_iff, List.find?_isSome,
    List.any_eq_true]

theorem Revision.isClass_item (e : Revision) (i : Nat) (item : Item) :
    (e.item i item).isClass name = item.isClass name := by
  cases item with
  | ofClass c =>
    exact congrArg (· == name) ((congrArg Info.name (Class.info_mapInfos _ _)).trans
      (e.name_info _ _))
  | _ => rfl

/-- A class name means the same class after a revision. -/
theorem Module.classPlace?_revise (e : Revision) :
    (m.revise e).classPlace? name = m.classPlace? name :=
  findIdx?_mapIdx (e.isClass_item name) m.items

theorem Module.declares_revise (e : Revision) : (m.revise e).declares name = m.declares name := by
  funext i
  rw [declares, declares, classPlace?_revise]

theorem Module.isNone_findClass?_revise (e : Revision) :
    ((m.revise e).findClass? name).isNone = (m.findClass? name).isNone := by
  rw [← Option.not_isSome, ← Option.not_isSome, isSome_findClass?, isSome_findClass?,
    classPlace?_revise]

end ByName

end Bindery
