import Bindery.Decl.Locate

/-!
Revisions of a module. A revision gives every declaration new attributes, which depend on its
location, and every class of the module scope new bases and parameter mappings. Everything else
stays, and so do the names. Revisions that follow each other are one revision (`revise_andThen`),
and what is read at a location after a revision is what it makes of the attributes that were there
(`infoAt?_revise`).
-/

set_option autoImplicit false
set_option relaxedAutoImplicit false

namespace Bindery

/-! ### New attributes for all declarations -/

/-- Changes the attributes of the overloads, each by its number. -/
def Overloads.mapInfos (f : Option Nat → Info → Info) (chain : Overloads) : Overloads :=
  ⟨chain.first.mapInfo (f (some 0)), chain.rest.mapIdx fun i ↦ Method.mapInfo (f (some (i + 1)))⟩

def Enumeration.mapInfos (f : Way → Option Nat → Info → Info) (e : Enumeration) : Enumeration :=
  { e with
    info := f .here none e.info
    values := e.values.mapIdx fun i v ↦ { v with info := f (.value i) none v.info } }

mutual

/-- Changes the attributes of a declaration and of all those inside it, by the ways to them and the
numbers of the overloads. -/
def Member.mapInfos (f : Way → Option Nat → Info → Info) : Member → Member
  | .method chain => .method (chain.mapInfos (f .here))
  | .variable v => .variable { v with info := f .here none v.info }
  | .enum e => .enum (e.mapInfos f)
  | .inner c => .inner (c.mapInfos f)

def Class.mapInfos (f : Way → Option Nat → Info → Info) : Class → Class
  | ⟨info, kind, bases, members, isAbstract, isTemplate, includes, paramMappings⟩ =>
    ⟨f .here none info, kind, bases, Member.mapAllInfos (fun i way ↦ f (.member i way)) members,
      isAbstract, isTemplate, includes, paramMappings⟩

def Member.mapAllInfos (f : Nat → Way → Option Nat → Info → Info) : List Member → List Member
  | [] => []
  | member :: members =>
    member.mapInfos (f 0) :: Member.mapAllInfos (fun i ↦ f (i + 1)) members

end

def Item.mapInfos (f : Way → Option Nat → Info → Info) : Item → Item
  | .ofClass c => .ofClass (c.mapInfos f)
  | .function chain => .function (chain.mapInfos (f .here))
  | .enum e => .enum (e.mapInfos f)
  | .variable v => .variable { v with info := f .here none v.info }
  | .typedef t => .typedef { t with info := f .here none t.info }
  | .define d => .define { d with info := f .here none d.info }

def Target.mapInfos (f : Way → Option Nat → Info → Info) : Target → Target
  | .ofClass c => .ofClass (c.mapInfos f)
  | .method chain => .method (chain.mapInfos (f .here))
  | .enum e => .enum (e.mapInfos f)
  | .value v => .value { v with info := f .here none v.info }
  | .variable v => .variable { v with info := f .here none v.info }
  | .member v => .member { v with info := f .here none v.info }
  | .typedef t => .typedef { t with info := f .here none t.info }
  | .define d => .define { d with info := f .here none d.info }

section MapInfos

variable {f g : Way → Option Nat → Info → Info}

theorem Overloads.all_mapInfos (f : Option Nat → Info → Info) (chain : Overloads) :
    (chain.mapInfos f).all = chain.all.mapIdx fun i ↦ Method.mapInfo (f (some i)) := by
  rw [all, all, List.mapIdx_cons]
  rfl

theorem Member.mapAllInfos_eq_mapIdx (f : Nat → Way → Option Nat → Info → Info)
    (members : List Member) :
    Member.mapAllInfos f members = members.mapIdx fun i member ↦ member.mapInfos (f i) := by
  induction members generalizing f with
  | nil => rfl
  | cons member members ih => rw [Member.mapAllInfos, ih, List.mapIdx_cons]

theorem Class.members_mapInfos (f : Way → Option Nat → Info → Info) (c : Class) :
    (c.mapInfos f).members =
      c.members.mapIdx fun i member ↦ member.mapInfos fun way ↦ f (.member i way) := by
  cases c
  rw [mapInfos, Member.mapAllInfos_eq_mapIdx]

theorem Class.info_mapInfos (f : Way → Option Nat → Info → Info) (c : Class) :
    (c.mapInfos f).info = f .here none c.info := by
  cases c
  rfl

theorem Member.target_mapInfos (f : Way → Option Nat → Info → Info) (member : Member) :
    (member.mapInfos f).target = member.target.mapInfos f := by
  cases member <;> rfl

theorem Item.target_mapInfos (f : Way → Option Nat → Info → Info) (item : Item) :
    (item.mapInfos f).target = item.target.mapInfos f := by
  cases item <;> rfl

/-! #### Attributes that stay as they are -/

theorem mapIdx_eq_self {α : Type} {change : Nat → α → α} (h : ∀ i x, change i x = x)
    (xs : List α) : xs.mapIdx change = xs :=
  List.mapIdx_eq_iff.2 fun i ↦ by rw [funext (h i), Option.map_id']

theorem Method.mapInfo_eq_self {f : Info → Info} (h : ∀ info, f info = info) (m : Method) :
    m.mapInfo f = m := by
  rw [mapInfo, h]

theorem Overloads.mapInfos_eq_self {f : Option Nat → Info → Info} (h : ∀ i info, f i info = info)
    (chain : Overloads) : chain.mapInfos f = chain := by
  rw [mapInfos, Method.mapInfo_eq_self (h _),
    mapIdx_eq_self fun i ↦ Method.mapInfo_eq_self (h (some (i + 1)))]

theorem Enumeration.mapInfos_eq_self (h : ∀ way i info, f way i info = info) (e : Enumeration) :
    e.mapInfos f = e := by
  rw [mapInfos, h, mapIdx_eq_self fun i v ↦ by rw [h]]

mutual

theorem Member.mapInfos_eq_self (f : Way → Option Nat → Info → Info)
    (h : ∀ way i info, f way i info = info) (member : Member) : member.mapInfos f = member := by
  cases member with
  | method chain => rw [Member.mapInfos, Overloads.mapInfos_eq_self (h .here)]
  | «variable» v => rw [Member.mapInfos, h]
  | enum e => rw [Member.mapInfos, Enumeration.mapInfos_eq_self h]
  | inner c => rw [Member.mapInfos, Class.mapInfos_eq_self f h c]

theorem Class.mapInfos_eq_self (f : Way → Option Nat → Info → Info)
    (h : ∀ way i info, f way i info = info) (c : Class) : c.mapInfos f = c := by
  obtain ⟨_, _, _, members⟩ := c
  rw [Class.mapInfos, h, Member.mapAllInfos_eq_self _ (fun i way ↦ h (.member i way)) members]

theorem Member.mapAllInfos_eq_self (f : Nat → Way → Option Nat → Info → Info)
    (h : ∀ index way i info, f index way i info = info) (members : List Member) :
    Member.mapAllInfos f members = members := by
  cases members with
  | nil => rfl
  | cons member members =>
    rw [Member.mapAllInfos, Member.mapInfos_eq_self (f 0) (h 0) member,
      Member.mapAllInfos_eq_self _ (fun i ↦ h (i + 1)) members]

end

theorem Item.mapInfos_eq_self (h : ∀ way i info, f way i info = info) (item : Item) :
    item.mapInfos f = item := by
  cases item with
  | ofClass c => rw [mapInfos, Class.mapInfos_eq_self f h]
  | function chain => rw [mapInfos, Overloads.mapInfos_eq_self (h .here)]
  | enum e => rw [mapInfos, Enumeration.mapInfos_eq_self h]
  | «variable» v => rw [mapInfos, h]
  | typedef t => rw [mapInfos, h]
  | define d => rw [mapInfos, h]

/-! #### One change after another -/

/-- The changes of attributes that are made one after the other. -/
def afterwards (f g : Way → Option Nat → Info → Info) : Way → Option Nat → Info → Info :=
  fun way i info ↦ g way i (f way i info)

theorem Overloads.mapInfos_mapInfos (f g : Option Nat → Info → Info) (chain : Overloads) :
    (chain.mapInfos f).mapInfos g = chain.mapInfos fun i info ↦ g i (f i info) := by
  simp only [mapInfos, List.mapIdx_mapIdx]
  rfl

theorem Enumeration.mapInfos_mapInfos (e : Enumeration) :
    (e.mapInfos f).mapInfos g = e.mapInfos (afterwards f g) := by
  simp only [mapInfos, List.mapIdx_mapIdx]
  rfl

mutual

theorem Member.mapInfos_mapInfos (f g : Way → Option Nat → Info → Info) (member : Member) :
    (member.mapInfos f).mapInfos g = member.mapInfos (afterwards f g) := by
  cases member with
  | method chain =>
    rw [Member.mapInfos, Member.mapInfos, Overloads.mapInfos_mapInfos]
    rfl
  | «variable» v => rfl
  | enum e => rw [Member.mapInfos, Member.mapInfos, Enumeration.mapInfos_mapInfos, Member.mapInfos]
  | inner c => rw [Member.mapInfos, Member.mapInfos, Class.mapInfos_mapInfos f g c, Member.mapInfos]

theorem Class.mapInfos_mapInfos (f g : Way → Option Nat → Info → Info) (c : Class) :
    (c.mapInfos f).mapInfos g = c.mapInfos (afterwards f g) := by
  obtain ⟨_, _, _, members⟩ := c
  rw [Class.mapInfos, Class.mapInfos, Member.mapAllInfos_mapAllInfos _ _ members]
  rfl

theorem Member.mapAllInfos_mapAllInfos (f g : Nat → Way → Option Nat → Info → Info)
    (members : List Member) : Member.mapAllInfos g (Member.mapAllInfos f members) =
      Member.mapAllInfos (fun i ↦ afterwards (f i) (g i)) members := by
  cases members with
  | nil => rfl
  | cons member members =>
    rw [Member.mapAllInfos, Member.mapAllInfos, Member.mapInfos_mapInfos _ _ member,
      Member.mapAllInfos_mapAllInfos _ _ members, Member.mapAllInfos]

end

theorem Item.mapInfos_mapInfos (item : Item) :
    (item.mapInfos f).mapInfos g = item.mapInfos (afterwards f g) := by
  cases item with
  | ofClass c => rw [mapInfos, mapInfos, Class.mapInfos_mapInfos, mapInfos]
  | function chain =>
    rw [mapInfos, mapInfos, Overloads.mapInfos_mapInfos]
    rfl
  | enum e => rw [mapInfos, mapInfos, Enumeration.mapInfos_mapInfos, mapInfos]
  | «variable» v => rfl
  | typedef t => rfl
  | define d => rfl

end MapInfos

/-! ### Revisions -/

/-- What becomes of the attributes of every declaration, by its location, and of the bases and the
parameter mappings of every class in the module scope, by its place. -/
@[ext]
structure Revision where
  info : Location → Info → Info
  bases : Nat → List Base → List Base
  paramMappings : Nat → List ParamMapping → List ParamMapping
  name_info : ∀ (d : Location) (old : Info), (info d old).name = old.name

namespace Revision

def nothing : Revision := ⟨fun _ old ↦ old, fun _ old ↦ old, fun _ old ↦ old, fun _ _ ↦ rfl⟩

def andThen (first second : Revision) : Revision where
  info d old := second.info d (first.info d old)
  bases i old := second.bases i (first.bases i old)
  paramMappings i old := second.paramMappings i (first.paramMappings i old)
  name_info d old := (second.name_info d _).trans (first.name_info d old)

/-- Revisions that are made one after the other. -/
def sequence (revisions : List Revision) : Revision := revisions.foldl andThen nothing

theorem nothing_andThen (e : Revision) : nothing.andThen e = e := rfl

theorem andThen_assoc (first second third : Revision) :
    (first.andThen second).andThen third = first.andThen (second.andThen third) := rfl

theorem sequence_cons (e : Revision) (revisions : List Revision) :
    sequence (e :: revisions) = e.andThen (sequence revisions) := by
  have hfrom : ∀ (revisions : List Revision) (start : Revision),
      revisions.foldl andThen start = start.andThen (sequence revisions) := by
    intro revisions
    induction revisions with
    | nil => exact fun _ ↦ rfl
    | cons next revisions ih =>
      intro start
      rw [sequence, List.foldl_cons, List.foldl_cons, ih, ih (nothing.andThen next),
        andThen_assoc, nothing_andThen]
  exact hfrom revisions e

/-- What a sequence makes of a part of a module is made by one revision after the other. -/
theorem read_sequence {α : Type} (read : Revision → α → α) (hnothing : ∀ x, read nothing x = x)
    (handThen : ∀ first second x, read (first.andThen second) x = read second (read first x))
    (revisions : List Revision) (x : α) :
    read (sequence revisions) x = revisions.foldl (fun x e ↦ read e x) x := by
  induction revisions generalizing x with
  | nil => exact hnothing x
  | cons e revisions ih => rw [sequence_cons, handThen, ih, List.foldl_cons]

theorem info_sequence (revisions : List Revision) (d : Location) (old : Info) :
    (sequence revisions).info d old = revisions.foldl (fun info e ↦ e.info d info) old :=
  read_sequence (fun e ↦ e.info d) (fun _ ↦ rfl) (fun _ _ _ ↦ rfl) revisions old

theorem bases_sequence (revisions : List Revision) (i : Nat) (old : List Base) :
    (sequence revisions).bases i old = revisions.foldl (fun bases e ↦ e.bases i bases) old :=
  read_sequence (fun e ↦ e.bases i) (fun _ ↦ rfl) (fun _ _ _ ↦ rfl) revisions old

theorem paramMappings_sequence (revisions : List Revision) (i : Nat) (old : List ParamMapping) :
    (sequence revisions).paramMappings i old =
      revisions.foldl (fun mappings e ↦ e.paramMappings i mappings) old :=
  read_sequence (fun e ↦ e.paramMappings i) (fun _ ↦ rfl) (fun _ _ _ ↦ rfl) revisions old

end Revision

/-- Gives a class other bases and other parameter mappings. -/
def Class.adapt (bases : List Base → List Base)
    (paramMappings : List ParamMapping → List ParamMapping) (c : Class) : Class :=
  { c with bases := bases c.bases, paramMappings := paramMappings c.paramMappings }

def Item.adapt (bases : List Base → List Base)
    (paramMappings : List ParamMapping → List ParamMapping) : Item → Item
  | .ofClass c => .ofClass (c.adapt bases paramMappings)
  | item => item

/-- The revision of what stands at a place of the module scope. -/
def Revision.item (e : Revision) (i : Nat) (item : Item) : Item :=
  (item.adapt (e.bases i) (e.paramMappings i)).mapInfos fun way overload ↦
    e.info { item := i, way, overload }

def Module.revise (m : Module) (e : Revision) : Module := { m with items := m.items.mapIdx e.item }

theorem Class.adapt_mapInfos (f : Way → Option Nat → Info → Info) (bases : List Base → List Base)
    (paramMappings : List ParamMapping → List ParamMapping) (c : Class) :
    (c.mapInfos f).adapt bases paramMappings = (c.adapt bases paramMappings).mapInfos f := by
  cases c
  rfl

theorem Item.adapt_self (item : Item) :
    item.adapt (fun old ↦ old) (fun old ↦ old) = item := by
  cases item with
  | ofClass c =>
    cases c
    rfl
  | _ => rfl

theorem Revision.item_nothing (i : Nat) (item : Item) : nothing.item i item = item :=
  (Item.mapInfos_eq_self (fun _ _ _ ↦ rfl) _).trans item.adapt_self

theorem Revision.item_andThen (first second : Revision) (i : Nat) (item : Item) :
    (first.andThen second).item i item = second.item i (first.item i item) := by
  have hcommute : ∀ (f : Way → Option Nat → Info → Info) (bases : List Base → List Base)
      (paramMappings : List ParamMapping → List ParamMapping) (item : Item),
      (item.mapInfos f).adapt bases paramMappings =
        (item.adapt bases paramMappings).mapInfos f := by
    intro f bases paramMappings item
    cases item with
    | ofClass c => exact congrArg Item.ofClass (c.adapt_mapInfos f bases paramMappings)
    | _ => rfl
  have hadapt : (item.adapt (first.bases i) (first.paramMappings i)).adapt (second.bases i)
      (second.paramMappings i) =
        item.adapt ((first.andThen second).bases i) ((first.andThen second).paramMappings i) := by
    cases item <;> rfl
  rw [Revision.item, Revision.item, Revision.item, hcommute, Item.mapInfos_mapInfos, hadapt]
  rfl

namespace Module

theorem revise_nothing (m : Module) : m.revise .nothing = m := by
  rw [revise, mapIdx_eq_self Revision.item_nothing]

theorem revise_andThen (m : Module) (first second : Revision) :
    m.revise (first.andThen second) = (m.revise first).revise second := by
  have hitem : (first.andThen second).item = fun i ↦ second.item i ∘ first.item i :=
    funext fun i ↦ funext (Revision.item_andThen first second i)
  rw [revise, revise, revise, List.mapIdx_mapIdx, hitem]

theorem getElem?_items_revise (m : Module) (e : Revision) (i : Nat) :
    (m.revise e).items[i]? = (m.items[i]?).map (e.item i) :=
  List.getElem?_mapIdx

end Module

/-! ### The attributes at a location -/

/-- The attributes of a declaration. Those of a method are asked of each overload by its number, and
nothing else has overloads. -/
def Target.infoAt? (overload : Option Nat) : Target → Option Info
  | .method chain => overload.bind fun i ↦ (chain.all[i]?).map Method.info
  | found => if overload.isNone then some found.info else none

/-- The attributes of the declaration at a location, if there is one. -/
def Module.infoAt? (m : Module) (d : Location) : Option Info :=
  (m.items[d.item]?).bind fun item ↦ (item.target.follow? d.way).bind (·.infoAt? d.overload)

section InfoAt

variable (f : Way → Option Nat → Info → Info) (overload : Option Nat)

theorem Target.infoAt?_mapInfos (target : Target) : (target.mapInfos f).infoAt? overload =
    (target.infoAt? overload).map (f .here overload) := by
  cases target with
  | method chain =>
    cases overload with
    | none => rfl
    | some i =>
      simp only [mapInfos, infoAt?, Option.bind_some, Overloads.all_mapInfos,
        List.getElem?_mapIdx, Option.map_map]
      rfl
  | ofClass c =>
    cases overload with
    | none => exact congrArg some (c.info_mapInfos f)
    | some i => rfl
  | _ => cases overload <;> rfl

theorem Target.infoAt?_follow?_mapInfos (way : Way) (target : Target) :
    ((target.mapInfos f).follow? way).bind (·.infoAt? overload) =
      ((target.follow? way).bind (·.infoAt? overload)).map (f way overload) := by
  induction way generalizing target f with
  | here => exact target.infoAt?_mapInfos f overload
  | member index way ih =>
    cases target with
    | ofClass c =>
      simp only [mapInfos, follow?, Class.members_mapInfos, List.getElem?_mapIdx]
      cases c.members[index]? with
      | none => rfl
      | some member =>
        simp only [Option.map_some, Option.bind_eq_bind, Option.bind_some, Member.target_mapInfos]
        exact ih _ member.target
    | _ => rfl
  | value index =>
    cases target with
    | enum e =>
      simp only [mapInfos, follow?, Enumeration.mapInfos, List.getElem?_mapIdx, Option.map_map]
      cases e.values[index]? with
      | none => rfl
      | some v => cases overload <;> rfl
    | _ => rfl

theorem Item.infoAt?_follow?_adapt (bases : List Base → List Base)
    (paramMappings : List ParamMapping → List ParamMapping) (way : Way) (item : Item) :
    ((item.adapt bases paramMappings).target.follow? way).bind (·.infoAt? overload) =
      (item.target.follow? way).bind (·.infoAt? overload) := by
  cases item with
  | ofClass c => cases way <;> rfl
  | _ => rfl

/-- What a revision makes of the attributes at a location. -/
theorem Module.infoAt?_revise (m : Module) (e : Revision) (d : Location) :
    (m.revise e).infoAt? d = (m.infoAt? d).map (e.info d) := by
  rw [infoAt?, infoAt?, getElem?_items_revise]
  cases m.items[d.item]? with
  | none => rfl
  | some item =>
    simp only [Option.map_some, Option.bind_some, Revision.item, Item.target_mapInfos]
    rw [Target.infoAt?_follow?_mapInfos, Item.infoAt?_follow?_adapt]

end InfoAt

end Bindery
