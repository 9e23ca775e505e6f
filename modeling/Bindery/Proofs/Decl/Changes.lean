import Bindery.Proofs.Decl.Addresses

/-!
Changes by address are revisions. A change of attributes at an address is the revision that changes
what the address covers (`update?_eq`): the declaration that it leads to, or every overload of a
method that is named without argument types. A change of a class by its name is the revision of the
first class of that name (`updateClass?_eq`). Nothing else is touched.
-/

set_option autoImplicit false
set_option relaxedAutoImplicit false

namespace Bindery

/-! ### A change at a location -/

/-- The change of what stands at the end of a way, for the overloads that are reached there. -/
def changeAt (f : Info → Info) (way : Way) (reach : Option Nat → Bool) :
    Way → Option Nat → Info → Info :=
  fun other overload info ↦ if way = other ∧ reach overload then f info else info

/-- Whether the overloads of an extent are those that are reached. What has no overloads is reached
as a whole. -/
def Target.Fits (extent : Extent) (reach : Option Nat → Bool) : Target → Prop
  | .method _ =>
    match extent with
    | .wholeChain => ∀ i, reach (some i) = true
    | .overload index => ∀ i, reach (some i) = decide (index = i)
  | _ => reach none = true

theorem modify_eq_mapIdx {α : Type} (g : α → α) (index : Nat) (xs : List α) :
    xs.modify index g = xs.mapIdx fun i x ↦ if index = i then g x else x :=
  (List.mapIdx_eq_iff.2 fun i ↦ List.getElem?_modify g index xs i).symm

section Change

variable {f : Info → Info} {extent : Extent} {reach : Option Nat → Bool} {way : Way}

theorem changeAt_self {overload : Option Nat} (h : reach overload = true) (info : Info) :
    changeAt f way reach way overload info = f info := if_pos ⟨rfl, h⟩

theorem changeAt_of_ne {other : Way} (h : way ≠ other) (overload : Option Nat) (info : Info) :
    changeAt f way reach other overload info = info := if_neg fun hboth ↦ h hboth.1

theorem Overloads.mapInfo_eq {chain : Overloads} (h : (Target.method chain).Fits extent reach) :
    chain.mapInfo f extent = chain.mapInfos (changeAt f .here reach .here) := by
  cases extent with
  | wholeChain =>
    have hmethod : ∀ i, Method.mapInfo (changeAt f .here reach .here (some i)) = Method.mapInfo f :=
      fun i ↦ congrArg Method.mapInfo (funext (changeAt_self (h i)))
    simp only [mapInfo, mapInfos, map, hmethod]
    rw [List.mapIdx_eq_iff.2 fun i ↦ List.getElem?_map]
  | overload index =>
    have hmethod : ∀ i m, Method.mapInfo (changeAt f .here reach .here (some i)) m =
        if index = i then m.mapInfo f else m := by
      intro i m
      by_cases hi : index = i <;> simp [Method.mapInfo, changeAt, h i, hi]
    cases index with
    | zero =>
      rw [mapInfos, hmethod, mapIdx_eq_self fun i m ↦ hmethod (i + 1) m]
      rfl
    | succ n =>
      have hrest : ∀ i, Method.mapInfo (changeAt f .here reach .here (some (i + 1))) =
          fun m ↦ if n = i then m.mapInfo f else m :=
        fun i ↦ funext fun m ↦ (hmethod (i + 1) m).trans (by simp only [Nat.add_right_cancel_iff])
      simp only [mapInfos, mapInfo, modify, hmethod 0, hrest, modify_eq_mapIdx]
      rfl

theorem Enumeration.mapInfo_eq {e : Enumeration} {found : Target}
    (hway : (Target.enum e).follow? way = some found) (h : found.Fits extent reach) :
    e.mapInfo f way = e.mapInfos (changeAt f way reach) := by
  cases way with
  | here =>
    cases hway
    have hvalue : ∀ i info, changeAt f .here reach (.value i) none info = info :=
      fun i ↦ changeAt_of_ne (Way.noConfusion ·) none
    rw [mapInfo, mapInfos, changeAt_self h, mapIdx_eq_self fun i v ↦ by rw [hvalue]]
  | member index way => cases hway
  | value index =>
    obtain ⟨v, _, hfound⟩ := Option.map_eq_some_iff.1 hway
    cases hfound
    have hreach : reach none = true := h
    have hvalue : ∀ i (v : EnumValue),
        { v with info := changeAt f (.value index) reach (.value i) none v.info } =
          if index = i then { v with info := f v.info } else v := by
      intro i v
      by_cases hi : index = i <;> simp [changeAt, hreach, hi]
    have hown : changeAt f (.value index) reach .here none e.info = e.info :=
      changeAt_of_ne (Way.noConfusion ·) none _
    simp only [mapInfo, mapInfos, modify_eq_mapIdx, hvalue, hown]

/-- Whether no declarations stand inside a declaration. -/
def Target.isPlain : Target → Bool
  | .ofClass _ => false
  | .enum _ => false
  | _ => true

theorem Target.eq_here_of_follow? {target found : Target} (hplain : target.isPlain = true)
    (hway : target.follow? way = some found) : way = .here ∧ found = target := by
  cases way with
  | here => exact ⟨rfl, (Option.some.inj hway).symm⟩
  | member index way => cases target <;> first | cases hway | cases hplain
  | value index => cases target <;> first | cases hway | cases hplain

mutual

theorem Member.mapInfo_eq {way : Way} {found : Target} (member : Member)
    (hway : member.target.follow? way = some found) (h : found.Fits extent reach) :
    member.mapInfo f extent way = member.mapInfos (changeAt f way reach) := by
  cases member with
  | method chain =>
    obtain ⟨rfl, rfl⟩ := Target.eq_here_of_follow? rfl hway
    rw [Member.mapInfo, Member.mapInfos, Overloads.mapInfo_eq h]
  | «variable» v =>
    obtain ⟨rfl, rfl⟩ := Target.eq_here_of_follow? rfl hway
    rw [Member.mapInfo, Member.mapInfos, changeAt_self h]
  | enum e => rw [Member.mapInfo, Member.mapInfos, Enumeration.mapInfo_eq hway h]
  | inner c => rw [Member.mapInfo, Member.mapInfos, Class.mapInfo_eq c hway h]

theorem Class.mapInfo_eq {way : Way} {found : Target} (c : Class)
    (hway : (Target.ofClass c).follow? way = some found) (h : found.Fits extent reach) :
    c.mapInfo f extent way = c.mapInfos (changeAt f way reach) := by
  obtain ⟨info, _, _, members⟩ := c
  cases way with
  | here =>
    cases hway
    have hmembers : Member.mapAllInfos (fun i other ↦ changeAt f .here reach (.member i other))
        members = members :=
      Member.mapAllInfos_eq_self _ (fun _ _ ↦ changeAt_of_ne (Way.noConfusion ·)) members
    rw [Class.mapInfo, Class.mapInfos, hmembers, changeAt_self h]
  | member index way =>
    obtain ⟨member, hmember, hinside⟩ := Option.bind_eq_some_iff.1 hway
    have hown : changeAt f (.member index way) reach .here none info = info :=
      changeAt_of_ne (Way.noConfusion ·) none info
    rw [Class.mapInfo, Class.mapInfos, Member.mapInfoAt_eq members hmember hinside h, hown]
  | value index => cases hway

theorem Member.mapInfoAt_eq {way : Way} {found : Target} {index : Nat} {member : Member}
    (members : List Member) (hmember : members[index]? = some member)
    (hway : member.target.follow? way = some found) (h : found.Fits extent reach) :
    Member.mapInfoAt f extent way index members = Member.mapAllInfos
      (fun i other ↦ changeAt f (.member index way) reach (.member i other)) members := by
  cases members with
  | nil => cases hmember
  | cons head tail =>
    cases index with
    | zero =>
      obtain rfl : head = member := Option.some.inj hmember
      have hhere : (fun other ↦ changeAt f (.member 0 way) reach (.member 0 other)) =
          changeAt f way reach := by
        funext other overload info
        simp [changeAt]
      have htail : Member.mapAllInfos (fun i other ↦
          changeAt f (.member 0 way) reach (.member (i + 1) other)) tail = tail :=
        Member.mapAllInfos_eq_self _ (fun i other ↦ changeAt_of_ne (by simp)) tail
      rw [Member.mapInfoAt, Member.mapAllInfos, hhere, htail, Member.mapInfo_eq head hway h]
    | succ n =>
      have hhead : head.mapInfos (fun other ↦
          changeAt f (.member (n + 1) way) reach (.member 0 other)) = head :=
        Member.mapInfos_eq_self _ (fun other ↦ changeAt_of_ne (by simp)) head
      have htail : (fun i other ↦ changeAt f (.member (n + 1) way) reach (.member (i + 1) other)) =
          fun i other ↦ changeAt f (.member n way) reach (.member i other) := by
        funext i other overload info
        simp [changeAt]
      rw [Member.mapInfoAt, Member.mapAllInfos, hhead, htail,
        Member.mapInfoAt_eq tail hmember hway h]

end

theorem Item.mapInfo_eq {way : Way} {found : Target} {item : Item}
    (hway : item.target.follow? way = some found) (h : found.Fits extent reach) :
    item.mapInfo f extent way = item.mapInfos (changeAt f way reach) := by
  cases item with
  | ofClass c => rw [mapInfo, mapInfos, Class.mapInfo_eq c hway h]
  | function chain =>
    obtain ⟨rfl, rfl⟩ := Target.eq_here_of_follow? rfl hway
    rw [mapInfo, mapInfos, Overloads.mapInfo_eq h]
  | enum e => rw [mapInfo, mapInfos, Enumeration.mapInfo_eq hway h]
  | «variable» v =>
    obtain ⟨rfl, rfl⟩ := Target.eq_here_of_follow? rfl hway
    rw [mapInfo, mapInfos, changeAt_self h]
  | typedef t =>
    obtain ⟨rfl, rfl⟩ := Target.eq_here_of_follow? rfl hway
    rw [mapInfo, mapInfos, changeAt_self h]
  | define d =>
    obtain ⟨rfl, rfl⟩ := Target.eq_here_of_follow? rfl hway
    rw [mapInfo, mapInfos, changeAt_self h]

end Change

/-! ### A change at an address is a revision -/

/-- The revision that changes the attributes of some declarations. -/
def Revision.onInfo (covered : Location → Bool) (f : Info → Info)
    (hname : ∀ old, (f old).name = old.name) : Revision :=
  { Revision.nothing with
    info := fun d old ↦ if covered d then f old else old
    name_info := fun d old ↦ by split <;> first | exact hname old | rfl }

/-- A revision that changes one item only. -/
theorem Module.modify_items_eq_revise {m : Module} {e : Revision} {place : Nat}
    {change : Item → Item}
    (hplace : ∀ item, m.items[place]? = some item → change item = e.item place item)
    (hother : ∀ i item, place ≠ i → e.item i item = item) :
    { m with items := m.items.modify place change } = m.revise e := by
  rw [revise]
  refine congrArg (Module.mk m.name m.itemNames) (List.ext_getElem? fun i ↦ ?_)
  rw [List.getElem?_modify, List.getElem?_mapIdx]
  cases hitem : m.items[i]? with
  | none => rfl
  | some item =>
    by_cases hi : place = i
    · subst hi
      exact congrArg some ((if_pos rfl).trans (hplace item hitem))
    · exact congrArg some ((if_neg hi).trans (hother i item hi).symm)

theorem Target.follow?_of_descend? {names : List String} {target found : Target} {way : Way}
    (h : target.descend? names = some (way, found)) : target.follow? way = some found := by
  induction names generalizing target way with
  | nil =>
    cases h
    rfl
  | cons name names ih =>
    cases target with
    | ofClass c =>
      rw [descend?] at h
      split at h
      · obtain ⟨member, hmember, h⟩ := Option.bind_eq_some_iff.1 h
        obtain ⟨⟨way, found⟩, hinside, h⟩ := Option.bind_eq_some_iff.1 h
        cases h
        simp only [follow?, hmember, Option.bind_eq_bind, Option.bind_some]
        exact ih hinside
      · split at h
        · obtain ⟨⟨index, slot⟩, _, h⟩ := Option.bind_eq_some_iff.1 h
          obtain ⟨e, he, h⟩ := Option.bind_eq_some_iff.1 h
          obtain ⟨v, hv, h⟩ := Option.bind_eq_some_iff.1 h
          obtain ⟨member, hmember, henum⟩ := Option.bind_eq_some_iff.1 he
          cases h
          cases member <;> cases henum
          simp only [follow?, hmember, Member.target, Option.bind_eq_bind, Option.bind_some, hv,
            Option.map_some]
        · cases h
    | enum e =>
      rw [descend?] at h
      split at h
      · obtain ⟨slot, _, h⟩ := Option.bind_eq_some_iff.1 h
        obtain ⟨v, hv, h⟩ := Option.bind_eq_some_iff.1 h
        cases h
        simp only [follow?, hv, Option.map_some]
      · cases h
    | _ => cases h

theorem Module.follow?_of_locatePath? {m : Module} {path : List String} {i : Nat} {way : Way}
    {found : Target} (h : m.locatePath? path = some (i, way, found)) :
    ∃ item, m.items[i]? = some item ∧ item.target.follow? way = some found := by
  cases path with
  | nil => cases h
  | cons first rest =>
    rw [locatePath?] at h
    split at h
    · obtain ⟨item, hitem, h⟩ := Option.bind_eq_some_iff.1 h
      obtain ⟨⟨way, found⟩, hinside, h⟩ := Option.bind_eq_some_iff.1 h
      cases h
      exact ⟨item, hitem, Target.follow?_of_descend? hinside⟩
    · split at h
      · obtain ⟨⟨index, slot⟩, _, h⟩ := Option.bind_eq_some_iff.1 h
        obtain ⟨e, he, h⟩ := Option.bind_eq_some_iff.1 h
        obtain ⟨v, hv, h⟩ := Option.bind_eq_some_iff.1 h
        obtain ⟨item, hitem, henum⟩ := Option.bind_eq_some_iff.1 he
        cases h
        cases item <;> cases henum
        exact ⟨_, hitem, congrArg (Option.map Target.value) hv⟩
      · cases h

section AtAddress

variable {m : Module} {name : String} {place : Location}

/-- An address leads to a declaration, and covers the overloads that a change is made to there. -/
theorem Module.fits_of_locate? (h : m.locate? name = some place) :
    ∃ item found, m.items[place.item]? = some item ∧
      item.target.follow? place.way = some found ∧
      found.Fits (match place.overload with
        | none => .wholeChain
        | some index => .overload index)
        fun overload ↦ m.covers name { place with overload } := by
  have hresolved := h
  rw [locate?, resolve?] at hresolved
  obtain ⟨⟨i, way, found⟩, hpath, hend⟩ := Option.bind_eq_some_iff.1 hresolved
  obtain ⟨item, hitem, hway⟩ := follow?_of_locatePath? hpath
  have hself : m.covers name place = true := by
    rw [covers, h, beq_self_eq_true, Bool.true_or]
  cases hargs : (Query.parse name).args with
  | none =>
    simp only [hargs] at hend
    cases hend
    refine ⟨item, found, hitem, hway, ?_⟩
    cases found with
    | method chain =>
      intro overload
      simp only [covers, h, hargs, Option.isNone_none, beq_self_eq_true, Bool.and_self,
        Bool.or_true]
    | _ => exact hself
  | some args =>
    simp only [hargs] at hend
    cases found with
    | method chain =>
      obtain ⟨index, _, hplace⟩ := Option.bind_eq_some_iff.1 hend
      cases hplace
      refine ⟨item, _, hitem, hway, fun overload ↦ ?_⟩
      by_cases hindex : index = overload <;> simp [covers, h, hargs, hindex]
    | value v =>
      simp only at hend
      split at hend
      · cases hend
        exact ⟨item, _, hitem, hway, hself⟩
      · cases hend
    | _ => cases hend

theorem Module.eq_place_of_covers (h : m.locate? name = some place) {d : Location}
    (hd : m.covers name d = true) : place.item = d.item ∧ place.way = d.way := by
  simp only [covers, h, Bool.or_eq_true, Bool.and_eq_true, beq_iff_eq, Option.some.injEq] at hd
  obtain rfl | ⟨_, rfl⟩ := hd <;> exact ⟨rfl, rfl⟩

variable (f : Info → Info) (hname : ∀ old, (f old).name = old.name)

/-- A change at an address is made to what the address covers, and to nothing else. -/
theorem Module.update?_eq (m : Module) (name : String) : m.update? name f =
    (m.locate? name).map fun _ ↦ m.revise (.onInfo (m.covers name) f hname) := by
  rw [update?]
  cases hplace : m.locate? name with
  | none => rfl
  | some place =>
    obtain ⟨item, found, hitem, hway, hfits⟩ := fits_of_locate? hplace
    refine congrArg some (modify_items_eq_revise (fun other hother ↦ ?_) fun i other hi ↦ ?_)
    · cases hitem.symm.trans hother
      refine (Item.mapInfo_eq hway hfits).trans (Eq.trans ?_
        (congrArg (Item.mapInfos _) item.adapt_self.symm))
      refine congrArg (item.mapInfos ·) ?_
      funext way overload info
      by_cases hsame : place.way = way
      · subst hsame
        simp only [changeAt, true_and]
        rfl
      · rw [changeAt_of_ne hsame]
        exact (if_neg fun hd ↦ hsame (eq_place_of_covers hplace hd).2).symm
    · exact (Item.mapInfos_eq_self (fun way overload info ↦
        if_neg fun hd ↦ hi (eq_place_of_covers hplace hd).1) _).trans other.adapt_self

/-- A change that is made if an address is found is a revision as well. -/
theorem Module.getD_update?_eq (m : Module) (name : String) :
    (m.update? name f).getD m = m.revise (.onInfo (m.covers name) f hname) := by
  rw [m.update?_eq f hname]
  cases hplace : m.locate? name with
  | some place => rfl
  | none =>
    have hcovers : m.covers name = fun _ ↦ false := by
      funext d
      rw [covers, hplace, show (none == some d) = false from rfl, Bool.false_or]
      exact Bool.and_false _
    have hnothing : Revision.onInfo (m.covers name) f hname = .nothing := by
      rw [Revision.onInfo, Revision.nothing]
      simp only [hcovers, Bool.false_eq_true, if_false]
    rw [hnothing]
    exact m.revise_nothing.symm

end AtAddress

/-! ### A change of a class is a revision -/

/-- The revision that gives some classes other bases and parameter mappings. -/
def Revision.onClass (declared : Nat → Bool) (bases : List Base → List Base)
    (paramMappings : List ParamMapping → List ParamMapping) : Revision :=
  { Revision.nothing with
    bases := fun i old ↦ if declared i then bases old else old
    paramMappings := fun i old ↦ if declared i then paramMappings old else old }

section ByName

variable (m : Module) (name : String) (bases : List Base → List Base)
  (paramMappings : List ParamMapping → List ParamMapping)

theorem updateClassIn_eq (items : List Item) :
    Module.updateClassIn name (Class.adapt bases paramMappings) items =
      match items.findIdx? (·.isClass name) with
      | some place => items.modify place (Item.adapt bases paramMappings)
      | none => items := by
  induction items with
  | nil => rfl
  | cons item items ih =>
    have hnext : ∀ place?, place? = items.findIdx? (·.isClass name) →
        (match place?.map (· + 1) with
        | some place => (item :: items).modify place (Item.adapt bases paramMappings)
        | none => item :: items) =
          item :: Module.updateClassIn name (Class.adapt bases paramMappings) items := by
      rintro _ rfl
      rw [ih]
      cases items.findIdx? (·.isClass name) <;> rfl
    rw [List.findIdx?_cons]
    cases item with
    | ofClass c =>
      by_cases hc : (c.name == name) = true
      · have hclass : (Item.ofClass c).isClass name = true := hc
        rw [if_pos hclass, Module.updateClassIn, if_pos hc]
        rfl
      · have hclass : (Item.ofClass c).isClass name ≠ true := hc
        rw [if_neg hclass, Module.updateClassIn, if_neg hc]
        exact (hnext _ rfl).symm
    | _ => exact (hnext _ rfl).symm

theorem Module.updateClass?_eq : m.updateClass? name (Class.adapt bases paramMappings) =
    (m.findClass? name).map fun _ ↦
      m.revise (.onClass (m.declares name) bases paramMappings) := by
  have hfound := m.isSome_findClass? name
  rw [updateClass?]
  cases hclass : m.findClass? name with
  | none => rfl
  | some c =>
    rw [hclass] at hfound
    obtain ⟨place, hplace⟩ := Option.isSome_iff_exists.1 hfound.symm
    have hindex : m.items.findIdx? (·.isClass name) = some place := hplace
    rw [updateClassIn_eq, hindex]
    have hdeclares : ∀ i, m.declares name i = decide (place = i) := by
      intro i
      by_cases hi : place = i <;> simp [declares, hplace, hi]
    refine congrArg some (modify_items_eq_revise (fun item _ ↦ ?_) fun i item hi ↦ ?_)
    · rw [Revision.item, Revision.onClass]
      simp only [hdeclares, decide_true, if_true]
      exact (Item.mapInfos_eq_self (fun _ _ _ ↦ rfl) _).symm
    · rw [Revision.item, Revision.onClass]
      simp only [hdeclares, hi, decide_false, Bool.false_eq_true, if_false, item.adapt_self]
      exact Item.mapInfos_eq_self (fun _ _ _ ↦ rfl) _

end ByName

end Bindery
