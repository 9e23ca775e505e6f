import Bindery.Proofs.Decl.Changes

/-!
Updates by address. An address is resolved to a location, a place and the way to it, and what stands
there is read on one walk and changed on another. Both walks end at the same declaration, which for
a method is the first overload that the argument types select (`Query.Finds`), so that an update
changes the attributes of what is found, and of nothing else, whatever it makes of them: names too
may change. Only a method that is named without argument types is updated with all its overloads
(`Module.update?_frame`).
-/

set_option autoImplicit false
set_option relaxedAutoImplicit false

namespace Bindery

/-! ### The attributes of all declarations -/

/-- Changes the attributes of every declaration of a module, by its location. Nothing but attributes
changes. -/
def Module.mapInfos (m : Module) (change : Location → Info → Info) : Module :=
  { m with items := m.items.mapIdx fun i item ↦ item.mapInfos fun way overload ↦
      change { item := i, way, overload } }

section MapInfos

variable {m : Module} {f : Info → Info} {extent : Extent} {place : Location} {item : Item}
  {found : Target}

theorem Module.infoAt?_mapInfos (m : Module) (change : Location → Info → Info) (d : Location) :
    (m.mapInfos change).infoAt? d = (m.infoAt? d).map (change d) := by
  rw [infoAt?, infoAt?, mapInfos, List.getElem?_mapIdx]
  cases m.items[d.item]? with
  | none => rfl
  | some item =>
    rw [Option.map_some, Option.bind_some, Option.bind_some, Item.target_mapInfos,
      Target.infoAt?_follow?_mapInfos]

/-- A change at a location is made to what stands there, and to nothing else. -/
theorem Module.mapInfoAt_eq {change : Location → Info → Info} {reach : Option Nat → Bool}
    (hitem : m.items[place.item]? = some item)
    (hway : item.target.follow? place.way = some found) (hfits : found.Fits extent reach)
    (hchange : ∀ d info, change d info =
      if (d.item = place.item ∧ d.way = place.way) ∧ reach d.overload = true then f info
      else info) :
    m.mapInfoAt place extent f = m.mapInfos change := by
  rw [mapInfoAt, mapInfos]
  refine congrArg (Module.mk m.name m.itemNames) (List.ext_getElem? fun i ↦ ?_)
  rw [List.getElem?_modify, List.getElem?_mapIdx]
  cases hother : m.items[i]? with
  | none => rfl
  | some other =>
    by_cases hi : place.item = i
    · subst hi
      cases hitem.symm.trans hother
      refine congrArg some ((if_pos rfl).trans ((Item.mapInfo_eq hway hfits).trans ?_))
      refine congrArg (item.mapInfos ·) ?_
      funext way overload info
      rw [hchange, changeAt]
      simp only [true_and, eq_comm]
    · refine congrArg some ((if_neg hi).trans (Item.mapInfos_eq_self (fun way overload info ↦ ?_)
        other).symm)
      rw [hchange]
      exact if_neg fun h ↦ hi h.1.1.symm

end MapInfos

/-! ### What an address leads to -/

namespace Target

def isMethod (found : Target) : Bool := found.method?.isSome

/-- The number of the overload that is designated at the end of a way. A method of which none is
selected stands for its first overload, and nothing else has overloads. -/
def designated (selected : Option Nat) : Target → Option Nat
  | .method _ => some (selected.getD 0)
  | _ => none

end Target

/-- Whether an address finds something where its way leads. Of a method it is the first overload
that its argument types select, which is the first of all where none are given. -/
def Query.Finds (query : Query) (selected : Option Nat) (whole found : Target) : Prop :=
  match whole with
  | .method chain => ∃ shown, found = .method shown ∧
      chain.all.findIdx? query.selects = some (selected.getD 0) ∧
      chain.all[selected.getD 0]? = some shown.first
  | _ => found = whole

section AtAddress

variable {m : Module} {name : String} {place : Location} {item : Item} {whole found : Target}

/-- An address leads to a declaration. Of a method, the first overload is selected that the argument
types select, if any are given. -/
theorem Module.exists_of_locate? (h : m.locate? name = some place) :
    ∃ item whole, m.items[place.item]? = some item ∧ item.target.follow? place.way = some whole ∧
      ∀ chain, whole = .method chain →
        chain.all.findIdx? (Query.parse name).selects = some (place.overload.getD 0) ∧
          (place.overload = none ↔ (Query.parse name).args = none) := by
  rw [locate?, resolve?] at h
  obtain ⟨⟨i, way, whole⟩, hpath, hend⟩ := Option.bind_eq_some_iff.1 h
  obtain ⟨item, hitem, hway⟩ := follow?_of_locatePath? hpath
  refine ⟨item, whole, ?_⟩
  cases hargs : (Query.parse name).args with
  | none =>
    simp only [hargs] at hend
    cases hend
    refine ⟨hitem, hway, fun chain _ ↦ ⟨?_, iff_of_true rfl rfl⟩⟩
    rw [Overloads.all, List.findIdx?_cons, Query.selects, hargs]
    rfl
  | some args =>
    simp only [hargs] at hend
    cases whole with
    | method chain =>
      obtain ⟨index, hindex, hplace⟩ := Option.bind_eq_some_iff.1 hend
      cases hplace
      refine ⟨hitem, hway, fun own hown ↦ ?_⟩
      cases hown
      exact ⟨hindex, iff_of_false (Option.some_ne_none index) (Option.some_ne_none args)⟩
    | value v =>
      simp only at hend
      split at hend
      · cases hend
        exact ⟨hitem, hway, fun _ hmethod ↦ Target.noConfusion hmethod⟩
      · cases hend
    | _ => cases hend

/-- What is selected can be read. -/
theorem Module.exists_get? {query : Query} (hitem : m.items[place.item]? = some item)
    (hway : item.target.follow? place.way = some whole)
    (hselects : ∀ chain, whole = .method chain →
      chain.all.findIdx? query.selects = some (place.overload.getD 0)) :
    ∃ found, m.get? place = some found ∧ query.Finds place.overload whole found := by
  obtain ⟨i, way, selected⟩ := place
  simp only [get?, hitem, hway, Option.bind_eq_bind, Option.bind_some]
  cases whole with
  | method chain =>
    have hindex := hselects chain rfl
    obtain ⟨hlength, -⟩ := List.findIdx?_eq_some_iff_getElem.1 hindex
    cases selected with
    | none => exact ⟨_, rfl, chain, rfl, hindex, rfl⟩
    | some index =>
      cases index with
      | zero => exact ⟨_, rfl, chain, rfl, hindex, rfl⟩
      | succ n =>
        have hrest : n < chain.rest.length := Nat.lt_of_succ_lt_succ hlength
        have hn := List.getElem?_eq_getElem hrest
        exact ⟨.method ⟨chain.rest[n], []⟩, congrArg (Option.map _) hn, _, rfl, hindex, hn⟩
  | _ => exact ⟨_, rfl, rfl⟩

/-- What is found has the attributes of the designated declaration. -/
theorem Module.infoAt?_designated (hitem : m.items[place.item]? = some item)
    (hway : item.target.follow? place.way = some whole) {query : Query}
    (hfinds : query.Finds place.overload whole found) :
    m.infoAt? { place with overload := found.designated place.overload } = some found.info := by
  rw [infoAt?, hitem, Option.bind_some, hway, Option.bind_some]
  cases whole with
  | method chain =>
    obtain ⟨shown, rfl, -, hshown⟩ := hfinds
    rw [Target.designated, Target.infoAt?, Option.bind_some, hshown]
    rfl
  | _ =>
    cases hfinds
    rfl

/-- A change of one overload is made to the designated declaration. -/
theorem Query.Finds.fits_designated {query : Query} {selected : Option Nat}
    (h : query.Finds selected whole found) :
    whole.Fits (.overload (selected.getD 0)) fun overload ↦
      decide (overload = found.designated selected) := by
  cases whole with
  | method chain =>
    obtain ⟨shown, rfl, -⟩ := h
    intro i
    simp only [Target.designated, Option.some.injEq, eq_comm]
  | _ =>
    cases h
    exact decide_eq_true rfl

/-- An update is made to the designated declaration or, if none is selected, to all overloads. -/
theorem Query.Finds.fits_update {query : Query} (selected : Option Nat) (isWhole : Bool) :
    query.Finds selected whole found →
    (∀ chain, whole = .method chain → (selected = none ↔ isWhole = true)) →
      whole.Fits (match selected with
        | none => .wholeChain
        | some index => .overload index) fun overload ↦
          decide (overload = found.designated selected) || (isWhole && found.isMethod) := by
  intro h hselected
  cases whole with
  | method chain =>
    obtain ⟨shown, rfl, -⟩ := h
    have hwhole := hselected chain rfl
    cases selected with
    | none => exact fun i ↦ by simp [hwhole.1 rfl, Target.isMethod, Target.method?]
    | some index =>
      have hpart : isWhole = false := by simpa using hwhole
      exact fun i ↦ by simp [hpart, Target.designated, eq_comm]
  | _ =>
    cases h
    exact Bool.or_eq_true_iff.2 (.inl (decide_eq_true rfl))

/-- Whether an update at an address changes a declaration: the designated one, or an overload of the
method that is found when no argument types are given. -/
def Query.Updates (query : Query) (found : Target) (designated d : Location) : Prop :=
  d = designated ∨
    (query.args = none ∧ found.isMethod = true ∧ d.item = designated.item ∧ d.way = designated.way)

instance (query : Query) (found : Target) (designated d : Location) :
    Decidable (query.Updates found designated d) := inferInstanceAs (Decidable (_ ∨ _))

/-- When an address leads nowhere, nothing is found, and nothing can be changed. Otherwise its
location can be read, and a change is made to the attributes of what is found there and of nothing
else. An update is made to all overloads of a method that is named without argument types. -/
theorem Module.update?_frame (m : Module) (name : String) (f : Info → Info) :
    match m.locate? name with
    | none => m.find? name = none ∧ m.modify? name f = none ∧ m.update? name f = none
    | some place => ∃ item whole found designated changed updated,
        m.items[place.item]? = some item ∧ item.target.follow? place.way = some whole ∧
        (Query.parse name).Finds place.overload whole found ∧
        designated = { place with overload := found.designated place.overload } ∧
        m.get? place = some found ∧ m.find? name = some found ∧
        m.infoAt? designated = some found.info ∧
        m.modify? name f = some changed ∧
        changed = m.mapInfos (fun d info ↦ if d = designated then f info else info) ∧
        m.update? name f = some updated ∧
        updated = m.mapInfos (fun d info ↦
          if (Query.parse name).Updates found designated d then f info else info) ∧
        ∀ d, updated.infoAt? d =
          if (Query.parse name).Updates found designated d then (m.infoAt? d).map f
          else m.infoAt? d := by
  cases hplace : m.locate? name with
  | none => simp [find?, modify?, update?, hplace]
  | some place =>
    obtain ⟨item, whole, hitem, hway, hmethod⟩ := exists_of_locate? hplace
    obtain ⟨found, hfound, hfinds⟩ := exists_get? hitem hway fun chain h ↦ (hmethod chain h).1
    refine ⟨item, whole, found, _, _, _, hitem, hway, hfinds, rfl, hfound,
      by rw [find?, hplace, Option.bind_some, hfound], infoAt?_designated hitem hway hfinds,
      ?_, rfl, ?_, rfl, fun d ↦ ?_⟩
    · rw [modify?, hplace]
      refine congrArg some (mapInfoAt_eq hitem hway hfinds.fits_designated ?_)
      intro d info
      obtain ⟨i, way, overload⟩ := d
      simp only [Location.mk.injEq, and_assoc, decide_eq_true_eq]
    · rw [update?, hplace]
      have hfits := Query.Finds.fits_update place.overload (Query.parse name).args.isNone hfinds
        fun chain h ↦ (hmethod chain h).2.trans Option.isNone_iff_eq_none.symm
      refine congrArg some (mapInfoAt_eq hitem hway hfits fun d info ↦ ?_)
      refine ite_congr (propext ?_) (fun _ ↦ rfl) fun _ ↦ rfl
      obtain ⟨i, way, overload⟩ := d
      simp only [Query.Updates, Location.mk.injEq, Bool.or_eq_true, Bool.and_eq_true,
        decide_eq_true_eq, Option.isNone_iff_eq_none]
      constructor
      · rintro (⟨hi, hway, hoverload⟩ | ⟨hargs, hmethod, hi, hway⟩)
        · exact ⟨⟨hi, hway⟩, .inl hoverload⟩
        · exact ⟨⟨hi, hway⟩, .inr ⟨hargs, hmethod⟩⟩
      · rintro ⟨⟨hi, hway⟩, hoverload | ⟨hargs, hmethod⟩⟩
        · exact .inl ⟨hi, hway, hoverload⟩
        · exact .inr ⟨hargs, hmethod, hi, hway⟩
    · rw [infoAt?_mapInfos]
      split
      · rfl
      · rw [Option.map_id']

end AtAddress

/-! A crank that turns once or by steps. -/

namespace Cranks

def turn : Method := (Method.named "turn").inClass "Crank"

def turnBySteps : Method := { turn with params := [{ type := "int", name := "steps" }] }

def cranks : Module where
  name := "Cranks"
  items := [.ofClass { info := { name := "Crank" }, members := [.method ⟨turn, [turnBySteps]⟩] }]

def ignore (info : Info) : Info := { info with ignored := true }

end Cranks

open Cranks in
/-- Of two overloads with the same attributes, only the one that is named is updated, and both are
when no argument types are given. -/
theorem crank_overload_updated : turn.info = turnBySteps.info ∧
    (∃ updated, cranks.update? "Crank::turn(int)" ignore = some updated ∧
      ∀ d, updated.infoAt? d =
        if d = { item := 0, way := .member 0 .here, overload := some 1 } then
          (cranks.infoAt? d).map ignore
        else cranks.infoAt? d) ∧
    ∃ updated, cranks.update? "Crank::turn" ignore = some updated ∧
      ∀ d, updated.infoAt? d =
        if d.item = 0 ∧ d.way = .member 0 .here then (cranks.infoAt? d).map ignore
        else cranks.infoAt? d := by
  refine ⟨rfl, ?_, ?_⟩
  · have hplace : cranks.locate? "Crank::turn(int)" =
        some { item := 0, way := .member 0 .here, overload := some 1 } := by decide +kernel
    have hargs : (Query.parse "Crank::turn(int)").args ≠ none := by decide +kernel
    have hframe := Module.update?_frame cranks "Crank::turn(int)" ignore
    rw [hplace] at hframe
    obtain ⟨-, -, found, -, -, updated, -, -, -, rfl, hfound, -, -, -, -, hupdate, -, hinfo⟩ :=
      hframe
    cases hfound
    refine ⟨updated, hupdate, fun d ↦ (hinfo d).trans ?_⟩
    exact ite_congr (propext (or_iff_left fun h ↦ hargs h.1)) (fun _ ↦ rfl) fun _ ↦ rfl
  · have hplace : cranks.locate? "Crank::turn" = some { item := 0, way := .member 0 .here } := by
      decide +kernel
    have hargs : (Query.parse "Crank::turn").args = none := by decide +kernel
    have hframe := Module.update?_frame cranks "Crank::turn" ignore
    rw [hplace] at hframe
    obtain ⟨-, -, found, -, -, updated, -, -, -, rfl, hfound, -, -, -, -, hupdate, -, hinfo⟩ :=
      hframe
    cases hfound
    refine ⟨updated, hupdate, fun d ↦ (hinfo d).trans ?_⟩
    refine ite_congr (propext ?_) (fun _ ↦ rfl) fun _ ↦ rfl
    constructor
    · rintro (rfl | ⟨-, -, hitem, hway⟩)
      · exact ⟨rfl, rfl⟩
      · exact ⟨hitem, hway⟩
    · exact fun h ↦ .inr ⟨hargs, rfl, h⟩

end Bindery
