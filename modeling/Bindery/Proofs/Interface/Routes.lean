import Bindery.Emit.Interface
import Bindery.Proofs.Interface.Folding
import Mathlib.Data.List.Induction
import Mathlib.Data.List.Nodup

/-!
In which order the bases of a class are listed. The list is meant to be nearest first: a base in
front of those that it derives from, so that the check meets an overriding class before the class
that it overrides, and a base is imported before the classes that derive from it. In a hierarchy
without repeated names it is. But a base counts from the first time that the walk up the hierarchy
meets it, and when it can be reached along several routes (`View.routes`), the first one need not
lead through all the classes that derive from it: a base stands in front of another one just when
some route to it, past the other, is taken before all routes to the other (`baseList_order_iff`).
-/

set_option autoImplicit false
set_option relaxedAutoImplicit false

namespace Bindery

/-! ### Which of two comes first -/

section Order

variable {α : Type} {a b : α} {l more : List α}

/-- Two elements of a part of a list without repetitions keep their order. -/
theorem pair_sublist_of_sublist (hsub : l.Sublist more) (hmore : more.Nodup) (ha : a ∈ l)
    (hb : b ∈ l) (h : [a, b].Sublist more) : [a, b].Sublist l := by
  induction hsub with
  | slnil => exact h
  | @cons l more x hsub ih =>
    obtain ⟨hx, hmore⟩ := List.nodup_cons.1 hmore
    refine ih hmore ha hb ?_
    rcases List.sublist_cons_iff.1 h with hrest | ⟨rest, heq, -⟩
    · exact hrest
    · exact (hx ((List.cons.inj heq).1 ▸ hsub.subset ha)).elim
  | @cons_cons l more x hsub ih =>
    obtain ⟨hx, hmore⟩ := List.nodup_cons.1 hmore
    have hlater {c : α} (hc : c ∈ x :: l) (hmem : c ∈ more) : c ∈ l :=
      (List.mem_cons.1 hc).resolve_left fun heq ↦ hx (heq ▸ hmem)
    rcases List.sublist_cons_iff.1 h with hrest | ⟨rest, heq, hrest⟩
    · have hmem : ∀ c ∈ [a, b], c ∈ more := fun c hc ↦ hrest.subset hc
      exact (ih hmore (hlater ha (hmem a (by simp))) (hlater hb (hmem b (by simp))) hrest).cons x
    · obtain ⟨rfl, rfl⟩ := List.cons.inj heq
      refine List.Sublist.cons_cons a (List.singleton_sublist.2 (hlater hb ?_))
      exact List.singleton_sublist.1 hrest

variable [BEq α] [LawfulBEq α]

/-- The first occurrences in a list decide which of two elements is added first. -/
theorem pair_sublist_addAllNew (hne : a ≠ b) (hb : b ∈ l) :
    [a, b].Sublist (addAllNew [] l) ↔ ∃ front rest, l = front ++ a :: rest ∧ b ∉ front := by
  have hmem {c : α} {named : List α} : c ∈ addAllNew [] named ↔ c ∈ named := by
    simp [mem_addAllNew]
  constructor
  · intro h
    obtain ⟨front, rest, rfl, hfront⟩ := List.eq_append_cons_of_mem hb
    obtain ⟨added, hadded⟩ := addAllNew_append_cons hfront rest
    have hnodup : (addAllNew [] (front ++ b :: rest)).Nodup := nodup_addAllNew List.nodup_nil _
    rw [hadded] at h hnodup
    have hlast : b ∉ added := (List.nodup_cons.1 (List.nodup_append.1 hnodup).2.1).1
    obtain ⟨first, second, hsplit, hfirst, hsecond⟩ := List.sublist_append_iff.1 h
    have ha : a ∈ front := by
      cases first with
      | nil =>
        rw [List.nil_append] at hsplit
        rcases List.sublist_cons_iff.1 (hsplit ▸ hsecond) with hlater | ⟨_, heq, -⟩
        · exact (hlast (hlater.subset (by simp))).elim
        · exact (hne (List.cons.inj heq).1).elim
      | cons c first =>
        obtain ⟨rfl, -⟩ := List.cons.inj hsplit
        exact hmem.1 (hfirst.subset List.mem_cons_self)
    obtain ⟨before, between, rfl⟩ := List.append_of_mem ha
    exact ⟨before, between ++ b :: rest, by simp, fun h ↦ hfront (List.mem_append_left _ h)⟩
  · rintro ⟨front, rest, rfl, hfront⟩
    obtain ⟨before, between, hsplit, hbefore⟩ :=
      List.eq_append_cons_of_mem (List.mem_concat_self : a ∈ front ++ [a])
    have hl : front ++ a :: rest = before ++ a :: (between ++ rest) := by
      rw [List.append_cons, hsplit, List.append_assoc, List.cons_append]
    have hnot : b ∉ before := by
      intro h
      have hmember : b ∈ front ++ [a] := hsplit ▸ List.mem_append_left _ h
      exact (List.mem_append.1 hmember).elim hfront fun h ↦ hne (List.mem_singleton.1 h).symm
    obtain ⟨added, hadded⟩ := addAllNew_append_cons hbefore (between ++ rest)
    rw [← hmem, hl, hadded, List.mem_append, List.mem_cons, hmem] at hb
    have hadd : b ∈ added := (hb.resolve_left hnot).resolve_left fun h ↦ hne h.symm
    rw [hl, hadded]
    exact ((List.singleton_sublist.2 hadd).cons_cons a).trans (List.sublist_append_right _ _)

/-- Nothing is left out of a list without repetitions. -/
theorem addAllNew_of_nodup (h : l.Nodup) : addAllNew [] l = l := by
  induction l using List.reverseRecOn with
  | nil => rfl
  | append_singleton l x ih =>
    obtain ⟨hl, -, hdisjoint⟩ := List.nodup_append.1 h
    have hx : x ∉ l := fun hmem ↦ hdisjoint x hmem x (List.mem_singleton_self x) rfl
    have hconcat : addAllNew [] (l ++ [x]) = addNew (addAllNew [] l) x := List.foldl_append
    rw [hconcat, ih hl, addNew, if_neg (by simpa using hx)]

end Order

/-! ### Hierarchies -/

mutual

/-- The bases in a hierarchy, each in front of those that it derives from. -/
def Base.nodes : Base → List Base
  | ⟨name, bases⟩ => ⟨name, bases⟩ :: Base.nodesOf bases

def Base.nodesOf : List Base → List Base
  | [] => []
  | base :: bases => base.nodes ++ Base.nodesOf bases

end

/-- The names in a hierarchy. -/
def Base.namesOf (bases : List Base) : List String := (Base.nodesOf bases).map Base.name

/-- In a hierarchy, a base of the one name derives from a base of the other name. -/
def Base.Derives (bases : List Base) (derived ancestor : String) : Prop :=
  ∃ base ∈ Base.nodesOf bases, base.name = derived ∧ ancestor ∈ Base.namesOf base.bases

/-- Bases of one name derive from the same bases. -/
def Base.Coherent (bases : List Base) : Prop :=
  ∀ base ∈ Base.nodesOf bases, ∀ other ∈ Base.nodesOf bases,
    base.name = other.name → base.bases = other.bases

mutual

/-- The routes up a hierarchy from a class that folds some bases, in the order in which they are
taken. A route leads from base to base, passing over those that are folded and stopping at those
that are ignored, and holds the names on the way. -/
def Base.routes (policy : Policy) (folded : List String) : Base → List (List String)
  | ⟨name, bases⟩ =>
    let beyond := Base.routesOf policy (policy.foldedBasesOf name) (policy.ignoredBasesOf name) bases
    if folded.contains name then beyond else [name] :: beyond.map (name :: ·)

def Base.routesOf (policy : Policy) (folded ignored : List String) :
    List Base → List (List String)
  | [] => []
  | base :: bases =>
    (if ignored.contains base.name then [] else Base.routes policy folded base) ++
      Base.routesOf policy folded ignored bases

end

/-- The routes from a class to its bases. -/
def View.routes (view : View) (c : Class) : List (List String) :=
  Base.routesOf view.policy (view.policy.foldedBasesOf c.name) (view.policy.ignoredBasesOf c.name)
    c.bases

/-! ### Where routes lead -/

theorem getLast?_cons_of_some {route : List String} {target : String} (name : String)
    (h : route.getLast? = some target) : (name :: route).getLast? = some target := by
  rw [List.getLast?_cons, h]
  rfl

mutual

/-- The routes lead to the ancestors, one after another. -/
theorem Base.getLast?_routes (policy : Policy) (folded : List String) (base : Base) :
    (base.routes policy folded).map List.getLast? = (base.ancestors policy folded).map some := by
  obtain ⟨name, bases⟩ := base
  have hbeyond := Base.getLast?_routesOf policy (policy.foldedBasesOf name)
    (policy.ignoredBasesOf name) bases
  rw [Base.routes, Base.ancestors]
  split
  · exact hbeyond
  · rw [List.singleton_append, List.map_cons, List.map_cons, ← hbeyond, List.map_map]
    refine congrArg _ (List.map_congr_left fun route hroute ↦ ?_)
    have hlast : route.getLast? ∈ (Base.ancestorsOf policy (policy.foldedBasesOf name)
        (policy.ignoredBasesOf name) bases).map some := hbeyond ▸ List.mem_map_of_mem hroute
    obtain ⟨target, -, htarget⟩ := List.mem_map.1 hlast
    exact (getLast?_cons_of_some name htarget.symm).trans htarget

theorem Base.getLast?_routesOf (policy : Policy) (folded ignored : List String)
    (bases : List Base) : (Base.routesOf policy folded ignored bases).map List.getLast? =
      (Base.ancestorsOf policy folded ignored bases).map some := by
  cases bases with
  | nil => rfl
  | cons base bases =>
    rw [Base.routesOf, Base.ancestorsOf, List.map_append, List.map_append,
      Base.getLast?_routesOf policy folded ignored bases]
    split
    · rfl
    · rw [Base.getLast?_routes policy folded base]

end

/-- Whatever a route passes is reached by an earlier route. -/
def PassesKnown (routes : List (List String)) : Prop :=
  ∀ front route rest, routes = front ++ route :: rest → ∀ name ∈ route,
    route.getLast? ≠ some name → ∃ earlier ∈ front, earlier.getLast? = some name

theorem PassesKnown.append {routes more : List (List String)} (h : PassesKnown routes)
    (hmore : PassesKnown more) : PassesKnown (routes ++ more) := by
  intro front route rest hsplit name hname hlast
  rcases List.append_eq_append_iff.1 hsplit with ⟨before, rfl, hsecond⟩ | ⟨after, hfirst, hsecond⟩
  · obtain ⟨earlier, hearlier, htarget⟩ := hmore before route rest hsecond name hname hlast
    exact ⟨earlier, List.mem_append_right _ hearlier, htarget⟩
  · cases after with
    | nil =>
      rw [List.append_nil] at hfirst
      obtain ⟨earlier, hearlier, -⟩ := hmore [] route rest hsecond.symm name hname hlast
      exact (List.not_mem_nil hearlier).elim
    | cons found after =>
      obtain ⟨rfl, -⟩ := List.cons.inj hsecond
      exact h front route after hfirst name hname hlast

theorem PassesKnown.through {routes : List (List String)} (h : PassesKnown routes)
    (name : String) : PassesKnown ([name] :: routes.map (name :: ·)) := by
  intro front route rest hsplit passed hpassed hlast
  cases front with
  | nil =>
    obtain ⟨rfl, -⟩ := List.cons.inj hsplit
    exact (hlast (congrArg some (List.mem_singleton.1 hpassed).symm)).elim
  | cons first front =>
    obtain ⟨rfl, hbeyond⟩ := List.cons.inj hsplit
    obtain ⟨before, after, hroutes, rfl, hafter⟩ := List.map_eq_append_iff.1 hbeyond
    obtain ⟨beyond, after, rfl, rfl, -⟩ := List.map_eq_cons_iff.1 hafter
    rcases List.mem_cons.1 hpassed with rfl | hbeyond
    · exact ⟨[passed], List.mem_cons_self, rfl⟩
    · have hlater : beyond.getLast? ≠ some passed := fun h ↦ hlast (getLast?_cons_of_some name h)
      obtain ⟨earlier, hearlier, htarget⟩ := h before beyond after hroutes passed hbeyond hlater
      exact ⟨name :: earlier, List.mem_cons_of_mem _ (List.mem_map_of_mem hearlier),
        getLast?_cons_of_some name htarget⟩

mutual

theorem Base.passesKnown_routes (policy : Policy) (folded : List String) (base : Base) :
    PassesKnown (base.routes policy folded) := by
  obtain ⟨name, bases⟩ := base
  have hbeyond := Base.passesKnown_routesOf policy (policy.foldedBasesOf name)
    (policy.ignoredBasesOf name) bases
  rw [Base.routes]
  split
  · exact hbeyond
  · exact hbeyond.through name

theorem Base.passesKnown_routesOf (policy : Policy) (folded ignored : List String)
    (bases : List Base) : PassesKnown (Base.routesOf policy folded ignored bases) := by
  cases bases with
  | nil =>
    intro front route rest hsplit
    simp [Base.routesOf] at hsplit
  | cons base bases =>
    rw [Base.routesOf]
    refine PassesKnown.append ?_ (Base.passesKnown_routesOf policy folded ignored bases)
    split
    · intro front route rest hsplit
      simp at hsplit
    · exact Base.passesKnown_routes policy folded base

end

/-! ### Hierarchies without repeated names -/

mutual

theorem Base.ancestors_sublist (policy : Policy) (folded : List String) (base : Base) :
    (base.ancestors policy folded).Sublist (base.nodes.map Base.name) := by
  obtain ⟨name, bases⟩ := base
  have hbeyond := Base.ancestorsOf_sublist policy (policy.foldedBasesOf name)
    (policy.ignoredBasesOf name) bases
  rw [Base.ancestors, Base.nodes, List.map_cons]
  split
  · exact hbeyond.cons name
  · exact hbeyond.cons_cons name

theorem Base.ancestorsOf_sublist (policy : Policy) (folded ignored : List String)
    (bases : List Base) :
    (Base.ancestorsOf policy folded ignored bases).Sublist (Base.namesOf bases) := by
  cases bases with
  | nil => exact .slnil
  | cons base bases =>
    rw [Base.ancestorsOf, Base.namesOf, Base.nodesOf, List.map_append]
    refine List.Sublist.append ?_ (Base.ancestorsOf_sublist policy folded ignored bases)
    split
    · exact List.nil_sublist _
    · exact Base.ancestors_sublist policy folded base

end

mutual

theorem Base.nodes_sublist {base : Base} : (top : Base) → base ∈ top.nodes →
    base.nodes.Sublist top.nodes
  | ⟨name, bases⟩, h => by
    rw [Base.nodes] at h
    rcases List.mem_cons.1 h with rfl | hbelow
    · exact List.Sublist.refl _
    · rw [Base.nodes]
      exact (Base.nodes_sublist_nodesOf bases hbelow).cons _

theorem Base.nodes_sublist_nodesOf {base : Base} : (bases : List Base) →
    base ∈ Base.nodesOf bases → base.nodes.Sublist (Base.nodesOf bases)
  | [], h => by
    rw [Base.nodesOf] at h
    cases h
  | top :: bases, h => by
    rw [Base.nodesOf] at h ⊢
    rcases List.mem_append.1 h with hfirst | hrest
    · exact (Base.nodes_sublist top hfirst).trans (List.sublist_append_left _ _)
    · exact (Base.nodes_sublist_nodesOf bases hrest).trans (List.sublist_append_right _ _)

end

/-- A base stands in front of what it derives from. -/
theorem Base.Derives.pair_sublist {bases : List Base} {derived ancestor : String}
    (h : Base.Derives bases derived ancestor) :
    [derived, ancestor].Sublist (Base.namesOf bases) := by
  obtain ⟨⟨name, beneath⟩, hbase, rfl, hancestor⟩ := h
  have hnodes := (Base.nodes_sublist_nodesOf bases hbase).map Base.name
  rw [Base.nodes, List.map_cons] at hnodes
  exact ((List.singleton_sublist.2 hancestor).cons_cons name).trans hnodes

namespace View

variable {view : View} {c : Class} {derived ancestor : String}

theorem mem_baseList : ancestor ∈ view.baseList c ↔
    ancestor ∈ Base.ancestorsOf view.policy (view.policy.foldedBasesOf c.name)
      (view.policy.ignoredBasesOf c.name) c.bases := by
  rw [baseList, mem_addAllNew]
  simp

/-- In a hierarchy without repeated names, no base is listed in front of one that derives from
it. -/
theorem baseList_of_nodup (hnames : (Base.namesOf c.bases).Nodup)
    (hderives : Base.Derives c.bases derived ancestor) (hderived : derived ∈ view.baseList c)
    (hancestor : ancestor ∈ view.baseList c) :
    [derived, ancestor].Sublist (view.baseList c) := by
  have hwalk := Base.ancestorsOf_sublist view.policy (view.policy.foldedBasesOf c.name)
    (view.policy.ignoredBasesOf c.name) c.bases
  rw [mem_baseList] at hderived hancestor
  rw [baseList, addAllNew_of_nodup (hwalk.nodup hnames)]
  exact pair_sublist_of_sublist hwalk hnames hderived hancestor hderives.pair_sublist

/-- The first of two bases is the one that the first route leads to. -/
theorem pair_sublist_baseList (hderived : derived ∈ view.baseList c) (hne : ancestor ≠ derived) :
    [ancestor, derived].Sublist (view.baseList c) ↔
      ∃ front route rest, view.routes c = front ++ route :: rest ∧
        route.getLast? = some ancestor ∧ ∀ other ∈ front, other.getLast? ≠ some derived := by
  have hroutes := Base.getLast?_routesOf view.policy (view.policy.foldedBasesOf c.name)
    (view.policy.ignoredBasesOf c.name) c.bases
  rw [baseList, pair_sublist_addAllNew hne (mem_baseList.1 hderived)]
  constructor
  · rintro ⟨front, rest, hsplit, hfront⟩
    rw [hsplit, List.map_append, List.map_cons] at hroutes
    obtain ⟨before, after, hbefore, htargets, hafter⟩ := List.map_eq_append_iff.1 hroutes
    obtain ⟨route, after, rfl, htarget, -⟩ := List.map_eq_cons_iff.1 hafter
    refine ⟨before, route, after, hbefore, htarget, fun other hother hlast ↦ hfront ?_⟩
    have hmem : some derived ∈ front.map some := htargets ▸ hlast ▸ List.mem_map_of_mem hother
    obtain ⟨_, hname, heq⟩ := List.mem_map.1 hmem
    exact Option.some.inj heq ▸ hname
  · rintro ⟨front, route, rest, hsplit, htarget, hfront⟩
    rw [← View.routes, hsplit, List.map_append, List.map_cons] at hroutes
    obtain ⟨before, after, hbefore, htargets, hafter⟩ := List.map_eq_append_iff.1 hroutes.symm
    obtain ⟨name, after, rfl, hname, -⟩ := List.map_eq_cons_iff.1 hafter
    obtain rfl := Option.some.inj (hname.trans htarget)
    refine ⟨before, after, hbefore, fun hmem ↦ ?_⟩
    have hlast : some derived ∈ front.map List.getLast? := htargets ▸ List.mem_map_of_mem hmem
    obtain ⟨other, hother, heq⟩ := List.mem_map.1 hlast
    exact hfront other hother heq

/-- Of two bases of a class, one is listed in front of the other just when some route to it, past
the other, is taken before all routes to the other. When other modules declare them both, they are
imported the other way round. In a hierarchy without repeated names, no base is listed in front of
one that derives from it. -/
theorem baseList_order_iff (hderived : derived ∈ view.baseList c)
    (hancestor : ancestor ∈ view.baseList c) (hne : ancestor ≠ derived) :
    ([ancestor, derived].Sublist (view.baseList c) ↔
      ∃ front route rest, view.routes c = front ++ route :: rest ∧
        route.getLast? = some ancestor ∧ derived ∉ route ∧
        ∀ other ∈ front, other.getLast? ≠ some derived) ∧
    (view.module.findClass? ancestor = none → view.module.findClass? derived = none →
      ([derived, ancestor].Sublist (Emit.foreignBases view c) ↔
        [ancestor, derived].Sublist (view.baseList c))) ∧
    ((Base.namesOf c.bases).Nodup → Base.Derives c.bases derived ancestor →
      [derived, ancestor].Sublist (view.baseList c)) := by
  refine ⟨?_, fun hforeignAncestor hforeignDerived ↦ ?_, fun hnames hderives ↦
    baseList_of_nodup hnames hderives hderived hancestor⟩
  · rw [pair_sublist_baseList hderived hne]
    constructor
    · rintro ⟨front, route, rest, hsplit, htarget, hfront⟩
      refine ⟨front, route, rest, hsplit, htarget, fun hpassed ↦ ?_, hfront⟩
      -- A route past the derived base would have an earlier route to it in front.
      have hlast : route.getLast? ≠ some derived := by
        rw [htarget]
        exact fun h ↦ hne (Option.some.inj h)
      obtain ⟨earlier, hearlier, hknown⟩ :=
        Base.passesKnown_routesOf _ _ _ _ front route rest hsplit derived hpassed hlast
      exact hfront earlier hearlier hknown
    · rintro ⟨front, route, rest, hsplit, htarget, -, hfront⟩
      exact ⟨front, route, rest, hsplit, htarget, hfront⟩
  · have hreverse : [derived, ancestor].Sublist (view.baseList c).reverse ↔
        [ancestor, derived].Sublist (view.baseList c) := by
      rw [← List.reverse_sublist]
      simp
    rw [← hreverse, Emit.foreignBases]
    constructor
    · exact fun h ↦ h.trans List.filter_sublist
    · intro h
      have hpair := h.filter fun base ↦ (view.module.findClass? base).isNone
      simpa [hforeignAncestor, hforeignDerived] using hpair

end View

namespace Rounds

/-- A ring is a circle and a disc, which are both shapes. -/
def ring : Class where
  info := { name := "Ring" }
  bases := [⟨"Circle", [⟨"Shape", []⟩]⟩, ⟨"Disc", [⟨"Shape", []⟩]⟩]

/-- An arc is a curve of the module, which it folds, and further up a shape. -/
def arc : Class where
  info := { name := "Arc" }
  bases := [⟨"Curve", [⟨"Line", [⟨"Shape", []⟩]⟩]⟩]

def rounds : View where
  policy := { Policy.empty "Rounds" "Drawing" with
    foldedBases := [("Arc", ["Curve"])], overrideBases := [("Ring", "Disc")] }
  module := { name := "Rounds", items := [.ofClass ring, .ofClass arc] }

end Rounds

open Rounds in
/-- The first route to the shape leads past the disc, so that the shape is imported behind it. Of an
arc, the line is listed in front of the shape. -/
theorem rounds_order :
    (["Shape", "Disc"].Sublist (rounds.baseList ring) ∧
      ["Disc", "Shape"].Sublist (Emit.foreignBases rounds ring)) ∧
    ["Line", "Shape"].Sublist (rounds.baseList arc) := by
  have hring := View.baseList_order_iff (show "Disc" ∈ rounds.baseList ring by decide +kernel)
    (show "Shape" ∈ rounds.baseList ring by decide +kernel) (by decide)
  have harc := View.baseList_order_iff (show "Line" ∈ rounds.baseList arc by decide +kernel)
    (show "Shape" ∈ rounds.baseList arc by decide +kernel) (by decide)
  have hlisted : ["Shape", "Disc"].Sublist (rounds.baseList ring) :=
    hring.1.2 ⟨[["Circle"]], ["Circle", "Shape"], [["Disc"], ["Disc", "Shape"]],
      by decide +kernel, rfl, by decide, by decide⟩
  refine ⟨⟨hlisted, (hring.2.1 rfl rfl).2 hlisted⟩, harc.2.2 (by decide +kernel) ?_⟩
  exact ⟨⟨"Line", [⟨"Shape", []⟩]⟩, by simp [Base.nodesOf, Base.nodes, arc], rfl, by decide +kernel⟩

open Rounds in
/-- A ring lists the shape in front of the disc, which derives from it, though the shape of the
circle and that of the disc are the same. The disc is imported first. -/
theorem ring_lists_shape_before_disc :
    Base.Coherent ring.bases ∧ Base.Derives ring.bases "Disc" "Shape" ∧
      rounds.baseList ring = ["Circle", "Shape", "Disc"] ∧
      Emit.foreignBases rounds ring = ["Disc", "Shape", "Circle"] := by
  refine ⟨?_, ⟨⟨"Disc", [⟨"Shape", []⟩]⟩, by simp [Base.nodesOf, Base.nodes, ring], rfl, ?_⟩, ?_, ?_⟩
  · simp [Base.Coherent, Base.nodesOf, Base.nodes, ring]
  all_goals decide +kernel

end Bindery
