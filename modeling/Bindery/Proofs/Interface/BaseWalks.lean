import Bindery.Proofs.Interface.Routes
import Mathlib.Logic.Relation

/-!
The two walks up the hierarchy of a class. The walk to the base class goes up as long as one base is
left at each level and this one is folded (`Base.PassesOver`); the walk through all bases goes up to
every base that is not ignored for the one below it (`Base.Climbs`). The first walk fails just when
it comes to a level with several bases, and what it finds is the first thing that the second one
lists. The second one lists just the names that it climbs to and that the base below does not fold
(`View.baseClass_eq_head_baseList`).
-/

set_option autoImplicit false
set_option relaxedAutoImplicit false

namespace Bindery

open Relation (ReflTransGen)

namespace Base

/-! ### Levels of a hierarchy -/

/-- The bases that are not ignored for what they are the bases of. -/
def regarded (policy : Policy) (below : Base) : List Base :=
  below.bases.filter fun above ↦ !(policy.ignoredBasesOf below.name).contains above.name

/-- Whether a base is one of those that are not ignored. -/
def Climbs (policy : Policy) (below above : Base) : Prop := above ∈ below.regarded policy

/-- Whether a base is the only one that is not ignored, and folded. -/
def PassesOver (policy : Policy) (below above : Base) : Prop :=
  below.regarded policy = [above] ∧ above.name ∈ policy.foldedBasesOf below.name

/-- The names above a base that are neither folded nor ignored, in the order of the walk. -/
def above (policy : Policy) (below : Base) : List String :=
  ancestorsOf policy (policy.foldedBasesOf below.name) (policy.ignoredBasesOf below.name)
    below.bases

variable {policy : Policy} {className : String} {below last : Base}

/-- A hierarchy is finite: what follows for a base from the bases above it holds of every base. -/
theorem induction_above {P : Base → Prop} (h : ∀ below, (∀ above ∈ below.bases, P above) → P below)
    (below : Base) : P below := by
  refine h below fun above habove ↦ ?_
  have hlt : sizeOf above < sizeOf below := by
    obtain ⟨name, bases⟩ := below
    exact Nat.lt_of_lt_of_le (List.sizeOf_lt_of_mem habove) (by simp)
  exact induction_above h above
termination_by sizeOf below

theorem mem_bases_of_climbs {above : Base} (h : Climbs policy below above) :
    above ∈ below.bases := (List.mem_filter.1 h).1

theorem climbs_of_eq_singleton {above : Base} (h : below.regarded policy = [above]) :
    Climbs policy below above := by
  rw [Climbs, h]
  exact List.mem_singleton_self above

/-! ### The walk to the base class -/

theorem candidates_eq (policy : Policy) (className : String) (ignored : List String)
    (bases : List Base) : candidates policy className ignored bases =
      (bases.filter fun base ↦ !ignored.contains base.name).map fun base ↦
        (base.name, base.beneath policy className) := by
  induction bases with
  | nil => rw [candidates, List.filter_nil, List.map_nil]
  | cons base bases ih =>
    rw [candidates, ih, List.filter_cons]
    cases ignored.contains base.name <;> rfl

theorem beneath_eq (policy : Policy) (className : String) (below : Base) :
    below.beneath policy className = chooseBase className (policy.foldedBasesOf below.name)
      ((below.regarded policy).map fun base ↦ (base.name, base.beneath policy className)) := by
  obtain ⟨name, bases⟩ := below
  rw [beneath, candidates_eq]
  rfl

/-- What is found above a base by what its level holds. -/
theorem beneath_cases (policy : Policy) (className : String) (below : Base) :
    (below.regarded policy = [] ∧ below.beneath policy className = .ok none) ∨
    (∃ above, below.regarded policy = [above] ∧ above.name ∉ policy.foldedBasesOf below.name ∧
      below.beneath policy className = .ok (some above.name)) ∨
    (∃ above, PassesOver policy below above ∧
      below.beneath policy className = above.beneath policy className) ∨
    (2 ≤ (below.regarded policy).length ∧ below.beneath policy className =
      .error (.ambiguousBase className ((below.regarded policy).map Base.name))) := by
  rw [beneath_eq]
  match hlevel : below.regarded policy with
  | [] => exact .inl ⟨rfl, rfl⟩
  | [above] =>
    by_cases hfolded : above.name ∈ policy.foldedBasesOf below.name
    · refine .inr (.inr (.inl ⟨above, ⟨hlevel, hfolded⟩, ?_⟩))
      exact if_pos (List.contains_iff_mem.2 hfolded)
    · refine .inr (.inl ⟨above, rfl, hfolded, ?_⟩)
      exact if_neg fun h ↦ hfolded (List.contains_iff_mem.1 h)
  | first :: second :: rest =>
    refine .inr (.inr (.inr ⟨Nat.le_add_left 2 rest.length, ?_⟩))
    simp [chooseBase, Function.comp_def]

/-- The walk to the base class fails where it comes to several bases. -/
theorem beneath_eq_error_iff {e : Error} : below.beneath policy className = .error e ↔
    ∃ last, ReflTransGen (PassesOver policy) below last ∧ 2 ≤ (last.regarded policy).length ∧
      e = .ambiguousBase className ((last.regarded policy).map Base.name) := by
  constructor
  · induction below using induction_above with
    | h below ih =>
      intro h
      rcases beneath_cases policy className below with ⟨-, hfound⟩ | ⟨above, -, -, hfound⟩ |
        ⟨above, hpasses, hfound⟩ | ⟨hseveral, hfound⟩ <;> rw [hfound] at h
      · cases h
      · cases h
      · obtain ⟨last, hwalk, hlast⟩ :=
          ih above (mem_bases_of_climbs (climbs_of_eq_singleton hpasses.1)) h
        exact ⟨last, hwalk.head hpasses, hlast⟩
      · exact ⟨below, .refl, hseveral, (Except.error.inj h).symm⟩
  · rintro ⟨last, hwalk, hseveral, rfl⟩
    induction hwalk using ReflTransGen.head_induction_on with
    | refl =>
      rcases beneath_cases policy className last with ⟨hlevel, -⟩ | ⟨above, hlevel, -⟩ |
        ⟨above, ⟨hlevel, -⟩, -⟩ | ⟨-, hfound⟩
      · simp [hlevel] at hseveral
      · simp [hlevel] at hseveral
      · simp [hlevel] at hseveral
      · exact hfound
    | @head below above hpasses _ ih =>
      rw [beneath_eq, hpasses.1]
      exact (if_pos (List.contains_iff_mem.2 hpasses.2)).trans ih

/-! ### The walk through all bases -/

theorem ancestorsOf_eq_flatMap (policy : Policy) (folded ignored : List String)
    (bases : List Base) : ancestorsOf policy folded ignored bases =
      (bases.filter fun base ↦ !ignored.contains base.name).flatMap fun base ↦
        (if folded.contains base.name then [] else [base.name]) ++ base.above policy := by
  induction bases with
  | nil => rw [ancestorsOf, List.filter_nil, List.flatMap_nil]
  | cons base bases ih =>
    obtain ⟨name, higher⟩ := base
    rw [ancestorsOf, ih, List.filter_cons, ancestors]
    cases ignored.contains name <;> rfl

theorem above_eq (policy : Policy) (below : Base) : below.above policy =
    (below.regarded policy).flatMap fun base ↦
      (if (policy.foldedBasesOf below.name).contains base.name then [] else [base.name]) ++
        base.above policy :=
  ancestorsOf_eq_flatMap policy _ _ below.bases

/-- The walk comes to every base that can be climbed to, and takes down the names that are not
folded for the base below. -/
theorem mem_above_iff {name : String} : name ∈ below.above policy ↔
    ∃ child top, ReflTransGen (Climbs policy) below child ∧ Climbs policy child top ∧
      top.name = name ∧ name ∉ policy.foldedBasesOf child.name := by
  constructor
  · induction below using induction_above with
    | h below ih =>
      intro h
      rw [above_eq] at h
      obtain ⟨base, hbase, hname⟩ := List.mem_flatMap.1 h
      rcases List.mem_append.1 hname with hown | hhigher
      · split at hown
        · cases hown
        · rename_i hfolded
          obtain rfl := List.mem_singleton.1 hown
          exact ⟨below, base, .refl, hbase, rfl, fun h ↦ hfolded (List.contains_iff_mem.2 h)⟩
      · obtain ⟨child, top, hclimb, hlast⟩ := ih base (mem_bases_of_climbs hbase) hhigher
        exact ⟨child, top, hclimb.head hbase, hlast⟩
  · rintro ⟨child, top, hclimb, htop, rfl, hfolded⟩
    induction hclimb using ReflTransGen.head_induction_on with
    | refl =>
      rw [above_eq]
      refine List.mem_flatMap.2 ⟨top, htop, List.mem_append_left _ ?_⟩
      rw [if_neg fun h ↦ hfolded (List.contains_iff_mem.1 h)]
      exact List.mem_singleton_self top.name
    | head hstep _ ih =>
      rw [above_eq]
      exact List.mem_flatMap.2 ⟨_, hstep, List.mem_append_right _ ih⟩

/-- The walk to the base class finds what the walk through all bases comes to first. -/
theorem head?_above {base? : Option String} (h : below.beneath policy className = .ok base?) :
    (below.above policy).head? = base? := by
  induction below using induction_above with
  | h below ih =>
    rw [above_eq]
    rcases beneath_cases policy className below with ⟨hlevel, hfound⟩ |
      ⟨above, hlevel, hfolded, hfound⟩ | ⟨above, ⟨hlevel, hfolded⟩, hfound⟩ | ⟨-, hfound⟩ <;>
      rw [hfound] at h
    · cases h
      rw [hlevel]
      rfl
    · cases h
      rw [hlevel, List.flatMap_singleton, if_neg fun h ↦ hfolded (List.contains_iff_mem.1 h)]
      rfl
    · rw [hlevel, List.flatMap_singleton, if_pos (List.contains_iff_mem.2 hfolded)]
      exact ih above (mem_bases_of_climbs (climbs_of_eq_singleton hlevel)) h
    · cases h

end Base

/-! ### The base class and the list of all bases -/

/-- A class as the bottom of its hierarchy. -/
def Class.asBase (c : Class) : Base := ⟨c.name, c.bases⟩

theorem head?_addAllNew {α : Type} [BEq α] [LawfulBEq α] (l : List α) :
    (addAllNew [] l).head? = l.head? := by
  cases l with
  | nil => rfl
  | cons a rest =>
    obtain ⟨added, hadded⟩ := addAllNew_append_cons (List.not_mem_nil : a ∉ []) rest
    rw [List.nil_append] at hadded
    rw [hadded]
    rfl

namespace View

variable {view : View} {c : Class}

theorem baseClass_eq_beneath (hfree : view.policy.overrideBases.find? c.name = none) :
    view.baseClass c = c.asBase.beneath view.policy c.name := by
  rw [baseClass, hfree, Class.asBase, Base.beneath]

/-- The base class of a class is unknown just when the walk to it comes to a level with several
bases. Otherwise it is the first of the listed bases, and there is none when none is listed. The
list holds each name once, and just those that can be climbed to and are not folded for the base
below. -/
theorem baseClass_eq_head_baseList (hfree : view.policy.overrideBases.find? c.name = none) :
    (∀ e, view.baseClass c = .error e ↔
      ∃ last, ReflTransGen (Base.PassesOver view.policy) c.asBase last ∧
        2 ≤ (last.regarded view.policy).length ∧
        e = .ambiguousBase c.name ((last.regarded view.policy).map Base.name)) ∧
    (view.baseClass c = .ok none → view.baseList c = []) ∧
    (∀ base, view.baseClass c = .ok (some base) → ∃ farther, view.baseList c = base :: farther) ∧
    (view.baseList c).Nodup ∧
    ∀ name, name ∈ view.baseList c ↔
      ∃ child top, ReflTransGen (Base.Climbs view.policy) c.asBase child ∧
        Base.Climbs view.policy child top ∧ top.name = name ∧
        name ∉ view.policy.foldedBasesOf child.name := by
  have hhead {base? : Option String} (h : view.baseClass c = .ok base?) :
      (view.baseList c).head? = base? := by
    rw [baseClass_eq_beneath hfree] at h
    exact (head?_addAllNew _).trans (Base.head?_above h)
  refine ⟨fun e ↦ ?_, fun h ↦ List.head?_eq_none_iff.1 (hhead h),
    fun base h ↦ List.head?_eq_some_iff.1 (hhead h), view.nodup_baseList c, fun name ↦ ?_⟩
  · rw [baseClass_eq_beneath hfree]
    exact Base.beneath_eq_error_iff
  · rw [mem_baseList]
    have habove : name ∈ c.asBase.above view.policy ↔ _ := Base.mem_above_iff
    exact habove

end View

namespace Knobs

/-- A toggle is a button and an entry, which is a field and a store, all on top of one object. -/
def toggle : Class where
  info := { name := "Toggle" }
  bases := [⟨"Entry", [⟨"Field", [⟨"Object", []⟩]⟩, ⟨"Store", [⟨"Object", []⟩]⟩]⟩,
    ⟨"Button", [⟨"Object", []⟩]⟩]

/-- A dial is a gauge, which is a field. -/
def dial : Class where
  info := { name := "Dial" }
  bases := [⟨"Gauge", [⟨"Field", [⟨"Object", []⟩]⟩]⟩]

def knobs : View where
  policy := { Policy.empty "Knobs" "Drawing" with
    foldedBases := [("Toggle", ["Entry"]), ("Dial", ["Gauge"])]
    ignoredBases := [("Toggle", ["Button"])] }
  module := { name := "Knobs", items := [.ofClass toggle, .ofClass dial] }

end Knobs

open Knobs in
/-- The folded entry of a toggle has two bases, so the toggle has none to be declared with. The
folded gauge of a dial has one, which is the base class of the dial. -/
theorem knobs_base_classes :
    knobs.policy.overrideBases.find? toggle.name = none ∧
    knobs.policy.overrideBases.find? dial.name = none ∧
    knobs.baseClass toggle = .error (.ambiguousBase "Toggle" ["Field", "Store"]) ∧
    "Object" ∈ knobs.baseList toggle ∧ "Entry" ∉ knobs.baseList toggle ∧
    knobs.baseClass dial = .ok (some "Field") ∧
    ∃ farther, knobs.baseList dial = "Field" :: farther := by
  have htoggle : knobs.policy.overrideBases.find? toggle.name = none := rfl
  have hdial : knobs.policy.overrideBases.find? dial.name = none := rfl
  obtain ⟨herror, -, -, -, hlisted⟩ := View.baseClass_eq_head_baseList htoggle
  obtain ⟨-, -, hfirst, -, -⟩ := View.baseClass_eq_head_baseList hdial
  let field : Base := ⟨"Field", [⟨"Object", []⟩]⟩
  let entry : Base := ⟨"Entry", [field, ⟨"Store", [⟨"Object", []⟩]⟩]⟩
  have hentry : Base.PassesOver knobs.policy toggle.asBase entry := ⟨rfl, by decide⟩
  have hclimbs {below above : Base} (h : below.regarded knobs.policy = [above]) :
      Base.Climbs knobs.policy below above := Base.climbs_of_eq_singleton h
  have hfield : Base.Climbs knobs.policy entry field := List.mem_cons_self
  have hobject : "Object" ∈ knobs.baseList toggle :=
    (hlisted "Object").2 ⟨field, ⟨"Object", []⟩,
      (ReflTransGen.single (hclimbs hentry.1)).tail hfield, hclimbs rfl, rfl, by decide⟩
  have hbase : knobs.baseClass dial = .ok (some "Field") := rfl
  exact ⟨htoggle, hdial, (herror _).2 ⟨entry, .single hentry, Nat.le_refl 2, rfl⟩, hobject,
    by decide +kernel, hbase, hfirst "Field" hbase⟩

end Bindery
