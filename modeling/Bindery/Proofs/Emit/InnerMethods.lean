import Mathlib.Data.List.Basic
import Bindery.Proofs.Emit.Guards

/-!
Methods of inner classes. An inner class is written from its declaration, with the public and active
classes inside of it, at any depth (`Emit.isInside_innerClassParts`). Of its methods it writes whole
chains: the first overload decides for all of them whether they belong to the public part, and of
the others only templates and inactive ones are left out then (`Emit.inner_methods_behind_first`).
So a public overload is lost behind a first one that is protected or left out, and a protected one
is written behind a public one.
-/

set_option autoImplicit false
set_option relaxedAutoImplicit false

namespace Bindery.Emit

open Bindery.Emit.Part

/-! ### Classes inside of classes -/

/-- A class is written inside of another, through the classes of a path. -/
inductive Nests : Class → List Class → Class → Prop
  | here (c : Class) : Nests c [] c
  | deeper {c d e : Class} {path : List Class} : .inner d ∈ c.members →
      isShownInside d.info = true → Nests d path e → Nests c (d :: path) e

/-- Parts are written for a class inside of another, through the classes of a path. -/
inductive IsInside (body : List Part) : List Class → List Part → Prop
  | here : IsInside body [] body
  | deeper {d : Class} {path : List Class} {inner parts : List Part} :
      .written .inside (.ofClass d) inner ∈ parts → IsInside body path inner →
      IsInside body (d :: path) parts

/-- The text of a class inside of another one is part of its text. No guard is put around it. -/
theorem IsInside.exists_linesOf {body parts : List Part} {path : List Class}
    (h : IsInside body path parts) :
    ∃ before after, linesOf isGuarded parts = before ++ linesOf isGuarded body ++ after := by
  induction h with
  | here => exact ⟨[], [], (List.append_nil _).symm⟩
  | @deeper d _ inner parts hmem _ ih =>
    obtain ⟨before, after, hparts⟩ := exists_linesOf_of_mem isGuarded hmem
    obtain ⟨opened, closed, hinner⟩ := ih
    have hwritten : (written .inside (.ofClass d) inner).lines isGuarded =
        linesOf isGuarded inner := rfl
    refine ⟨before ++ opened, closed ++ after, ?_⟩
    rw [hparts, hwritten, hinner]
    simp only [List.append_assoc]

/-- The indentation of an inner class. -/
def deepened (indent : String) : Nat → String
  | 0 => indent
  | depth + 1 => deepened (indent ++ "  ") depth

section Classes

variable {indent className : String} {c d : Class} {member : Member} {body : List Part}

theorem innerMembersParts_eq_flatMap (indent className : String) (members : List Member) :
    innerMembersParts indent className members =
      members.flatMap (innerMemberParts indent className) := by
  induction members with
  | nil => rfl
  | cons member members ih => rw [innerMembersParts, ih, List.flatMap_cons]

/-- What an inner class consists of: its frame, and what is written for its members. -/
theorem innerClassParts_eq (indent : String) (c : Class) :
    ∃ opened : List String, innerClassParts indent c = opened.map .line ++
      c.members.flatMap (innerMemberParts (indent ++ "  ") c.name) ++
        [.line (indent ++ "\x7d;")] := by
  obtain ⟨info, kind, bases, members, isAbstract, isTemplate, includes, paramMappings⟩ := c
  rw [innerClassParts, innerMembersParts_eq_flatMap]
  refine ⟨[indent ++ kind.keyword ++ " " ++ info.name, indent ++ "\x7b"] ++
    if kind = .ofStruct then [] else [indent ++ "public:"], ?_⟩
  cases kind <;> rfl

theorem written_mem_innerClassParts {place : Place} {declared : Target} :
    .written place declared body ∈ innerClassParts indent c ↔
      ∃ member ∈ c.members,
        .written place declared body ∈ innerMemberParts (indent ++ "  ") c.name member := by
  obtain ⟨opened, hparts⟩ := innerClassParts_eq indent c
  rw [hparts]
  simp

theorem written_class_mem_innerMemberParts :
    .written .inside (.ofClass d) body ∈ innerMemberParts indent className member ↔
      member = .inner d ∧ isShownInside d.info = true ∧ body = innerClassParts indent d := by
  cases member with
  | method chain =>
    rw [innerMemberParts, innerMethodParts]
    split <;> simp
  | «variable» v =>
    rw [innerMemberParts]
    split <;> simp
  | enum e =>
    rw [innerMemberParts, memberEnumPart]
    split <;> simp
  | inner e =>
    rw [innerMemberParts]
    split
    · simp only [List.mem_singleton, Part.written.injEq, Target.ofClass.injEq, true_and,
        Member.inner.injEq]
      constructor
      · rintro ⟨rfl, rfl⟩
        exact ⟨rfl, ‹_›, rfl⟩
      · rintro ⟨rfl, -, rfl⟩
        exact ⟨rfl, rfl⟩
    · rename_i hhidden
      refine iff_of_false List.not_mem_nil fun h ↦ hhidden ?_
      obtain ⟨hmember, hshown, -⟩ := h
      cases hmember
      exact hshown

/-- The parts that are written for classes inside of a class, at any depth, are those of the classes
in it that are public and active together with all classes around them. -/
theorem isInside_innerClassParts {path : List Class} :
    IsInside body path (innerClassParts indent c) ↔
      ∃ d, Nests c path d ∧ body = innerClassParts (deepened indent path.length) d := by
  induction path generalizing indent c with
  | nil =>
    constructor
    · rintro ⟨⟩
      exact ⟨c, .here c, rfl⟩
    · rintro ⟨d, ⟨⟩, rfl⟩
      exact .here
  | cons d path ih =>
    constructor
    · rintro (_ | ⟨hmem, hinside⟩)
      obtain ⟨member, hmember, hwritten⟩ := written_mem_innerClassParts.1 hmem
      obtain ⟨rfl, hshown, rfl⟩ := written_class_mem_innerMemberParts.1 hwritten
      obtain ⟨e, hnests, hbody⟩ := ih.1 hinside
      exact ⟨e, .deeper hmember hshown hnests, hbody⟩
    · rintro ⟨e, hnests, hbody⟩
      cases hnests with
      | deeper hmember hshown hnests =>
        refine .deeper (written_mem_innerClassParts.2 ⟨_, hmember, ?_⟩) (ih.2 ⟨e, hnests, hbody⟩)
        exact written_class_mem_innerMemberParts.2 ⟨rfl, hshown, rfl⟩

end Classes

/-! ### Methods of an inner class -/

/-- The method that a part is written for, with what is written. -/
def Part.innerMethod? : Part → Option (Method × List Part)
  | .written .inside (.method chain) body => some (chain.first, body)
  | _ => none

/-- The methods of a chain that an inner class writes: the active ones that are no templates, if the
first of the chain is public and active. -/
def writtenInside (chain : Overloads) : List Method :=
  if isShownInside chain.info then chain.all.filter fun o ↦ o.info.isActive && !o.isTemplate else []

theorem innerMethods_innerMemberParts (indent className : String) (member : Member) :
    (innerMemberParts indent className member).filterMap innerMethod? =
      (member.methods?.toList.flatMap writtenInside).map fun o ↦
        (o, [.line (innerMethod indent className o)]) := by
  cases member with
  | method chain =>
    rw [innerMemberParts, innerMethodParts, Member.methods?, Option.toList_some,
      List.flatMap_singleton, writtenInside]
    split
    · rw [List.filterMap_map]
      exact congrFun List.filterMap_eq_map _
    · rfl
  | «variable» v =>
    rw [innerMemberParts]
    split <;> rfl
  | enum e =>
    rw [innerMemberParts]
    split <;> rfl
  | inner c =>
    rw [innerMemberParts]
    split <;> rfl

theorem innerMethods_innerClassParts (indent : String) (c : Class) :
    (innerClassParts indent c).filterMap innerMethod? =
      (c.methods.flatMap writtenInside).map fun o ↦
        (o, [.line (innerMethod (indent ++ "  ") c.name o)]) := by
  obtain ⟨opened, hparts⟩ := innerClassParts_eq indent c
  have hmethods : c.methods = c.members.flatMap fun member ↦ member.methods?.toList := by
    rw [Class.methods, List.filterMap_eq_flatMap_toList]
  have hopened : (opened.map Part.line).filterMap innerMethod? = [] := by
    simp [List.filterMap_map, Function.comp_def, innerMethod?]
  rw [hparts, List.filterMap_append, List.filterMap_append, hopened, List.filterMap_flatMap,
    hmethods, List.flatMap_assoc, List.map_flatMap]
  simp only [innerMethods_innerMemberParts]
  exact List.append_nil _

/-- An inner class as it is written: its text is that of its parts, where a restricted method stands
between the lines of its guard. The methods that it writes are, in the order of their declaration,
those of each chain whose first overload is public and active, without templates and without those
that are not active themselves. The same holds of the classes inside of it that are written, at any
depth, which are those that are public and active together with all classes around them, and whose
text is part of its text. -/
theorem inner_methods_behind_first (indent : String) (c : Class) :
    linesOf isGuarded (innerClassParts indent c) = innerClass indent c ∧
    (innerClassParts indent c).filterMap innerMethod? =
      (c.methods.flatMap writtenInside).map (fun o ↦
        (o, [.line (innerMethod (indent ++ "  ") c.name o)])) ∧
    (∀ path body, IsInside body path (innerClassParts indent c) ↔
      ∃ d, Nests c path d ∧ body = innerClassParts (deepened indent path.length) d) ∧
    ∀ path d, Nests c path d → ∃ before after,
      innerClass indent c = before ++ innerClass (deepened indent path.length) d ++ after := by
  refine ⟨linesOf_innerClassParts indent c, innerMethods_innerClassParts indent c,
    fun _ _ ↦ isInside_innerClassParts, fun path d hnests ↦ ?_⟩
  have hinside : IsInside _ path (innerClassParts indent c) :=
    isInside_innerClassParts.2 ⟨d, hnests, rfl⟩
  rw [← linesOf_innerClassParts indent c, ← linesOf_innerClassParts]
  exact hinside.exists_linesOf

/-! A lid whose first way of opening is left out, with a hinge whose last way of turning is
protected. -/

namespace Lids

def opening : Method :=
  { (Method.named "Open").inClass "Lid" with info := { name := "Open", ignored := true } }

def openingWide : Method :=
  { (Method.named "Open").inClass "Lid" with params := [{ name := "wide", type := "bool" }] }

def shutting : Method := (Method.named "Shut").inClass "Lid"

def turning : Method := (Method.named "Turn").inClass "Hinge"

def turningBack : Method :=
  { (Method.named "Turn").inClass "Hinge" with
    info := { name := "Turn", protection := .protectedAccess }
    params := [{ name := "angle", type := "int" }] }

def hinge : Class where
  info := { name := "Hinge" }
  members := [.method ⟨turning, [turningBack]⟩]

def lid : Class where
  info := { name := "Lid" }
  members := [.method ⟨opening, [openingWide]⟩, .method ⟨shutting, []⟩, .inner hinge]

end Lids

open Lids in
/-- How a lid is opened wide is public and active, but not written; how its hinge is turned back is
protected, and written. -/
theorem lid_overloads :
    isShownInside openingWide.info = true ∧ openingWide.isTemplate = false ∧
      isShownInside turningBack.info = false ∧
      innerClass "  " lid = ["  class Lid", "  \x7b", "  public:", "    void Shut();",
        "    class Hinge", "    \x7b", "    public:", "      void Turn();",
        "      void Turn(int angle);", "    \x7d;", "  \x7d;"] := by
  decide +kernel

end Bindery.Emit
