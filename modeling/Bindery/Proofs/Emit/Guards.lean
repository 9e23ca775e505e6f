import Bindery.Proofs.Emit.Outline
import Bindery.Proofs.Interface.Entries

/-!
Guards in a header. Whatever is written for a restricted declaration, as an item, as a member of a
class or inside of an inner class, stands between the opening and the closing line of its guard,
unless it is one of the declarations whose guard is passed over; and a header is as if no guard had
been passed over just when none of these is restricted (`Emit.restricted_text_guarded`).
-/

set_option autoImplicit false
set_option relaxedAutoImplicit false

namespace Bindery.Emit

open Bindery.Emit.Part

/-! ### Parts inside of parts -/

/-- A part that stands among others, or inside of one of them. -/
inductive Part.Occurs (part : Part) : List Part → Prop
  | among {parts : List Part} : part ∈ parts → part.Occurs parts
  | within {place : Place} {declared : Target} {body parts : List Part} :
    .written place declared body ∈ parts → part.Occurs body → part.Occurs parts

variable {heeds : Place → Target → Bool} {part : Part} {parts : List Part}

theorem exists_linesOf_of_mem (heeds : Place → Target → Bool) (h : part ∈ parts) :
    ∃ before after, linesOf heeds parts = before ++ part.lines heeds ++ after := by
  obtain ⟨before, after, rfl⟩ := List.append_of_mem h
  refine ⟨linesOf heeds before, linesOf heeds after, ?_⟩
  rw [linesOf_append, linesOf, List.append_assoc]

/-- The text of what is written for a declaration holds the text of its body. -/
theorem exists_lines_written (heeds : Place → Target → Bool) (place : Place) (declared : Target)
    (body : List Part) : ∃ before after, (written place declared body).lines heeds =
      before ++ linesOf heeds body ++ after := by
  rw [lines]
  split
  · cases declared.info.onlyFor with
    | none => exact ⟨[], [], (List.append_nil _).symm⟩
    | some guard => exact ⟨[guard.openLine], [Guard.closeLine], rfl⟩
  · exact ⟨[], [], (List.append_nil _).symm⟩

theorem Part.Occurs.exists_linesOf (heeds : Place → Target → Bool) (h : part.Occurs parts) :
    ∃ before after, linesOf heeds parts = before ++ part.lines heeds ++ after := by
  induction h with
  | among hmem => exact exists_linesOf_of_mem heeds hmem
  | @within place declared body _ hmem _ ih =>
    obtain ⟨before, after, hparts⟩ := exists_linesOf_of_mem heeds hmem
    obtain ⟨opened, closed, hwritten⟩ := exists_lines_written heeds place declared body
    obtain ⟨front, back, hbody⟩ := ih
    refine ⟨before ++ opened ++ front, back ++ closed ++ after, ?_⟩
    rw [hparts, hwritten, hbody]
    simp only [List.append_assoc]

theorem Part.Occurs.mono {more : List Part} (h : part.Occurs parts) (hsub : parts ⊆ more) :
    part.Occurs more := by
  cases h with
  | among hmem => exact .among (hsub hmem)
  | within hmem hoccurs => exact .within (hsub hmem) hoccurs

/-! ### Guards that are passed over -/

/-- Every guard is heeded. -/
def heedsAll : Place → Target → Bool := fun _ _ ↦ true

theorem lines_heedsAll (place : Place) (declared : Target) (body : List Part) :
    (written place declared body).lines heedsAll =
      Guard.enclose declared.info.onlyFor (linesOf heedsAll body) := rfl

theorem length_le_enclose (guard : Option Guard) (texts : List String) :
    texts.length ≤ (Guard.enclose guard texts).length := by
  cases guard with
  | none => exact Nat.le_refl _
  | some guard =>
    rw [Guard.enclose, List.length_append, List.length_cons]
    omega

mutual

/-- Passing over guards makes no text longer. -/
theorem length_lines_le (heeds : Place → Target → Bool) : ∀ part : Part,
    (part.lines heeds).length ≤ (part.lines heedsAll).length
  | .line text => Nat.le_refl _
  | .written place declared body => by
    have hbody := length_linesOf_le heeds body
    rw [lines_heedsAll, lines]
    split
    · cases honlyFor : declared.info.onlyFor <;> simpa [Guard.enclose] using hbody
    · exact Nat.le_trans hbody (length_le_enclose _ _)

theorem length_linesOf_le (heeds : Place → Target → Bool) : ∀ parts : List Part,
    (linesOf heeds parts).length ≤ (linesOf heedsAll parts).length
  | [] => Nat.le_refl _
  | part :: parts => by
    rw [linesOf, linesOf, List.length_append, List.length_append]
    exact Nat.add_le_add (length_lines_le heeds part) (length_linesOf_le heeds parts)

end

/-- Where a text is as if all guards were heeded, so is the text of each part. -/
theorem lines_eq_of_mem (h : linesOf heeds parts = linesOf heedsAll parts) (hmem : part ∈ parts) :
    part.lines heeds = part.lines heedsAll := by
  induction parts with
  | nil => exact (List.not_mem_nil hmem).elim
  | cons first rest ih =>
    have hfirst := length_lines_le heeds first
    have hrest := length_linesOf_le heeds rest
    rw [linesOf, linesOf] at h
    have hlength := congrArg List.length h
    rw [List.length_append, List.length_append] at hlength
    obtain ⟨hsame, hothers⟩ := List.append_inj h (by omega)
    rcases List.mem_cons.1 hmem with rfl | hmem
    · exact hsame
    · exact ih hothers hmem

/-- If what is written for a declaration is as if all guards were heeded, then the guard of the
declaration is heeded, and the text inside of it is so as well. -/
theorem lines_written_eq {place : Place} {declared : Target} {body : List Part}
    (h : (written place declared body).lines heeds = (written place declared body).lines heedsAll) :
    (declared.info.onlyFor.isSome = true → heeds place declared = true) ∧
      linesOf heeds body = linesOf heedsAll body := by
  have hbody := length_linesOf_le heeds body
  rw [lines_heedsAll, lines] at h
  cases honlyFor : declared.info.onlyFor with
  | none => simpa [honlyFor, Guard.enclose] using h
  | some guard =>
    rw [honlyFor] at h
    cases hheeds : heeds place declared with
    | true => simpa [hheeds, Guard.enclose] using h
    | false =>
      -- Without its guard lines the text would be too short.
      have hlength := congrArg List.length h
      simp only [hheeds, Guard.enclose, List.length_append, List.length_cons] at hlength
      simp at hlength
      omega

theorem heeds_of_linesOf_eq {place : Place} {declared : Target} {body : List Part}
    (h : linesOf heeds parts = linesOf heedsAll parts)
    (hoccurs : (written place declared body).Occurs parts)
    (hguard : declared.info.onlyFor.isSome = true) : heeds place declared = true := by
  induction hoccurs with
  | among hmem => exact (lines_written_eq (lines_eq_of_mem h hmem)).1 hguard
  | within hmem _ ih => exact ih (lines_written_eq (lines_eq_of_mem h hmem)).2

/-- All restricted declarations among some parts have their guards heeded. -/
def HeedsGuards (heeds : Place → Target → Bool) (parts : List Part) : Prop :=
  ∀ place declared body, (written place declared body).Occurs parts →
    declared.info.onlyFor.isSome = true → heeds place declared = true

theorem HeedsGuards.mono {more : List Part} (h : HeedsGuards heeds more) (hsub : parts ⊆ more) :
    HeedsGuards heeds parts :=
  fun place declared body hoccurs ↦ h place declared body (hoccurs.mono hsub)

mutual

theorem lines_eq_of_heedsGuards (heeds : Place → Target → Bool) : ∀ part : Part,
    HeedsGuards heeds [part] → part.lines heeds = part.lines heedsAll
  | .line text, _ => rfl
  | .written place declared body, h => by
    have hbody : linesOf heeds body = linesOf heedsAll body :=
      linesOf_eq_of_heedsGuards heeds body fun _ _ _ hoccurs ↦
        h _ _ _ (.within (List.mem_singleton_self _) hoccurs)
    rw [lines_heedsAll, lines, hbody]
    split
    · rfl
    · rename_i hheeds
      cases honlyFor : declared.info.onlyFor with
      | none => rfl
      | some guard =>
        have hguard : declared.info.onlyFor.isSome = true := by rw [honlyFor]; rfl
        exact (hheeds (h place declared body (.among (List.mem_singleton_self _)) hguard)).elim

theorem linesOf_eq_of_heedsGuards (heeds : Place → Target → Bool) : ∀ parts : List Part,
    HeedsGuards heeds parts → linesOf heeds parts = linesOf heedsAll parts
  | [], _ => rfl
  | part :: parts, h => by
    rw [linesOf, linesOf,
      lines_eq_of_heedsGuards heeds part (h.mono (List.cons_subset_cons _ (List.nil_subset _))),
      linesOf_eq_of_heedsGuards heeds parts (h.mono (List.subset_cons_self _ _))]

end

theorem linesOf_eq_heedsAll_iff :
    linesOf heeds parts = linesOf heedsAll parts ↔ HeedsGuards heeds parts :=
  ⟨fun h _ _ _ hoccurs hguard ↦ heeds_of_linesOf_eq h hoccurs hguard,
    linesOf_eq_of_heedsGuards heeds parts⟩

/-! ### Headers -/

section Headers

variable {view : View} {registry : InterfaceRegistry} {rules : TypemapRules}

/-- The outline of a class: a blank line, and what is written for the class. -/
theorem classParts_eq_ok {c : Class} (h : classParts view registry rules c = .ok parts) :
    ∃ body, parts = [.line "", .written .item (.ofClass c) body] := by
  obtain ⟨interface, -, h⟩ := bind_eq_ok.1 h
  obtain ⟨base, -, h⟩ := bind_eq_ok.1 h
  cases h
  exact ⟨_, rfl⟩

theorem outline_eq_ok (h : outline view registry rules = .ok parts) :
    ∃ classes, parts = outlineWith view rules classes ∧
      ∀ group ∈ classes, ∃ c body, group = [.line "", .written .item (.ofClass c) body] := by
  rw [outline] at h
  split at h
  · obtain ⟨classes, hclasses, h⟩ := bind_eq_ok.1 h
    cases h
    refine ⟨classes, rfl, fun group hgroup ↦ ?_⟩
    obtain ⟨c, -, hc⟩ := exists_of_mem_mapM hclasses hgroup
    obtain ⟨body, rfl⟩ := classParts_eq_ok hc
    exact ⟨c, body, rfl⟩
  · cases h
    exact ⟨[], rfl, fun group hgroup ↦ (List.not_mem_nil hgroup).elim⟩

/-- The lines of a section that are written for no declaration are blank. -/
def OnlyBlanks (parts : List Part) : Prop := ∀ text, .line text ∈ parts → text = ""

theorem onlyBlanks_flatMap {α : Type} {f : α → List Part} {l : List α}
    (h : ∀ a ∈ l, OnlyBlanks (f a)) : OnlyBlanks (l.flatMap f) := by
  intro text htext
  obtain ⟨a, ha, htext⟩ := List.mem_flatMap.1 htext
  exact h a ha text htext

theorem onlyBlanks_ite {shown : Bool} (h : OnlyBlanks parts) :
    OnlyBlanks (if shown then parts else []) := by
  cases shown with
  | true => exact h
  | false => exact fun text htext ↦ (List.not_mem_nil htext).elim

theorem onlyBlanks_written (place : Place) (declared : Target) (body : List Part) :
    OnlyBlanks [.written place declared body] := by
  intro text htext
  cases List.mem_singleton.1 htext

theorem onlyBlanks_nil : OnlyBlanks [] := fun _ htext ↦ (List.not_mem_nil htext).elim

theorem onlyBlanks_typedefParts (m : Module) : OnlyBlanks (typedefParts m) := by
  refine onlyBlanks_flatMap fun item _ ↦ ?_
  cases item with
  | typedef t => exact onlyBlanks_ite (onlyBlanks_written _ _ _)
  | _ => exact onlyBlanks_nil

theorem onlyBlanks_variableParts (m : Module) : OnlyBlanks (variableParts m) := by
  refine onlyBlanks_flatMap fun item _ ↦ ?_
  cases item with
  | «variable» v => exact onlyBlanks_ite (onlyBlanks_written _ _ _)
  | _ => exact onlyBlanks_nil

theorem onlyBlanks_enumParts (m : Module) : OnlyBlanks (enumParts m) := by
  refine onlyBlanks_flatMap fun item _ ↦ ?_
  cases item with
  | enum e => exact onlyBlanks_ite (onlyBlanks_written _ _ _)
  | _ => exact onlyBlanks_nil

theorem onlyBlanks_functionParts (rules : TypemapRules) (m : Module) :
    OnlyBlanks (functionParts rules m) := by
  refine onlyBlanks_flatMap fun item _ ↦ ?_
  cases item with
  | function chain =>
    intro text htext
    obtain ⟨f, -, hf⟩ := List.mem_map.1 htext
    cases hf
  | _ => exact onlyBlanks_nil

theorem onlyBlanks_constantParts (d : Define) : OnlyBlanks (constantParts d) := by
  unfold constantParts
  split
  · exact onlyBlanks_written _ _ _
  · exact onlyBlanks_nil

theorem onlyBlanks_defineParts (m : Module) : OnlyBlanks (defineParts m) := by
  simp only [defineParts]
  split
  · exact onlyBlanks_nil
  · intro text htext
    rcases List.mem_cons.1 htext with htext | htext
    · exact Part.line.inj htext
    · exact onlyBlanks_flatMap (fun d _ ↦ onlyBlanks_constantParts d) text htext

theorem line_mem_outline {text : String} (h : outline view registry rules = .ok parts)
    (htext : .line text ∈ parts) : text ∈ opening view.policy ++ closing view.policy := by
  have hblank {group : List Part} (h : OnlyBlanks group) (htext : .line text ∈ group) :
      text ∈ opening view.policy ++ closing view.policy := by
    rw [h text htext]
    exact List.mem_append_right _ List.mem_cons_self
  have hframe {texts : List String} (htext : .line text ∈ texts.map Part.line) : text ∈ texts := by
    obtain ⟨_, hmem, heq⟩ := List.mem_map.1 htext
    rwa [← Part.line.inj heq]
  obtain ⟨classes, rfl, hclasses⟩ := outline_eq_ok h
  have hclassParts : OnlyBlanks classes.flatten := by
    intro text htext
    obtain ⟨group, hgroup, htext⟩ := List.mem_flatten.1 htext
    obtain ⟨c, body, rfl⟩ := hclasses group hgroup
    rcases List.mem_cons.1 htext with htext | htext
    · exact Part.line.inj htext
    · exact onlyBlanks_written _ _ _ text htext
  simp only [outlineWith, List.mem_append] at htext
  rcases htext with ((((((htext | htext) | htext) | htext) | htext) | htext) | htext) | htext
  · exact List.mem_append_left _ (hframe htext)
  · exact hblank (onlyBlanks_ite (onlyBlanks_typedefParts _)) htext
  · exact hblank hclassParts htext
  · exact hblank (onlyBlanks_ite (onlyBlanks_variableParts _)) htext
  · exact hblank (onlyBlanks_ite (onlyBlanks_enumParts _)) htext
  · exact hblank (onlyBlanks_ite (onlyBlanks_defineParts _)) htext
  · exact hblank (onlyBlanks_ite (onlyBlanks_functionParts _ _)) htext
  · exact List.mem_append_right _ (hframe htext)

/-- A header is the text of its outline, with the guards that are heeded. All that is not part of
its frame is written for some declaration. What is written for a restricted declaration stands
between the lines of the guard, if this guard is heeded; and all restricted declarations do so just
when none of them is a destructor that a class has registered, or a variable or a class inside of an
inner class. -/
theorem restricted_text_guarded (view : View) (registry : InterfaceRegistry)
    (rules : TypemapRules) :
    header view registry rules =
      (outline view registry rules).map (fun parts ↦ Text.unlines (linesOf isGuarded parts)) ∧
    ∀ parts, outline view registry rules = .ok parts →
      (∀ text, .line text ∈ parts → text ∈ opening view.policy ++ closing view.policy) ∧
      (∀ place declared body guard, (written place declared body).Occurs parts →
        isGuarded place declared = true → declared.info.onlyFor = some guard →
          ∃ before after, linesOf isGuarded parts =
            before ++ guard.openLine :: (linesOf isGuarded body ++ Guard.closeLine :: after)) ∧
      (linesOf isGuarded parts = linesOf heedsAll parts ↔
        ∀ place declared body, (written place declared body).Occurs parts →
          declared.info.onlyFor.isSome = true → isGuarded place declared = true) := by
  refine ⟨header_eq view registry rules, fun parts hparts ↦
    ⟨fun text ↦ line_mem_outline hparts, ?_, linesOf_eq_heedsAll_iff⟩⟩
  intro place declared body guard hoccurs hheeds honlyFor
  obtain ⟨before, after, hlines⟩ := hoccurs.exists_linesOf isGuarded
  refine ⟨before, after, ?_⟩
  rw [hlines, lines, if_pos hheeds, honlyFor, Guard.enclose]
  simp only [List.append_assoc, List.cons_append, List.nil_append]

end Headers

namespace Watches

def msw : Guard := .single "msw"

def build : Method :=
  { Method.ctorOf "Clock" with info := { name := "Clock", onlyFor := some msw } }

def discard : Method :=
  { Method.dtorOf "Clock" with info := { name := "~Clock", onlyFor := some msw } }

def angle : MemberVariable :=
  { MemberVariable.named "Hand" "angle" "int" with
    info := { name := "angle", onlyFor := some msw } }

def tip : Class where
  info := { name := "Tip", onlyFor := some msw }

/-- The hand of a clock has a tip and an angle on one platform only. -/
def hand : Class where
  info := { name := "Hand" }
  members := [.variable angle, .inner tip]

/-- A clock is built and discarded on one platform only. -/
def clock : Class where
  info := { name := "Clock" }
  members := [.method ⟨build, []⟩, .method ⟨discard, []⟩, .inner hand]

def clocks : View where
  policy := Policy.empty "Clocks" "Watches"
  module := { name := "Clocks", items := [.ofClass clock] }

def interface : ClassInterface where
  publicMembers := [.inner hand, .method build, .method discard]

def scope : ClassScope where
  rules := {}
  source := clock
  className := "Clock"
  interface := interface
  isAbstract := false

end Watches

open Watches in
/-- The constructor of a clock stands between the lines of its guard; but not all that is restricted
does. -/
theorem clock_guards : ∃ parts, outline clocks [("Clock", interface)] {} = .ok parts ∧
    (∃ before after, linesOf isGuarded parts =
      before ++ "#ifdef __MSW__" :: (["  Clock();"] ++ "#endif" :: after)) ∧
    linesOf isGuarded parts ≠ linesOf heedsAll parts := by
  let group : List Part := [.line "", .written .item (.ofClass clock) (scope.declarationParts none)]
  have hparts :
      outline clocks [("Clock", interface)] {} = .ok (outlineWith clocks {} [group]) := rfl
  have hoccurs (member : InterfaceMember) (hmember : member ∈ interface.publicMembers) {part : Part}
      (hpart : part ∈ scope.memberParts member) : part.Occurs (outlineWith clocks {} [group]) := by
    have hclass : .written .item (.ofClass clock) (scope.declarationParts none) ∈
        outlineWith clocks {} [group] := by simp [outlineWith, group]
    have hbody : part ∈ scope.bodyParts :=
      List.mem_append_left _ (List.mem_append_right _ (List.mem_flatMap.2 ⟨member, hmember, hpart⟩))
    refine .within hclass (.among ?_)
    simp [ClassScope.declarationParts, hbody]
  obtain ⟨-, -, hguarded, hall⟩ := And.imp_right (fun h ↦ h _ hparts)
    (restricted_text_guarded clocks [("Clock", interface)] {})
  have hbuild := hoccurs (.method build) (by simp [interface]) List.mem_cons_self
  have hdiscard := hoccurs (.method discard) (by simp [interface]) List.mem_cons_self
  refine ⟨_, hparts, hguarded _ _ _ msw hbuild rfl rfl, fun h ↦ ?_⟩
  have hheeds := hall.1 h _ _ _ hdiscard rfl
  cases hheeds

open Watches in
/-- What discards a clock is written without its guard, and so are the angle and the tip of its
hand, although all three are restricted. -/
theorem clock_guards_passed_over :
    [discard.info, angle.info, tip.info].map (·.onlyFor) = [some msw, some msw, some msw] ∧
      clocks.interfaceOf clock = .ok interface ∧
      header clocks [("Clock", interface)] {} = .ok (Text.unlines (opening clocks.policy ++
        ["", "class Clock", "\x7b", "public:",
          "  class Hand", "  \x7b", "  public:", "    int angle;", "    class Tip", "    \x7b",
          "    public:", "    \x7d;", "  \x7d;",
          "#ifdef __MSW__", "  Clock();", "#endif", "  ~Clock();", "\x7d;"] ++
        closing clocks.policy)) := by
  refine ⟨rfl, rfl, eq_ok_of_toOption ?_⟩
  decide +kernel

end Bindery.Emit
