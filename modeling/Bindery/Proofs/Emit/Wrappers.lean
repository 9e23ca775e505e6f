import Bindery.Proofs.Emit.Sections
import Bindery.Proofs.Interface.Folding
import Bindery.Proofs.Interface.Inactive
import Bindery.Proofs.Run

/-!
What becomes of deprecated methods. They are no members of an interface, and the interface file
wraps them in the section of a generated class instead. The wrappers are collected by the name that
their class is generated under (`Deprecations.ofClass_collect`), each overload that is deprecated
and not left out giving one. So the section of a class has the wrappers of its own methods. But a
folded base is collected under its own name: its deprecated methods are dropped as members of the
class that folds it, and wrapped only if some generated class goes by the name of the base
(`Policy.wrapped_under_own_name`).
-/

set_option autoImplicit false
set_option relaxedAutoImplicit false

namespace Bindery

namespace Deprecations

variable {policy : Policy} {shims : Deprecations} {className : String}

/-- The wrappers of those methods that have one, for the section of a class. -/
def wrappers (className : String) (methods : List Method) : List String :=
  (methods.filter isWrapped).flatMap fun m ↦
    Guard.enclose m.info.onlyFor [methodWrapper className m]

/-- A wrapped overload has one wrapper, between those of the overloads before and behind it. -/
theorem wrappers_append_cons {m : Method} (hm : isWrapped m = true) (before after : List Method) :
    wrappers className (before ++ m :: after) = wrappers className before ++
      Guard.enclose m.info.onlyFor [methodWrapper className m] ++ wrappers className after := by
  simp only [wrappers, List.filter_append, List.filter_cons_of_pos hm, List.flatMap_append,
    List.flatMap_cons, List.append_assoc]

/-- The classes whose methods are wrapped under a name. -/
def wrappedClasses (policy : Policy) (m : Module) (className : String) : List Class :=
  m.classes.filter fun c ↦ !c.info.ignored && policy.className c.name == className

theorem mem_wrappedClasses {m : Module} {c : Class} : c ∈ wrappedClasses policy m className ↔
    c ∈ m.classes ∧ c.info.ignored = false ∧ policy.className c.name = className := by
  simp only [wrappedClasses, List.mem_filter, Bool.and_eq_true, Bool.not_eq_true', beq_iff_eq]

/-! ### Collecting wrappers -/

theorem ofClass_addMethod (name : String) (m : Method) :
    (addMethod name shims m).ofClass className = shims.ofClass className ++
      if name = className then Guard.enclose m.info.onlyFor [methodWrapper name m] else [] := by
  unfold addMethod ofClass
  by_cases hname : name = className
  · rw [if_pos hname, ← hname, Table.find?_alter_self, Option.getD_some]
  · rw [if_neg hname, Table.find?_alter_of_ne _ (Ne.symm hname), List.append_nil]

theorem ofClass_foldl_addMethod (name : String) (methods : List Method) :
    (methods.foldl (addMethod name) shims).ofClass className = shims.ofClass className ++
      if name = className then
        methods.flatMap fun m ↦ Guard.enclose m.info.onlyFor [methodWrapper name m]
      else [] := by
  induction methods generalizing shims with
  | nil => simp
  | cons m methods ih =>
    rw [List.foldl_cons, ih, ofClass_addMethod, List.append_assoc, List.flatMap_cons]
    split <;> simp

/-- Only a class that is not left out adds wrappers, under the name that it is generated under. -/
theorem ofClass_addItem (item : Item) :
    (addItem policy shims item).ofClass className = shims.ofClass className ++
      ((item.class?.toList.filter fun c ↦
        !c.info.ignored && policy.className c.name == className).flatMap fun c ↦
          wrappers className c.overloads) := by
  unfold addItem
  cases item with
  | ofClass c =>
    cases hignored : c.info.ignored with
    | true => simp [Item.class?, Item.info, hignored]
    | false =>
      by_cases hname : policy.className c.name = className
      · simp [Item.class?, Item.info, hignored, hname, ofClass_foldl_addMethod, wrappers,
          Class.overloads]
      · simp [Item.class?, Item.info, hignored, hname, ofClass_foldl_addMethod]
  | _ => split <;> simp [Item.class?, ofClass]

theorem ofClass_foldl_addItem (items : List Item) :
    (items.foldl (addItem policy) shims).ofClass className = shims.ofClass className ++
      (((items.filterMap Item.class?).filter fun c ↦
        !c.info.ignored && policy.className c.name == className).flatMap fun c ↦
          wrappers className c.overloads) := by
  induction items generalizing shims with
  | nil => simp
  | cons item items ih =>
    have hclasses : (item :: items).filterMap Item.class? =
        item.class?.toList ++ items.filterMap Item.class? := by
      rw [List.filterMap_cons]
      cases item.class? <;> rfl
    rw [List.foldl_cons, ih, ofClass_addItem, hclasses, List.filter_append, List.flatMap_append,
      List.append_assoc]

/-- Under a name are collected the wrappers of all classes that go by it. -/
theorem ofClass_collect (policy : Policy) (m : Module) (className : String) :
    (collect policy m).ofClass className =
      (wrappedClasses policy m className).flatMap fun c ↦ wrappers className c.overloads := by
  rw [collect, ofClass_foldl_addItem]
  rfl

end Deprecations

/-! ### Dropped and wrapped -/

theorem View.mem_generatedClasses {view : View} {c : Class} (hc : c ∈ view.generatedClasses) :
    c ∈ view.module.classes ∧ c.info.ignored = false := by
  obtain ⟨hclass, hgenerated⟩ := List.mem_filter.1 hc
  simp only [isGenerated, Bool.and_eq_true, Bool.not_eq_true'] at hgenerated
  exact ⟨hclass, hgenerated.1.1⟩

theorem View.mem_classes_of_folded {view : View} {c : Class} {folded : List Class}
    (hfolded : view.foldedBases c = .ok folded) {base : Class} (hbase : base ∈ folded) :
    base ∈ view.module.classes :=
  List.mem_of_find?_eq_some ((foldedBases_eq_ok hfolded).2 base hbase)

/-- A deprecated method is no member of the interface of its class, nor of one that folds it. -/
theorem View.wrapped_not_mem_members {view : View} {c : Class} {i : ClassInterface}
    (hi : view.interfaceOf c = .ok i) {m : Method} (hm : Deprecations.isWrapped m = true)
    (hordinary : m.isOrdinary = true) (visibility : Protection) :
    .method m ∉ i.members visibility := by
  intro hmem
  rw [Deprecations.isWrapped, Bool.and_eq_true] at hm
  have hinactive : (InterfaceMember.method m).isInactive = true := by
    simp [InterfaceMember.isInactive, InterfaceMember.info?, Info.isActive, hm.2]
  obtain ⟨folded, hfolded, -⟩ := publicMembers_eq hi
  obtain ⟨-, -, -, chain, -, hdestroys, heq⟩ :=
    (mem_members_of_isInactive hi hfolded hinactive).1 hmem
  have hdtor := (ClassTarget.destroys_iff.1 hdestroys).1.2
  rw [← InterfaceMember.method.inj heq] at hdtor
  simp [Method.isOrdinary, hdtor] at hordinary

/-- An extraction collects the wrappers of its own declarations. -/
theorem Policy.deprecations_of_extract {policy : Policy} {config : Config}
    {load : String → Except Error DeclFile} {extraction : Extraction}
    (hshims : config.noDeprecate = false) (h : policy.extract config load = .ok extraction) :
    extraction.deprecations = Deprecations.collect policy extraction.module := by
  obtain ⟨_, -, h⟩ := bind_eq_ok.1 h
  obtain ⟨_, -, h⟩ := bind_eq_ok.1 h
  obtain ⟨_, -, h⟩ := bind_eq_ok.1 h
  obtain ⟨m, -, h⟩ := bind_eq_ok.1 h
  cases h
  simp [hshims]

/-- Each of some texts stands in what they are joined to. -/
theorem infix_intercalate {α : Type} {joint part : List α} {parts : List (List α)}
    (h : part ∈ parts) : part <:+: joint.intercalate parts := by
  induction parts with
  | nil => exact (List.not_mem_nil h).elim
  | cons first rest ih =>
    cases rest with
    | nil =>
      rw [List.mem_singleton.1 h, List.intercalate_singleton]
    | cons second rest =>
      rw [List.intercalate_cons_cons, List.append_assoc]
      rcases List.mem_cons.1 h with rfl | hrest
      · exact (List.prefix_append _ _).isInfix
      · exact ((ih hrest).trans (List.suffix_append _ _).isInfix).trans
          (List.suffix_append _ _).isInfix

namespace Deprecations

theorem methodWrapper_mem_wrappers {className : String} {m : Method} {methods : List Method}
    (hm : isWrapped m = true) (hmem : m ∈ methods) :
    methodWrapper className m ∈ wrappers className methods := by
  refine List.mem_flatMap.2 ⟨m, List.mem_filter.2 ⟨hmem, hm⟩, ?_⟩
  cases m.info.onlyFor <;> simp [Guard.enclose]

end Deprecations

/-- In an extraction that collects wrappers, for the interface of a generated class: it has none of
the deprecated methods that the class and its folded bases declare. What the class is extended with
are the texts of the policy and the wrappers of all classes that go by its name, it itself among
them, and each overload that is deprecated and not left out has one wrapper there. The methods of a
folded base are wrapped in the sections of those generated classes that go by the name of the base.
So they are neither members nor wrapped when there are none. -/
theorem Policy.wrapped_under_own_name {policy : Policy} {config : Config}
    {load : String → Except Error DeclFile} {extraction : Extraction}
    (hshims : config.noDeprecate = false) (h : policy.extract config load = .ok extraction)
    {c : Class} (hc : c ∈ View.generatedClasses ⟨policy, extraction.module⟩)
    {i : ClassInterface} (hi : View.interfaceOf ⟨policy, extraction.module⟩ c = .ok i) :
    let view : View := ⟨policy, extraction.module⟩
    let name := view.className c
    let sources := Deprecations.wrappedClasses policy extraction.module
    ∃ folded code, view.foldedBases c = .ok folded ∧
      code = "\n".intercalate (policy.extendCodeOf name ++
        (sources name).flatMap fun d ↦ Deprecations.wrappers name d.overloads) ∧
      (code ≠ "" → ∀ rules, ∃ front back, Emit.interfaceFile policy extraction rules config =
        Text.unlines (front ++ ["", "%extend " ++ name ++ " \x7b", code, "\x7d;"] ++ back)) ∧
      c ∈ sources name ∧
      (view.module.classes.filter (view.className · == name) = [c] → sources name = [c]) ∧
      ∀ d ∈ c :: folded, ∀ before m after, d.overloads = before ++ m :: after →
        Deprecations.isWrapped m = true → m.isOrdinary = true →
          (∀ visibility, .method m ∉ i.members visibility) ∧
          Deprecations.wrappers name d.overloads = Deprecations.wrappers name before ++
            Guard.enclose m.info.onlyFor [Deprecations.methodWrapper name m] ++
              Deprecations.wrappers name after ∧
          (d ∈ sources name →
            (Deprecations.methodWrapper name m).toList <:+: code.toList ∧ code ≠ "") ∧
          ∀ other ∈ view.generatedClasses, d ∈ sources (view.className other) ↔
            d.info.ignored = false ∧ view.className d = view.className other := by
  intro view name sources
  obtain ⟨folded, hfolded, -⟩ := View.publicMembers_eq hi
  obtain ⟨hclass, hignored⟩ := View.mem_generatedClasses hc
  have hextend : extraction.extendCode policy name =
      "\n".intercalate (policy.extendCodeOf name ++
        (sources name).flatMap fun d ↦ Deprecations.wrappers name d.overloads) := by
    rw [Extraction.extendCode, deprecations_of_extract hshims h, Deprecations.ofClass_collect]
  refine ⟨folded, _, hfolded, rfl, fun hcode rules ↦ ?_,
    Deprecations.mem_wrappedClasses.2 ⟨hclass, hignored, rfl⟩, fun hsingle ↦ ?_, ?_⟩
  · have hsection := Emit.exists_of_mem_sections (Emit.extendLines_mem_sections rules config hc)
    rw [← hextend] at hcode ⊢
    have hlines : Emit.extendLines view extraction c =
        ["", "%extend " ++ name ++ " \x7b", extraction.extendCode policy name, "\x7d;"] :=
      if_neg fun hempty ↦ hcode (String.isEmpty_iff.1 hempty)
    rwa [hlines] at hsection
  · have hfilter : sources name =
        (view.module.classes.filter (view.className · == name)).filter (!·.info.ignored) := by
      rw [List.filter_filter]
      rfl
    rw [hfilter, hsingle, List.filter_cons_of_pos (by simp [hignored]), List.filter_nil]
  · intro d hd before m after hsplit hm hordinary
    have hdeclared : d ∈ view.module.classes := by
      rcases List.mem_cons.1 hd with rfl | hbase
      · exact hclass
      · exact View.mem_classes_of_folded hfolded hbase
    refine ⟨View.wrapped_not_mem_members hi hm hordinary, ?_, fun hsource ↦ ?_, fun other _ ↦ ?_⟩
    · rw [hsplit, Deprecations.wrappers_append_cons hm]
    · have hmem : m ∈ d.overloads := by simp [hsplit]
      have hwrapper : Deprecations.methodWrapper name m ∈ policy.extendCodeOf name ++
          (sources name).flatMap fun d ↦ Deprecations.wrappers name d.overloads :=
        List.mem_append_right _ (List.mem_flatMap.2
          ⟨d, hsource, Deprecations.methodWrapper_mem_wrappers hm hmem⟩)
      have hjoined : (Deprecations.methodWrapper name m).toList <:+:
          "\n".toList.intercalate ((policy.extendCodeOf name ++
            (sources name).flatMap fun d ↦ Deprecations.wrappers name d.overloads).map
              String.toList) :=
        infix_intercalate (List.mem_map_of_mem hwrapper)
      rw [← String.toList_intercalate] at hjoined
      refine ⟨hjoined, fun hempty ↦ ?_⟩
      rw [hempty] at hjoined
      simpa [Deprecations.methodWrapper, Deprecations.wrapper] using List.infix_nil.1 hjoined
    · rw [Deprecations.mem_wrappedClasses, and_iff_right hdeclared]
      rfl

namespace Boxes

def deprecatedEntry (name : String) : MemberEntry :=
  .method { common := { name, deprecated := true } }

/-- A box folds an entry, and each has a deprecated method. -/
def boxes : Policy :=
  { Policy.empty "Boxes" "wx" with foldedBases := [("Box", ["Entry"])] }

def read (_ : String) : Except Error DeclFile := .ok { items := [
  .ofClass {
    common := { name := "Box" }
    bases := [⟨"Entry", []⟩]
    members := [deprecatedEntry "Open"] },
  .ofClass { common := { name := "Entry" }, members := [deprecatedEntry "Clear"] }] }

/-- Opening a box, as it is declared. -/
def opens : Method :=
  { (Method.named "Open").inClass "Box" with info := { name := "Open", deprecated := true } }

/-- Clearing an entry, as it is declared. -/
def clears : Method :=
  { (Method.named "Clear").inClass "Entry" with info := { name := "Clear", deprecated := true } }

end Boxes

open Boxes in
/-- Opening is wrapped for a box. -/
theorem box_opening_wrapped : ({} : Config).noDeprecate = false ∧
    ∃ extraction, boxes.extract {} read = .ok extraction ∧
      ∃ c ∈ View.generatedClasses ⟨boxes, extraction.module⟩, ∃ i code,
        View.interfaceOf ⟨boxes, extraction.module⟩ c = .ok i ∧
        .method opens ∉ i.publicMembers ∧
        (Deprecations.methodWrapper "Box" opens).toList <:+: code.toList ∧
        ∃ front back, Emit.interfaceFile boxes extraction {} {} = Text.unlines (front ++
          ["", "%extend Box \x7b", code, "\x7d;"] ++ back) := by
  have hok : (boxes.extract {} read).toOption.isSome = true := by decide
  obtain ⟨extraction, hextraction⟩ := Option.isSome_iff_exists.1 hok
  have hbox : (boxes.extract {} read).toOption.any (fun extraction ↦
      (View.generatedClasses ⟨boxes, extraction.module⟩).any fun c ↦
        c.overloads == [opens] && boxes.className c.name == "Box" &&
          (View.interfaceOf ⟨boxes, extraction.module⟩ c).toOption.isSome) = true := by
    decide
  rw [hextraction, Option.any_some, List.any_eq_true] at hbox
  obtain ⟨c, hc, hbox⟩ := hbox
  simp only [Bool.and_eq_true, beq_iff_eq] at hbox
  obtain ⟨⟨hoverloads, hname⟩, hinterface⟩ := hbox
  obtain ⟨i, hi⟩ := Option.isSome_iff_exists.1 hinterface
  have hextract := eq_ok_of_toOption hextraction
  have hi := eq_ok_of_toOption hi
  have hname : View.className ⟨boxes, extraction.module⟩ c = "Box" := hname
  obtain ⟨folded, code, -, -, hfile, hsource, -, hmethods⟩ :=
    Policy.wrapped_under_own_name rfl hextract hc hi
  rw [hname] at hfile hsource hmethods
  obtain ⟨hdropped, -, hwrapped, -⟩ :=
    hmethods c List.mem_cons_self [] opens [] hoverloads rfl rfl
  obtain ⟨hcode, hne⟩ := hwrapped hsource
  exact ⟨rfl, extraction, hextract, c, hc, i, code, hi, hdropped .publicAccess, hcode,
    hfile hne {}⟩

open Boxes in
/-- Clearing is no member of a box, which folds the entry, and no generated class wraps it. -/
theorem entry_clearing_lost : ({} : Config).noDeprecate = false ∧
    Deprecations.isWrapped clears = true ∧ clears.isOrdinary = true ∧
    clears.info.protection = .publicAccess ∧
    (boxes.extract {} read).toOption.any (fun extraction ↦
      let view : View := ⟨boxes, extraction.module⟩
      view.generatedClasses.map Class.name == ["Box"] && view.generatedClasses.all fun c ↦
        (view.foldedBases c).toOption.any (·.any (·.overloads.contains clears)) &&
        (view.interfaceOf c).toOption.any (fun i ↦
          !(i.publicMembers ++ i.protectedMembers).any (·.method?.any (· == clears))) &&
        extraction.extendCode boxes (view.className c) ==
          Deprecations.methodWrapper "Box" opens) = true := by
  decide

end Bindery
