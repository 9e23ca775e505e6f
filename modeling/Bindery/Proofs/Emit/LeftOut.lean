import Bindery.Proofs.Emit.Guards
import Bindery.Proofs.Emit.Renames
import Bindery.Proofs.Emit.StubOutline
import Bindery.Proofs.Emit.Wrappers
import Bindery.Proofs.Interface.Growth
import Bindery.Proofs.Interface.Inactive

/-!
What is written for declarations that are left out. The header and the documentation stub of a
module are made from the same declarations. What is ignored is written in neither of them, but for
destructors, which the header declares even so (`Emit.every_outline`, `Emit.every_stubOutline`).
-/

set_option autoImplicit false
set_option relaxedAutoImplicit false

namespace Bindery

/-! ### Registered declarations -/

/-- Of what is left out where it is declared, an interface holds destructors only. -/
def ClassInterface.Filtered (i : ClassInterface) : Prop :=
  ∀ visibility, ∀ member ∈ i.members visibility, member.isInactive = true →
    ∃ m, member = .method m ∧ m.isCtor = false ∧ m.isDtor = true

def InterfaceRegistry.Filtered (registry : InterfaceRegistry) : Prop :=
  ∀ name i, registry.interface? name = some i → i.Filtered

theorem ClassInterface.Filtered.of_within {i j : ClassInterface} (h : i.Filtered)
    (hwithin : i.Within j) : j.Filtered := by
  have hmembers (visibility : Protection) : j.members visibility = i.members visibility := by
    cases visibility with
    | publicAccess => exact hwithin.publicMembers
    | protectedAccess => exact hwithin.protectedMembers
  intro visibility member hmember
  exact h visibility member (hmembers visibility ▸ hmember)

/-- The interface of a class is filtered when it is made. -/
theorem View.filtered_interfaceOf {view : View} {c : Class} {i : ClassInterface}
    (h : view.interfaceOf c = .ok i) : i.Filtered := by
  intro visibility member hmember hinactive
  obtain ⟨folded, hfolded, -⟩ := publicMembers_eq h
  obtain ⟨-, -, -, chain, -, hdestroys, rfl⟩ :=
    (mem_members_of_isInactive h hfolded hinactive).1 hmember
  exact ⟨chain.first, rfl, (ClassTarget.destroys_iff.1 hdestroys).1⟩

theorem Info.ignored_of_isActive {info : Info} (h : info.isActive = true) :
    info.ignored = false := by
  rw [Info.isActive, Bool.and_eq_true, Bool.not_eq_true'] at h
  exact h.1

theorem InterfaceMember.isInactive_of_ignored {member : InterfaceMember} {info : Info}
    (hinfo : member.info? = some info) (hignored : info.ignored = true) :
    member.isInactive = true := by
  rw [isInactive, hinfo, Option.any_some, Info.isActive, hignored]
  rfl

/-- A registered declaration that is no destructor is not ignored. -/
theorem ClassInterface.Filtered.ignored_eq_false {i : ClassInterface} (h : i.Filtered)
    (visibility : Protection) {member : InterfaceMember} (hmember : member ∈ i.members visibility)
    {info : Info} (hinfo : member.info? = some info)
    (hdtor : ∀ m, member = .method m → m.isCtor = false → m.isDtor = false) :
    info.ignored = false := by
  rw [Bool.eq_false_iff]
  intro hignored
  obtain ⟨m, rfl, hctor, hends⟩ :=
    h visibility member hmember (InterfaceMember.isInactive_of_ignored hinfo hignored)
  exact Bool.noConfusion (hends.symm.trans (hdtor m rfl hctor))

theorem Constants.mem_activeDefines {m : Module} {d : Define} :
    d ∈ activeDefines m ↔ .define d ∈ m.items ∧ d.info.ignored = false := by
  rw [activeDefines, List.mem_filterMap]
  constructor
  · rintro ⟨item, hitem, h⟩
    cases item with
    | define other =>
      cases hignored : other.info.ignored with
      | true => simp [hignored] at h
      | false =>
        simp only [hignored, Bool.false_eq_true, if_false, Option.some.injEq] at h
        exact h ▸ ⟨hitem, hignored⟩
    | _ => cases h
  · rintro ⟨hitem, hignored⟩
    exact ⟨_, hitem, by simp [hignored]⟩

namespace Emit

open Bindery.Emit.Part

/-! ### All that is written -/

/-- All declarations that something is written for have a property, wherever they stand. -/
def Part.Every (p : Place → Target → Prop) (parts : List Part) : Prop :=
  ∀ place declared body, (written place declared body).Occurs parts → p place declared

section Every

variable {p : Place → Target → Prop} {parts more : List Part}

theorem every_iff_forall_mem : Every p parts ↔ ∀ place declared body,
    .written place declared body ∈ parts → p place declared ∧ Every p body := by
  constructor
  · intro h place declared body hmem
    exact ⟨h place declared body (.among hmem), fun other target inner hoccurs ↦
      h other target inner (.within hmem hoccurs)⟩
  · intro h place declared body hoccurs
    cases hoccurs with
    | among hmem => exact (h place declared body hmem).1
    | within hmem hinside => exact (h _ _ _ hmem).2 place declared body hinside

@[simp]
theorem every_nil : Every p [] := every_iff_forall_mem.2 fun _ _ _ h ↦ (List.not_mem_nil h).elim

@[simp]
theorem every_append : Every p (parts ++ more) ↔ Every p parts ∧ Every p more := by
  rw [every_iff_forall_mem, @every_iff_forall_mem p parts, @every_iff_forall_mem p more]
  simp only [List.mem_append, or_imp, forall_and]
  exact and_and_and_comm

@[simp]
theorem every_line_cons {text : String} : Every p (.line text :: parts) ↔ Every p parts := by
  rw [every_iff_forall_mem, every_iff_forall_mem]
  simp

@[simp]
theorem every_map_line {texts : List String} : Every p (texts.map .line) := by
  rw [every_iff_forall_mem]
  simp

@[simp]
theorem every_written_cons {place : Place} {declared : Target} {body : List Part} :
    Every p (.written place declared body :: parts) ↔
      (p place declared ∧ Every p body) ∧ Every p parts := by
  rw [every_iff_forall_mem, @every_iff_forall_mem p parts]
  constructor
  · exact fun h ↦ ⟨h _ _ _ List.mem_cons_self,
      fun _ _ _ hmem ↦ h _ _ _ (List.mem_cons_of_mem _ hmem)⟩
  · rintro ⟨hfirst, hrest⟩ place declared body hmem
    rcases List.mem_cons.1 hmem with heq | hmem
    · cases heq
      exact hfirst
    · exact hrest place declared body hmem

theorem every_flatMap {α : Type} {f : α → List Part} {l : List α} :
    Every p (l.flatMap f) ↔ ∀ a ∈ l, Every p (f a) := by
  induction l with
  | nil => simp
  | cons a l ih => rw [List.flatMap_cons, every_append, ih, List.forall_mem_cons]

theorem every_map {α : Type} {f : α → Part} {l : List α} :
    Every p (l.map f) ↔ ∀ a ∈ l, Every p [f a] := by
  rw [← every_flatMap, List.map_eq_flatMap]

theorem every_flatten {groups : List (List Part)} :
    Every p groups.flatten ↔ ∀ parts ∈ groups, Every p parts := by
  rw [← List.flatMap_id, every_flatMap]
  rfl

theorem every_ite {shown : Bool} (h : shown = true → Every p parts) :
    Every p (if shown then parts else []) := by
  cases shown with
  | true => exact h rfl
  | false => exact every_nil

end Every

/-! ### The header -/

/-- A declaration that is not ignored, or a destructor in the body of a class. -/
def IsDeclarable (place : Place) (declared : Target) : Prop :=
  declared.info.ignored = true → place = .member ∧
    ∃ m : Method, declared = .method ⟨m, []⟩ ∧ m.isCtor = false ∧ m.isDtor = true

theorem isDeclarable_of_ignored {place : Place} (declared : Target)
    (h : declared.info.ignored = false) : IsDeclarable place declared :=
  fun hignored ↦ Bool.noConfusion (h.symm.trans hignored)

theorem isDeclarable_of_isActive {place : Place} (declared : Target)
    (h : declared.info.isActive = true) : IsDeclarable place declared :=
  isDeclarable_of_ignored _ (Info.ignored_of_isActive h)

theorem every_valueParts {p : Place → Target → Prop} {place : Place} {indent : String}
    {values : List EnumValue} (h : ∀ v ∈ values, p place (.value v)) :
    Every p (valueParts place indent values) := by
  induction values with
  | nil => exact every_nil
  | cons v rest ih =>
    rw [List.forall_mem_cons] at h
    cases rest with
    | nil => simp [valueParts, h.1]
    | cons next rest =>
      rw [valueParts, every_written_cons]
      · exact ⟨⟨h.1, by simp⟩, ih h.2⟩
      · simp

theorem ignored_of_mem_shownValues {e : Enumeration} {v : EnumValue} (hv : v ∈ shownValues e) :
    (Target.value v).info.ignored = false := by
  simpa [Target.info] using (List.mem_filter.1 hv).2

theorem every_memberEnumPart {place : Place} {indent className : String} {e : Enumeration}
    (h : e.info.ignored = false) :
    Every IsDeclarable [memberEnumPart place indent className e] := by
  have hvalues : Every IsDeclarable (valueParts place (indent ++ "  ") (shownValues e)) :=
    every_valueParts fun v hv ↦ isDeclarable_of_ignored _ (ignored_of_mem_shownValues hv)
  simp [memberEnumPart, isDeclarable_of_ignored (.enum e) h, hvalues]

theorem isActive_of_isShownInside {info : Info} (h : isShownInside info = true) :
    info.isActive = true := by
  rw [isShownInside, Bool.and_eq_true] at h
  exact h.2

theorem every_innerMethodParts (indent className : String) (chain : Overloads) :
    Every IsDeclarable (innerMethodParts indent className chain) := by
  refine every_map.2 fun m hm ↦ ?_
  have hactive := (List.mem_filter.1 hm).2
  rw [Bool.and_eq_true] at hactive
  have hm : IsDeclarable .inside (.method ⟨m, []⟩) := isDeclarable_of_isActive _ hactive.1
  simp [hm]

mutual

theorem every_innerClassParts (indent : String) : ∀ c : Class,
    Every IsDeclarable (innerClassParts indent c)
  | ⟨info, kind, _, members, _, _, _, _⟩ => by
    have hmembers := every_innerMembersParts (indent ++ "  ") info.name members
    cases kind <;> simp [innerClassParts, hmembers]

theorem every_innerMemberParts (indent className : String) : ∀ m : Member,
    Every IsDeclarable (innerMemberParts indent className m)
  | .method chain => every_ite fun _ ↦ every_innerMethodParts indent className chain
  | .variable v => every_ite fun hshown ↦ by
    have hv : IsDeclarable .inside (.member v) :=
      isDeclarable_of_isActive _ (isActive_of_isShownInside hshown)
    simp [hv]
  | .enum e => every_ite fun hshown ↦ by
    rw [Bool.and_eq_true] at hshown
    exact every_memberEnumPart (Info.ignored_of_isActive (isActive_of_isShownInside hshown.1))
  | .inner c => every_ite fun hshown ↦ by
    have hc : IsDeclarable .inside (.ofClass c) :=
      isDeclarable_of_isActive _ (isActive_of_isShownInside hshown)
    simp [hc, every_innerClassParts indent c]

theorem every_innerMembersParts (indent className : String) : ∀ members : List Member,
    Every IsDeclarable (innerMembersParts indent className members)
  | [] => every_nil
  | m :: members => by
    rw [innerMembersParts, every_append]
    exact ⟨every_innerMemberParts indent className m,
      every_innerMembersParts indent className members⟩

end

namespace ClassScope

variable {scope : ClassScope}

theorem every_memberParts (h : scope.interface.Filtered) (visibility : Protection)
    {member : InterfaceMember} (hmember : member ∈ scope.interface.members visibility) :
    Every IsDeclarable (scope.memberParts member) := by
  have hignored {info : Info} (hinfo : member.info? = some info)
      (hdtor : ∀ m, member = .method m → m.isCtor = false → m.isDtor = false) :
      info.ignored = false :=
    h.ignored_eq_false visibility hmember hinfo hdtor
  cases member with
  | inner c =>
    have hc : IsDeclarable .member (.ofClass c) :=
      isDeclarable_of_ignored _ (hignored rfl fun _ heq ↦ by cases heq)
    simp [memberParts, hc, every_innerClassParts]
  | method m =>
    have hm : IsDeclarable .member (.method ⟨m, []⟩) := by
      intro hleft
      obtain ⟨_, heq, hends⟩ :=
        h visibility _ hmember (InterfaceMember.isInactive_of_ignored rfl hleft)
      cases heq
      exact ⟨rfl, m, rfl, hends⟩
    simp only [memberParts]
    split_ifs <;> simp [hm]
  | enum e => exact every_memberEnumPart (hignored rfl fun _ heq ↦ by cases heq)
  | «variable» v =>
    have hv : IsDeclarable .member (.member v) :=
      isDeclarable_of_ignored _ (hignored rfl fun _ heq ↦ by cases heq)
    simp [memberParts, hv]
  | custom decl => exact every_map_line

theorem every_declarationParts (h : scope.interface.Filtered) (base : Option String) :
    Every IsDeclarable (scope.declarationParts base) := by
  have hpublic : Every IsDeclarable (scope.interface.publicMembers.flatMap scope.memberParts) :=
    every_flatMap.2 fun member hmember ↦ every_memberParts h .publicAccess hmember
  have hprotected :
      Every IsDeclarable (scope.interface.protectedMembers.flatMap scope.memberParts) :=
    every_flatMap.2 fun member hmember ↦ every_memberParts h .protectedAccess hmember
  have hbody : Every IsDeclarable scope.bodyParts := by
    simp only [bodyParts, every_append]
    refine ⟨⟨⟨?_, ?_⟩, hpublic⟩, ?_⟩ <;> split <;> simp [hprotected]
  cases base <;> simp [declarationParts, hbody]

end ClassScope

variable {view : View} {registry : InterfaceRegistry} {rules : TypemapRules} {parts : List Part}

theorem every_classParts (hfiltered : registry.Filtered) {c : Class}
    (hignored : c.info.ignored = false) (h : classParts view registry rules c = .ok parts) :
    Every IsDeclarable parts := by
  obtain ⟨i, hi, h⟩ := bind_eq_ok.1 h
  obtain ⟨base, -, h⟩ := bind_eq_ok.1 h
  cases h
  have hc : IsDeclarable .item (.ofClass c) := isDeclarable_of_ignored _ hignored
  have hi : i.Filtered := hfiltered _ i (InterfaceRegistry.expect_eq_ok_iff.1 hi)
  simp [hc, ClassScope.every_declarationParts, hi]

theorem every_typedefParts (m : Module) : Every IsDeclarable (typedefParts m) := by
  refine every_flatMap.2 fun item _ ↦ ?_
  cases item with
  | typedef t =>
    refine every_ite fun hactive ↦ ?_
    simp [isDeclarable_of_isActive (.typedef t) hactive]
  | _ => exact every_nil

theorem every_variableParts (m : Module) : Every IsDeclarable (variableParts m) := by
  refine every_flatMap.2 fun item _ ↦ ?_
  cases item with
  | «variable» v =>
    refine every_ite fun hactive ↦ ?_
    simp [isDeclarable_of_isActive (.variable v) hactive]
  | _ => exact every_nil

theorem every_enumParts (m : Module) : Every IsDeclarable (enumParts m) := by
  refine every_flatMap.2 fun item _ ↦ ?_
  cases item with
  | enum e =>
    refine every_ite fun hshown ↦ ?_
    rw [Bool.and_eq_true] at hshown
    have hvalues : Every IsDeclarable ((shownValues e).map valueConstantPart) := by
      refine every_map.2 fun v hv ↦ ?_
      simp [valueConstantPart, isDeclarable_of_ignored _ (ignored_of_mem_shownValues hv)]
    cases e.isAnonymous <;>
      simp [isDeclarable_of_isActive (.enum e) hshown.1, hvalues]
  | _ => exact every_nil

theorem every_defineParts (m : Module) : Every IsDeclarable (defineParts m) := by
  have hconstants : Every IsDeclarable ((Constants.activeDefines m).flatMap constantParts) := by
    refine every_flatMap.2 fun d hd ↦ ?_
    have hignored := (Constants.mem_activeDefines.1 hd).2
    unfold constantParts
    split <;> simp [isDeclarable_of_ignored (.define d) hignored]
  unfold defineParts
  extract_lets parts
  split
  · exact every_nil
  · exact every_line_cons.2 hconstants

theorem every_functionParts (rules : TypemapRules) (m : Module) :
    Every IsDeclarable (functionParts rules m) := by
  refine every_flatMap.2 fun item _ ↦ ?_
  cases item with
  | function chain =>
    refine every_map.2 fun f hf ↦ ?_
    have hactive := (List.mem_filter.1 hf).2
    rw [Bool.and_eq_true] at hactive
    simp [isDeclarable_of_isActive (.method ⟨f, []⟩) hactive.1]
  | _ => exact every_nil

/-- What a header has for an ignored declaration, it has for a destructor in the body of a class. -/
theorem every_outline (hfiltered : registry.Filtered)
    (h : outline view registry rules = .ok parts) : Every IsDeclarable parts := by
  have hclasses (classes : List (List Part)) (hall : ∀ parts ∈ classes, Every IsDeclarable parts) :
      Every IsDeclarable (outlineWith view rules classes) := by
    simp only [outlineWith, every_append, every_map_line, and_true, true_and]
    exact ⟨⟨⟨⟨⟨every_ite fun _ ↦ every_typedefParts _, every_flatten.2 hall⟩,
      every_ite fun _ ↦ every_variableParts _⟩, every_ite fun _ ↦ every_enumParts _⟩,
      every_ite fun _ ↦ every_defineParts _⟩, every_ite fun _ ↦ every_functionParts rules _⟩
  rw [outline] at h
  split at h
  · obtain ⟨classes, hmap, h⟩ := bind_eq_ok.1 h
    cases h
    refine hclasses classes fun parts hparts ↦ ?_
    obtain ⟨c, hc, hclass⟩ := exists_of_mem_mapM hmap hparts
    exact every_classParts hfiltered (View.mem_generatedClasses hc).2 hclass
  · cases h
    exact hclasses [] (by simp)

/-! ### The documentation stub -/

/-- A declaration that is left out neither of the interface nor of the documentation. -/
def IsListable (_ : Place) (declared : Target) : Prop :=
  declared.info.ignored = false ∧ declared.info.ignoreDoc = false

theorem every_enumStubParts {e : Enumeration} (place : Place) (indent : String) :
    Every IsListable (enumStubParts place indent e) := by
  rw [enumStubParts, every_append]
  refine ⟨every_map_line, every_map.2 fun v hv ↦ ?_⟩
  have hv : IsListable place (.value v) := by
    simpa [IsListable, Target.info] using (List.mem_filter.1 hv).2
  simp [hv]

theorem every_constantsParts (m : Module) : Every IsListable (constantsParts m) := by
  refine every_flatMap.2 fun item hitem ↦ ?_
  have hlisted : item.info.ignored = false ∧ item.info.ignoreDoc = false := by
    simpa using (List.mem_filter.1 hitem).2
  cases item with
  | enum e =>
    have he : IsListable .item (.enum e) := hlisted
    exact every_ite fun _ ↦ by simp [he, every_enumStubParts]
  | «variable» v =>
    have hv : IsListable .item (.variable v) := hlisted
    simp [constantStubParts, hv]
  | define d =>
    have hd : IsListable .item (.define d) := hlisted
    exact every_ite fun _ ↦ by simp [hd]
  | _ => exact every_nil

theorem every_memberEnumStubParts {i : ClassInterface} (hfiltered : i.Filtered) :
    Every IsListable (memberEnumStubParts i) := by
  refine every_flatMap.2 fun member hmember ↦ ?_
  cases member with
  | enum e =>
    have hignored : e.info.ignored = false :=
      hfiltered.ignored_eq_false .publicAccess hmember rfl fun _ heq ↦ by cases heq
    cases hdoc : e.info.ignoreDoc with
    | true => simp [hdoc]
    | false =>
      have he : IsListable .member (.enum e) := ⟨hignored, hdoc⟩
      simp [hdoc, he, every_enumStubParts]
  | _ => exact every_nil

/-- A documented method is no destructor, so that it is not ignored. -/
theorem isListable_of_mem_documentedMethods {i : ClassInterface} (hfiltered : i.Filtered)
    {m : Method} (hm : m ∈ documentedMethods i) : IsListable .member (.method ⟨m, []⟩) := by
  obtain ⟨hmember, hdocumented⟩ := mem_documentedMethods.1 hm
  simp only [isDocumented, Bool.and_eq_true, Bool.not_eq_true'] at hdocumented
  obtain ⟨⟨hdtor, hdoc⟩, -⟩ := hdocumented
  refine ⟨hfiltered.ignored_eq_false .publicAccess hmember rfl ?_, hdoc⟩
  rintro _ heq -
  cases heq
  exact hdtor

theorem every_methodStubParts {name : String} {methods : List Method}
    (h : ∀ m ∈ methods, IsListable .member (.method ⟨m, []⟩)) :
    Every IsListable (methodStubParts rules name methods) := by
  unfold methodStubParts
  split
  · simp [h _ List.mem_cons_self]
  · rw [every_append, every_line_cons, every_map]
    refine ⟨fun m hm ↦ ?_, by simp⟩
    simp [overloadPart, h m hm]

theorem every_classStubPart (hfiltered : registry.Filtered) {c : Class} {part : Part}
    (hc : IsListable .item (.ofClass c)) (h : classStubPart view registry rules c = .ok part) :
    Every IsListable [part] := by
  obtain ⟨i, hi, h⟩ := bind_eq_ok.1 h
  obtain ⟨base, -, h⟩ := bind_eq_ok.1 h
  cases h
  have hi : i.Filtered := hfiltered _ i (InterfaceRegistry.expect_eq_ok_iff.1 hi)
  have hmethods (group : String × List Method) (hgroup : group ∈ stubMethods view.policy c i) :
      Every IsListable (methodStubParts rules group.1 group.2) := by
    refine every_methodStubParts fun m hm ↦ ?_
    rw [stubMethods_eq_group] at hgroup
    exact isListable_of_mem_documentedMethods hi
      (Table.exists_mem_group_iff.1 ⟨group.2, hgroup, hm⟩).1
  simp only [every_written_cons, every_append, every_map_line, every_nil, hc,
    every_memberEnumStubParts hi, and_true, true_and]
  exact every_flatMap.2 hmethods

/-- Nothing in a stub is for an ignored declaration, whatever is said about its documentation. -/
theorem every_stubOutline (hfiltered : registry.Filtered)
    (h : stubOutline view registry rules = .ok parts) : Every IsListable parts := by
  obtain ⟨classes, hmap, h⟩ := bind_eq_ok.1 h
  cases h
  have hclasses : Every IsListable (classes.flatMap fun part ↦ [part]) := by
    refine every_flatMap.2 fun part hpart ↦ ?_
    obtain ⟨c, hc, hclass⟩ := exists_of_mem_mapM hmap hpart
    obtain ⟨hgenerated, hdoc⟩ := List.mem_filter.1 hc
    have hc : IsListable .item (.ofClass c) :=
      ⟨(View.mem_generatedClasses hgenerated).2, by simpa [Target.info] using hdoc⟩
    exact every_classStubPart hfiltered hc hclass
  rw [List.flatMap_singleton'] at hclasses
  simp only [stubOutlineWith, every_append, every_map_line, every_constantsParts, hclasses,
    and_self]

end Emit

end Bindery
