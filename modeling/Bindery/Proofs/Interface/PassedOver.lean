import Bindery.Proofs.Interface.Folding

/-!
The classes that a hierarchy passes over because they are folded. One walk reaches all bases that
are not ignored, each from the class below it (`Base.reached`): the ones that this class does not
fold are the ancestors (`baseList_eq`), and the others are passed over. What the class at the bottom
passes over because it folds it is not lost, since its members are registered instead
(`passed_over_registered`). That is not said of what is folded further up, nor of inner classes,
constructors, templates and enumerations without values.
-/

set_option autoImplicit false
set_option relaxedAutoImplicit false

namespace Bindery

open ClassTarget (isShown isHidden isEntered unhidden)

/-! ### The walk up a hierarchy -/

mutual

/-- The names in a hierarchy that are not ignored, each behind the name of the class that it is
reached from. -/
def Base.reached (policy : Policy) (below : String) : Base → List (String × String)
  | ⟨name, bases⟩ => (below, name) :: Base.reachedOf policy name bases

def Base.reachedOf (policy : Policy) (below : String) : List Base → List (String × String)
  | [] => []
  | base :: bases =>
    (if (policy.ignoredBasesOf below).contains base.name then []
      else Base.reached policy below base) ++ Base.reachedOf policy below bases

end

/-- Whether a class folds a base. -/
def Policy.folds (policy : Policy) (step : String × String) : Bool :=
  (policy.foldedBasesOf step.1).contains step.2

/-- The bases that are passed over, each behind the name of the class that folds it. -/
def View.passedOver (view : View) (c : Class) : List (String × String) :=
  (Base.reachedOf view.policy c.name c.bases).filter view.policy.folds

mutual

theorem Base.ancestors_eq (policy : Policy) (below : String) (base : Base) :
    Base.ancestors policy (policy.foldedBasesOf below) base =
      ((base.reached policy below).filter (!policy.folds ·)).map Prod.snd := by
  obtain ⟨name, bases⟩ := base
  rw [Base.ancestors, Base.reached, Base.ancestorsOf_eq policy name bases, List.filter_cons,
    Policy.folds]
  cases (policy.foldedBasesOf below).contains name <;> rfl

theorem Base.ancestorsOf_eq (policy : Policy) (below : String) (bases : List Base) :
    Base.ancestorsOf policy (policy.foldedBasesOf below) (policy.ignoredBasesOf below) bases =
      ((Base.reachedOf policy below bases).filter (!policy.folds ·)).map Prod.snd := by
  cases bases with
  | nil => rfl
  | cons base bases =>
    rw [Base.ancestorsOf, Base.reachedOf, List.filter_append, List.map_append,
      ← Base.ancestorsOf_eq policy below bases]
    split
    · rfl
    · rw [Base.ancestors_eq policy below base]

end

namespace View

variable {view : View} {c base : Class} {interface : ClassInterface}

/-- What is reached and not passed over is an ancestor. -/
theorem baseList_eq (view : View) (c : Class) : view.baseList c = addAllNew []
    (((Base.reachedOf view.policy c.name c.bases).filter (!view.policy.folds ·)).map
      Prod.snd) := by
  rw [baseList, Base.ancestorsOf_eq]

theorem mem_foldedBasesOf_of_passedOver {below name : String}
    (h : (below, name) ∈ view.passedOver c) : name ∈ view.policy.foldedBasesOf below :=
  List.contains_iff_mem.1 (List.mem_filter.1 h).2

end View

/-! ### What is registered in its place -/

/-- A method is written out, and found by its signature if another class can override it. -/
structure ClassInterface.HoldsMethod (interface : ClassInterface) (m : Method) : Prop where
  member : .method m ∈ interface.publicMembers
  entered : isEntered m = true → m.signature ∈ interface.methods.keys

/-- The public members of a class stand in an interface, behind registered methods: its variables,
its enumerations with a value, and its methods that none of those registered up to there hides. -/
structure ClassInterface.Holds (interface : ClassInterface) (c : Class) (registered : List Method) :
    Prop where
  variable_mem : ∀ v ∈ c.memberVariables, isShown .publicAccess v.info = true →
    .variable v ∈ interface.publicMembers
  enum_mem : ∀ e ∈ c.enums, isShown .publicAccess e.info = true → e.hasActiveValues = true →
    .enum e ∈ interface.publicMembers
  registered_mem : ∀ m ∈ registered, interface.HoldsMethod m
  method_mem : ∀ before m after, c.publicMethods = before ++ m :: after →
    isHidden (registered ++ unhidden registered before) m = true ∨ interface.HoldsMethod m

namespace ClassTarget

variable {target : ClassTarget} {visibility : Protection} {seen : List Method}
  {members : List Member}

theorem variable_mem_entries {v : MemberVariable} (hv : .variable v ∈ members)
    (hshown : isShown visibility v.info = true) :
    .variable v ∈ target.entries visibility seen members := by
  have hmem : v ∈ (target.entries visibility seen members).filterMap
      InterfaceMember.memberVariable? := by
    rw [variables_entries]
    exact List.mem_filter.2 ⟨List.mem_filterMap.2 ⟨_, hv, rfl⟩, hshown⟩
  obtain ⟨member, hmember, heq⟩ := List.mem_filterMap.1 hmem
  cases member <;> cases heq
  exact hmember

theorem enum_mem_entries {e : Enumeration} (he : .enum e ∈ members)
    (hshown : isShown visibility e.info = true) (hactive : e.hasActiveValues = true) :
    .enum e ∈ target.entries visibility seen members := by
  have hmem : e ∈ (target.entries visibility seen members).filterMap InterfaceMember.enum? := by
    rw [enums_entries]
    exact List.mem_filter.2 ⟨List.mem_filterMap.2 ⟨_, he, rfl⟩, by rw [hshown, hactive]; rfl⟩
  obtain ⟨member, hmember, heq⟩ := List.mem_filterMap.1 hmem
  cases member <;> cases heq
  exact hmember

end ClassTarget

namespace View

variable {view : View} {c base : Class} {interface : ClassInterface}

/-- All methods of a class and of the bases that it folds are held, unless they are hidden. -/
theorem holdsMethod_of_registered {folded : List Class} {m : Method}
    (hinterface : view.interfaceOf c = .ok interface) (hfolded : view.foldedBases c = .ok folded)
    (hm : m ∈ Class.registeredMethods (c :: folded)) : interface.HoldsMethod m := by
  obtain ⟨_, hsame, hmembers, hentered⟩ := publicMembers_eq hinterface
  cases hfolded.symm.trans hsame
  have hentry : .method m ∈ view.publicEntries c [] (c :: folded) := by
    refine ClassTarget.method_mem_entries ?_
    rw [List.flatMap_assoc]
    exact hm
  refine ⟨?_, hentered m hentry⟩
  rw [hmembers]
  exact List.mem_append_left _ (List.mem_append_right _ hentry)

/-- What a class passes over because it folds it is registered for the class, behind the methods of
the class and of the bases that are folded before. -/
theorem passed_over_registered (hinterface : view.interfaceOf c = .ok interface)
    (hpassed : (c.name, base.name) ∈ view.passedOver c)
    (hbase : view.module.findClass? base.name = some base) :
    ∃ earlier later, view.foldedBases c = .ok (earlier ++ base :: later) ∧
      (∀ other ∈ earlier, other.name ∈ view.policy.foldedBasesOf c.name) ∧
      interface.Holds base (Class.registeredMethods (c :: earlier)) := by
  obtain ⟨folded, hfolded, hmembers, -⟩ := publicMembers_eq hinterface
  obtain ⟨named, more, hnamed, hfresh⟩ :=
    List.eq_append_cons_of_mem (mem_foldedBasesOf_of_passedOver hpassed)
  obtain ⟨earlier, later, rfl, hearlier, -⟩ := foldedBases_split hfolded hnamed hfresh hbase
  have hheld (m : Method) (hm : m ∈ Class.registeredMethods (c :: earlier) ++
      unhidden (Class.registeredMethods (c :: earlier)) base.publicMethods) :
      interface.HoldsMethod m := by
    refine holdsMethod_of_registered hinterface hfolded ?_
    have hclasses : c :: (earlier ++ base :: later) = (c :: earlier ++ [base]) ++ later := by simp
    rw [hclasses, Class.registeredMethods_append, Class.registeredMethods_append,
      List.flatMap_singleton]
    exact List.mem_append_left _ hm
  have hown : base ∈ c :: (earlier ++ base :: later) :=
    List.mem_cons_of_mem c (List.mem_append_right _ List.mem_cons_self)
  have hmember {member : Member} (h : member ∈ base.members) :
      member ∈ (c :: (earlier ++ base :: later)).flatMap Class.members :=
    List.mem_flatMap.2 ⟨base, hown, h⟩
  have hentry {member : InterfaceMember}
      (h : member ∈ view.publicEntries c [] (c :: (earlier ++ base :: later))) :
      member ∈ interface.publicMembers := by
    rw [hmembers]
    exact List.mem_append_left _ (List.mem_append_right _ h)
  refine ⟨earlier, later, hfolded, fun other hother ↦ ?_, fun v hv hshown ↦ ?_,
    fun e he hshown hactive ↦ ?_, fun m hm ↦ hheld m (List.mem_append_left _ hm),
    fun before m after hmethods ↦ ?_⟩
  · have hother := hearlier ▸ List.mem_map_of_mem (f := Class.name) hother
    rw [hnamed]
    exact List.mem_append_left _ ((mem_addAllNew.1 hother).resolve_left List.not_mem_nil)
  · obtain ⟨member, hv, heq⟩ := List.mem_filterMap.1 hv
    cases member <;> cases heq
    exact hentry (ClassTarget.variable_mem_entries (hmember hv) hshown)
  · obtain ⟨member, he, heq⟩ := List.mem_filterMap.1 he
    cases member <;> cases heq
    exact hentry (ClassTarget.enum_mem_entries (hmember he) hshown hactive)
  · cases hhidden :
        isHidden (Class.registeredMethods (c :: earlier) ++ unhidden _ before) m with
    | true => exact .inl rfl
    | false =>
      refine .inr (hheld m (List.mem_append_right _ ?_))
      rw [hmethods, ClassTarget.unhidden_append, unhidden, hhidden]
      exact List.mem_append_right _ List.mem_cons_self

end View

open Folds in
/-- What the combo box passes over is the pane and the entry, and it holds the entry behind its own
methods and those of the pane. -/
theorem combos_pass_over_entry :
    combos.passedOver combo = [("Combo", "Pane"), ("Combo", "Entry")] ∧
      ∃ interface, combos.interfaceOf combo = .ok interface ∧
        interface.Holds entry (Class.registeredMethods [combo, pane]) := by
  have hpassed : combos.passedOver combo = [("Combo", "Pane"), ("Combo", "Entry")] := by
    decide +kernel
  have hok : (combos.interfaceOf combo).toOption.isSome = true := by decide +kernel
  obtain ⟨interface, hinterface⟩ := Option.isSome_iff_exists.1 hok
  have hentry : (combo.name, entry.name) ∈ combos.passedOver combo := by
    rw [hpassed]
    decide
  have hbase : combos.module.findClass? "Entry" = some entry := rfl
  obtain ⟨earlier, later, hfolded, -, hholds⟩ :=
    View.passed_over_registered (eq_ok_of_toOption hinterface) hentry hbase
  have hbases : combos.foldedBases combo = .ok [pane, entry] := rfl
  have hsplit : [pane, entry] = earlier ++ entry :: later :=
    Except.ok.inj (hbases.symm.trans hfolded)
  have hearlier : earlier = [pane] := by
    rcases earlier with _ | ⟨first, _ | ⟨second, rest⟩⟩
    · exact absurd (congrArg Class.name (List.cons.inj hsplit).1) (by decide)
    · rw [(List.cons.inj hsplit).1]
    · simpa using congrArg List.length hsplit
  exact ⟨hpassed, interface, eq_ok_of_toOption hinterface, hearlier ▸ hholds⟩

namespace Folds

def sheet : Class where
  info := { name := "Sheet" }
  members := [.variable (.named "Sheet" "width" "int")]

def pick : Method := { (Method.named "Pick").inClass "Box" with isTemplate := true }

def mode : Enumeration where
  info := { name := "Mode" }
  isAnonymous := false
  values := [{ info := { name := "Plain", ignored := true } }]

def mark : Class where
  info := { name := "Mark" }

def box : Class where
  info := { name := "Box" }
  bases := [⟨"Sheet", []⟩]
  members := [.method ⟨(Method.named "Select").inClass "Box", []⟩, .method ⟨pick, []⟩,
    .method ⟨Method.ctorOf "Box", []⟩, .enum mode, .inner mark]

def list : Class where
  info := { name := "List" }
  bases := [⟨"Box", [⟨"Sheet", []⟩]⟩]
  members := [.method ⟨(Method.named "Open").inClass "List", []⟩]

/-- A list folds a box, which folds a sheet. -/
def lists : View where
  policy := { Policy.empty "Lists" "wx" with
    foldedBases := [("List", ["Box"]), ("Box", ["Sheet"])] }
  module := { name := "Lists", items := [.ofClass sheet, .ofClass box, .ofClass list] }

end Folds

open Folds in
/-- Of all public members of a box and a sheet, a list that passes over both holds one method: not
the template, the constructor, the enumeration without values and the inner class of the box, and
nothing of the sheet. No registered method hides the ones that are missing. -/
theorem lists_drop_folded_members :
    lists.passedOver list = [("List", "Box"), ("Box", "Sheet")] ∧
      [pick, Method.ctorOf "Box"] ⊆ box.overloads ∧ mode ∈ box.enums ∧
      box.innerClasses.length = 1 ∧ sheet.memberVariables.length = 1 ∧
      ([pick.info, (Method.ctorOf "Box").info, mode.info, mark.info] ++
        sheet.memberVariables.map (·.info)).all (isShown .publicAccess) = true ∧
      ((lists.interfaceOf list).toOption.any fun interface ↦
        (interface.publicMembers.filterMap InterfaceMember.method?).map Method.signature ==
            ["Open()", "Select()"] &&
          interface.publicMembers.length == 2 &&
          [pick, Method.ctorOf "Box"].all fun m ↦
            !isHidden (interface.publicMembers.filterMap InterfaceMember.method?) m) = true := by
  decide +kernel

end Bindery
