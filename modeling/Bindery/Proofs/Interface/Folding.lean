import Mathlib.Data.List.Nodup
import Bindery.Proofs.Interface.Layers

/-!
What a class takes from a base that it folds. The policy may name the base any number of times: its
members are entered at the first of them (`foldedBases_split`), behind the members of the class and
of the bases named earlier. There each variable, each enumeration with a value and each method that
nothing registered hides is entered once (`Class.Contributes`), which
`folded_base_contributes_once` puts together.
-/

set_option autoImplicit false
set_option relaxedAutoImplicit false

namespace Bindery

open ClassTarget (isShown isHidden unhidden ordinaryMethods)

/-! ### The folded bases -/

theorem exists_addAllNew_eq_append {α : Type} [BEq α] (set more : List α) :
    ∃ added, addAllNew set more = set ++ added := by
  induction more generalizing set with
  | nil => exact ⟨[], (List.append_nil set).symm⟩
  | cons a more ih =>
    obtain ⟨added, hadded⟩ := ih (addNew set a)
    rw [addAllNew, List.foldl_cons, ← addAllNew, hadded, addNew]
    split
    · exact ⟨added, rfl⟩
    · exact ⟨a :: added, List.append_assoc ..⟩

/-- An element stands behind those that were added before it was first. -/
theorem addAllNew_append_cons {α : Type} [BEq α] [LawfulBEq α] {named : List α} {a : α}
    (hfresh : a ∉ named) (more : List α) :
    ∃ added, addAllNew [] (named ++ a :: more) = addAllNew [] named ++ a :: added := by
  have hnot : ¬(addAllNew [] named).contains a = true := fun h ↦
    (mem_addAllNew.1 (List.contains_iff_mem.1 h)).elim List.not_mem_nil hfresh
  obtain ⟨added, hadded⟩ := exists_addAllNew_eq_append (addAllNew [] named ++ [a]) more
  refine ⟨added, ?_⟩
  rw [addAllNew, List.foldl_append, List.foldl_cons, ← addAllNew, ← addAllNew, addNew,
    if_neg hnot, hadded, List.append_assoc]
  rfl

namespace View

variable {view : View} {c base : Class}

theorem name_of_findClass? {m : Module} {name : String} (h : m.findClass? name = some base) :
    base.name = name := by
  simpa using List.find?_some h

/-- The folded bases are those that the policy names, in its order and each once. -/
theorem foldedBases_eq_ok {folded : List Class} (h : view.foldedBases c = .ok folded) :
    folded.map Class.name = addAllNew [] (view.policy.foldedBasesOf c.name) ∧
      ∀ base ∈ folded, view.module.findClass? base.name = some base := by
  unfold foldedBases at h
  generalize addAllNew [] (view.policy.foldedBasesOf c.name) = names at h ⊢
  induction names generalizing folded with
  | nil =>
    cases h
    exact ⟨rfl, fun _ h ↦ (List.not_mem_nil h).elim⟩
  | cons name names ih =>
    rw [List.mapM_cons] at h
    obtain ⟨base, hbase, h⟩ := bind_eq_ok.1 h
    obtain ⟨bases, hbases, h⟩ := bind_eq_ok.1 h
    cases h
    split at hbase
    · rename_i hfound
      cases hbase
      have hname := name_of_findClass? hfound
      obtain ⟨hnames, hrest⟩ := ih hbases
      exact ⟨by rw [List.map_cons, hname, hnames],
        List.forall_mem_cons.2 ⟨hname ▸ hfound, hrest⟩⟩
    · cases hbase

/-- The folded bases are split by a base that the policy names, at the first of its names. -/
theorem foldedBases_split {folded : List Class} {named more : List String} {name : String}
    (h : view.foldedBases c = .ok folded)
    (hnamed : view.policy.foldedBasesOf c.name = named ++ name :: more) (hfresh : name ∉ named)
    (hbase : view.module.findClass? name = some base) :
    ∃ earlier later, folded = earlier ++ base :: later ∧
      earlier.map Class.name = addAllNew [] named ∧ name ∉ later.map Class.name := by
  obtain ⟨added, hadded⟩ := addAllNew_append_cons hfresh more
  obtain ⟨hnames, hfound⟩ := foldedBases_eq_ok h
  have hdistinct := nodup_addAllNew List.nodup_nil (named ++ name :: more)
  rw [hadded] at hdistinct
  rw [hnamed, hadded] at hnames
  obtain ⟨earlier, rest, rfl, hearlier, hrest⟩ := List.map_eq_append_iff.1 hnames
  obtain ⟨head, later, rfl, hhead, hlater⟩ := List.map_eq_cons_iff.1 hrest
  have hmem := hfound head (List.mem_append_right _ List.mem_cons_self)
  rw [hhead, hbase] at hmem
  cases hmem
  exact ⟨earlier, later, rfl, hearlier,
    hlater ▸ (List.nodup_cons.1 (List.nodup_append.1 hdistinct).2.1).1⟩

end View

/-! ### What a folded base adds -/

namespace Class

/-- The methods of a class that belong to the public section, unless something hides them. -/
def publicMethods (c : Class) : List Method := c.members.flatMap (ordinaryMethods .publicAccess)

theorem mem_publicMethods {c : Class} {m : Method} :
    m ∈ c.publicMethods ↔ ∃ chain ∈ c.methods, chain.first.isOrdinary = true ∧ m ∈ chain.all ∧
      isShown .publicAccess m.info = true ∧ m.isTemplate = false := by
  have hchain (chain : Overloads) : m ∈ ordinaryMethods .publicAccess (.method chain) ↔
      chain.first.isOrdinary = true ∧ m ∈ chain.all ∧ isShown .publicAccess m.info = true ∧
        m.isTemplate = false := by
    rw [ordinaryMethods]
    split <;> simp_all [ClassTarget.shownMethods]
  simp only [publicMethods, methods, List.mem_flatMap, List.mem_filterMap]
  constructor
  · rintro ⟨member, hmember, hm⟩
    cases member with
    | method chain => exact ⟨chain, ⟨_, hmember, rfl⟩, (hchain chain).1 hm⟩
    | _ => exact (List.not_mem_nil hm).elim
  · rintro ⟨chain, ⟨member, hmember, hmethods⟩, hm⟩
    cases member with
    | method own =>
      cases hmethods
      exact ⟨_, hmember, (hchain chain).2 hm⟩
    | _ => cases hmethods

/-- The methods of some classes that are registered one after another. Constructors and destructors
are none of them: they are written out, and hide nothing. -/
def registeredMethods (classes : List Class) : List Method :=
  unhidden [] (classes.flatMap publicMethods)

theorem registeredMethods_append (classes more : List Class) :
    registeredMethods (classes ++ more) = registeredMethods classes ++
      unhidden (registeredMethods classes) (more.flatMap publicMethods) := by
  simp only [registeredMethods, List.flatMap_append, ClassTarget.unhidden_append, List.nil_append]

/-- What a class contributes to a section, behind registered methods. -/
structure Contributes (c : Class) (registered : List Method) (entries : List InterfaceMember) :
    Prop where
  variable_once : ∀ v ∈ c.memberVariables, isShown .publicAccess v.info = true →
    (entries.filterMap InterfaceMember.memberVariable?).count v = 1
  enum_once : ∀ e ∈ c.enums, isShown .publicAccess e.info = true → e.hasActiveValues = true →
    (entries.filterMap InterfaceMember.enum?).count e = 1
  method_once : ∀ before m after, c.publicMethods = before ++ m :: after →
    (entries.filterMap InterfaceMember.method?).count m =
      if isHidden (registered ++ unhidden registered before) m then 0 else 1

end Class

namespace View

variable {view : View} {c base : Class} {interface : ClassInterface}

theorem publicEntries_append (seen : List Method) (classes more : List Class) :
    view.publicEntries c seen (classes ++ more) = view.publicEntries c seen classes ++
      view.publicEntries c (seen ++ unhidden seen (classes.flatMap Class.publicMethods)) more := by
  simp only [publicEntries, List.flatMap_append, ClassTarget.entries_append, List.flatMap_assoc]
  rfl

theorem contributes_publicEntries (registered : List Method)
    (hvariables : (base.memberVariables.map (·.info.name)).Nodup)
    (henums : (base.enums.map (·.info.name)).Nodup)
    (hmethods : (base.overloads.map Method.signature).Nodup) :
    base.Contributes registered (view.publicEntries c registered [base]) := by
  rw [publicEntries, List.flatMap_singleton]
  refine ⟨fun v hv hshown ↦ ?_, fun e he hshown hactive ↦ ?_, fun before m after hsplit ↦ ?_⟩
  · rw [ClassTarget.variables_entries]
    exact List.count_eq_one_of_mem ((List.Nodup.of_map _ hvariables).filter _)
      (List.mem_filter.2 ⟨hv, hshown⟩)
  · rw [ClassTarget.enums_entries]
    exact List.count_eq_one_of_mem ((List.Nodup.of_map _ henums).filter _)
      (List.mem_filter.2 ⟨he, by rw [hshown, hactive]; rfl⟩)
  · have hdistinct : (base.members.flatMap ClassTarget.memberOverloads).Nodup := by
      rw [ClassTarget.flatMap_memberOverloads]
      exact .of_map _ hmethods
    have hm : m ∈ base.publicMethods := hsplit ▸ List.mem_append_right _ List.mem_cons_self
    have hpublic : base.publicMethods.Nodup :=
      hdistinct.sublist (ClassTarget.flatMap_ordinaryMethods_sublist _)
    rw [ClassTarget.count_methods_entries _ hdistinct hm]
    change (unhidden registered base.publicMethods).count m = _
    rw [hsplit] at hpublic ⊢
    exact ClassTarget.count_unhidden hpublic

/-- A folded base is entered where the policy first names it, behind the members of the class and of
the bases named earlier, and once: each variable, each enumeration with a value, and each method
that no registered one hides. -/
theorem folded_base_contributes_once {named more : List String} {name : String}
    (hinterface : view.interfaceOf c = .ok interface)
    (hnamed : view.policy.foldedBasesOf c.name = named ++ name :: more) (hfresh : name ∉ named)
    (hbase : view.module.findClass? name = some base)
    (hvariables : (base.memberVariables.map (·.info.name)).Nodup)
    (henums : (base.enums.map (·.info.name)).Nodup)
    (hmethods : (base.overloads.map Method.signature).Nodup) :
    ∃ earlier later, view.foldedBases c = .ok (earlier ++ base :: later) ∧
      earlier.map Class.name = addAllNew [] named ∧ name ∉ later.map Class.name ∧
      interface.publicMembers = (c.innerClasses.filter showsInner).map .inner ++
        view.publicEntries c [] (c :: earlier) ++
        view.publicEntries c (Class.registeredMethods (c :: earlier)) [base] ++
        view.publicEntries c (Class.registeredMethods (c :: earlier ++ [base])) later ++
        (view.policy.extensionsOf c.name .publicAccess).map .custom ∧
      base.Contributes (Class.registeredMethods (c :: earlier))
        (view.publicEntries c (Class.registeredMethods (c :: earlier)) [base]) := by
  obtain ⟨folded, hfolded, hmembers, -⟩ := publicMembers_eq hinterface
  obtain ⟨earlier, later, rfl, hearlier, hlater⟩ :=
    foldedBases_split hfolded hnamed hfresh hbase
  refine ⟨earlier, later, hfolded, hearlier, hlater, ?_,
    contributes_publicEntries _ hvariables henums hmethods⟩
  have hclasses : c :: (earlier ++ base :: later) = (c :: earlier ++ [base]) ++ later := by simp
  rw [hmembers, hclasses, publicEntries_append, publicEntries_append]
  simp only [List.append_assoc, List.nil_append]
  rfl

end View

/-! A combo box that folds a pane and an entry, the entry twice. -/

namespace Folds

def pane : Class where
  info := { name := "Pane" }
  members := [.method ⟨(Method.named "Resize").inClass "Pane", []⟩]

def entry : Class where
  info := { name := "Entry" }
  members := [
    .variable (.named "Entry" "text" "String"),
    .enum (.named "Mode" ["Plain", "Secret"]),
    .method ⟨{ (Method.named "Draw").inClass "Entry" with isVirtual := true }, []⟩,
    .method ⟨(Method.named "Open").inClass "Entry", []⟩,
    .method ⟨(Method.named "Select").inClass "Entry",
      [{ (Method.named "Select").inClass "Entry" with params := [{ type := "int" }] }]⟩]

/-- A combo box draws itself, and opens in its own way. -/
def combo : Class where
  info := { name := "Combo" }
  bases := [⟨"Pane", []⟩, ⟨"Entry", []⟩]
  members := [
    .method ⟨{ (Method.named "Draw").inClass "Combo" with isVirtual := true }, []⟩,
    .method ⟨{ (Method.named "Open").inClass "Combo" with params := [{ type := "bool" }] }, []⟩]

def combos : View where
  policy := { Policy.empty "Combos" "wx" with
    foldedBases := [("Combo", ["Pane", "Entry", "Pane", "Entry"])] }
  module := { name := "Combos", items := [.ofClass pane, .ofClass entry, .ofClass combo] }

end Folds

open Folds in
/-- Of the entry, all but what the combo box itself draws and opens is entered. -/
theorem combos_fold_entry :
    (∃ interface earlier later, combos.interfaceOf combo = .ok interface ∧
      combos.foldedBases combo = .ok (earlier ++ entry :: later) ∧
      earlier.map Class.name = ["Pane"] ∧
      entry.Contributes (Class.registeredMethods (combo :: earlier))
        (combos.publicEntries combo (Class.registeredMethods (combo :: earlier)) [entry])) ∧
    (Class.registeredMethods [combo, pane, entry]).map Method.signature =
      ["Draw()", "Open(bool)", "Resize()", "Select()", "Select(int)"] := by
  refine ⟨?_, by decide +kernel⟩
  have hok : (combos.interfaceOf combo).toOption.isSome = true := by decide +kernel
  obtain ⟨interface, hinterface⟩ := Option.isSome_iff_exists.1 hok
  have hnamed : combos.policy.foldedBasesOf combo.name = ["Pane"] ++ "Entry" :: ["Pane", "Entry"] :=
    rfl
  have hbase : combos.module.findClass? "Entry" = some entry := rfl
  obtain ⟨earlier, later, hfolded, hearlier, -, -, hcontributes⟩ :=
    View.folded_base_contributes_once (eq_ok_of_toOption hinterface) hnamed (by decide) hbase
      (by decide +kernel) (by decide +kernel) (by decide +kernel)
  exact ⟨interface, earlier, later, eq_ok_of_toOption hinterface, hfolded, hearlier,
    hcontributes⟩

end Bindery
