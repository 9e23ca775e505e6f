import Bindery.Emit.Documentation
import Bindery.Policy.Preset
import Bindery.Proofs.Decl.MethodAddresses
import Bindery.Proofs.Emit.Sections
import Bindery.Proofs.Interface.Layers

/-!
Names of methods in a documentation stub. The documented methods of a class are grouped by their
names in the target language, so each of them is listed under one name (`Emit.stubLists_iff`). The
policy can rename methods for the target language. The interface file has a line for each address
that it renames, but the stub compares texts: a rename is about a method if it is written as the
name of the method behind that of the class. So an address that leads to a method with all its
overloads renames them, if it is written without blanks and the class is the one that declares them.
But an address that selects an overload renames nothing in the stub, and the overload is listed as
if the address was not there (`Emit.listed_by_written_rename`).
-/

set_option autoImplicit false
set_option relaxedAutoImplicit false

namespace Bindery

/-! ### Grouping -/

namespace Table

variable {κ α : Type} [BEq κ] {key : α → κ}

/-- Puts an element behind the others of its key. -/
def join (key : α → κ) (groups : Table κ (List α)) (x : α) : Table κ (List α) :=
  groups.alter (key x) [] (· ++ [x])

/-- Elements by their keys, in the order in which the keys occur. -/
def group (key : α → κ) (xs : List α) : Table κ (List α) := xs.foldl (join key) []

variable [LawfulBEq κ]

/-- A group has the elements of its key, behind those that were in it before. -/
theorem getD_find?_foldl_join (xs : List α) (groups : Table κ (List α)) (k : κ) :
    (find? (xs.foldl (join key) groups) k).getD [] =
      (find? groups k).getD [] ++ xs.filter (key · == k) := by
  induction xs generalizing groups with
  | nil => simp
  | cons x xs ih =>
    rw [List.foldl_cons, ih, join]
    by_cases hkey : key x = k
    · subst hkey
      simp [find?_alter_self]
    · rw [find?_alter_of_ne _ (Ne.symm hkey), List.filter_cons_of_neg (by simpa using hkey)]

theorem nodup_keys_group (xs : List α) : (keys (group key xs)).Nodup :=
  List.foldlRecOn (motive := fun groups ↦ (keys groups).Nodup) xs (join key) List.nodup_nil
    fun _ hgroups _ _ ↦ nodup_keys_alter hgroups _ _ _

/-- Each element is in the group of its key and in no other. -/
theorem exists_mem_group_iff {xs : List α} {k : κ} {x : α} :
    (∃ xs', (k, xs') ∈ group key xs ∧ x ∈ xs') ↔ x ∈ xs ∧ key x = k := by
  have hfound : (find? (group key xs) k).getD [] = xs.filter (key · == k) :=
    getD_find?_foldl_join xs [] k
  have hmem : x ∈ xs ∧ key x = k ↔ x ∈ (find? (group key xs) k).getD [] := by
    rw [hfound, List.mem_filter, beq_iff_eq]
  simp only [hmem, ← find?_eq_some_iff (nodup_keys_group xs)]
  cases find? (group key xs) k <;> simp

end Table

namespace Emit

variable {policy : Policy} {view : View} {registry : InterfaceRegistry} {rules : TypemapRules}
  {c : Class} {i : ClassInterface} {m : Method} {text : String}

/-! ### The methods of a stub -/

/-- The documented public methods of an interface, in order. -/
def documentedMethods (i : ClassInterface) : List Method :=
  (i.publicMembers.filterMap InterfaceMember.method?).filter (isDocumented i)

theorem mem_documentedMethods : m ∈ documentedMethods i ↔
    .method m ∈ i.publicMembers ∧ isDocumented i m = true := by
  rw [documentedMethods, List.mem_filter, List.mem_filterMap]
  refine and_congr_left fun _ ↦ ⟨?_, fun h ↦ ⟨_, h, rfl⟩⟩
  rintro ⟨member, hmember, hmethod⟩
  cases member with
  | method other =>
    cases hmethod
    exact hmember
  | _ => cases hmethod

/-- The stub of a class groups the documented methods by their names. -/
theorem stubMethods_eq_group :
    stubMethods policy c i = Table.group (stubName policy c) (documentedMethods i) := by
  rw [stubMethods, Table.group, documentedMethods, List.foldl_filter, List.foldl_filterMap]
  congr 1
  funext methods member
  cases member <;> rfl

/-- The stub of a class stands in that of its module, if it is generated and documented. -/
theorem exists_classStub (h : documentation view registry rules = .ok text)
    (hc : c ∈ view.generatedClasses) (hshown : c.info.ignoreDoc = false) :
    ∃ lines, classStub view registry rules c = .ok lines ∧
      ∃ front back, text = Text.unlines (front ++ lines ++ back) := by
  obtain ⟨classes, hclasses, h⟩ := bind_eq_ok.1 h
  obtain rfl := Except.ok.inj h
  have hdocumented : c ∈ view.generatedClasses.filter (!·.info.ignoreDoc) :=
    List.mem_filter.2 ⟨hc, by simp [hshown]⟩
  obtain ⟨lines, hlines, hstub⟩ := exists_mem_of_mapM hclasses hdocumented
  exact ⟨lines, hstub, exists_unlines_of_infix
    ((List.infix_of_mem_flatten hlines).trans (List.infix_append _ _ _))⟩

/-- The stub of a class defines each group of methods under its name. -/
theorem methodStub_infix {lines : List String} (h : classStub view registry rules c = .ok lines)
    (hi : registry.expect (view.className c) = .ok i) {name : String} {overloads : List Method}
    (hgroup : (name, overloads) ∈ stubMethods view.policy c i) :
    methodStub rules name overloads <:+: lines := by
  obtain ⟨interface, hinterface, h⟩ := bind_eq_ok.1 h
  cases hi.symm.trans hinterface
  obtain ⟨base, -, h⟩ := bind_eq_ok.1 h
  obtain rfl := Except.ok.inj h
  have hdefined : methodStub rules name overloads <:+:
      (stubMethods view.policy c i).flatMap fun group ↦ methodStub rules group.1 group.2 :=
    List.infix_of_mem_flatten
      (List.mem_map_of_mem (f := fun group ↦ methodStub rules group.1 group.2) hgroup)
  exact hdefined.trans (List.infix_append _ _ _)

/-- The line that defines a name for a method, or for some overloads together. -/
def defLine (name : String) : List Method → String
  | [m] =>
    "    def " ++ (if m.isStatic then "self." else "") ++ name ++ "(" ++ rubyParams m ++ ") end"
  | methods =>
    "    def " ++ (if methods.all Method.isStatic then "self." else "") ++ name ++ "(*args) end"

/-- The line that tells one of the overloads that are defined together. -/
def overloadLine (name : String) (m : Method) : String :=
  "    # @overload " ++ name ++ "(" ++ rubyParams m ++ ")"

/-- A definition ends with its `def` line. Above it stands a line for each overload, if there are
several. -/
theorem exists_methodStub_eq (rules : TypemapRules) (name : String) (overloads : List Method) :
    ∃ above, methodStub rules name overloads = above ++ [defLine name overloads] ∧
      ∀ m ∈ overloads, overloads = [m] ∨ overloadLine name m ∈ above := by
  unfold methodStub
  split
  · exact ⟨_, rfl, fun m hm ↦ .inl (by rw [List.mem_singleton.1 hm])⟩
  · rename_i hmany
    refine ⟨_, by rw [defLine.eq_2 name overloads hmany], fun m hm ↦ .inr ?_⟩
    exact List.mem_cons_of_mem _ (List.mem_flatMap.2 ⟨m, hm, List.mem_cons_self⟩)

/-- A documentation stub lists a method of a class under a name, and under no other: it has a
definition of this name for a group of overloads with the method among them. The definition ends
with a `def` line of this name, and has a line for the method above it if there are others. -/
structure StubLists (view : View) (rules : TypemapRules) (c : Class) (i : ClassInterface)
    (text : String) (m : Method) (name : String) : Prop where
  listed : ∃ overloads, (name, overloads) ∈ stubMethods view.policy c i ∧ m ∈ overloads ∧
    (∃ above, methodStub rules name overloads = above ++ [defLine name overloads] ∧
      (overloads = [m] ∨ overloadLine name m ∈ above)) ∧
    ∃ front back, text = Text.unlines (front ++ methodStub rules name overloads ++ back)
  unique : ∀ other overloads, (other, overloads) ∈ stubMethods view.policy c i → m ∈ overloads →
    other = name

/-- Each documented method is listed under its name in the target language. -/
theorem stubLists_iff (h : documentation view registry rules = .ok text)
    (hc : c ∈ view.generatedClasses) (hshown : c.info.ignoreDoc = false)
    (hi : registry.expect (view.className c) = .ok i) (hm : m ∈ documentedMethods i)
    (name : String) :
    StubLists view rules c i text m name ↔ stubName view.policy c m = name := by
  have hgroups (name : String) :
      (∃ overloads, (name, overloads) ∈ stubMethods view.policy c i ∧ m ∈ overloads) ↔
        stubName view.policy c m = name := by
    rw [stubMethods_eq_group, Table.exists_mem_group_iff]
    exact and_iff_right hm
  constructor
  · rintro ⟨⟨overloads, hgroup, hmem, -⟩, -⟩
    exact (hgroups name).1 ⟨overloads, hgroup, hmem⟩
  · intro hname
    obtain ⟨overloads, hgroup, hmem⟩ := (hgroups name).2 hname
    obtain ⟨lines, hlines, front, back, rfl⟩ := exists_classStub h hc hshown
    obtain ⟨before, after, rfl⟩ := methodStub_infix hlines hi hgroup
    obtain ⟨above, hstub, habove⟩ := exists_methodStub_eq rules name overloads
    refine ⟨⟨overloads, hgroup, hmem, ⟨above, hstub, habove m hmem⟩, front ++ before, after ++ back,
      ?_⟩, fun other group hother hin ↦ ?_⟩
    · simp only [List.append_assoc]
    · exact ((hgroups other).1 ⟨group, hother, hin⟩).symm.trans hname

end Emit

/-! ### Renames as they are written -/

/-- The policy without an address that it renames for the target language. -/
def Policy.withoutRename (policy : Policy) (source : String) : Policy :=
  { policy with
    rubyRenames := policy.rubyRenames.map fun (target, sources) ↦
      (target, sources.filter (· != source)) }

namespace Emit

variable {policy : Policy} {view : View} {registry : InterfaceRegistry} {rules : TypemapRules}
  {c : Class} {i : ClassInterface} {m : Method} {text : String}

/-- The first rename that is written for a method gives its name. -/
theorem stubName_eq_of_renamed {before after : Table String (List String)} {target : String}
    {sources : List String} (hctor : m.isCtor = false)
    (h : policy.rubyRenames = before ++ (target, sources) :: after)
    (hsource : c.name ++ "::" ++ m.name ∈ sources)
    (hbefore : ∀ entry ∈ before, c.name ++ "::" ++ m.name ∉ entry.2) :
    stubName policy c m = target := by
  have hnone : before.filter (·.2.contains (c.name ++ "::" ++ m.name)) = [] :=
    List.filter_eq_nil_iff.2 fun entry hentry ↦ by simpa using hbefore entry hentry
  rw [stubName, hctor, h, List.filter_append, hnone, List.nil_append,
    List.filter_cons_of_pos (by simpa using hsource)]
  rfl

theorem stubName_eq_methodName (hctor : m.isCtor = false)
    (h : ∀ entry ∈ policy.rubyRenames, c.name ++ "::" ++ m.name ∉ entry.2) :
    stubName policy c m = Naming.methodName m.name := by
  have hnone : policy.rubyRenames.filter (·.2.contains (c.name ++ "::" ++ m.name)) = [] :=
    List.filter_eq_nil_iff.2 fun entry hentry ↦ by simpa using h entry hentry
  rw [stubName, hctor, hnone]
  rfl

/-- An address that is not the name of a method behind that of its class does not change what the
method is called. -/
theorem stubName_withoutRename {source : String} (h : source ≠ c.name ++ "::" ++ m.name) :
    stubName (policy.withoutRename source) c m = stubName policy c m := by
  have hkept (entry : String × List String) :
      (entry.2.filter (· != source)).contains (c.name ++ "::" ++ m.name) =
        entry.2.contains (c.name ++ "::" ++ m.name) := by
    rw [Bool.eq_iff_iff, List.contains_iff_mem, List.contains_iff_mem, List.mem_filter]
    exact and_iff_left (bne_iff_ne.2 (Ne.symm h))
  have hheads (entries : Table String (List String)) :
      (((entries.map fun (target, sources) ↦ (target, sources.filter (· != source))).filter
        (·.2.contains (c.name ++ "::" ++ m.name))).head?.map Prod.fst) =
      ((entries.filter (·.2.contains (c.name ++ "::" ++ m.name))).head?.map Prod.fst) := by
    rw [List.filter_map, List.head?_map, Option.map_map]
    exact congrArg (·.head?.map Prod.fst) (List.filter_congr fun entry _ ↦ hkept entry)
  simp only [stubName, Policy.withoutRename, hheads]

theorem mem_renameLines {renames : Table String (List String)} {target source : String}
    {sources : List String} (h : (target, sources) ∈ renames) (hsource : source ∈ sources) :
    "%rename(" ++ target ++ ") " ++ source ++ ";" ∈ renameLines renames :=
  List.mem_flatMap.2 ⟨_, h, List.mem_map_of_mem hsource⟩

theorem renameLines_subset_runtimeLines :
    renameLines view.policy.rubyRenames ⊆ runtimeLines view := by
  intro line hline
  simp [runtimeLines, hline]

/-- In the documentation stub of a module, a method of a documented class is listed under one name.
A constructor is listed under a name of its own. Any other method is listed under the target of the
first rename that is written as its name behind that of the class, and under its own name in the
form of the target language when there is none. For an address that is renamed and leads to a method
of this name: it stands in the interface file. If it selects an overload, it is not written like
that, and if it leads to all overloads and has no blanks, it is written like that for the class that
declares them and for no other. An address that is not written like that has no part in what the
method is listed under. -/
theorem listed_by_written_rename (h : documentation view registry rules = .ok text)
    (hc : c ∈ view.generatedClasses) (hshown : c.info.ignoreDoc = false)
    (hi : registry.expect (view.className c) = .ok i) (hm : .method m ∈ i.publicMembers)
    (hdocumented : isDocumented i m = true) :
    let lists := StubLists view rules c i text m
    let written := c.name ++ "::" ++ m.name
    (m.isCtor = true → lists "initialize") ∧
      (m.isCtor = false →
        (∀ before target sources after,
          view.policy.rubyRenames = before ++ (target, sources) :: after → written ∈ sources →
            (∀ entry ∈ before, written ∉ entry.2) → lists target) ∧
        ((∀ entry ∈ view.policy.rubyRenames, written ∉ entry.2) →
          lists (Naming.methodName m.name))) ∧
      ∀ target sources source, (target, sources) ∈ view.policy.rubyRenames → source ∈ sources →
        ∀ d chain overload item index,
          view.module.LeadsTo source d chain overload item index → m.name = chain.name →
          "%rename(" ++ target ++ ") " ++ source ++ ";" ∈ runtimeLines view ∧
            (overload.isSome = true → '(' ∉ c.name.toList → source ≠ written) ∧
            (overload = none → source.toList.any Text.isBlank = false →
              (source = written ↔ d.name = c.name)) ∧
            (source ≠ written → lists (stubName (view.policy.withoutRename source) c m)) := by
  intro lists written
  have hlists (name : String) : lists name ↔ stubName view.policy c m = name :=
    stubLists_iff h hc hshown hi (mem_documentedMethods.2 ⟨hm, hdocumented⟩) name
  refine ⟨fun hctor ↦ (hlists _).2 (if_pos hctor), fun hctor ↦ ⟨?_, fun hnone ↦ ?_⟩, ?_⟩
  · intro before target sources after hentry hsource hbefore
    exact (hlists target).2 (stubName_eq_of_renamed hctor hentry hsource hbefore)
  · exact (hlists _).2 (stubName_eq_methodName hctor hnone)
  · intro target sources source hentry hsource d chain overload item index hlead hchain
    refine ⟨renameLines_subset_runtimeLines (mem_renameLines hentry hsource), fun hsome hclass ↦ ?_,
      fun hnone hblank ↦ ?_, fun hne ↦ (hlists _).2 (stubName_withoutRename hne).symm⟩
    · simp only [written, hchain]
      exact hlead.ne_of_isSome hsome hclass
    · subst hnone
      rw [hlead.eq_of_none hblank]
      simp [written, hchain, ← String.toList_inj]

namespace Combos

def select : Method :=
  { (Method.named "SetSelection").inClass "wxComboBox" with
    params := [{ name := "index", type := "int" }] }

def selectRange : Method :=
  { select with params := [{ name := "from", type := "long" }, { name := "to", type := "long" }] }

def popup : Method := (Method.named "Popup").inClass "wxComboBox"

def comboBox : Class where
  info := { name := "wxComboBox" }
  members := [.method ⟨select, [selectRange]⟩, .method ⟨popup, []⟩]

def textEntry : Class where
  info := { name := "wxTextEntry" }

/-- The setup of combo boxes renames one way of selecting, and the policy all ways of opening. -/
def combo : View where
  policy := (Policy.empty "wxComboBox" "Wx").applyAll
    (Preset.combobox.edits "wxComboBox" ++ [.renameForRuby "Open" ["wxComboBox::Popup"]])
  module := { name := "wxComboBox", items := [.ofClass comboBox, .ofClass textEntry] }

end Combos

open Combos in
/-- A combo box is opened under the new name, but a range is selected as if its address was not
there. -/
theorem range_selected_under_old_name :
    ∃ i text, combo.interfaceOf comboBox = .ok i ∧
      documentation combo [("wxComboBox", i)] {} = .ok text ∧
      StubLists combo {} comboBox i text popup "Open" ∧
      StubLists combo {} comboBox i text selectRange "set_selection" := by
  have hbuilt : (combo.interfaceOf comboBox).toOption.isSome = true := by decide
  obtain ⟨i, hi⟩ := Option.isSome_iff_exists.1 hbuilt
  have hok : (combo.interfaceOf comboBox).toOption.any (fun i ↦
      (documentation combo [("wxComboBox", i)] {}).toOption.isSome &&
        (documentedMethods i).contains popup && (documentedMethods i).contains selectRange) =
          true := by
    decide
  rw [hi, Option.any_some, Bool.and_eq_true, Bool.and_eq_true, List.contains_iff_mem,
    List.contains_iff_mem] at hok
  obtain ⟨⟨hdocumented, hpopup⟩, hrange⟩ := hok
  obtain ⟨text, htext⟩ := Option.isSome_iff_exists.1 hdocumented
  have htext := eq_ok_of_toOption htext
  have hgenerated : comboBox ∈ combo.generatedClasses := List.mem_cons_self
  obtain ⟨hopens, hopensDocumented⟩ := mem_documentedMethods.1 hpopup
  obtain ⟨hselects, hselectsDocumented⟩ := mem_documentedMethods.1 hrange
  obtain ⟨-, hopened, -⟩ :=
    listed_by_written_rename htext hgenerated rfl rfl hopens hopensDocumented
  obtain ⟨-, -, hselected⟩ :=
    listed_by_written_rename htext hgenerated rfl rfl hselects hselectsDocumented
  have hlead : combo.module.LeadsTo "wxComboBox::SetSelection(long, long)" comboBox
      ⟨select, [selectRange]⟩ (some 1) 0 0 := ⟨by decide, rfl, rfl⟩
  obtain ⟨-, hunwritten, -, hlisted⟩ := hselected "SetTextSelectionRange" _ _ List.mem_cons_self
    List.mem_cons_self _ _ _ _ _ hlead rfl
  refine ⟨i, text, eq_ok_of_toOption hi, htext, ?_, ?_⟩
  · exact (hopened rfl).1 (combo.policy.rubyRenames.take 2) "Open" ["wxComboBox::Popup"] [] rfl
      (by decide) (by decide)
  · have hname : stubName (combo.policy.withoutRename "wxComboBox::SetSelection(long, long)")
        comboBox selectRange = "set_selection" := by
      decide
    exact hname ▸ hlisted (hunwritten rfl (by decide))

open Combos in
/-- The address that is renamed leads to selecting a range, but the stub lists this under the name
of all ways of selecting. -/
theorem range_not_renamed : combo.generatedClasses = [comboBox] ∧
    ("SetTextSelectionRange", ["wxComboBox::SetSelection(long, long)"]) ∈
      combo.policy.rubyRenames ∧
    combo.module.locate? "wxComboBox::SetSelection(long, long)" =
      some { item := 0, way := .member 0 .here, overload := some 1 } ∧
    (⟨select, [selectRange]⟩ : Overloads).all[1]? = some selectRange ∧
    (combo.interfaceOf comboBox).toOption.any (fun i ↦
      (documentation combo [("wxComboBox", i)] {}).toOption.isSome &&
        stubMethods combo.policy comboBox i ==
          [("set_selection", [select, selectRange]), ("Open", [popup])]) = true := by
  refine ⟨rfl, List.mem_cons_self, ?_, rfl, ?_⟩ <;> decide

end Emit

end Bindery
