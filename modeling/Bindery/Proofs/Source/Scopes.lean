import Bindery.Proofs.Source.Conversion

/-!
Scopes of declarations. The classes that entries declare, at any depth, are the classes that they
become, in the same order and under the same paths of names, and each of them holds what its own
entry declares (`ClassEntry.nested_toClass`, `ItemEntry.nested_toItem`). What is protected is
ignored wherever it stands (`ItemEntry.isShielded_toItem`).
-/

set_option autoImplicit false
set_option relaxedAutoImplicit false

namespace Bindery

def MemberEntry.method? : MemberEntry → Option MethodEntry
  | .method m => some m
  | _ => none

def MemberEntry.variable? : MemberEntry → Option VariableEntry
  | .variable v => some v
  | _ => none

namespace ClassEntry

/-- The methods that a class declares, in order. -/
def methods (entry : ClassEntry) : List MethodEntry := entry.members.filterMap MemberEntry.method?

def memberVariables (entry : ClassEntry) : List VariableEntry :=
  entry.members.filterMap MemberEntry.variable?

/-- The class is what an entry declares. Every method that is declared in the class is held by one
chain, and the members name the class as the one that they are declared in. -/
structure Gives (entry : ClassEntry) (c : Class) : Prop where
  name : c.name = entry.common.name
  methods : ∃ declared,
    List.Forall₂ (fun entry m ↦ entry.toMethod (some c.name) = .ok m) entry.methods declared ∧
    Overloads.Gathers declared c.methods
  memberVariables : List.Forall₂ (fun entry v ↦ entry.toMember c.name = .ok v)
    entry.memberVariables c.memberVariables

end ClassEntry

mutual

/-- A class that is declared and the classes inside it, each with the names that lead to it. -/
def ClassEntry.nested : ClassEntry → List (List String × ClassEntry)
  | ⟨common, isStruct, bases, isAbstract, isTemplate, includes, members⟩ =>
    ([common.name], ⟨common, isStruct, bases, isAbstract, isTemplate, includes, members⟩) ::
      (MemberEntry.nestedAll members).map fun (path, c) ↦ (common.name :: path, c)

def MemberEntry.nested : MemberEntry → List (List String × ClassEntry)
  | .method _ => []
  | .variable _ => []
  | .enum _ => []
  | .inner c => c.nested

def MemberEntry.nestedAll : List MemberEntry → List (List String × ClassEntry)
  | [] => []
  | member :: members => member.nested ++ MemberEntry.nestedAll members

end

/-- A class stands under the path of its entry, and is what the entry declares. -/
def GivesAt (declared : List String × ClassEntry) (found : List String × Class) : Prop :=
  declared.1 = found.1 ∧ declared.2.Gives found.2

/-! ### Members -/

section Members

variable {className : String} {entries : List MemberEntry} {members : List Member}
  {scope : Option String}

theorem MemberEntry.toMembers_eq_mapM (className : String) (entries : List MemberEntry) :
    MemberEntry.toMembers className entries = entries.mapM (MemberEntry.toMember className) := by
  induction entries with
  | nil => rw [MemberEntry.toMembers, List.mapM_nil]
  | cons entry entries ih => rw [MemberEntry.toMembers, List.mapM_cons, ih]

theorem forall₂_of_toMembers (h : MemberEntry.toMembers className entries = .ok members) :
    List.Forall₂ (fun entry member ↦ entry.toMember className = .ok member) entries members :=
  forall₂_of_mapM (MemberEntry.toMembers_eq_mapM className entries ▸ h)

/-- A method that is declared stands alone. -/
theorem MemberEntry.method_toMember {entry : MemberEntry} {chain : Overloads}
    (h : entry.toMember className = .ok (.method chain)) : ∃ m : MethodEntry,
      entry = .method m ∧ m.toMethod (some className) = .ok chain.first ∧ chain.rest = [] := by
  cases entry with
  | method m =>
    rw [MemberEntry.toMember] at h
    obtain ⟨o, ho, h⟩ := bind_eq_ok.1 h
    cases h
    exact ⟨m, rfl, ho, rfl⟩
  | _ =>
    rw [MemberEntry.toMember] at h
    obtain ⟨_, -, h⟩ := bind_eq_ok.1 h
    cases h

theorem isFresh_of_toMembers (h : MemberEntry.toMembers className entries = .ok members) :
    ∀ chain, .method chain ∈ members →
      chain.rest = [] ∧ chain.first.className.isSome = true := by
  intro chain hchain
  rw [MemberEntry.toMembers_eq_mapM] at h
  obtain ⟨entry, -, hentry⟩ := exists_of_mem_mapM h hchain
  obtain ⟨m, -, hm, hrest⟩ := MemberEntry.method_toMember hentry
  exact ⟨hrest, by rw [(MethodEntry.isDeclaredIn_toMethod hm).className]; rfl⟩

theorem ClassEntry.toClass_eq_ok {entry : ClassEntry} {c : Class}
    (h : entry.toClass scope = .ok c) : ∃ blank members, blank.members = [] ∧
      entry.common.toInfo scope = .ok blank.info ∧
      MemberEntry.toMembers blank.name entry.members = .ok members ∧
      c = members.foldl Class.addMember blank := by
  obtain ⟨common, isStruct, bases, isAbstract, isTemplate, includes, entries⟩ := entry
  rw [ClassEntry.toClass] at h
  obtain ⟨info, hinfo, h⟩ := bind_eq_ok.1 h
  obtain ⟨members, hmembers, h⟩ := bind_eq_ok.1 h
  cases h
  refine ⟨_, members, ?_, ?_, ?_, rfl⟩
  exacts [rfl, hinfo, hmembers]

theorem Class.info_foldl_addMember (c : Class) (members : List Member) :
    (members.foldl Class.addMember c).info = c.info := by
  induction members generalizing c with
  | nil => rfl
  | cons member members ih => rw [List.foldl_cons, ih, Class.info_addMember]

/-- A class that is turned from an entry holds what the entry declares. -/
theorem ClassEntry.gives_toClass {entry : ClassEntry} {c : Class}
    (h : entry.toClass scope = .ok c) : entry.Gives c := by
  obtain ⟨blank, members, hblank, hinfo, hmembers, rfl⟩ := ClassEntry.toClass_eq_ok h
  have hname : (members.foldl Class.addMember blank).name = blank.name :=
    congrArg Info.name (Class.info_foldl_addMember blank members)
  refine ⟨hname.trans (CommonEntry.toInfo_eq_ok hinfo).1, ?_, ?_⟩
  · refine ⟨(members.filterMap Member.methods?).map Overloads.first, ?_, ?_⟩
    · rw [hname, List.map_filterMap]
      refine forall₂_filterMap (fun entry member hmember ↦ ?_) (forall₂_of_toMembers hmembers)
      cases entry with
      | method m =>
        rw [MemberEntry.toMember] at hmember
        obtain ⟨o, ho, hmember⟩ := bind_eq_ok.1 hmember
        cases hmember
        exact .some ho
      | _ =>
        rw [MemberEntry.toMember] at hmember
        obtain ⟨_, -, hmember⟩ := bind_eq_ok.1 hmember
        cases hmember
        exact .none
    · have hstart : Overloads.Gathers [] blank.methods := by
        rw [Class.methods, hblank]
        exact .nil
      exact Class.gathers_foldl_addMember hstart (isFresh_of_toMembers hmembers)
  · rw [hname, Class.memberVariables,
      Class.filterMap_foldl_addMember (fun _ ↦ rfl), hblank, List.filterMap_nil, List.nil_append]
    refine forall₂_filterMap (fun entry member hmember ↦ ?_) (forall₂_of_toMembers hmembers)
    cases entry with
    | «variable» v =>
      rw [MemberEntry.toMember] at hmember
      obtain ⟨w, hw, hmember⟩ := bind_eq_ok.1 hmember
      cases hmember
      exact .some hw
    | _ =>
      rw [MemberEntry.toMember] at hmember
      obtain ⟨_, -, hmember⟩ := bind_eq_ok.1 hmember
      cases hmember
      exact .none

end Members

/-! ### Classes at any depth -/

def Member.inner? : Member → Option Class
  | .inner c => some c
  | _ => none

theorem Member.nestedAll_eq (members : List Member) :
    Member.nestedAll members = (members.filterMap Member.inner?).flatMap Class.nested := by
  induction members with
  | nil => rfl
  | cons member members ih =>
    rw [Member.nestedAll, ih]
    cases member <;> simp [Member.nested, Member.inner?, List.filterMap_cons]

/-- Adding members one by one keeps the classes among them. -/
theorem Class.nestedAll_foldl_addMember {c : Class} (hc : c.members = []) (members : List Member) :
    Member.nestedAll (members.foldl Class.addMember c).members = Member.nestedAll members := by
  rw [Member.nestedAll_eq, Member.nestedAll_eq,
    Class.filterMap_foldl_addMember (fun _ ↦ rfl), hc, List.filterMap_nil, List.nil_append]

mutual

/-- The classes that an entry declares become the classes inside what it becomes. -/
theorem ClassEntry.nested_toClass (scope : Option String) : (entry : ClassEntry) → (c : Class) →
    entry.toClass scope = .ok c → List.Forall₂ GivesAt entry.nested c.nested
  | ⟨common, isStruct, bases, isAbstract, isTemplate, includes, members⟩, c, h => by
    have hgives := ClassEntry.gives_toClass h
    obtain ⟨blank, made, hblank, hinfo, hmembers, rfl⟩ := ClassEntry.toClass_eq_ok h
    have hinner := MemberEntry.nestedAll_toMembers blank.name members made hmembers
    rw [ClassEntry.nested, Class.nested_eq, Class.nestedAll_foldl_addMember hblank]
    refine .cons ⟨congrArg (fun name ↦ [name]) hgives.name.symm, hgives⟩ ?_
    rw [List.forall₂_map_left_iff, List.forall₂_map_right_iff]
    exact hinner.imp fun declared found hfound ↦
      ⟨congrArg₂ List.cons hgives.name.symm hfound.1, hfound.2⟩

theorem MemberEntry.nested_toMember (className : String) : (entry : MemberEntry) →
    (member : Member) → entry.toMember className = .ok member →
    List.Forall₂ GivesAt entry.nested member.nested
  | .method m, member, h => by
    rw [MemberEntry.toMember] at h
    obtain ⟨_, -, h⟩ := bind_eq_ok.1 h
    cases h
    exact .nil
  | .variable v, member, h => by
    rw [MemberEntry.toMember] at h
    obtain ⟨_, -, h⟩ := bind_eq_ok.1 h
    cases h
    exact .nil
  | .enum e, member, h => by
    rw [MemberEntry.toMember] at h
    obtain ⟨_, -, h⟩ := bind_eq_ok.1 h
    cases h
    exact .nil
  | .inner c, member, h => by
    rw [MemberEntry.toMember] at h
    obtain ⟨d, hd, h⟩ := bind_eq_ok.1 h
    cases h
    exact ClassEntry.nested_toClass _ c d hd

theorem MemberEntry.nestedAll_toMembers (className : String) : (entries : List MemberEntry) →
    (members : List Member) → MemberEntry.toMembers className entries = .ok members →
    List.Forall₂ GivesAt (MemberEntry.nestedAll entries) (Member.nestedAll members)
  | [], members, h => by
    rw [MemberEntry.toMembers] at h
    cases h
    exact .nil
  | entry :: entries, members, h => by
    rw [MemberEntry.toMembers] at h
    obtain ⟨member, hmember, h⟩ := bind_eq_ok.1 h
    obtain ⟨rest, hrest, h⟩ := bind_eq_ok.1 h
    cases h
    rw [MemberEntry.nestedAll, Member.nestedAll]
    exact List.rel_append (MemberEntry.nested_toMember className entry member hmember)
      (MemberEntry.nestedAll_toMembers className entries rest hrest)

end

/-- The classes that an entry of a file declares. -/
def ItemEntry.nested : ItemEntry → List (List String × ClassEntry)
  | .ofClass c => c.nested
  | _ => []

def Item.nested (item : Item) : List (List String × Class) :=
  item.class?.toList.flatMap Class.nested

theorem ItemEntry.nested_toItem {entry : ItemEntry} {item : Item} (h : entry.toItem = .ok item) :
    List.Forall₂ GivesAt entry.nested item.nested := by
  cases entry with
  | ofClass c =>
    obtain ⟨d, hd, h⟩ := bind_eq_ok.1 h
    cases h
    have hnested : (Item.ofClass d).nested = d.nested := List.append_nil _
    exact hnested ▸ ClassEntry.nested_toClass none c d hd
  | _ =>
    obtain ⟨_, -, h⟩ := bind_eq_ok.1 h
    cases h
    exact .nil

/-! ### Protected declarations -/

/-- What is protected is ignored. -/
def Info.IsShielded (info : Info) : Prop :=
  info.protection = .protectedAccess → info.ignored = true

/-- What is protected in a declaration is ignored, the declaration itself and all inside it. -/
def Target.IsShielded (target : Target) : Prop :=
  ∀ way overload info,
    (target.follow? way).bind (·.infoAt? overload) = some info → info.IsShielded

namespace Target

theorem isShielded_method {chain : Overloads} :
    (Target.method chain).IsShielded ↔ ∀ o ∈ chain.all, o.info.IsShielded := by
  constructor
  · intro h o ho
    obtain ⟨i, hi⟩ := List.mem_iff_getElem?.1 ho
    exact h .here (some i) o.info (by simp [follow?, infoAt?, hi])
  · intro h way overload info hinfo
    cases way with
    | here =>
      change overload.bind (fun i ↦ (chain.all[i]?).map Method.info) = some info at hinfo
      obtain ⟨i, -, hi⟩ := Option.bind_eq_some_iff.1 hinfo
      obtain ⟨o, ho, rfl⟩ := Option.map_eq_some_iff.1 hi
      exact h o (List.mem_of_getElem? ho)
    | _ => cases hinfo

/-- The values that stand in a declaration. -/
def values : Target → List EnumValue
  | .enum e => e.values
  | _ => []

/-- A declaration that is neither a method nor a class is shielded with its values. -/
theorem isShielded_of_info {target : Target} (hmethod : target.method? = none)
    (hclass : target.class? = none) (h : target.info.IsShielded)
    (hvalues : ∀ v ∈ target.values, v.info.IsShielded) : target.IsShielded := by
  intro way overload info hinfo
  cases way with
  | here =>
    cases target with
    | method chain => cases hmethod
    | _ =>
      cases overload <;> cases hinfo
      exact h
  | member index way =>
    cases target with
    | ofClass c => cases hclass
    | _ => cases hinfo
  | value index =>
    cases target with
    | enum e =>
      obtain ⟨found, hfound, hinfo⟩ := Option.bind_eq_some_iff.1 hinfo
      obtain ⟨v, hv, rfl⟩ := Option.map_eq_some_iff.1 hfound
      cases overload <;> cases hinfo
      exact hvalues v (List.mem_of_getElem? hv)
    | _ => cases hinfo

theorem isShielded_ofClass {c : Class} (h : c.info.IsShielded)
    (hmembers : ∀ member ∈ c.members, member.target.IsShielded) :
    (Target.ofClass c).IsShielded := by
  intro way overload info hinfo
  cases way with
  | here =>
    cases overload <;> cases hinfo
    exact h
  | member index way =>
    obtain ⟨found, hfound, hinfo⟩ := Option.bind_eq_some_iff.1 hinfo
    obtain ⟨member, hmember, hfound⟩ := Option.bind_eq_some_iff.1 hfound
    exact hmembers member (List.mem_of_getElem? hmember) way overload info
      (Option.bind_eq_some_iff.2 ⟨found, hfound, hinfo⟩)
  | value index => cases hinfo

theorem isShielded_append {chain more : Overloads} (hchain : (Target.method chain).IsShielded)
    (hmore : (Target.method more).IsShielded) : (Target.method (chain.append more)).IsShielded :=
  isShielded_method.2
    (List.forall_mem_append.2 ⟨isShielded_method.1 hchain, isShielded_method.1 hmore⟩)

end Target

section Shielded

variable {scope : Option String}

theorem CommonEntry.isShielded_toInfo {entry : CommonEntry} {info : Info}
    (h : entry.toInfo scope = .ok info) : info.IsShielded := (toInfo_eq_ok h).2

theorem MethodEntry.isShielded_toMethod {entry : MethodEntry} {m : Method}
    (h : entry.toMethod scope = .ok m) : (Target.method (.single m)).IsShielded := by
  obtain ⟨info, hinfo, h⟩ := bind_eq_ok.1 h
  cases h
  exact Target.isShielded_method.2
    (List.forall_mem_singleton.2 (CommonEntry.isShielded_toInfo hinfo))

theorem EnumEntry.isShielded_toEnum {entry : EnumEntry} {e : Enumeration}
    (h : entry.toEnum scope = .ok e) : (Target.enum e).IsShielded := by
  obtain ⟨info, hinfo, h⟩ := bind_eq_ok.1 h
  obtain ⟨values, hvalues, h⟩ := bind_eq_ok.1 h
  cases h
  refine Target.isShielded_of_info rfl rfl (CommonEntry.isShielded_toInfo hinfo) fun v hv ↦ ?_
  obtain ⟨value, -, hvalue⟩ := exists_of_mem_mapM hvalues hv
  obtain ⟨own, hown, hvalue⟩ := bind_eq_ok.1 hvalue
  cases hvalue
  exact CommonEntry.isShielded_toInfo hown

mutual

theorem ClassEntry.isShielded_toClass (scope : Option String) : (entry : ClassEntry) →
    (c : Class) → entry.toClass scope = .ok c → (Target.ofClass c).IsShielded
  | ⟨common, isStruct, bases, isAbstract, isTemplate, includes, entries⟩, c, h => by
    obtain ⟨blank, members, hblank, hinfo, hmembers, rfl⟩ := ClassEntry.toClass_eq_ok h
    refine Target.isShielded_ofClass ?_ ?_
    · rw [Class.info_foldl_addMember]
      exact CommonEntry.isShielded_toInfo hinfo
    · refine Class.forall_mem_foldl_addMember (fun _ _ ↦ Target.isShielded_append) ?_
        (MemberEntry.isShielded_toMembers blank.name entries members hmembers)
        fun chain hchain ↦ (isFresh_of_toMembers hmembers chain hchain).2
      rw [hblank]
      exact List.forall_mem_nil _

theorem MemberEntry.isShielded_toMember (className : String) : (entry : MemberEntry) →
    (member : Member) → entry.toMember className = .ok member → member.target.IsShielded
  | .method m, member, h => by
    rw [MemberEntry.toMember] at h
    obtain ⟨o, ho, h⟩ := bind_eq_ok.1 h
    cases h
    exact MethodEntry.isShielded_toMethod ho
  | .variable v, member, h => by
    rw [MemberEntry.toMember] at h
    obtain ⟨w, hw, h⟩ := bind_eq_ok.1 h
    cases h
    obtain ⟨info, hinfo, hw⟩ := bind_eq_ok.1 hw
    cases hw
    exact Target.isShielded_of_info rfl rfl (CommonEntry.isShielded_toInfo hinfo)
      (List.forall_mem_nil _)
  | .enum e, member, h => by
    rw [MemberEntry.toMember] at h
    obtain ⟨f, hf, h⟩ := bind_eq_ok.1 h
    cases h
    exact EnumEntry.isShielded_toEnum hf
  | .inner c, member, h => by
    rw [MemberEntry.toMember] at h
    obtain ⟨d, hd, h⟩ := bind_eq_ok.1 h
    cases h
    exact ClassEntry.isShielded_toClass _ c d hd

theorem MemberEntry.isShielded_toMembers (className : String) : (entries : List MemberEntry) →
    (members : List Member) → MemberEntry.toMembers className entries = .ok members →
    ∀ member ∈ members, member.target.IsShielded
  | [], members, h => by
    rw [MemberEntry.toMembers] at h
    cases h
    exact List.forall_mem_nil _
  | entry :: entries, members, h => by
    rw [MemberEntry.toMembers] at h
    obtain ⟨member, hmember, h⟩ := bind_eq_ok.1 h
    obtain ⟨rest, hrest, h⟩ := bind_eq_ok.1 h
    cases h
    exact List.forall_mem_cons.2
      ⟨MemberEntry.isShielded_toMember className entry member hmember,
        MemberEntry.isShielded_toMembers className entries rest hrest⟩

end

theorem ItemEntry.isShielded_toItem {entry : ItemEntry} {item : Item}
    (h : entry.toItem = .ok item) : item.target.IsShielded := by
  cases entry with
  | ofClass c =>
    obtain ⟨d, hd, h⟩ := bind_eq_ok.1 h
    cases h
    exact ClassEntry.isShielded_toClass none c d hd
  | function m =>
    obtain ⟨o, ho, h⟩ := bind_eq_ok.1 h
    cases h
    exact MethodEntry.isShielded_toMethod ho
  | enum e =>
    obtain ⟨f, hf, h⟩ := bind_eq_ok.1 h
    cases h
    exact EnumEntry.isShielded_toEnum hf
  | «variable» v =>
    obtain ⟨w, hw, h⟩ := bind_eq_ok.1 h
    cases h
    obtain ⟨info, hinfo, hw⟩ := bind_eq_ok.1 hw
    cases hw
    exact Target.isShielded_of_info rfl rfl (CommonEntry.isShielded_toInfo hinfo)
      (List.forall_mem_nil _)
  | _ =>
    obtain ⟨info, hinfo, h⟩ := bind_eq_ok.1 h
    cases h
    exact Target.isShielded_of_info rfl rfl (CommonEntry.isShielded_toInfo hinfo)
      (List.forall_mem_nil _)

end Shielded

end Bindery
