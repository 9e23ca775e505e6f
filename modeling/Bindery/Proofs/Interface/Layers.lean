import Mathlib.Data.List.Basic
import Bindery.Proofs.Interface.Entries

/-!
The sections of an interface in closed form. Members add their entries to a section one after
another, and each one depends on the earlier ones only through the ordinary methods that these have
registered (`ClassTarget.entries`). So the public section of a class holds the entries of its own
members, then those of each base that it folds, then the declarations of the policy
(`View.publicMembers_eq`), and so does the protected one, if there is any
(`View.protectedMembers_eq_behind`, `View.filterMap_members`). The entries of some members are read
off by kind: all variables and enumerations that belong to the section, and the methods that no
registered one hides (`variables_entries`, `enums_entries`, `count_methods_entries`).
-/

set_option autoImplicit false
set_option relaxedAutoImplicit false

namespace Bindery

/-! ### Members by kind -/

namespace InterfaceMember

def method? : InterfaceMember → Option Method
  | .method m => some m
  | _ => none

def memberVariable? : InterfaceMember → Option MemberVariable
  | .variable v => some v
  | _ => none

def enum? : InterfaceMember → Option Enumeration
  | .enum e => some e
  | _ => none

end InterfaceMember

def Member.memberVariable? : Member → Option MemberVariable
  | .variable v => some v
  | _ => none

namespace Class

def memberVariables (c : Class) : List MemberVariable := c.members.filterMap Member.memberVariable?

def enums (c : Class) : List Enumeration := c.members.filterMap Member.enum?

/-- All methods of a class with their overloads. -/
def overloads (c : Class) : List Method := c.methods.flatMap Overloads.all

end Class

/-- The members of one section. -/
def ClassInterface.members (i : ClassInterface) : Protection → List InterfaceMember
  | .publicAccess => i.publicMembers
  | .protectedAccess => i.protectedMembers

theorem ClassInterface.members_addMember (i : ClassInterface) (visibility other : Protection)
    (member : InterfaceMember) : (i.addMember visibility member).members other =
      i.members other ++ if other = visibility then [member] else [] := by
  cases visibility <;> cases other <;> simp [members, addMember]

theorem ClassInterface.methods_addMember (i : ClassInterface) (visibility : Protection)
    (member : InterfaceMember) : (i.addMember visibility member).methods = i.methods := by
  cases visibility <;> rfl

theorem ClassInterface.mem_keys_enter {i : ClassInterface} {entry : RegisteredMethod}
    {signature : String} : signature ∈ (i.enter entry).methods.keys ↔
      signature = entry.method.signature ∨ signature ∈ i.methods.keys :=
  Table.mem_keys_alter ..

namespace ClassTarget

variable {target : ClassTarget} {visibility : Protection}

/-! ### What members add -/

/-- Of methods that come after registered ones, those that are registered too: no registered one
hides them. -/
def unhidden (seen : List Method) : List Method → List Method
  | [] => []
  | m :: methods =>
    if isHidden seen m then unhidden seen methods else m :: unhidden (seen ++ [m]) methods

theorem unhidden_append (seen methods more : List Method) :
    unhidden seen (methods ++ more) =
      unhidden seen methods ++ unhidden (seen ++ unhidden seen methods) more := by
  induction methods generalizing seen with
  | nil => simp [unhidden]
  | cons m methods ih =>
    simp only [List.cons_append, unhidden]
    split
    · exact ih seen
    · rw [ih, List.cons_append, List.append_assoc]
      rfl

theorem unhidden_sublist (seen methods : List Method) :
    (unhidden seen methods).Sublist methods := by
  induction methods generalizing seen with
  | nil => exact .slnil
  | cons m methods ih =>
    rw [unhidden]
    split
    · exact (ih seen).cons m
    · exact (ih _).cons_cons m

/-- The ordinary methods of a member that belong to a section. -/
def ordinaryMethods (visibility : Protection) : Member → List Method
  | .method chain => if chain.first.isOrdinary then shownMethods visibility chain else []
  | _ => []

/-- What a member adds to a section, behind registered methods. -/
def memberEntries (target : ClassTarget) (visibility : Protection) (seen : List Method) :
    Member → List InterfaceMember
  | .method chain =>
    let methods :=
      if chain.first.isCtor then target.shownCtors visibility chain
      else if chain.first.isDtor then target.shownDtors visibility chain
      else unhidden seen (shownMethods visibility chain)
    methods.map .method
  | .variable v => if isShown visibility v.info then [.variable v] else []
  | .enum e => if e.hasActiveValues && isShown visibility e.info then [.enum e] else []
  | .inner _ => []

/-- What members add to a section one after another, behind registered methods. -/
def entries (target : ClassTarget) (visibility : Protection) (seen : List Method) :
    List Member → List InterfaceMember
  | [] => []
  | member :: members =>
    target.memberEntries visibility seen member ++
      target.entries visibility (seen ++ unhidden seen (ordinaryMethods visibility member)) members

theorem entries_append (seen : List Method) (members more : List Member) :
    target.entries visibility seen (members ++ more) =
      target.entries visibility seen members ++ target.entries visibility
        (seen ++ unhidden seen (members.flatMap (ordinaryMethods visibility))) more := by
  induction members generalizing seen with
  | nil => simp [entries, unhidden]
  | cons member members ih =>
    simp only [List.cons_append, entries, List.flatMap_cons, unhidden_append, ih,
      List.append_assoc]

/-! ### Building a section -/

/-- A builder has grown by entries of one section, and has registered methods. The methods among the
entries are found by their signatures. -/
structure Adds (visibility : Protection) (builder built : ClassBuilder)
    (entries : List InterfaceMember) (methods : List Method) : Prop where
  members : ∀ other, built.interface.members other =
    builder.interface.members other ++ if other = visibility then entries else []
  seen : built.seen = builder.seen ++ methods
  kept : builder.interface.methods.keys ⊆ built.interface.methods.keys
  entered : ∀ m, .method m ∈ entries → isEntered m = true →
    m.signature ∈ built.interface.methods.keys

theorem Adds.refl (builder : ClassBuilder) : Adds visibility builder builder [] [] :=
  ⟨fun _ ↦ by simp, by simp, List.Subset.refl _, fun _ h ↦ (List.not_mem_nil h).elim⟩

theorem Adds.trans {first second third : ClassBuilder} {entries more : List InterfaceMember}
    {methods others : List Method} (h : Adds visibility first second entries methods)
    (h' : Adds visibility second third more others) :
    Adds visibility first third (entries ++ more) (methods ++ others) := by
  refine ⟨fun other ↦ ?_, ?_, List.Subset.trans h.kept h'.kept, fun m hm hentered ↦ ?_⟩
  · rw [h'.members, h.members, List.append_assoc]
    split <;> rfl
  · rw [h'.seen, h.seen, List.append_assoc]
  · rcases List.mem_append.1 hm with hfirst | hmore
    · exact h'.kept (h.entered m hfirst hentered)
    · exact h'.entered m hmore hentered

variable (target) in
/-- A method is added to the section of its protection. -/
theorem adds_addMethod (builder : ClassBuilder) {m : Method} (seen : List Method)
    (hm : m.info.protection = visibility) :
    Adds visibility builder
      { interface := target.addMethod builder.interface m, seen := builder.seen ++ seen }
      [.method m] seen := by
  have hkeys (signature : String) :
      signature ∈ (target.addMethod builder.interface m).methods.keys ↔
        isEntered m = true ∧ signature = m.signature ∨
          signature ∈ builder.interface.methods.keys := by
    unfold addMethod
    split
    · rename_i hentered
      rw [ClassInterface.mem_keys_enter, ClassInterface.methods_addMember]
      simp [hentered, entry]
    · rename_i hentered
      rw [ClassInterface.methods_addMember]
      simp [hentered]
  refine ⟨fun other ↦ ?_, rfl, fun signature h ↦ (hkeys signature).2 (.inr h),
    fun _ h hentered ↦ ?_⟩
  · rw [← ClassInterface.members_addMember, ← hm]
    change (target.addMethod builder.interface m).members other = _
    unfold addMethod
    split <;> cases other <;> rfl
  · cases List.mem_singleton.1 h
    exact (hkeys _).2 (.inl ⟨hentered, rfl⟩)

/-- Methods that hide nothing are added to their section. -/
theorem adds_foldl_addMethod {methods : List Method}
    (h : ∀ m ∈ methods, m.info.protection = visibility) (builder : ClassBuilder) :
    Adds visibility builder
      { builder with interface := methods.foldl target.addMethod builder.interface }
      (methods.map .method) [] := by
  induction methods generalizing builder with
  | nil => exact .refl builder
  | cons m methods ih =>
    obtain ⟨hfirst, hrest⟩ := List.forall_mem_cons.1 h
    have hadds := adds_addMethod target builder [] hfirst
    rw [List.append_nil] at hadds
    exact hadds.trans (ih hrest _)

theorem adds_foldl_addOrdinary {methods : List Method}
    (h : ∀ m ∈ methods, m.info.protection = visibility) (builder : ClassBuilder) :
    Adds visibility builder (methods.foldl target.addOrdinary builder)
      ((unhidden builder.seen methods).map .method) (unhidden builder.seen methods) := by
  induction methods generalizing builder with
  | nil => exact .refl builder
  | cons m methods ih =>
    obtain ⟨hfirst, hrest⟩ := List.forall_mem_cons.1 h
    rw [List.foldl_cons, unhidden, addOrdinary]
    split
    · exact ih hrest builder
    · exact (adds_addMethod target builder [m] hfirst).trans (ih hrest _)

theorem adds_addShown (builder : ClassBuilder) (info : Info) {member : InterfaceMember}
    (hmember : member.method? = none) :
    Adds visibility builder (addShown visibility builder info member)
      (if isShown visibility info then [member] else []) [] := by
  unfold addShown
  split
  · refine ⟨fun other ↦ ?_, by rw [List.append_nil], ?_, fun m h _ ↦ ?_⟩
    · rw [ClassInterface.members_addMember]
    · rw [ClassInterface.methods_addMember]
      exact List.Subset.refl _
    · cases List.mem_singleton.1 h
      cases hmember
  · exact .refl builder

theorem adds_addChain (builder : ClassBuilder) (chain : Overloads) :
    Adds visibility builder (target.addChain visibility builder chain)
      (target.memberEntries visibility builder.seen (.method chain))
      (unhidden builder.seen (ordinaryMethods visibility (.method chain))) := by
  simp only [addChain, memberEntries, ordinaryMethods]
  by_cases hctor : chain.first.isCtor = true
  · have hordinary : ¬chain.first.isOrdinary = true := by simp [Method.isOrdinary, hctor]
    rw [if_pos hctor, if_pos hctor, if_neg hordinary]
    exact adds_foldl_addMethod
      (fun m hm ↦ (isShown_iff.1 (isShown_of_mem_shownCtors hm)).1) builder
  · rw [if_neg hctor, if_neg hctor]
    by_cases hdtor : chain.first.isDtor = true
    · have hordinary : ¬chain.first.isOrdinary = true := by simp [Method.isOrdinary, hdtor]
      rw [if_pos hdtor, if_pos hdtor, if_neg hordinary]
      refine adds_foldl_addMethod (fun m hm ↦ ?_) builder
      obtain ⟨⟨hprotection, -⟩, rfl⟩ := mem_shownDtors.1 hm
      exact hprotection
    · have hordinary : chain.first.isOrdinary = true := by
        simp [Method.isOrdinary, hctor, hdtor]
      rw [if_neg hdtor, if_neg hdtor, if_pos hordinary]
      exact adds_foldl_addOrdinary
        (fun m hm ↦ (isShown_iff.1 (isShown_of_mem_shownMethods hm)).1) builder

theorem adds_addMember (builder : ClassBuilder) (member : Member) :
    Adds visibility builder (target.addMember visibility builder member)
      (target.memberEntries visibility builder.seen member)
      (unhidden builder.seen (ordinaryMethods visibility member)) := by
  cases member with
  | method chain => exact adds_addChain builder chain
  | «variable» v => exact adds_addShown builder v.info rfl
  | enum e =>
    simp only [addMember, memberEntries]
    cases e.hasActiveValues with
    | true => exact adds_addShown builder e.info rfl
    | false => exact .refl builder
  | inner c => exact .refl builder

theorem adds_foldl_addMember (builder : ClassBuilder) (members : List Member) :
    Adds visibility builder (members.foldl (target.addMember visibility) builder)
      (target.entries visibility builder.seen members)
      (unhidden builder.seen (members.flatMap (ordinaryMethods visibility))) := by
  induction members generalizing builder with
  | nil => exact .refl builder
  | cons member members ih =>
    have hfirst : Adds visibility builder (target.addMember visibility builder member) _ _ :=
      adds_addMember builder member
    rw [List.foldl_cons, entries, List.flatMap_cons, unhidden_append, ← hfirst.seen]
    exact hfirst.trans (ih _)

theorem adds_addCustom {i j : ClassInterface} {decl : String}
    (h : target.addCustom visibility i decl = .ok j) (seen : List Method) :
    Adds visibility ⟨i, seen⟩ ⟨j, seen⟩ [.custom decl] [] := by
  have hmembers (other : Protection) := ClassInterface.members_addMember i visibility other
    (.custom decl)
  simp only [addCustom] at h
  split at h
  · obtain ⟨prototype, -, h⟩ := bind_eq_ok.1 h
    cases h
    refine ⟨fun other ↦ ?_, by rw [List.append_nil], fun signature hkey ↦ ?_, fun m hm ↦ ?_⟩
    · rw [← hmembers other]
      cases other <;> rfl
    · rw [ClassInterface.mem_keys_enter, ClassInterface.methods_addMember]
      exact .inr hkey
    · cases List.mem_singleton.1 hm
  · cases h
    refine ⟨hmembers, by rw [List.append_nil], ?_, fun m hm ↦ ?_⟩
    · rw [ClassInterface.methods_addMember]
      exact List.Subset.refl _
    · cases List.mem_singleton.1 hm

theorem adds_foldlM_addCustom {i j : ClassInterface} {decls : List String}
    (h : decls.foldlM (target.addCustom visibility) i = .ok j) (seen : List Method) :
    Adds visibility ⟨i, seen⟩ ⟨j, seen⟩ (decls.map .custom) [] := by
  induction decls generalizing i with
  | nil =>
    cases h
    exact .refl _
  | cons decl decls ih =>
    rw [List.foldlM_cons] at h
    obtain ⟨next, hnext, h⟩ := bind_eq_ok.1 h
    exact (adds_addCustom hnext seen).trans (ih h)

/-- A section holds the entries of the classes, in order, and then the declarations of the
policy. -/
theorem adds_addSection {builder built : ClassBuilder} {classes : List Class}
    {decls : List String}
    (h : target.addSection visibility builder classes decls = .ok built) :
    Adds visibility builder built
      (target.entries visibility builder.seen (classes.flatMap Class.members) ++
        decls.map .custom)
      (unhidden builder.seen
        ((classes.flatMap Class.members).flatMap (ordinaryMethods visibility))) := by
  obtain ⟨interface, hdecls, hbuilt⟩ := bind_eq_ok.1 h
  cases hbuilt
  have hmembers : classes.foldl (target.addMembers visibility) builder =
      (classes.flatMap Class.members).foldl (target.addMember visibility) builder :=
    (List.foldl_flatMap ..).symm
  rw [hmembers] at hdecls ⊢
  rw [← List.append_nil (unhidden _ _)]
  exact (adds_foldl_addMember builder _).trans (adds_foldlM_addCustom hdecls _)

/-! ### Entries by kind -/

theorem variables_entries (seen : List Method) (members : List Member) :
    (target.entries visibility seen members).filterMap InterfaceMember.memberVariable? =
      (members.filterMap Member.memberVariable?).filter fun v ↦ isShown visibility v.info := by
  induction members generalizing seen with
  | nil => rfl
  | cons member members ih =>
    rw [entries, List.filterMap_append, ih, List.filterMap_cons]
    cases member with
    | «variable» v =>
      cases hshown : isShown visibility v.info <;>
        simp [memberEntries, hshown, Member.memberVariable?, InterfaceMember.memberVariable?]
    | enum e =>
      cases hshown : e.hasActiveValues && isShown visibility e.info <;>
        simp only [memberEntries, hshown] <;> rfl
    | method chain =>
      have hnone (methods : List Method) : (methods.map InterfaceMember.method).filterMap
          InterfaceMember.memberVariable? = [] := by
        simp [List.filterMap_map, InterfaceMember.memberVariable?]
      rw [memberEntries, hnone, List.nil_append]
      rfl
    | inner c => rfl

theorem enums_entries (seen : List Method) (members : List Member) :
    (target.entries visibility seen members).filterMap InterfaceMember.enum? =
      (members.filterMap Member.enum?).filter fun e ↦
        e.hasActiveValues && isShown visibility e.info := by
  induction members generalizing seen with
  | nil => rfl
  | cons member members ih =>
    rw [entries, List.filterMap_append, ih, List.filterMap_cons]
    cases member with
    | enum e =>
      cases hshown : e.hasActiveValues && isShown visibility e.info <;>
        simp [memberEntries, hshown, Member.enum?, InterfaceMember.enum?]
    | «variable» v =>
      cases hshown : isShown visibility v.info <;> simp only [memberEntries, hshown] <;> rfl
    | method chain =>
      have hnone (methods : List Method) : (methods.map InterfaceMember.method).filterMap
          InterfaceMember.enum? = [] := by
        simp [List.filterMap_map, InterfaceMember.enum?]
      rw [memberEntries, hnone, List.nil_append]
      rfl
    | inner c => rfl

/-- All methods that a member declares. -/
def memberOverloads : Member → List Method
  | .method chain => chain.all
  | _ => []

theorem flatMap_memberOverloads (c : Class) : c.members.flatMap memberOverloads = c.overloads := by
  unfold Class.overloads Class.methods
  induction c.members with
  | nil => rfl
  | cons member members ih =>
    rw [List.flatMap_cons, ih]
    cases member <;> rfl

theorem ordinaryMethods_sublist (member : Member) :
    (ordinaryMethods visibility member).Sublist (memberOverloads member) := by
  cases member with
  | method chain =>
    rw [ordinaryMethods]
    split
    · exact List.filter_sublist
    · exact List.nil_sublist _
  | _ => exact List.Sublist.slnil

theorem flatMap_ordinaryMethods_sublist (members : List Member) :
    (members.flatMap (ordinaryMethods visibility)).Sublist
      (members.flatMap memberOverloads) := by
  induction members with
  | nil => exact .slnil
  | cons member members ih => exact (ordinaryMethods_sublist member).append ih

theorem filterMap_method?_map (methods : List Method) :
    (methods.map InterfaceMember.method).filterMap InterfaceMember.method? = methods := by
  rw [List.filterMap_map]
  exact List.filterMap_some

/-- Methods of one kind are all found among the entries, or none of them. -/
theorem filterMap_map_method {f : InterfaceMember → Option Method} {p : Method → Bool}
    (hf : ∀ m, f (.method m) = if p m then some m else none) {methods : List Method} {kind : Bool}
    (h : ∀ m ∈ methods, p m = kind) :
    (methods.map InterfaceMember.method).filterMap f = if kind then methods else [] := by
  rw [List.filterMap_map]
  cases kind with
  | true =>
    exact (List.filterMap_congr fun m hm ↦ (hf m).trans (if_pos (h m hm))).trans
      List.filterMap_some
  | false =>
    refine List.filterMap_eq_nil_iff.2 fun m hm ↦ (hf m).trans (if_neg ?_)
    simp [h m hm]

theorem methods_memberEntries_sublist (seen : List Method) (member : Member) :
    ((target.memberEntries visibility seen member).filterMap InterfaceMember.method?).Sublist
      (memberOverloads member) := by
  cases member with
  | method chain =>
    rw [memberEntries, filterMap_method?_map]
    split
    · rw [shownCtors]
      split
      · exact List.filter_sublist
      · exact List.nil_sublist _
    · split
      · rw [shownDtors]
        split
        · exact (List.nil_sublist _).cons_cons _
        · exact List.nil_sublist _
      · exact (unhidden_sublist _ _).trans List.filter_sublist
  | «variable» v =>
    rw [memberEntries]
    split <;> exact List.Sublist.slnil
  | enum e =>
    rw [memberEntries]
    split <;> exact List.Sublist.slnil
  | inner c => exact .slnil

theorem methods_entries_sublist (seen : List Method) (members : List Member) :
    ((target.entries visibility seen members).filterMap InterfaceMember.method?).Sublist
      (members.flatMap memberOverloads) := by
  induction members generalizing seen with
  | nil => exact .slnil
  | cons member members ih =>
    rw [entries, List.filterMap_append, List.flatMap_cons]
    exact (methods_memberEntries_sublist seen member).append (ih _)

variable (target) in
/-- The methods that an ordinary member adds are those that nothing hides. -/
theorem methods_memberEntries {m : Method} (seen : List Method) {member : Member}
    (hm : m ∈ ordinaryMethods visibility member) :
    (target.memberEntries visibility seen member).filterMap InterfaceMember.method? =
      unhidden seen (ordinaryMethods visibility member) := by
  cases member with
  | method chain =>
    rw [ordinaryMethods] at hm ⊢
    split at hm
    · rename_i hordinary
      have hkinds := hordinary
      rw [Method.isOrdinary, Bool.and_eq_true, Bool.not_eq_true', Bool.not_eq_true'] at hkinds
      rw [memberEntries, filterMap_method?_map, hkinds.1, hkinds.2, if_pos hordinary]
      rfl
    · exact (List.not_mem_nil hm).elim
  | _ => exact (List.not_mem_nil hm).elim

/-- Every ordinary method that nothing hides is entered. -/
theorem method_mem_entries {members : List Member} {m : Method} {seen : List Method}
    (hm : m ∈ unhidden seen (members.flatMap (ordinaryMethods visibility))) :
    .method m ∈ target.entries visibility seen members := by
  induction members generalizing seen with
  | nil => exact (List.not_mem_nil hm).elim
  | cons member members ih =>
    rw [List.flatMap_cons, unhidden_append] at hm
    rcases List.mem_append.1 hm with hfirst | hrest
    · have hmethod := (unhidden_sublist _ _).subset hfirst
      rw [← methods_memberEntries target seen hmethod] at hfirst
      obtain ⟨added, hadded, heq⟩ := List.mem_filterMap.1 hfirst
      cases added <;> cases heq
      exact List.mem_append_left _ hadded
    · exact List.mem_append_right _ (ih hrest)

/-- No two methods of some members are the same, so the ones that are entered are those that no
registered one hides, each once. -/
theorem count_methods_entries {members : List Member} {m : Method} (seen : List Method)
    (hdistinct : (members.flatMap memberOverloads).Nodup)
    (hm : m ∈ members.flatMap (ordinaryMethods visibility)) :
    ((target.entries visibility seen members).filterMap InterfaceMember.method?).count m =
      (unhidden seen (members.flatMap (ordinaryMethods visibility))).count m := by
  induction members generalizing seen with
  | nil => rfl
  | cons member members ih =>
    rw [List.flatMap_cons] at hdistinct hm ⊢
    obtain ⟨-, hmembers, hdisjoint⟩ := List.nodup_append.1 hdistinct
    rw [entries, List.filterMap_append, unhidden_append, List.count_append, List.count_append]
    rcases List.mem_append.1 hm with hfirst | hrest
    · have hnot : m ∉ members.flatMap memberOverloads := fun hmem ↦
        hdisjoint m ((ordinaryMethods_sublist member).subset hfirst) m hmem rfl
      rw [methods_memberEntries target seen hfirst,
        List.count_eq_zero.2 fun h ↦ hnot ((methods_entries_sublist _ _).subset h),
        List.count_eq_zero.2 fun h ↦ hnot ((flatMap_ordinaryMethods_sublist members).subset
          ((unhidden_sublist _ _).subset h))]
    · have hnot : m ∉ memberOverloads member := fun hmem ↦
        hdisjoint m hmem m ((flatMap_ordinaryMethods_sublist members).subset hrest) rfl
      rw [ih _ hmembers hrest,
        List.count_eq_zero.2 fun h ↦ hnot ((methods_memberEntries_sublist _ _).subset h),
        List.count_eq_zero.2 fun h ↦ hnot ((ordinaryMethods_sublist member).subset
          ((unhidden_sublist _ _).subset h))]

/-- Whether a method is kept is decided by the ones in front of it. -/
theorem count_unhidden {seen before after : List Method} {m : Method}
    (hdistinct : (before ++ m :: after).Nodup) :
    (unhidden seen (before ++ m :: after)).count m =
      if isHidden (seen ++ unhidden seen before) m then 0 else 1 := by
  obtain ⟨-, hrest, hdisjoint⟩ := List.nodup_append.1 hdistinct
  have hafter := (List.nodup_cons.1 hrest).1
  have hbefore : m ∉ before := fun h ↦ hdisjoint m h m List.mem_cons_self rfl
  rw [unhidden_append, List.count_append,
    List.count_eq_zero.2 fun h ↦ hbefore ((unhidden_sublist _ _).subset h), unhidden]
  split
  · rw [List.count_eq_zero.2 fun h ↦ hafter ((unhidden_sublist _ _).subset h)]
  · rw [List.count_cons_self,
      List.count_eq_zero.2 fun h ↦ hafter ((unhidden_sublist _ _).subset h)]

end ClassTarget

/-! ### The sections of a class -/

namespace View

variable {view : View} {c : Class} {interface : ClassInterface}

/-- What some classes add to the public section of a class, behind registered methods. -/
def publicEntries (view : View) (c : Class) (seen : List Method) (classes : List Class) :
    List InterfaceMember :=
  (view.target c).entries .publicAccess seen (classes.flatMap Class.members)

/-- The public section: the inner classes, the members of the class and of the bases that it folds,
and the declarations of the policy. Its instance methods are found by their signatures. -/
theorem publicMembers_eq (h : view.interfaceOf c = .ok interface) :
    ∃ folded, view.foldedBases c = .ok folded ∧
      interface.publicMembers = (c.innerClasses.filter showsInner).map .inner ++
        view.publicEntries c [] (c :: folded) ++
        (view.policy.extensionsOf c.name .publicAccess).map .custom ∧
      ∀ m, .method m ∈ view.publicEntries c [] (c :: folded) → ClassTarget.isEntered m = true →
        m.signature ∈ interface.methods.keys := by
  obtain ⟨folded, hfolded, h⟩ := bind_eq_ok.1 h
  obtain ⟨built, hpublic, h⟩ := bind_eq_ok.1 h
  refine ⟨folded, hfolded, ?_⟩
  have hadds := ClassTarget.adds_addSection hpublic
  have hsection := hadds.members .publicAccess
  rw [if_pos rfl, ← List.append_assoc] at hsection
  have hentered (m : Method) (hm : .method m ∈ view.publicEntries c [] (c :: folded)) :=
    hadds.entered m (List.mem_append_left _ hm)
  split at h
  · obtain ⟨last, hprotected, h⟩ := bind_eq_ok.1 h
    cases h
    have hlast := ClassTarget.adds_addSection hprotected
    have hsame := hlast.members .publicAccess
    rw [if_neg (by decide), List.append_nil] at hsame
    exact ⟨hsame.trans hsection, fun m hm h ↦ hlast.kept (hentered m hm h)⟩
  · cases h
    exact ⟨hsection, hentered⟩

/-- The protected section, if there is one: the members of the class and of the bases that it folds,
behind the methods that the public one has registered, and the declarations of the policy. -/
theorem protectedMembers_eq_behind (h : view.interfaceOf c = .ok interface) :
    ∃ folded, view.foldedBases c = .ok folded ∧
      interface.protectedMembers = if view.hasProtectedSection c folded then
        (view.target c).entries .protectedAccess
            (ClassTarget.unhidden [] (((c :: folded).flatMap Class.members).flatMap
              (ClassTarget.ordinaryMethods .publicAccess)))
            ((c :: folded).flatMap Class.members) ++
          (view.policy.extensionsOf c.name .protectedAccess).map .custom
      else [] := by
  obtain ⟨folded, hfolded, h⟩ := bind_eq_ok.1 h
  obtain ⟨built, hpublic, h⟩ := bind_eq_ok.1 h
  have hadds := ClassTarget.adds_addSection hpublic
  have hbuilt := hadds.members .protectedAccess
  rw [if_neg (by decide), List.append_nil] at hbuilt
  refine ⟨folded, hfolded, ?_⟩
  split at h
  · rename_i hprotected
    obtain ⟨last, hlast, h⟩ := bind_eq_ok.1 h
    cases h
    have hsection := (ClassTarget.adds_addSection hlast).members .protectedAccess
    rw [hbuilt, if_pos rfl, hadds.seen] at hsection
    rw [if_pos hprotected]
    exact hsection
  · rename_i hprotected
    cases h
    rw [if_neg hprotected]
    exact hbuilt

theorem protectedMembers_eq (h : view.interfaceOf c = .ok interface) :
    ∃ folded seen, view.foldedBases c = .ok folded ∧
      interface.protectedMembers = if view.hasProtectedSection c folded then
        (view.target c).entries .protectedAccess seen ((c :: folded).flatMap Class.members) ++
          (view.policy.extensionsOf c.name .protectedAccess).map .custom
      else [] := by
  obtain ⟨folded, hfolded, hmembers⟩ := protectedMembers_eq_behind h
  exact ⟨folded, _, hfolded, hmembers⟩

/-- The methods that are registered before a section is filled, when the public section takes these
members. -/
def registeredBefore (members : List Member) : Protection → List Method
  | .publicAccess => []
  | .protectedAccess =>
    ClassTarget.unhidden [] (members.flatMap (ClassTarget.ordinaryMethods .publicAccess))

/-- What is picked from a section comes from the members of the class and of the bases that it
folds, if nothing is picked from inner classes and from declarations of the policy. -/
theorem filterMap_members {α : Type} (h : view.interfaceOf c = .ok interface) {folded : List Class}
    (hfolded : view.foldedBases c = .ok folded) {pick : InterfaceMember → Option α}
    (hinner : ∀ inner, pick (.inner inner) = none) (hcustom : ∀ decl, pick (.custom decl) = none)
    (visibility : Protection) :
    (interface.members visibility).filterMap pick =
      if visibility = .publicAccess ∨ view.hasProtectedSection c folded = true then
        ((view.target c).entries visibility
          (registeredBefore ((c :: folded).flatMap Class.members) visibility)
          ((c :: folded).flatMap Class.members)).filterMap pick
      else [] := by
  have hdecls (decls : List String) : (decls.map InterfaceMember.custom).filterMap pick = [] := by
    simp [hcustom]
  cases visibility with
  | publicAccess =>
    obtain ⟨_, hsame, hmembers, -⟩ := publicMembers_eq h
    cases hfolded.symm.trans hsame
    have hclasses (classes : List Class) :
        (classes.map InterfaceMember.inner).filterMap pick = [] := by
      simp [hinner]
    rw [if_pos (.inl rfl), ClassInterface.members, hmembers, List.filterMap_append,
      List.filterMap_append, hclasses, hdecls, List.nil_append, List.append_nil]
    rfl
  | protectedAccess =>
    obtain ⟨_, hsame, hmembers⟩ := protectedMembers_eq_behind h
    cases hfolded.symm.trans hsame
    rw [ClassInterface.members, hmembers]
    by_cases hsection : view.hasProtectedSection c folded = true
    · rw [if_pos hsection, if_pos (.inr hsection), List.filterMap_append, hdecls, List.append_nil]
      rfl
    · rw [if_neg hsection, if_neg (by simpa using hsection)]
      rfl

end View

end Bindery
