import Bindery.Decl.Module
import Mathlib.Data.List.Induction
import Mathlib.Data.List.Nodup

/-!
Chains of overloads. The methods of one scope that share a key, which is their name together with
whether they are constructors, are held in one chain. Adding methods one by one keeps every one of
them, once and in order (`Overloads.gathers_gather`): a chain holds all methods of its key, behind
the one that was added first. A class holds its methods in this way
(`Class.gathers_foldl_addMember`), and so does a module its free functions, as none of these is a
constructor (`Module.gathers_foldl_addItem`). What holds of the parts of a class or module is kept
as well when chains are joined (`Class.forall_mem_foldl_addMember`,
`Module.forall_mem_foldl_addItem`).
-/

set_option autoImplicit false
set_option relaxedAutoImplicit false

namespace Bindery

/-- What the overloads of a chain have in common. -/
def Method.key (m : Method) : String × Bool := (m.name, m.isCtor)

namespace Overloads

/-- A method without other overloads. -/
def single (m : Method) : Overloads := ⟨m, []⟩

theorem eq_single {chain : Overloads} (h : chain.rest = []) : chain = single chain.first := by
  cases chain
  cases h
  rfl

/-- The chains of a scope hold the methods that are declared in it, each once. A chain holds all
methods of its key in the order of their declaration, so that the first of them leads it, and the
chains are in the order of their first methods. -/
structure Gathers (declared : List Method) (chains : List Overloads) : Prop where
  distinct : (chains.map (·.first.key)).Nodup
  all_eq : ∀ chain ∈ chains, chain.all = declared.filter (·.key == chain.first.key)
  perm : (chains.flatMap all).Perm declared
  firsts : (chains.map first).Sublist declared

section Insert

variable {chains : List Overloads} {chain more : Overloads} {declared : List Method}

theorem sharesKey_iff : chain.sharesKey more = true ↔ chain.first.key = more.first.key := by
  simp [sharesKey, Method.key, name, Method.name]

/-- Methods join the only chain of their key, or come last as a chain of their own. -/
theorem insert_cases (chains : List Overloads) (more : Overloads) :
    (∃ before chain after, chains = before ++ chain :: after ∧
      chain.first.key = more.first.key ∧
      insert chains more = before ++ chain.append more :: after) ∨
    (∀ chain ∈ chains, chain.first.key ≠ more.first.key) ∧
      insert chains more = chains ++ [more] := by
  induction chains with
  | nil => exact .inr ⟨List.forall_mem_nil _, rfl⟩
  | cons first rest ih =>
    rw [insert]
    by_cases hkey : first.sharesKey more = true
    · rw [if_pos hkey]
      exact .inl ⟨[], first, rest, rfl, sharesKey_iff.1 hkey, rfl⟩
    · rw [if_neg hkey]
      rw [sharesKey_iff] at hkey
      rcases ih with ⟨before, chain, after, rfl, hchain, heq⟩ | ⟨hnone, heq⟩
      · exact .inl ⟨first :: before, chain, after, rfl, hchain, congrArg _ heq⟩
      · exact .inr ⟨List.forall_mem_cons.2 ⟨hkey, hnone⟩, congrArg _ heq⟩

namespace Gathers

theorem nil : Gathers [] [] where
  distinct := List.nodup_nil
  all_eq := List.forall_mem_nil _
  perm := .nil
  firsts := .slnil

theorem key_of_mem (h : Gathers declared chains) (hchain : chain ∈ chains) {m : Method}
    (hm : m ∈ chain.all) : m.key = chain.first.key := by
  rw [h.all_eq chain hchain] at hm
  exact eq_of_beq (List.mem_filter.1 hm).2

theorem exists_chain (h : Gathers declared chains) {m : Method} (hm : m ∈ declared) :
    ∃ chain ∈ chains, m ∈ chain.all := List.mem_flatMap.1 (h.perm.mem_iff.2 hm)

theorem mem_declared (h : Gathers declared chains) (hchain : chain ∈ chains) {m : Method}
    (hm : m ∈ chain.all) : m ∈ declared :=
  h.perm.mem_iff.1 (List.mem_flatMap.2 ⟨chain, hchain, hm⟩)

theorem filter_key_concat (declared : List Method) (m : Method) (key : String × Bool) :
    (declared ++ [m]).filter (·.key == key) =
      declared.filter (·.key == key) ++ if m.key = key then [m] else [] := by
  by_cases hkey : m.key = key <;> simp [List.filter_append, hkey]

/-- A method joins the chain of its key, which no other chain has. -/
theorem join {before after : List Overloads} {m : Method}
    (h : Gathers declared (before ++ chain :: after)) (hkey : chain.first.key = m.key) :
    Gathers (declared ++ [m]) (before ++ chain.append (single m) :: after) := by
  have hfirsts : (before ++ chain.append (single m) :: after).map first =
      (before ++ chain :: after).map first := by simp [append]
  refine ⟨?_, fun other hother ↦ ?_, ?_, ?_⟩
  · have hkeys := congrArg (List.map Method.key) hfirsts
    rw [List.map_map, List.map_map] at hkeys
    exact hkeys ▸ h.distinct
  · rw [filter_key_concat]
    have hmem : other = chain.append (single m) ∨ other ∈ before ++ after := by
      simpa [or_left_comm] using hother
    rcases hmem with rfl | hold
    · rw [all_append, h.all_eq chain (by simp)]
      exact congrArg _ (if_pos hkey.symm).symm
    · have hne : m.key ≠ other.first.key := by
        have hdistinct := h.distinct
        rw [List.map_append, List.map_cons, List.nodup_middle, List.nodup_cons] at hdistinct
        intro hsame
        refine hdistinct.1 ?_
        rw [hkey, hsame, ← List.map_append]
        exact List.mem_map_of_mem hold
      rw [if_neg hne, List.append_nil]
      have hother : other ∈ before ++ chain :: after := by
        simpa [or_left_comm] using .inr (List.mem_append.1 hold)
      exact h.all_eq other hother
  · have hperm := h.perm.append_right [m]
    simp only [List.flatMap_append, List.flatMap_cons, all_append, List.append_assoc] at hperm ⊢
    exact .trans (.append_left _ (.append_left _ List.perm_append_comm)) hperm
  · rw [hfirsts]
    exact h.firsts.trans (List.sublist_append_left _ _)

/-- A method whose key is new starts a chain. -/
theorem start {m : Method} (h : Gathers declared chains)
    (hnew : ∀ chain ∈ chains, chain.first.key ≠ m.key) :
    Gathers (declared ++ [m]) (chains ++ [single m]) := by
  refine ⟨?_, fun other hother ↦ ?_, ?_, ?_⟩
  · rw [List.map_append, List.nodup_append]
    refine ⟨h.distinct, List.nodup_singleton _, fun key hkey last hlast hsame ↦ ?_⟩
    obtain ⟨chain, hchain, rfl⟩ := List.mem_map.1 hkey
    exact hnew chain hchain (hsame.trans (List.mem_singleton.1 hlast))
  · rw [filter_key_concat]
    rcases List.mem_append.1 hother with hold | hlast
    · rw [if_neg fun hsame ↦ hnew other hold hsame.symm, List.append_nil]
      exact h.all_eq other hold
    · have hfresh : declared.filter (·.key == m.key) = [] := by
        refine List.filter_eq_nil_iff.2 fun o ho hsame ↦ ?_
        obtain ⟨chain, hchain, ho⟩ := h.exists_chain ho
        exact hnew chain hchain ((h.key_of_mem hchain ho).symm.trans (eq_of_beq hsame))
      rw [List.mem_singleton.1 hlast]
      change [m] = declared.filter (·.key == m.key) ++ if m.key = m.key then [m] else []
      rw [hfresh, if_pos rfl, List.nil_append]
  · rw [List.flatMap_append]
    exact h.perm.append_right [m]
  · rw [List.map_append]
    exact h.firsts.append (.refl _)

theorem insert (h : Gathers declared chains) (m : Method) :
    Gathers (declared ++ [m]) (Overloads.insert chains (single m)) := by
  rcases insert_cases chains (single m) with
    ⟨before, chain, after, rfl, hkey, heq⟩ | ⟨hnew, heq⟩ <;> rw [heq]
  · exact h.join hkey
  · exact h.start hnew

end Gathers

/-- Methods that are added one by one are gathered. -/
theorem gathers_gather (declared : List Method) :
    Gathers declared (gather (declared.map single)) := by
  induction declared using List.reverseRecOn with
  | nil => exact .nil
  | append_singleton declared m ih =>
    rw [gather, List.map_append, List.foldl_append]
    exact ih.insert m

end Insert

end Overloads

/-! ### The methods of a class -/

section Members

variable {members : List Member} {member : Member} {c : Class} {declared : List Method}

theorem Member.filterMap_methods?_insertMethods (members : List Member) (more : Overloads) :
    (insertMethods members more).filterMap methods? =
      Overloads.insert (members.filterMap methods?) more := by
  induction members with
  | nil => rfl
  | cons member members ih =>
    cases member with
    | method chain =>
      rw [insertMethods]
      split <;> rename_i hkey <;> simp [methods?, Overloads.insert, hkey, ih]
    | _ => simp [List.filterMap_cons, insertMethods, methods?, ih]

/-- Joining methods leaves the members of other kinds as they are. -/
theorem Member.filterMap_insertMethods {α : Type} {f : Member → Option α}
    (hf : ∀ chain, f (.method chain) = none) (members : List Member) (more : Overloads) :
    (insertMethods members more).filterMap f = members.filterMap f := by
  induction members with
  | nil => simp [insertMethods, hf]
  | cons member members ih =>
    cases member with
    | method chain =>
      rw [insertMethods]
      split <;> simp [hf, ih]
    | _ => simp [insertMethods, List.filterMap_cons, ih]

theorem Member.forall_mem_insertMethods {P : Member → Prop} {more : Overloads}
    (happend : ∀ chain, P (.method chain) → P (.method (chain.append more)))
    (hmore : P (.method more)) (hmembers : ∀ member ∈ members, P member) :
    ∀ member ∈ insertMethods members more, P member := by
  induction members with
  | nil => exact List.forall_mem_singleton.2 hmore
  | cons member members ih =>
    obtain ⟨hfirst, hrest⟩ := List.forall_mem_cons.1 hmembers
    cases member with
    | method chain =>
      rw [insertMethods]
      split
      · exact List.forall_mem_cons.2 ⟨happend chain hfirst, hrest⟩
      · exact List.forall_mem_cons.2 ⟨hfirst, ih hrest⟩
    | _ => exact List.forall_mem_cons.2 ⟨hfirst, ih hrest⟩

namespace Class

theorem info_addMember (c : Class) (member : Member) : (c.addMember member).info = c.info := by
  cases member <;> rfl

theorem members_addMember (h : member.methods? = none) :
    (c.addMember member).members = c.members ++ [member] := by
  cases member with
  | method chain => cases h
  | _ => rfl

theorem addMember_named {chain : Overloads} (hchain : chain.first.className.isSome = true) :
    c.addMember (.method chain) = { c with members := Member.insertMethods c.members chain } := by
  obtain ⟨className, hname⟩ := Option.isSome_iff_exists.1 hchain
  simp [addMember, hname]

/-- Members of other kinds than methods are kept in order. -/
theorem filterMap_foldl_addMember {α : Type} {f : Member → Option α}
    (hf : ∀ chain, f (.method chain) = none) (c : Class) (members : List Member) :
    (members.foldl addMember c).members.filterMap f =
      c.members.filterMap f ++ members.filterMap f := by
  induction members generalizing c with
  | nil => simp
  | cons member members ih =>
    rw [List.foldl_cons, ih]
    cases member with
    | method chain => simp [addMember, Member.filterMap_insertMethods hf, hf]
    | _ => simp [addMember, List.filterMap_cons]; split <;> simp_all

/-- Methods that are added one by one, each naming its class, are gathered with those of the
class. -/
theorem gathers_foldl_addMember (h : Overloads.Gathers declared c.methods)
    (hmembers : ∀ chain, .method chain ∈ members →
      chain.rest = [] ∧ chain.first.className.isSome = true) :
    Overloads.Gathers (declared ++ (members.filterMap Member.methods?).map Overloads.first)
      (members.foldl addMember c).methods := by
  induction members generalizing c declared with
  | nil => simpa using h
  | cons member members ih =>
    have hrest := fun chain hchain ↦ hmembers chain (List.mem_cons_of_mem _ hchain)
    cases member with
    | method chain =>
      obtain ⟨hsingle, hnamed⟩ := hmembers chain List.mem_cons_self
      have hnext := h.insert chain.first
      rw [← Overloads.eq_single hsingle, methods,
        ← Member.filterMap_methods?_insertMethods] at hnext
      rw [List.foldl_cons, addMember_named hnamed]
      have hall := ih (c := { c with members := Member.insertMethods c.members chain }) hnext hrest
      rwa [List.append_assoc] at hall
    | _ =>
      refine ih (c := c.addMember _) ?_ hrest
      rw [methods, members_addMember rfl, List.filterMap_append]
      exact (List.append_nil c.methods).symm ▸ h

/-- What holds of all members is kept when members are added, if it is when methods join. -/
theorem forall_mem_foldl_addMember {P : Member → Prop}
    (happend : ∀ chain more, P (.method chain) → P (.method more) →
      P (.method (chain.append more)))
    (hc : ∀ member ∈ c.members, P member) (hmembers : ∀ member ∈ members, P member)
    (hnamed : ∀ chain, .method chain ∈ members → chain.first.className.isSome = true) :
    ∀ member ∈ (members.foldl addMember c).members, P member := by
  induction members generalizing c with
  | nil => exact hc
  | cons member members ih =>
    obtain ⟨hfirst, hrest⟩ := List.forall_mem_cons.1 hmembers
    refine ih ?_ hrest fun chain hchain ↦ hnamed chain (List.mem_cons_of_mem _ hchain)
    cases member with
    | method chain =>
      rw [addMember_named (hnamed chain List.mem_cons_self)]
      exact Member.forall_mem_insertMethods (fun other hother ↦ happend other chain hother hfirst)
        hfirst hc
    | _ => exact List.forall_mem_append.2 ⟨hc, List.forall_mem_singleton.2 hfirst⟩

end Class

end Members

/-! ### The functions of a module -/

def Item.function? : Item → Option Overloads
  | .function chain => some chain
  | _ => none

/-- The chains of the free functions of a module. -/
def Module.functions (m : Module) : List Overloads := m.items.filterMap Item.function?

section Items

variable {items : List Item} {m : Module} {declared : List Method}

/-- Functions join by their names alone, which makes no difference where none is a constructor. -/
theorem Item.filterMap_function?_insertFunction {more : Overloads}
    (hctor : ∀ chain ∈ items.filterMap function?, chain.first.isCtor = more.first.isCtor) :
    (insertFunction items more).filterMap function? =
      Overloads.insert (items.filterMap function?) more := by
  induction items with
  | nil => rfl
  | cons item items ih =>
    cases item with
    | function chain =>
      simp only [List.filterMap_cons, function?, List.forall_mem_cons] at hctor
      have hkey : chain.sharesKey more = (chain.name == more.name) := by
        simp [Overloads.sharesKey, hctor.1]
      rw [insertFunction]
      split <;> rename_i hname <;>
        simp [function?, Overloads.insert, hkey, hname, ih hctor.2]
    | _ => simpa [List.filterMap_cons, insertFunction, function?] using ih hctor

theorem Item.filterMap_insertFunction {α : Type} {f : Item → Option α}
    (hf : ∀ chain, f (.function chain) = none) (items : List Item) (more : Overloads) :
    (insertFunction items more).filterMap f = items.filterMap f := by
  induction items with
  | nil => simp [insertFunction, hf]
  | cons item items ih =>
    cases item with
    | function chain =>
      rw [insertFunction]
      split <;> simp [hf, ih]
    | _ => simp [insertFunction, List.filterMap_cons, ih]

theorem Item.forall_mem_insertFunction {P : Item → Prop} {more : Overloads}
    (happend : ∀ chain, P (.function chain) → P (.function (chain.append more)))
    (hmore : P (.function more)) (hitems : ∀ item ∈ items, P item) :
    ∀ item ∈ insertFunction items more, P item := by
  induction items with
  | nil => exact List.forall_mem_singleton.2 hmore
  | cons item items ih =>
    obtain ⟨hfirst, hrest⟩ := List.forall_mem_cons.1 hitems
    cases item with
    | function chain =>
      rw [insertFunction]
      split
      · exact List.forall_mem_cons.2 ⟨happend chain hfirst, hrest⟩
      · exact List.forall_mem_cons.2 ⟨hfirst, ih hrest⟩
    | _ => exact List.forall_mem_cons.2 ⟨hfirst, ih hrest⟩

namespace Module

theorem items_addItem {item : Item} (h : item.function? = none) :
    (m.addItem item).items = m.items ++ [item] := by
  cases item with
  | function chain => cases h
  | _ => rfl

theorem filterMap_foldl_addItem {α : Type} {f : Item → Option α}
    (hf : ∀ chain, f (.function chain) = none) (m : Module) (items : List Item) :
    (items.foldl addItem m).items.filterMap f = m.items.filterMap f ++ items.filterMap f := by
  induction items generalizing m with
  | nil => simp
  | cons item items ih =>
    rw [List.foldl_cons, ih]
    cases item with
    | function chain => simp [addItem, Item.filterMap_insertFunction hf, hf]
    | _ => simp [addItem, List.filterMap_cons]; split <;> simp_all

/-- Functions that are added one by one are gathered with those of the module. -/
theorem gathers_foldl_addItem (h : Overloads.Gathers declared m.functions)
    (hdeclared : ∀ o ∈ declared, o.isCtor = false)
    (hitems : ∀ chain, .function chain ∈ items → chain.rest = [] ∧ chain.first.isCtor = false) :
    Overloads.Gathers (declared ++ (items.filterMap Item.function?).map Overloads.first)
      (items.foldl addItem m).functions := by
  induction items generalizing m declared with
  | nil => simpa using h
  | cons item items ih =>
    have hrest := fun chain hchain ↦ hitems chain (List.mem_cons_of_mem _ hchain)
    cases item with
    | function chain =>
      obtain ⟨hsingle, hctor⟩ := hitems chain List.mem_cons_self
      have hsame : ∀ other ∈ m.functions, other.first.isCtor = chain.first.isCtor :=
        fun other hother ↦
          (hdeclared _ (h.mem_declared hother List.mem_cons_self)).trans hctor.symm
      have hnext := h.insert chain.first
      rw [← Overloads.eq_single hsingle, functions,
        ← Item.filterMap_function?_insertFunction hsame] at hnext
      have hdeclaredNext : ∀ o ∈ declared ++ [chain.first], o.isCtor = false :=
        List.forall_mem_append.2 ⟨hdeclared, List.forall_mem_singleton.2 hctor⟩
      have hall := ih (m := m.addItem (.function chain)) hnext hdeclaredNext hrest
      rwa [List.append_assoc] at hall
    | _ =>
      refine ih (m := m.addItem _) ?_ hdeclared hrest
      rw [functions, items_addItem rfl, List.filterMap_append]
      exact (List.append_nil m.functions).symm ▸ h

theorem forall_mem_foldl_addItem {P : Item → Prop}
    (happend : ∀ chain more, P (.function chain) → P (.function more) →
      P (.function (chain.append more)))
    (hm : ∀ item ∈ m.items, P item) (hitems : ∀ item ∈ items, P item) :
    ∀ item ∈ (items.foldl addItem m).items, P item := by
  induction items generalizing m with
  | nil => exact hm
  | cons item items ih =>
    obtain ⟨hfirst, hrest⟩ := List.forall_mem_cons.1 hitems
    refine ih ?_ hrest
    cases item with
    | function chain =>
      exact Item.forall_mem_insertFunction (fun other hother ↦ happend other chain hother hfirst)
        hfirst hm
    | _ => exact List.forall_mem_append.2 ⟨hm, List.forall_mem_singleton.2 hfirst⟩

end Module

end Items

end Bindery
