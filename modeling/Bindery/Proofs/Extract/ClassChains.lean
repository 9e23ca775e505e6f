import Bindery.Proofs.Extract.Platforms
import Bindery.Proofs.Source.Reading

/-!
The chains of the classes that a policy works on. A class that is read holds all methods of a key in
one chain, with its constructors under its own name (`ClassEntry.Gives.isChained`). That is a matter
of keys, which no revision changes (`Class.keyTable_mapInfos`), and so it holds of every class of an
extraction (`Policy.isChained_of_extract`), as does whatever is read in and kept by revisions
(`Policy.forall_class_of_extract`). Its methods name it as the class that declares them, too
(`Policy.declaresOwn_of_extract`).
-/

set_option autoImplicit false
set_option relaxedAutoImplicit false

namespace Bindery

/-! ### Chains and their keys -/

/-- Chains of distinct keys, each with methods of one key only, gather the methods in them. -/
theorem Overloads.gathers_of_keys {chains : List Overloads}
    (hdistinct : (chains.map (·.first.key)).Nodup)
    (huniform : ∀ chain ∈ chains, ∀ m ∈ chain.all, m.key = chain.first.key) :
    Gathers (chains.flatMap all) chains where
  distinct := hdistinct
  all_eq chain hchain := by
    obtain ⟨before, after, rfl⟩ := List.append_of_mem hchain
    have hothers : ((before ++ after).flatMap all).filter (·.key == chain.first.key) = [] := by
      refine List.filter_eq_nil_iff.2 fun m hm hkey ↦ ?_
      obtain ⟨other, hother, hm⟩ := List.mem_flatMap.1 hm
      rw [List.map_append, List.map_cons, List.nodup_middle, List.nodup_cons] at hdistinct
      have hmem : other ∈ before ++ chain :: after := by
        simpa [or_left_comm] using .inr (List.mem_append.1 hother)
      refine hdistinct.1 ?_
      rw [← eq_of_beq hkey, huniform other hmem m hm, ← List.map_append]
      exact List.mem_map_of_mem hother
    rw [List.flatMap_append, List.filter_append, List.append_eq_nil_iff] at hothers
    rw [List.flatMap_append, List.flatMap_cons, List.filter_append, List.filter_append,
      hothers.1, hothers.2, List.nil_append, List.append_nil]
    exact (List.filter_eq_self.2 fun m hm ↦ beq_iff_eq.2 (huniform chain hchain m hm)).symm
  perm := .refl _
  firsts := by
    induction chains with
    | nil => exact .slnil
    | cons chain chains ih =>
      obtain ⟨-, hrest⟩ := List.nodup_cons.1 hdistinct
      rw [List.map_cons, List.flatMap_cons, all, List.cons_append]
      refine .cons_cons _ ((ih hrest fun other hother ↦ ?_).trans
        (List.sublist_append_right _ _))
      exact huniform other (List.mem_cons_of_mem _ hother)

namespace Class

/-- The keys of the methods, chain by chain. -/
def keyTable (c : Class) : List (List (String × Bool)) :=
  c.methods.map fun chain ↦ chain.all.map Method.key

/-- There is one chain for each key, and constructors are named like the class. -/
structure IsChained (c : Class) : Prop where
  distinct : (c.keyTable.map List.head?).Nodup
  uniform : ∀ row ∈ c.keyTable, ∀ key ∈ row, row.head? = some key
  ctor_name : ∀ row ∈ c.keyTable, ∀ key ∈ row, key.2 = true → key.1 = c.name

theorem map_head?_keyTable (c : Class) :
    c.keyTable.map List.head? = (c.methods.map (·.first.key)).map some := by
  rw [keyTable, List.map_map, List.map_map]
  rfl

theorem forall_mem_keyTable {P : List (String × Bool) → String × Bool → Prop} {c : Class} :
    (∀ row ∈ c.keyTable, ∀ key ∈ row, P row key) ↔
      ∀ chain ∈ c.methods, ∀ m ∈ chain.all, P (chain.all.map Method.key) m.key := by
  simp only [keyTable, List.forall_mem_map]

namespace IsChained

variable {c : Class}

theorem uniform_iff : (∀ row ∈ c.keyTable, ∀ key ∈ row, row.head? = some key) ↔
    ∀ chain ∈ c.methods, ∀ m ∈ chain.all, m.key = chain.first.key :=
  forall_mem_keyTable.trans <| forall₂_congr fun chain _ ↦ forall₂_congr fun m _ ↦ by
    rw [Overloads.all, List.map_cons, List.head?_cons, Option.some_inj, eq_comm]

theorem gathers (h : c.IsChained) : Overloads.Gathers c.overloads c.methods := by
  refine Overloads.gathers_of_keys ?_ (uniform_iff.1 h.uniform)
  exact List.Nodup.of_map some (c.map_head?_keyTable ▸ h.distinct)

theorem name_of_isCtor (h : c.IsChained) {m : Method} (hm : m ∈ c.overloads)
    (hctor : m.isCtor = true) : m.name = c.name := by
  obtain ⟨chain, hchain, hm⟩ := List.mem_flatMap.1 hm
  exact forall_mem_keyTable.1 h.ctor_name chain hchain m hm hctor

end IsChained

end Class

/-! ### Classes that are read -/

theorem MethodEntry.name_of_isCtor {entry : MethodEntry} {m : Method} {className : String}
    (h : entry.toMethod (some className) = .ok m) (hctor : m.isCtor = true) :
    m.name = className := by
  obtain ⟨info, -, h⟩ := bind_eq_ok.1 h
  cases h
  have hname := (Bool.and_eq_true _ _ ▸ hctor).1
  exact (Option.some.inj (eq_of_beq hname)).symm

theorem ClassEntry.Gives.isChained {entry : ClassEntry} {c : Class} (h : entry.Gives c) :
    c.IsChained := by
  obtain ⟨declared, hdeclared, hgathers⟩ := h.methods
  have huniform : ∀ chain ∈ c.methods, ∀ m ∈ chain.all, m.key = chain.first.key :=
    fun chain hchain m hm ↦ hgathers.key_of_mem hchain hm
  refine ⟨?_, Class.IsChained.uniform_iff.2 huniform, ?_⟩
  · rw [Class.map_head?_keyTable]
    exact hgathers.distinct.map fun _ _ ↦ Option.some.inj
  · refine Class.forall_mem_keyTable.2 fun chain hchain m hm hctor ↦ ?_
    obtain ⟨f, -, hf⟩ := exists_of_forall₂ hdeclared (hgathers.mem_declared hchain hm)
    exact MethodEntry.name_of_isCtor hf hctor

theorem Module.exists_gives_of_extract {load : String → Except Error DeclFile} {name : String}
    {itemNames : List String} {m : Module} (hm : Module.extract load name itemNames = .ok m)
    {c : Class} (hc : c ∈ m.classes) : ∃ entry : ClassEntry, entry.Gives c := by
  rw [extract_eq] at hm
  obtain ⟨groups, hgroups, hm⟩ := bind_eq_ok.1 hm
  cases hm
  obtain ⟨files, -, hentries⟩ := forall₂_of_itemsOf load hgroups
  have hdeclares := declares_foldl_addItem (m := { name, itemNames }) rfl hentries
  have hnested : ([c.name], c) ∈ nestedClasses _ := List.mem_flatMap.2 ⟨c, hc, by
    rw [Class.nested_eq]
    exact List.mem_cons_self⟩
  obtain ⟨entry, -, -, hgives⟩ := exists_of_forall₂ hdeclares.classes hnested
  exact ⟨_, hgives⟩

/-! ### Classes that are revised -/

theorem filterMap_mapIdx {α β : Type} {change : Nat → α → α} {f : α → Option β}
    (h : ∀ i a, f (change i a) = f a) (l : List α) :
    (l.mapIdx change).filterMap f = l.filterMap f := by
  induction l generalizing change with
  | nil => rfl
  | cons a l ih =>
    rw [List.mapIdx_cons, List.filterMap_cons, List.filterMap_cons, h, ih fun i b ↦ h (i + 1) b]

theorem Overloads.keys_mapInfos {f : Option Nat → Info → Info}
    (hf : ∀ overload info, (f overload info).name = info.name) (chain : Overloads) :
    (chain.mapInfos f).all.map Method.key = chain.all.map Method.key := by
  rw [all_mapInfos, ← List.filterMap_eq_map]
  refine filterMap_mapIdx (fun i m ↦ ?_) chain.all
  exact congrArg some (Prod.ext (hf (some i) m.info) rfl)

/-- New attributes that keep the names keep the keys. -/
theorem Class.keyTable_mapInfos {f : Way → Option Nat → Info → Info}
    (hf : ∀ way overload info, (f way overload info).name = info.name) (c : Class) :
    (c.mapInfos f).keyTable = c.keyTable := by
  rw [keyTable, keyTable, methods, methods, List.map_filterMap, List.map_filterMap,
    Class.members_mapInfos]
  refine filterMap_mapIdx (fun i member ↦ ?_) c.members
  cases member with
  | method chain => exact congrArg some (chain.keys_mapInfos fun _ _ ↦ hf _ _ _)
  | _ => rfl

theorem Class.IsChained.revise {c : Class} (h : c.IsChained) {f : Way → Option Nat → Info → Info}
    (hf : ∀ way overload info, (f way overload info).name = info.name)
    (bases : List Base → List Base) (paramMappings : List ParamMapping → List ParamMapping) :
    ((c.adapt bases paramMappings).mapInfos f).IsChained := by
  have htable : ((c.adapt bases paramMappings).mapInfos f).keyTable = c.keyTable :=
    Class.keyTable_mapInfos hf _
  have hname : ((c.adapt bases paramMappings).mapInfos f).name = c.name := by
    rw [Class.name, Class.info_mapInfos, hf]
    rfl
  refine ⟨?_, ?_, ?_⟩ <;> rw [htable]
  · exact h.distinct
  · exact h.uniform
  · rw [hname]
    exact h.ctor_name

/-- What holds of every class that is read, and is kept by revisions, holds of the classes of an
extraction. -/
theorem Policy.forall_class_of_extract {P : Class → Prop}
    (hread : ∀ {entry : ClassEntry} {c}, entry.Gives c → P c)
    (hrevise : ∀ {c : Class} {f : Way → Option Nat → Info → Info}, P c →
      (∀ way overload info, (f way overload info).name = info.name) →
      ∀ bases paramMappings, P ((c.adapt bases paramMappings).mapInfos f))
    {policy : Policy} {config : Config} {load : String → Except Error DeclFile}
    {extraction : Extraction} (hextract : policy.extract config load = .ok extraction) {c : Class}
    (hc : c ∈ extraction.module.classes) : P c := by
  cases hm : Module.extract load policy.moduleName policy.items with
  | error e =>
    rw [extract, hm] at hextract
    cases hextract
  | ok m =>
    obtain ⟨-, other, hother, hmodule⟩ | ⟨-, e, herror⟩ := extract_cases_on config hm
    case inr => cases hextract.symm.trans herror
    cases hextract.symm.trans hother
    obtain ⟨item, hitem, hclass⟩ := List.mem_filterMap.1 hc
    rw [hmodule] at hitem
    obtain ⟨i, hi, rfl⟩ := List.mem_mapIdx.1 hitem
    cases hitem' : m.items[i] with
    | ofClass b =>
      rw [hitem'] at hclass
      cases hclass
      have hb : b ∈ m.classes := List.mem_filterMap.2 ⟨_, List.getElem_mem hi, by rw [hitem']; rfl⟩
      obtain ⟨entry, hgives⟩ := Module.exists_gives_of_extract hm hb
      exact hrevise (hread hgives) (fun _ _ _ ↦ Revision.name_info _ _ _) _ _
    | _ =>
      rw [hitem'] at hclass
      cases hclass

theorem Policy.isChained_of_extract {policy : Policy} {config : Config}
    {load : String → Except Error DeclFile} {extraction : Extraction}
    (hextract : policy.extract config load = .ok extraction) {c : Class}
    (hc : c ∈ extraction.module.classes) : c.IsChained :=
  forall_class_of_extract ClassEntry.Gives.isChained (fun h ↦ h.revise) hextract hc

/-! ### Methods and the class that declares them -/

/-- The methods of a class name it as the one that declares them, and the overloads of one chain are
of one kind: either all of them create or destroy objects, or none does. -/
structure Class.DeclaresOwn (c : Class) : Prop where
  className : ∀ m ∈ c.overloads, m.className = some c.name
  isOrdinary : ∀ chain ∈ c.methods, ∀ m ∈ chain.all, m.isOrdinary = chain.first.isOrdinary

theorem MethodEntry.isDtor_toMethod {entry : MethodEntry} {m : Method} {scope : Option String}
    (h : entry.toMethod scope = .ok m) : m.isDtor = Text.startsWith "~" m.name := by
  obtain ⟨info, -, h⟩ := bind_eq_ok.1 h
  cases h
  rfl

/-- What is declared under one key is of one kind. -/
theorem MethodEntry.isOrdinary_eq_of_key {entry other : MethodEntry} {m o : Method}
    {scope : Option String} (hm : entry.toMethod scope = .ok m) (ho : other.toMethod scope = .ok o)
    (hkey : m.key = o.key) : m.isOrdinary = o.isOrdinary := by
  obtain ⟨hname, hctor⟩ := Prod.ext_iff.1 hkey
  change m.name = o.name at hname
  change m.isCtor = o.isCtor at hctor
  rw [Method.isOrdinary, Method.isOrdinary, hctor, isDtor_toMethod hm, isDtor_toMethod ho, hname]

theorem ClassEntry.Gives.declaresOwn {entry : ClassEntry} {c : Class} (h : entry.Gives c) :
    c.DeclaresOwn where
  className m hm := (h.isDeclaredIn hm).className
  isOrdinary chain hchain m hm := by
    obtain ⟨declared, hdeclared, hgathers⟩ := h.methods
    obtain ⟨entry, -, hentry⟩ := exists_of_forall₂ hdeclared (hgathers.mem_declared hchain hm)
    obtain ⟨first, -, hfirst⟩ :=
      exists_of_forall₂ hdeclared (hgathers.mem_declared hchain List.mem_cons_self)
    exact MethodEntry.isOrdinary_eq_of_key hentry hfirst (hgathers.key_of_mem hchain hm)

theorem Class.exists_of_mem_methods_mapInfos {c : Class} {f : Way → Option Nat → Info → Info}
    {chain : Overloads} (h : chain ∈ (c.mapInfos f).methods) :
    ∃ own ∈ c.methods, ∃ g, chain = own.mapInfos g := by
  obtain ⟨member, hmember, hchain⟩ := List.mem_filterMap.1 h
  rw [Class.members_mapInfos] at hmember
  obtain ⟨i, hi, rfl⟩ := List.mem_mapIdx.1 hmember
  cases hown : c.members[i] with
  | method own =>
    rw [hown] at hchain
    cases hchain
    exact ⟨own, List.mem_filterMap.2 ⟨_, List.getElem_mem hi, by rw [hown]; rfl⟩, _, rfl⟩
  | _ =>
    rw [hown] at hchain
    cases hchain

theorem Overloads.exists_of_mem_all_mapInfos {chain : Overloads} {f : Option Nat → Info → Info}
    {m : Method} (h : m ∈ (chain.mapInfos f).all) :
    ∃ own ∈ chain.all, ∃ info, m = { own with info } := by
  rw [all_mapInfos] at h
  obtain ⟨i, hi, rfl⟩ := List.mem_mapIdx.1 h
  exact ⟨_, List.getElem_mem hi, _, rfl⟩

theorem Class.DeclaresOwn.revise {c : Class} (h : c.DeclaresOwn)
    {f : Way → Option Nat → Info → Info}
    (hf : ∀ way overload info, (f way overload info).name = info.name)
    (bases : List Base → List Base) (paramMappings : List ParamMapping → List ParamMapping) :
    ((c.adapt bases paramMappings).mapInfos f).DeclaresOwn where
  className m hm := by
    obtain ⟨chain, hchain, hm⟩ := List.mem_flatMap.1 hm
    obtain ⟨own, hown, g, rfl⟩ := exists_of_mem_methods_mapInfos hchain
    obtain ⟨declared, hdeclared, info, rfl⟩ := Overloads.exists_of_mem_all_mapInfos hm
    rw [Class.name, Class.info_mapInfos, hf]
    exact h.className declared (List.mem_flatMap.2 ⟨own, hown, hdeclared⟩)
  isOrdinary chain hchain m hm := by
    obtain ⟨own, hown, g, rfl⟩ := exists_of_mem_methods_mapInfos hchain
    obtain ⟨declared, hdeclared, info, rfl⟩ := Overloads.exists_of_mem_all_mapInfos hm
    exact h.isOrdinary own hown declared hdeclared

theorem Policy.declaresOwn_of_extract {policy : Policy} {config : Config}
    {load : String → Except Error DeclFile} {extraction : Extraction}
    (hextract : policy.extract config load = .ok extraction) {c : Class}
    (hc : c ∈ extraction.module.classes) : c.DeclaresOwn :=
  forall_class_of_extract ClassEntry.Gives.declaresOwn (fun h ↦ h.revise) hextract hc

end Bindery
