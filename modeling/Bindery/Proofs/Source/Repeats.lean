import Bindery.Ordered
import Bindery.Proofs.Source.Reading
import Mathlib.Algebra.GroupWithZero.Nat
import Mathlib.Algebra.Order.BigOperators.Group.Finset

/-!
Items that are named more than once. A module reads the file of an item each time that the item is
named. Whether reading fails, and how, depends on the first occurrences alone, but a declaration is
added again with each of them: it stands in the module as often as its item is named
(`Module.extract_repeated`). So a list that names an item twice gives the same declarations as the
list without the repetition only where the item declares nothing.
-/

set_option autoImplicit false
set_option relaxedAutoImplicit false

namespace Bindery

open scoped BigOperators

/-! ### Counting declarations -/

/-- The declarations of an item, each overload of a function for itself. -/
def Item.parts : Item → List Item
  | .function chain => chain.all.map fun o ↦ .function (.single o)
  | item => [item]

def Module.parts (m : Module) : List Item := m.items.flatMap Item.parts

section Parts

variable {items : List Item} {entries : List ItemEntry}

/-- Functions that join a chain are still there. -/
theorem Item.parts_insertFunction_perm (items : List Item) (more : Overloads) :
    ((insertFunction items more).flatMap parts).Perm
      (items.flatMap parts ++ parts (.function more)) := by
  induction items with
  | nil => simp [insertFunction]
  | cons item items ih =>
    cases item with
    | function chain =>
      rw [insertFunction]
      split
      · have hparts : parts (.function (chain.append more)) =
            parts (.function chain) ++ parts (.function more) := by
          simp [parts, Overloads.all_append]
        rw [List.flatMap_cons, List.flatMap_cons, hparts, List.append_assoc, List.append_assoc]
        exact .append_left _ List.perm_append_comm
      · rw [List.flatMap_cons, List.flatMap_cons, List.append_assoc]
        exact .append_left _ ih
    | _ => exact .append_left _ ih

theorem Module.parts_addItem_perm (m : Module) (item : Item) :
    (m.addItem item).parts.Perm (m.parts ++ item.parts) := by
  cases item with
  | function chain => exact Item.parts_insertFunction_perm m.items chain
  | _ => simp [parts, addItem]

theorem Module.parts_foldl_addItem_perm (m : Module) (items : List Item) :
    (items.foldl addItem m).parts.Perm (m.parts ++ items.flatMap Item.parts) := by
  induction items generalizing m with
  | nil => simp
  | cons item items ih =>
    rw [List.foldl_cons, List.flatMap_cons, ← List.append_assoc]
    exact (ih (m.addItem item)).trans (.append_right _ (m.parts_addItem_perm item))

/-- Items from a file are declarations for themselves. -/
theorem flatMap_parts_of_toItem
    (h : List.Forall₂ (fun entry item ↦ entry.toItem = .ok item) entries items) :
    items.flatMap Item.parts = items := by
  have hparts : ∀ item ∈ items, item.parts = [item] := by
    intro item hitem
    cases item with
    | function chain => rw [Overloads.eq_single (isFresh_of_toItem h chain hitem).1]; rfl
    | _ => rfl
  rw [List.flatMap_congr hparts]
  exact List.flatMap_singleton' items

end Parts

/-! ### Going over a list without its repetitions -/

section Once

variable {α : Type} [BEq α] [LawfulBEq α]

omit [LawfulBEq α] in
theorem addAllNew_concat (l : List α) (a : α) :
    addAllNew [] (l ++ [a]) = addNew (addAllNew [] l) a := List.foldl_concat ..

theorem addNew_of_mem {l : List α} {a : α} (h : a ∈ l) :
    addNew (addAllNew [] l) a = addAllNew [] l :=
  if_pos (List.contains_iff_mem.2 (mem_addAllNew.2 (.inr h)))

theorem addNew_of_notMem {l : List α} {a : α} (h : a ∉ l) :
    addNew (addAllNew [] l) a = addAllNew [] l ++ [a] := by
  refine if_neg fun hmem ↦ ?_
  rcases mem_addAllNew.1 (List.contains_iff_mem.1 hmem) with hnil | hmem
  · cases hnil
  · exact h hmem

/-- The first step that fails is the first occurrence of its element. -/
theorem mapM_addAllNew_eq_error_iff {ε β : Type} {f : α → Except ε β} (l : List α) (e : ε) :
    (addAllNew [] l).mapM f = .error e ↔ l.mapM f = .error e := by
  induction l using List.reverseRecOn generalizing e with
  | nil => exact Iff.rfl
  | append_singleton l a ih =>
    rw [addAllNew_concat, List.mapM_append]
    cases hl : l.mapM f with
    | error e' =>
      have honce := (ih e').2 hl
      by_cases ha : a ∈ l
      · rw [addNew_of_mem ha, honce]
        rfl
      · rw [addNew_of_notMem ha, List.mapM_append, honce]
    | ok bs =>
      obtain ⟨once, honce⟩ : ∃ once, (addAllNew [] l).mapM f = .ok once := by
        cases honce : (addAllNew [] l).mapM f with
        | error e' => cases hl.symm.trans ((ih e').1 honce)
        | ok once => exact ⟨once, rfl⟩
      by_cases ha : a ∈ l
      · obtain ⟨b, -, hb⟩ := exists_mem_of_mapM hl ha
        rw [addNew_of_mem ha, honce, List.mapM_cons, List.mapM_nil, hb]
        exact ⟨nofun, nofun⟩
      · rw [addNew_of_notMem ha, List.mapM_append, honce, List.mapM_cons, List.mapM_nil]
        cases f a with
        | error e' => exact Iff.rfl
        | ok b => exact ⟨nofun, nofun⟩

/-- Repetitions that give nothing make no difference. -/
theorem flatMap_addAllNew {β : Type} {f : α → List β} {l : List α}
    (h : ∀ a, 1 < l.count a → f a = []) : (addAllNew [] l).flatMap f = l.flatMap f := by
  induction l using List.reverseRecOn with
  | nil => rfl
  | append_singleton l a ih =>
    have hl := ih fun b hb ↦ h b (by rw [List.count_append]; omega)
    rw [addAllNew_concat, List.flatMap_append]
    by_cases ha : a ∈ l
    · have hcount : 1 < (l ++ [a]).count a := by
        have hpos := List.count_pos_iff.2 ha
        rw [List.count_append, List.count_singleton_self]
        omega
      rw [addNew_of_mem ha, hl, List.flatMap_singleton, h a hcount, List.append_nil]
    · rw [addNew_of_notMem ha, List.flatMap_append, hl]

theorem sum_map_addAllNew [DecidableEq α] (f : α → Nat) (l : List α) :
    ((addAllNew [] l).map f).sum = ∑ a ∈ l.toFinset, f a := by
  rw [← List.sum_toFinset f (nodup_addAllNew List.nodup_nil l)]
  refine Finset.sum_congr (Finset.ext fun a ↦ ?_) fun _ _ ↦ rfl
  simp [mem_addAllNew]

end Once

/-- Where counting repetitions makes no difference, nothing is repeated that counts. -/
theorem eq_zero_of_sum_eq {α : Type} [DecidableEq α] {f : α → Nat} {l : List α}
    (h : ∑ a ∈ l.toFinset, f a = ∑ a ∈ l.toFinset, l.count a * f a) {a : α}
    (ha : 1 < l.count a) : f a = 0 := by
  have hle : ∀ b ∈ l.toFinset, f b ≤ l.count b * f b := fun b hb ↦
    Nat.le_mul_of_pos_left _ (List.count_pos_iff.2 (List.mem_toFinset.1 hb))
  have hmem : a ∈ l.toFinset := List.mem_toFinset.2 (List.count_pos_iff.1 (by omega))
  have heq := (Finset.sum_eq_sum_iff_of_le hle).1 h a hmem
  by_contra hsome
  have hmore := Nat.mul_lt_mul_of_pos_right ha (Nat.pos_of_ne_zero hsome)
  omega

/-! ### Repeated items -/

section Repeats

variable (load : String → Except Error DeclFile)

/-- The declarations that the file of an item holds, none if there are none to be read. -/
def declared (item : String) : List Item := (itemsOf load item).toOption.getD []

variable {load} {itemNames : List String} {m : Module} {name : String}

theorem eq_map_of_mapM {groups : List (List Item)}
    (h : itemNames.mapM (itemsOf load) = .ok groups) :
    groups = itemNames.map (declared load) := by
  have heq : List.Forall₂ Eq (itemNames.map (declared load)) groups :=
    List.forall₂_map_left_iff.2 <| (forall₂_of_mapM h).imp fun item group hgroup ↦ by
      rw [declared, hgroup]
      rfl
  rw [List.forall₂_eq_eq_eq] at heq
  exact heq.symm

/-- What is read is what the files declare, item by item. -/
theorem Module.items_extract (h : Module.extract load name itemNames = .ok m) :
    m = (itemNames.flatMap (declared load)).foldl Module.addItem { name, itemNames } ∧
    m.parts.Perm (itemNames.flatMap (declared load)) := by
  rw [extract_eq] at h
  obtain ⟨groups, hgroups, h⟩ := bind_eq_ok.1 h
  cases h
  obtain ⟨files, -, hentries⟩ := forall₂_of_itemsOf load hgroups
  have hperm := Module.parts_foldl_addItem_perm { name, itemNames } groups.flatten
  rw [flatMap_parts_of_toItem hentries] at hperm
  have hflat : groups.flatten = itemNames.flatMap (declared load) := by
    rw [eq_map_of_mapM hgroups, List.flatMap_def]
  rw [hflat] at hperm ⊢
  exact ⟨rfl, hperm⟩

theorem Module.items_foldl_addItem_congr {m m' : Module} (h : m.items = m'.items)
    (items : List Item) :
    (items.foldl addItem m).items = (items.foldl addItem m').items := by
  induction items generalizing m m' with
  | nil => exact h
  | cons item items ih => exact ih (by cases item <;> simp [addItem, h])

theorem Module.countP_parts_extract (h : Module.extract load name itemNames = .ok m)
    (test : Item → Bool) : m.parts.countP test =
      (itemNames.map fun item ↦ (declared load item).countP test).sum := by
  rw [(Module.items_extract h).2.countP_eq, List.countP_flatMap]
  rfl

/-- Reading items of which some are repeated fails like reading every item once, and with the same
error. If it succeeds, each declaration stands in the module as often as its item is named. The
declarations are the same as without the repetitions just when the repeated items declare
nothing. -/
theorem Module.extract_repeated (load : String → Except Error DeclFile) (name : String)
    (itemNames : List String) :
    (∀ e, Module.extract load name itemNames = .error e ↔
      Module.extract load name (addAllNew [] itemNames) = .error e) ∧
    ∀ m, Module.extract load name itemNames = .ok m → ∃ once,
      Module.extract load name (addAllNew [] itemNames) = .ok once ∧
      (∀ test : Item → Bool,
        once.parts.countP test =
          ∑ item ∈ itemNames.toFinset, (declared load item).countP test ∧
        m.parts.countP test =
          ∑ item ∈ itemNames.toFinset, itemNames.count item * (declared load item).countP test) ∧
      (m.items = once.items ↔ ∀ item, 1 < itemNames.count item → declared load item = []) := by
  have herror (e : Error) : Module.extract load name itemNames = .error e ↔
      Module.extract load name (addAllNew [] itemNames) = .error e := by
    rw [extract_eq, extract_eq, bind_ok_eq_error_iff, bind_ok_eq_error_iff,
      mapM_addAllNew_eq_error_iff]
  refine ⟨herror, fun m hm ↦ ?_⟩
  obtain ⟨once, honce⟩ : Succeeds (Module.extract load name (addAllNew [] itemNames)) := by
    by_contra hfails
    obtain ⟨e, he⟩ := not_succeeds_iff.1 hfails
    cases hm.symm.trans ((herror e).2 he)
  have hcounts (test : Item → Bool) :
      once.parts.countP test = ∑ item ∈ itemNames.toFinset, (declared load item).countP test ∧
      m.parts.countP test =
        ∑ item ∈ itemNames.toFinset, itemNames.count item * (declared load item).countP test := by
    rw [countP_parts_extract honce, countP_parts_extract hm, sum_map_addAllNew,
      Finset.sum_list_map_count]
    exact ⟨rfl, rfl⟩
  refine ⟨once, honce, hcounts, fun hsame item hitem ↦ ?_, fun hnothing ↦ ?_⟩
  · have hparts : m.parts = once.parts := congrArg (List.flatMap Item.parts) hsame
    obtain ⟨honceAll, hall⟩ := hcounts fun _ ↦ true
    rw [hparts, honceAll] at hall
    have hzero := eq_zero_of_sum_eq hall hitem
    rw [List.countP_true] at hzero
    exact List.eq_nil_of_length_eq_zero hzero
  · rw [(items_extract hm).1, (items_extract honce).1, flatMap_addAllNew hnothing]
    exact items_foldl_addItem_congr (by rfl) _

/-- A file that declares one class. -/
def gaugeFile : DeclFile := ⟨[.ofClass { common := { name := "Gauge" } }]⟩

/-- A class is declared twice by an item that is named twice. -/
theorem Module.gauge_read_twice : ¬∀ (load : String → Except Error DeclFile) (name : String)
    (itemNames : List String) (m once : Module),
    Module.extract load name itemNames = .ok m →
    Module.extract load name (addAllNew [] itemNames) = .ok once → m.items = once.items := by
  intro h
  have hsame := h (fun _ ↦ .ok gaugeFile) "Gauges" ["Gauges", "Gauges"] _ _ rfl rfl
  exact absurd (congrArg List.length hsame) (by decide)

end Repeats

end Bindery
