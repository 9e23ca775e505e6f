/-!
Tables and sets that keep the order in which their keys were added. A new value for a known key
stays at the place of the key.
-/

set_option autoImplicit false
set_option relaxedAutoImplicit false

namespace Bindery

abbrev Table (κ α : Type) := List (κ × α)

namespace Table

variable {κ α : Type} [BEq κ]

def find? (table : Table κ α) (key : κ) : Option α := table.lookup key

def contains (table : Table κ α) (key : κ) : Bool := table.any (·.1 == key)

omit [BEq κ] in
def keys (table : Table κ α) : List κ := table.map Prod.fst

/-- Changes the value of a key, which starts as `fresh` when the key is new. -/
def alter (table : Table κ α) (key : κ) (fresh : α) (f : α → α) : Table κ α :=
  match table with
  | [] => [(key, f fresh)]
  | (k, a) :: rest => if k == key then (k, f a) :: rest else (k, a) :: alter rest key fresh f

def set (table : Table κ α) (key : κ) (value : α) : Table κ α := table.alter key value fun _ ↦ value

/-- Gives a key a value and moves it behind all others. -/
def setLast (table : Table κ α) (key : κ) (value : α) : Table κ α :=
  table.filter (!·.1 == key) ++ [(key, value)]

section Lookup

variable [LawfulBEq κ]

theorem find?_cons (table : Table κ α) (k key : κ) (a : α) :
    find? ((k, a) :: table) key = if k == key then some a else find? table key := by
  by_cases h : k = key
  · subst h
    simp [find?]
  · have hkey : (key == k) = false := beq_false_of_ne (Ne.symm h)
    simp [find?, List.lookup_cons, h, hkey]

theorem find?_alter_self (table : Table κ α) (key : κ) (fresh : α) (f : α → α) :
    (table.alter key fresh f).find? key = some (f ((table.find? key).getD fresh)) := by
  induction table with
  | nil => simp [alter, find?]
  | cons entry rest ih =>
    obtain ⟨k, a⟩ := entry
    by_cases h : k = key <;> simp [alter, find?_cons, h, ih]

/-- Changing the value of one key leaves those of all others. -/
theorem find?_alter_of_ne (table : Table κ α) {key other : κ} (hne : other ≠ key) (fresh : α)
    (f : α → α) : (table.alter key fresh f).find? other = table.find? other := by
  induction table with
  | nil => simp [alter, find?_cons, Ne.symm hne]
  | cons entry rest ih =>
    obtain ⟨k, a⟩ := entry
    by_cases h : k = key
    · subst h
      simp [alter, find?_cons, Ne.symm hne]
    · simp [alter, find?_cons, h, ih]

theorem contains_eq_isSome_find? (table : Table κ α) (key : κ) :
    table.contains key = (table.find? key).isSome := by
  induction table with
  | nil => rfl
  | cons entry rest ih =>
    obtain ⟨k, a⟩ := entry
    have hrest : List.any rest (·.1 == key) = (find? rest key).isSome := ih
    by_cases h : k = key <;> simp [contains, find?_cons, h, hrest]

theorem mem_keys_iff (table : Table κ α) (key : κ) :
    key ∈ table.keys ↔ (table.find? key).isSome := by
  rw [← contains_eq_isSome_find?]
  simp [keys, contains]

theorem mem_of_find? {table : Table κ α} {key : κ} {a : α} (h : table.find? key = some a) :
    (key, a) ∈ table := by
  induction table with
  | nil => simp [find?] at h
  | cons entry rest ih =>
    obtain ⟨k, b⟩ := entry
    rw [find?_cons] at h
    by_cases hk : k = key
    · simp_all
    · exact List.mem_cons_of_mem _ (ih (by simpa [hk] using h))

/-- When no key occurs twice, every entry is found. -/
theorem find?_eq_some_iff {table : Table κ α} (hkeys : table.keys.Nodup) (key : κ) (a : α) :
    table.find? key = some a ↔ (key, a) ∈ table := by
  refine ⟨mem_of_find?, fun hmem ↦ ?_⟩
  induction table with
  | nil => exact (List.not_mem_nil hmem).elim
  | cons entry rest ih =>
    obtain ⟨k, b⟩ := entry
    obtain ⟨hfresh, hrest⟩ := List.nodup_cons.1 hkeys
    rw [find?_cons]
    rcases List.mem_cons.1 hmem with heq | htail
    · cases heq
      simp
    · have hne : k ≠ key := by
        intro heq
        exact hfresh (List.mem_map.2 ⟨(key, a), htail, heq.symm⟩)
      simpa [hne] using ih hrest htail

theorem mem_keys_alter (table : Table κ α) (key : κ) (fresh : α) (f : α → α) (other : κ) :
    other ∈ (table.alter key fresh f).keys ↔ other = key ∨ other ∈ table.keys := by
  by_cases h : other = key
  · subst h
    simp [mem_keys_iff, find?_alter_self]
  · simp [mem_keys_iff, find?_alter_of_ne _ h, h]

theorem nodup_keys_alter {table : Table κ α} (hkeys : table.keys.Nodup) (key : κ) (fresh : α)
    (f : α → α) : (table.alter key fresh f).keys.Nodup := by
  induction table with
  | nil => exact List.nodup_cons.2 ⟨List.not_mem_nil, List.nodup_nil⟩
  | cons entry rest ih =>
    obtain ⟨k, a⟩ := entry
    obtain ⟨hfresh, hrest⟩ := List.nodup_cons.1 hkeys
    by_cases h : k = key
    · subst h
      simpa [alter, keys] using hkeys
    · have hnot : k ∉ (alter rest key fresh f).keys := by
        intro hmem
        exact ((mem_keys_alter rest key fresh f k).1 hmem).elim h hfresh
      have hkey : (k == key) = false := beq_false_of_ne h
      simpa [alter, hkey, keys] using List.nodup_cons.2 ⟨hnot, ih hrest⟩

/-- Setting a key enters no key twice. -/
theorem nodup_keys_set {table : Table κ α} (hkeys : table.keys.Nodup) (key : κ) (value : α) :
    (table.set key value).keys.Nodup := nodup_keys_alter hkeys key value _

end Lookup

end Table

variable {α : Type} [BEq α]

/-- Adds an element at the end, unless it is there. -/
def addNew (set : List α) (a : α) : List α := if set.contains a then set else set ++ [a]

def addAllNew (set : List α) (more : List α) : List α := more.foldl addNew set

section Members

variable [LawfulBEq α]

theorem mem_addNew {set : List α} {a b : α} : b ∈ addNew set a ↔ b ∈ set ∨ b = a := by
  unfold addNew
  split <;> rename_i h
  · exact ⟨.inl, fun hmem ↦ hmem.elim id fun heq ↦ heq ▸ List.contains_iff_mem.1 h⟩
  · simp

theorem mem_addAllNew {set more : List α} {b : α} :
    b ∈ addAllNew set more ↔ b ∈ set ∨ b ∈ more := by
  unfold addAllNew
  induction more generalizing set with
  | nil => simp
  | cons a more ih =>
    rw [List.foldl_cons, ih, mem_addNew, List.mem_cons]
    exact or_assoc

theorem nodup_addNew {set : List α} (hset : set.Nodup) (a : α) : (addNew set a).Nodup := by
  unfold addNew
  split <;> rename_i h
  · exact hset
  · rw [List.nodup_append]
    refine ⟨hset, List.nodup_cons.2 ⟨List.not_mem_nil, List.nodup_nil⟩, fun b hb c hc heq ↦ h ?_⟩
    rw [List.mem_singleton.1 hc] at heq
    exact List.contains_iff_mem.2 (heq ▸ hb)

/-- No element is added twice. -/
theorem nodup_addAllNew {set : List α} (hset : set.Nodup) (more : List α) :
    (addAllNew set more).Nodup := by
  unfold addAllNew
  induction more generalizing set with
  | nil => exact hset
  | cons a more ih => exact ih (nodup_addNew hset a)

end Members

/-- Adds a text to a sorted list, unless it is there. -/
def addSorted (s : String) : List String → List String
  | [] => [s]
  | t :: rest =>
    if s == t then t :: rest
    else if s < t then s :: t :: rest
    else t :: addSorted s rest

theorem mem_addSorted {s t : String} {set : List String} :
    t ∈ addSorted s set ↔ t = s ∨ t ∈ set := by
  induction set with
  | nil => simp [addSorted]
  | cons u rest ih =>
    simp only [addSorted]
    split
    · rename_i h
      have h : s = u := by simpa using h
      simp [h]
    · split
      · simp
      · rw [List.mem_cons, List.mem_cons, ih, or_left_comm]

/-- A text is added once, also to a list that is not sorted. -/
theorem addSorted_addSorted (s : String) (set : List String) :
    addSorted s (addSorted s set) = addSorted s set := by
  induction set with
  | nil => simp [addSorted]
  | cons u rest ih =>
    by_cases hsame : s = u
    · simp [addSorted, hsame]
    · by_cases hlt : s < u
      · simp [addSorted, hsame, hlt]
      · simp [addSorted, hsame, hlt, ih]

/-- A text that adding leaves out is left out after others have been added. -/
theorem addSorted_stays {s : String} {set : List String} (h : addSorted s set = set) (t : String) :
    addSorted s (addSorted t set) = addSorted t set := by
  induction set with
  | nil => simp [addSorted] at h
  | cons u rest ih =>
    by_cases hsame : s = u
    · subst hsame
      by_cases ht : t = s
      · simp [addSorted, ht]
      · by_cases hlt : t < s
        · have hne : s ≠ t := fun heq ↦ ht heq.symm
          simp [addSorted, ht, hlt, hne, String.lt_asymm hlt]
        · simp [addSorted, ht, hlt]
    · have hfirst : ¬s < u := by
        intro hlt
        simp only [addSorted, beq_eq_false_iff_ne.2 hsame, hlt, if_true, Bool.false_eq_true,
          if_false] at h
        exact hsame (List.cons_eq_cons.1 h).1
      have hrest : addSorted s rest = rest := by
        simpa [addSorted, hsame, hfirst] using h
      by_cases ht : t = u
      · subst ht
        simp [addSorted, hsame, hfirst, hrest]
      · by_cases hlt : t < u
        · have hbefore : ¬s < t := fun h ↦ hfirst (String.lt_trans h hlt)
          by_cases hst : s = t
          · simp [addSorted, hst, ht, hlt]
          · simp [addSorted, ht, hlt, hst, hbefore, hsame, hfirst, hrest]
        · simp [addSorted, ht, hlt, hsame, hfirst, ih hrest]

end Bindery
