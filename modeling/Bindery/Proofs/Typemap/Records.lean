import Bindery.Proofs.Run
import Bindery.Typemap.Basic
import Mathlib.Data.List.Nodup

/-!
Type map rules as records. A rule that is written as a record and read back is the rule itself, with
its fragments in the order of the fields (`Typemap.ofJson?_toJson`), which makes no difference to
the fragment of any direction (`Typemap.fragment?_inFieldOrder`). What a record says is taken as it
stands: the return types to drop are the texts in it (`Typemap.ignoredOut_of_ofJson?`).
-/

set_option autoImplicit false
set_option relaxedAutoImplicit false

namespace Bindery

namespace Shape

variable {α : Type} {known : List String} {members : Members} {name : String} {json : Json}

theorem lookup_of_mem (h : (members.map Prod.fst).Nodup) (hmem : (name, json) ∈ members) :
    members.lookup name = some json := by
  obtain ⟨before, after, rfl⟩ := List.append_of_mem hmem
  rw [List.map_append, List.map_cons, List.nodup_middle, List.nodup_cons, List.mem_append,
    not_or] at h
  refine List.lookup_eq_some_iff.2 ⟨before, after, rfl, fun member hmember ↦ ?_⟩
  exact bne_iff_ne.2 fun heq ↦ h.1.1 (List.mem_map.2 ⟨member, hmember, heq.symm⟩)

/-- A record is read from members with names of their own. -/
theorem record_of_nodup (h : (members.map Prod.fst).Nodup) :
    record known (.obj members) = some members := by
  refine if_pos (List.all_eq_true.2 fun name _ ↦ decide_eq_true ?_)
  rw [← List.countP_eq_length_filter]
  have hcount := List.nodup_iff_count_le_one.1 h name
  rwa [List.count, List.countP_map] at hcount

theorem given_of_lookup (h : members.lookup name = some json) (fallback : α)
    (value : Json → Option α) : given members name fallback value = value json := by
  rw [given, h]

theorem list_texts (xs : List String) : list text (.texts xs) = some xs := by
  rw [Json.texts, list, List.mapM_map]
  have htexts : xs.mapM (text ∘ Json.str) = pure (xs.map id) := List.mapM_pure
  rwa [List.map_id] at htexts

theorem nullable_optText (s : Option String) : nullable text (.optText s) = some s := by
  cases s <;> rfl

end Shape

open Shape

theorem Fragment.ofJson?_toJson (f : Fragment) : ofJson? f.toJson = some f := by
  have hrecord : record ["code", "temp", "ignore_input", "precedence"] f.toJson = some
      [("code", .str f.code), ("temp", .optText f.temp), ("ignore_input", .bool f.ignoreInput),
        ("precedence", .optText f.precedence)] :=
    record_of_nodup (by simp)
  rw [ofJson?, hrecord]
  simp [given, Shape.optional, List.lookup_cons, nullable_optText, text, flag]

theorem Fragment.nullable_toJson (f : Option Fragment) :
    nullable ofJson? ((f.map toJson).getD .null) = some f := by
  cases f with
  | none => rfl
  | some f => exact congrArg (Option.map some) (ofJson?_toJson f)

namespace Typemap

variable {map : Typemap}

theorem mem_fieldDirections (d : Direction) : d ∈ fieldDirections := by cases d <;> decide

/-- A rule with its fragments in the order of the fields of a record. -/
def inFieldOrder (map : Typemap) : Typemap :=
  { map with fragments := fieldDirections.filterMap fun d ↦ (map.fragment? d).map (d, ·) }

theorem lookup_filterMap_fragment? (map : Typemap) (d : Direction) (directions : List Direction) :
    (directions.filterMap fun d ↦ (map.fragment? d).map (d, ·)).lookup d =
      if d ∈ directions then map.fragment? d else none := by
  induction directions with
  | nil => rfl
  | cons other directions ih =>
    by_cases hd : d = other
    · subst hd
      cases hfragment : map.fragment? d <;> simp [hfragment, ih]
    · have hne : (d == other) = false := beq_false_of_ne hd
      cases hfragment : map.fragment? other <;> simp [hfragment, List.lookup_cons, hne, ih, hd]

theorem fragment?_inFieldOrder (map : Typemap) (d : Direction) :
    map.inFieldOrder.fragment? d = map.fragment? d := by
  rw [fragment?, inFieldOrder, lookup_filterMap_fragment?, if_pos (mem_fieldDirections d)]

/-- The members of a rule as a record. -/
def members (map : Typemap) : Members :=
  [("patterns", .texts map.patterns), ("rb_type", .optText map.rubyType)] ++
    fieldDirections.map (fun d ↦ (d.name, ((map.fragment? d).map Fragment.toJson).getD .null)) ++
    [("ignored_out", .texts map.ignoredOut)]

theorem nodup_members (map : Typemap) : (map.members.map Prod.fst).Nodup := by
  have hfields : map.members.map Prod.fst = fields := rfl
  rw [hfields]
  decide

/-- A rule is read back as it was written. -/
theorem ofJson?_toJson (map : Typemap) : ofJson? map.toJson = some map.inFieldOrder := by
  have hfragment (d : Direction) :
      fragmentField? map.members d = some ((map.fragment? d).map (d, ·)) := by
    have hmem : (d.name, ((map.fragment? d).map Fragment.toJson).getD .null) ∈ map.members :=
      List.mem_append_left _ (List.mem_append_right _
        (List.mem_map.2 ⟨d, mem_fieldDirections d, rfl⟩))
    rw [fragmentField?, Shape.optional, given_of_lookup (lookup_of_mem map.nodup_members hmem),
      Fragment.nullable_toJson]
    rfl
  have hfragments : fieldDirections.mapM (fragmentField? map.members) =
      some (fieldDirections.map fun d ↦ (map.fragment? d).map (d, ·)) :=
    (mapM_congr_left fun d _ ↦ hfragment d).trans List.mapM_pure
  have hpatterns : given map.members "patterns" [] (list text) = some map.patterns :=
    list_texts map.patterns
  have hrubyType : Shape.optional map.members "rb_type" text = some map.rubyType :=
    nullable_optText map.rubyType
  have hignoredOut : given map.members "ignored_out" [] (list text) = some map.ignoredOut := by
    have hmem : ("ignored_out", .texts map.ignoredOut) ∈ map.members :=
      List.mem_append_right _ (List.mem_singleton_self _)
    rw [given_of_lookup (lookup_of_mem map.nodup_members hmem), list_texts]
  have hrecord : record fields map.toJson = some map.members := record_of_nodup map.nodup_members
  simp [ofJson?, hrecord, hfragments, hpatterns, hrubyType, hignoredOut, inFieldOrder,
    List.filterMap_map]

/-- The return types to drop are the texts of a record, spaced as they are there. -/
theorem ignoredOut_of_ofJson? {members : Members} {types : List String}
    (h : ofJson? (.obj members) = some map)
    (htypes : members.lookup "ignored_out" = some (.texts types)) : map.ignoredOut = types := by
  obtain ⟨found, hfound, h⟩ := Option.bind_eq_some_iff.1 h
  obtain ⟨fragments, -, h⟩ := Option.bind_eq_some_iff.1 h
  obtain ⟨patterns, -, h⟩ := Option.bind_eq_some_iff.1 h
  obtain ⟨rubyType, -, h⟩ := Option.bind_eq_some_iff.1 h
  obtain ⟨ignoredOut, hignoredOut, h⟩ := Option.bind_eq_some_iff.1 h
  have hmembers : members = found := Option.some.inj (Option.ite_none_right_eq_some.1 hfound).2
  rw [← hmembers, given_of_lookup htypes, list_texts] at hignoredOut
  rw [← Option.some.inj h, ← Option.some.inj hignoredOut]

end Typemap

end Bindery
