import Bindery.Proofs.Decl.Changes
import Bindery.Proofs.Decl.TypeTexts

/-!
Addresses of methods (`Module.LeadsTo`) and how they are written. The path of such an address has
the name of a class and that of a method, and argument types stand behind it if the address selects
an overload (`Module.LeadsTo.parse_eq`). An address without argument types and without blanks is its
path, and one with argument types is not (`Module.LeadsTo.eq_of_none`,
`Module.LeadsTo.ne_of_isSome`).
-/

set_option autoImplicit false
set_option relaxedAutoImplicit false

namespace Bindery

/-! ### Putting together what was cut -/

namespace Text

theorem splitScope_ne_nil (cs : List Char) : splitScope cs ≠ [] := by
  fun_cases splitScope cs with
  | case1 rest => exact List.cons_ne_nil _ _
  | case2 c rest =>
    cases splitScope rest <;> exact List.cons_ne_nil _ _
  | case3 => exact List.cons_ne_nil _ _

theorem intercalate_consFirst (c : Char) {pieces : List (List Char)} (h : pieces ≠ []) :
    [':', ':'].intercalate (consFirst c pieces) = c :: [':', ':'].intercalate pieces := by
  cases pieces with
  | nil => exact (h rfl).elim
  | cons piece pieces => cases pieces <;> simp [consFirst, List.intercalate]

/-- The pieces of a scope path make up the path again. -/
theorem intercalate_splitScope (cs : List Char) : [':', ':'].intercalate (splitScope cs) = cs := by
  fun_induction splitScope cs with
  | case1 rest ih =>
    rw [List.intercalate_cons_of_ne_nil (splitScope_ne_nil rest), ih]
    rfl
  | case2 c rest _ ih => rw [intercalate_consFirst c (splitScope_ne_nil rest), ih]
  | case3 => rfl

theorem mem_of_mem_splitScope {cs piece : List Char} {d : Char} (hpiece : piece ∈ splitScope cs)
    (hd : d ∈ piece) : d ∈ cs := by
  fun_induction splitScope cs generalizing piece with
  | case1 rest ih =>
    rcases List.mem_cons.1 hpiece with rfl | hpiece
    · cases hd
    · exact List.mem_cons_of_mem _ (List.mem_cons_of_mem _ (ih hpiece hd))
  | case2 c rest _ ih =>
    cases hpieces : splitScope rest with
    | nil => exact (splitScope_ne_nil rest hpieces).elim
    | cons first others =>
      rw [hpieces] at hpiece ih
      rcases List.mem_cons.1 hpiece with rfl | hpiece
      · rcases List.mem_cons.1 hd with rfl | hd
        · exact List.mem_cons_self
        · exact List.mem_cons_of_mem _ (ih List.mem_cons_self hd)
      · exact List.mem_cons_of_mem _ (ih (List.mem_cons_of_mem _ hpiece) hd)
  | case3 =>
    cases List.mem_singleton.1 hpiece
    exact hd

theorem mem_of_mem_trimChars {cs : List Char} {d : Char} (h : d ∈ trimChars cs) : d ∈ cs := by
  rw [trimChars, trimEndChars, List.mem_reverse] at h
  have hstart := List.mem_reverse.1 ((List.dropWhile_sublist _).subset h)
  exact (List.dropWhile_sublist _).subset hstart

theorem trimChars_eq_self {cs : List Char} (h : ∀ c ∈ cs, isBlank c = false) : trimChars cs = cs :=
  (trimChars_eq_self_iff cs).2 ⟨fun c hc ↦ h c (List.mem_of_mem_head? hc),
    fun c hc ↦ h c (List.mem_of_mem_getLast? hc)⟩

theorem cutAtFirst_eq_some {p : Char → Bool} {cs before rest : List Char}
    (h : cutAtFirst p cs = some (before, rest)) :
    (∃ c, p c = true ∧ cs = before ++ c :: rest) ∧ ∀ d ∈ before, p d = false := by
  induction cs generalizing before with
  | nil => cases h
  | cons d cs ih =>
    rw [cutAtFirst] at h
    split at h
    · rename_i hd
      cases h
      exact ⟨⟨d, hd, rfl⟩, fun _ hnone ↦ (List.not_mem_nil hnone).elim⟩
    · rename_i hd
      obtain ⟨⟨before, rest⟩, hcut, heq⟩ := Option.map_eq_some_iff.1 h
      cases heq
      obtain ⟨⟨c, hc, rfl⟩, hbefore⟩ := ih hcut
      exact ⟨⟨c, hc, rfl⟩, List.forall_mem_cons.2 ⟨Bool.eq_false_iff.2 hd, hbefore⟩⟩

end Text

/-! ### Addresses of methods -/

/-- An address leads to a method that a class of the module declares: to the overload that it
selects, or to all of them. -/
structure Module.LeadsTo (m : Module) (name : String) (c : Class) (chain : Overloads)
    (overload : Option Nat) (item index : Nat) : Prop where
  locate : m.locate? name = some { item, way := .member index .here, overload }
  class_item : m.items[item]? = some (.ofClass c)
  member : c.members[index]? = some (.method chain)

/-- Only the empty path leads nowhere. -/
theorem Target.eq_nil_of_descend?_here {target found : Target} {names : List String}
    (h : target.descend? names = some (.here, found)) : names = [] := by
  cases names with
  | nil => rfl
  | cons name names =>
    cases target with
    | ofClass c =>
      rw [descend?] at h
      split at h
      · obtain ⟨_, -, h⟩ := Option.bind_eq_some_iff.1 h
        obtain ⟨_, -, h⟩ := Option.bind_eq_some_iff.1 h
        cases h
      · split at h
        · obtain ⟨_, -, h⟩ := Option.bind_eq_some_iff.1 h
          obtain ⟨_, -, h⟩ := Option.bind_eq_some_iff.1 h
          obtain ⟨_, -, h⟩ := Option.bind_eq_some_iff.1 h
          cases h
        · cases h
    | enum e =>
      rw [descend?] at h
      split at h
      · obtain ⟨_, -, h⟩ := Option.bind_eq_some_iff.1 h
        obtain ⟨_, -, h⟩ := Option.bind_eq_some_iff.1 h
        cases h
      · cases h
    | _ => cases h

section Address

variable {m : Module} {name : String} {c : Class} {chain : Overloads} {overload : Option Nat}
  {item index : Nat} {found : Target}

/-- Only the name of a member leads to this member. -/
theorem Target.descend?_member_here {names : List String} {member : Member}
    (hmember : c.members[index]? = some member)
    (h : (Target.ofClass c).descend? names = some (.member index .here, found)) :
    names = [member.name] := by
  cases names with
  | nil => cases h
  | cons name names =>
    rw [descend?] at h
    split at h
    · rename_i i hi
      obtain ⟨other, hother, h⟩ := Option.bind_eq_some_iff.1 h
      obtain ⟨⟨way, inside⟩, hinside, h⟩ := Option.bind_eq_some_iff.1 h
      cases h
      cases hmember.symm.trans hother
      have hname := List.of_findIdx?_eq_some hi
      rw [hmember] at hname
      rw [beq_iff_eq.1 hname, eq_nil_of_descend?_here hinside]
    · split at h
      · obtain ⟨_, -, h⟩ := Option.bind_eq_some_iff.1 h
        obtain ⟨_, -, h⟩ := Option.bind_eq_some_iff.1 h
        obtain ⟨_, -, h⟩ := Option.bind_eq_some_iff.1 h
        cases h
      · cases h

theorem Module.locatePath?_member_here {path : List String} {member : Member}
    (hitem : m.items[item]? = some (.ofClass c)) (hmember : c.members[index]? = some member)
    (h : m.locatePath? path = some (item, .member index .here, found)) :
    path = [c.name, member.name] := by
  cases path with
  | nil => cases h
  | cons first rest =>
    rw [locatePath?] at h
    split at h
    · rename_i i hi
      obtain ⟨other, hother, h⟩ := Option.bind_eq_some_iff.1 h
      obtain ⟨⟨way, inside⟩, hinside, h⟩ := Option.bind_eq_some_iff.1 h
      cases h
      cases hitem.symm.trans hother
      have hname := List.of_findIdx?_eq_some hi
      rw [hitem] at hname
      rw [← beq_iff_eq.1 hname, Target.descend?_member_here hmember hinside]
      rfl
    · split at h
      · obtain ⟨_, -, h⟩ := Option.bind_eq_some_iff.1 h
        obtain ⟨_, -, h⟩ := Option.bind_eq_some_iff.1 h
        obtain ⟨_, -, h⟩ := Option.bind_eq_some_iff.1 h
        cases h
      · cases h

/-- The path of such an address has the name of the class and that of the method, and the address
has argument types if it selects an overload. -/
theorem Module.LeadsTo.parse_eq (h : m.LeadsTo name c chain overload item index) :
    (Query.parse name).path = [c.name, chain.name] ∧
      (Query.parse name).args.isSome = overload.isSome := by
  have hlocate := h.locate
  rw [locate?, resolve?] at hlocate
  obtain ⟨⟨i, way, found⟩, hpath, hend⟩ := Option.bind_eq_some_iff.1 hlocate
  obtain ⟨other, hother, hfollow⟩ := follow?_of_locatePath? hpath
  have hplace : item = i ∧ .member index .here = way ∧ (found = .method chain →
      (Query.parse name).args.isSome = overload.isSome) := by
    cases hargs : (Query.parse name).args with
    | none =>
      simp only [hargs] at hend
      cases hend
      exact ⟨rfl, rfl, fun _ ↦ rfl⟩
    | some args =>
      simp only [hargs] at hend
      cases found with
      | method chain =>
        obtain ⟨k, -, hend⟩ := Option.bind_eq_some_iff.1 hend
        cases hend
        exact ⟨rfl, rfl, fun _ ↦ rfl⟩
      | value v =>
        simp only at hend
        split at hend
        · cases hend
          exact ⟨rfl, rfl, fun heq ↦ by cases heq⟩
        · cases hend
      | _ => cases hend
  obtain ⟨rfl, rfl, hargs⟩ := hplace
  cases h.class_item.symm.trans hother
  have hfound : (Member.method chain).target = found := by
    simpa [Item.target, Target.follow?, h.member] using hfollow
  exact ⟨locatePath?_member_here h.class_item h.member hpath, hargs hfound.symm⟩

end Address

/-! ### Addresses as they are written -/

section Written

variable {name : String} {first second : String}

/-- An address without argument types and without blanks is its path. -/
theorem Query.eq_of_path (hargs : (parse name).args.isSome = false)
    (hblank : name.toList.any Text.isBlank = false)
    (hpath : (parse name).path = [first, second]) : name = first ++ "::" ++ second := by
  have hblank (d : Char) (hd : d ∈ name.toList) : Text.isBlank d = false :=
    Bool.eq_false_iff.2 (List.any_eq_false.1 hblank d hd)
  have htrim := Text.trimChars_eq_self hblank
  rw [parse] at hargs hpath
  simp only [htrim] at hargs hpath
  split at hpath
  · rename_i hcut
    rw [splitPath, htrim] at hpath
    obtain ⟨a, rest, hsplit, rfl, hrest⟩ := List.map_eq_cons_iff.1 hpath
    obtain ⟨b, none, rfl, rfl, hnone⟩ := List.map_eq_cons_iff.1 hrest
    cases List.map_eq_nil_iff.1 hnone
    have hpiece (piece : List Char) (h : piece ∈ Text.splitScope name.toList) :
        Text.trimChars piece = piece :=
      Text.trimChars_eq_self fun d hd ↦ hblank d (Text.mem_of_mem_splitScope h hd)
    rw [hpiece a (by simp [hsplit]), hpiece b (by simp [hsplit])]
    have hname := Text.intercalate_splitScope name.toList
    rw [hsplit] at hname
    rw [← String.toList_inj, ← hname]
    simp [List.intercalate]
  · rename_i hcut
    simp only [hcut] at hargs
    cases hargs

/-- An address with argument types has a parenthesis, but its path has none. -/
theorem Query.paren_of_args (hargs : (parse name).args.isSome = true) :
    '(' ∈ name.toList ∧ ∀ segment ∈ (parse name).path, '(' ∉ segment.toList := by
  rw [parse] at hargs ⊢
  simp only at hargs ⊢
  split at hargs
  · cases hargs
  · rename_i path rest hcut
    obtain ⟨⟨c, hc, hcs⟩, hbefore⟩ := Text.cutAtFirst_eq_some hcut
    cases beq_iff_eq.1 hc
    refine ⟨Text.mem_of_mem_trimChars (hcs ▸ List.mem_append_right _ List.mem_cons_self), ?_⟩
    intro segment hsegment hparen
    simp only [splitPath] at hsegment
    obtain ⟨piece, hpiece, rfl⟩ := List.mem_map.1 hsegment
    rw [String.toList_ofList] at hparen
    have hpath := Text.mem_of_mem_trimChars
      (Text.mem_of_mem_splitScope hpiece (Text.mem_of_mem_trimChars hparen))
    cases hbefore _ hpath

end Written

section Behind

variable {m : Module} {name owner : String} {c : Class} {chain : Overloads} {item index : Nat}

theorem Module.LeadsTo.eq_of_none (h : m.LeadsTo name c chain none item index)
    (hblank : name.toList.any Text.isBlank = false) : name = c.name ++ "::" ++ chain.name :=
  Query.eq_of_path h.parse_eq.2 hblank h.parse_eq.1

/-- An address that selects an overload is not the name of the method behind that of a class. -/
theorem Module.LeadsTo.ne_of_isSome {overload : Option Nat}
    (h : m.LeadsTo name c chain overload item index) (hsome : overload.isSome = true)
    (howner : '(' ∉ owner.toList) : name ≠ owner ++ "::" ++ chain.name := by
  obtain ⟨hpath, hargs⟩ := h.parse_eq
  obtain ⟨hparen, hsegments⟩ := Query.paren_of_args (hargs.trans hsome)
  rintro rfl
  have hchain : '(' ∉ chain.name.toList := hsegments chain.name (by simp [hpath])
  simp [howner, hchain] at hparen

end Behind

end Bindery
