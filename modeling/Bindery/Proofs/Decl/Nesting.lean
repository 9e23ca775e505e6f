import Bindery.Proofs.Decl.Changes
import Bindery.Proofs.Decl.Signatures

/-!
Addresses of nested declarations. A class stands in its scopes under a path of names
(`Module.nestedClasses`). Where declarations of one scope differ in their names, descending along
such a path finds the class at the end of it (`Class.descend?_nested`), and an address that is
written with it finds the members of this class: a method by its signature or by its name alone, and
a value of an enumeration by the two names (`Module.nested_declarations_found`).
-/

set_option autoImplicit false
set_option relaxedAutoImplicit false

namespace Bindery

/-! ### Nested classes -/

mutual

/-- A class and the classes inside it, each with the names that lead to it. -/
def Class.nested : Class → List (List String × Class)
  | ⟨info, kind, bases, members, isAbstract, isTemplate, includes, paramMappings⟩ =>
    ([info.name], ⟨info, kind, bases, members, isAbstract, isTemplate, includes, paramMappings⟩) ::
      (Member.nestedAll members).map fun (path, c) ↦ (info.name :: path, c)

def Member.nested : Member → List (List String × Class)
  | .method _ => []
  | .variable _ => []
  | .enum _ => []
  | .inner c => c.nested

def Member.nestedAll : List Member → List (List String × Class)
  | [] => []
  | member :: members => member.nested ++ Member.nestedAll members

end

/-- The classes of a module with the classes inside them. -/
def Module.nestedClasses (m : Module) : List (List String × Class) := m.classes.flatMap Class.nested

theorem Member.mem_nestedAll {members : List Member} {found : List String × Class} :
    found ∈ Member.nestedAll members ↔ ∃ c, .inner c ∈ members ∧ found ∈ c.nested := by
  induction members with
  | nil => simp [nestedAll]
  | cons member members ih =>
    rw [nestedAll, List.mem_append, ih]
    cases member <;> simp [nested, or_and_right, exists_or]

theorem Class.nested_eq (c : Class) : c.nested = ([c.name], c) ::
    (Member.nestedAll c.members).map fun (path, d) ↦ (c.name :: path, d) := by
  cases c
  rw [nested]
  rfl

theorem Class.mem_nested {c d : Class} {path : List String} : (path, d) ∈ c.nested ↔
    path = [c.name] ∧ d = c ∨ ∃ inner rest,
      .inner inner ∈ c.members ∧ path = c.name :: rest ∧ (rest, d) ∈ inner.nested := by
  rw [nested_eq, List.mem_cons, Prod.mk.injEq, List.mem_map]
  refine or_congr_right ⟨?_, ?_⟩
  · rintro ⟨⟨rest, d⟩, hmem, heq⟩
    cases heq
    obtain ⟨inner, hinner, hd⟩ := Member.mem_nestedAll.1 hmem
    exact ⟨inner, rest, hinner, rfl, hd⟩
  · rintro ⟨inner, rest, hinner, rfl, hd⟩
    exact ⟨(rest, d), Member.mem_nestedAll.2 ⟨inner, hinner, hd⟩, rfl⟩

theorem Class.self_mem_nested (c : Class) : ([c.name], c) ∈ c.nested :=
  mem_nested.2 (.inl ⟨rfl, rfl⟩)

theorem Class.nested_of_inner {c inner d : Class} {path : List String}
    (hinner : .inner inner ∈ c.members) (hd : (path, d) ∈ inner.nested) :
    (c.name :: path, d) ∈ c.nested :=
  mem_nested.2 (.inr ⟨inner, path, hinner, rfl, hd⟩)

theorem Class.mem_methods {c : Class} {chain : Overloads} :
    chain ∈ c.methods ↔ .method chain ∈ c.members := by
  rw [methods, List.mem_filterMap]
  refine ⟨?_, fun h ↦ ⟨_, h, rfl⟩⟩
  rintro ⟨member, hmember, hmethods⟩
  cases member <;> cases hmethods
  exact hmember

/-! ### Names that can be addressed -/

/-- The members of a class have names of their own, and an address can hold these names and the
types of the parameters. -/
structure Class.IsAddressable (c : Class) : Prop where
  nodup : (c.members.map Member.name).Nodup
  segments : ∀ member ∈ c.members, IsSegment member.name
  arguments : ∀ chain ∈ c.methods, ∀ o ∈ chain.all, ∀ p ∈ o.params,
    IsArgument (normalizeType p.type)

instance (c : Class) : Decidable c.IsAddressable :=
  decidable_of_iff ((c.members.map Member.name).Nodup ∧
    (∀ member ∈ c.members, IsSegment member.name) ∧
    ∀ chain ∈ c.methods, ∀ o ∈ chain.all, ∀ p ∈ o.params, IsArgument (normalizeType p.type))
    ⟨fun ⟨h, h', h''⟩ ↦ ⟨h, h', h''⟩, fun ⟨h, h', h''⟩ ↦ ⟨h, h', h''⟩⟩

structure Module.IsAddressable (m : Module) : Prop where
  nodup : (m.items.map Item.name).Nodup
  segments : ∀ item ∈ m.items, IsSegment item.name
  classes : ∀ nested ∈ m.nestedClasses, nested.2.IsAddressable

instance (m : Module) : Decidable m.IsAddressable :=
  decidable_of_iff ((m.items.map Item.name).Nodup ∧ (∀ item ∈ m.items, IsSegment item.name) ∧
    ∀ nested ∈ m.nestedClasses, nested.2.IsAddressable)
    ⟨fun ⟨h, h', h''⟩ ↦ ⟨h, h', h''⟩, fun ⟨h, h', h''⟩ ↦ ⟨h, h', h''⟩⟩

theorem Class.IsAddressable.method {c : Class} (hc : c.IsAddressable) {chain : Overloads}
    (hchain : chain ∈ c.methods) {o : Method} (ho : o ∈ chain.all) (hname : o.name = chain.name) :
    o.IsAddressable := by
  refine ⟨?_, hc.arguments chain hchain o ho⟩
  rw [hname]
  exact hc.segments _ (mem_methods.1 hchain)

theorem Class.isSegment_of_mem_nested {c d : Class} {path : List String} (hname : IsSegment c.name)
    (hc : ∀ path d, (path, d) ∈ c.nested → d.IsAddressable) (hd : (path, d) ∈ c.nested) :
    ∀ scope ∈ path, IsSegment scope := by
  induction path generalizing c with
  | nil => exact List.forall_mem_nil _
  | cons first rest ih =>
    rcases mem_nested.1 hd with ⟨hpath, _⟩ | ⟨inner, rest, hinner, hpath, hd⟩ <;> cases hpath
    · exact List.forall_mem_singleton.2 hname
    · have hinnerName : IsSegment inner.name := (hc _ _ c.self_mem_nested).segments _ hinner
      exact List.forall_mem_cons.2
        ⟨hname, ih hinnerName (fun _ _ hd ↦ hc _ _ (nested_of_inner hinner hd)) hd⟩

/-! ### Descending -/

/-- Where names differ, the first element with a name is the element of this name. -/
theorem exists_findIdx?_of_nodup {α : Type} {name : α → String} {xs : List α} {x : α}
    (hnodup : (xs.map name).Nodup) (hx : x ∈ xs) :
    ∃ i, xs.findIdx? (name · == name x) = some i ∧ xs[i]? = some x := by
  induction xs with
  | nil => cases hx
  | cons y ys ih =>
    rw [List.map_cons, List.nodup_cons] at hnodup
    rw [List.findIdx?_cons]
    rcases List.mem_cons.1 hx with rfl | hx
    · exact ⟨0, if_pos (beq_self_eq_true _), rfl⟩
    · obtain ⟨i, hindex, hi⟩ := ih hnodup.2 hx
      have hne : name y ≠ name x := fun heq ↦ hnodup.1 (heq ▸ List.mem_map_of_mem hx)
      refine ⟨i + 1, ?_, hi⟩
      rw [if_neg (by simpa using hne), hindex]
      rfl

theorem Target.descend?_member {c : Class} (hnodup : (c.members.map Member.name).Nodup)
    {member : Member} (hmember : member ∈ c.members) {names : List String} {way : Way}
    {found : Target} (h : member.target.descend? names = some (way, found)) :
    ∃ i, (ofClass c).descend? (member.name :: names) = some (.member i way, found) := by
  obtain ⟨i, hindex, hi⟩ := exists_findIdx?_of_nodup hnodup hmember
  refine ⟨i, ?_⟩
  rw [descend?, hindex]
  simp [hi, h]

theorem Target.descend?_value {e : Enumeration} (hnodup : (e.values.map (·.info.name)).Nodup)
    {v : EnumValue} (hv : v ∈ e.values) :
    ∃ slot, (enum e).descend? [v.info.name] = some (.value slot, .value v) := by
  obtain ⟨slot, hindex, hslot⟩ := exists_findIdx?_of_nodup hnodup hv
  refine ⟨slot, ?_⟩
  rw [descend?, Enumeration.valuePosition?, hindex]
  simp [hslot]

/-- What is found from a nested class is found along its path from the class around it. -/
theorem Class.descend?_nested {c d : Class} {path names : List String} {way : Way} {found : Target}
    (hc : ∀ path d, (path, d) ∈ c.nested → d.IsAddressable) (hd : (path, d) ∈ c.nested)
    (h : (Target.ofClass d).descend? names = some (way, found)) :
    ∃ rest outer, path = c.name :: rest ∧
      (Target.ofClass c).descend? (rest ++ names) = some (outer, found) := by
  induction path generalizing c with
  | nil => rcases mem_nested.1 hd with ⟨hpath, _⟩ | ⟨_, _, _, hpath, _⟩ <;> cases hpath
  | cons first rest ih =>
    rcases mem_nested.1 hd with ⟨hpath, rfl⟩ | ⟨inner, rest, hinner, hpath, hd⟩ <;> cases hpath
    · exact ⟨[], way, rfl, h⟩
    · obtain ⟨below, inside, rfl, hinside⟩ :=
        ih (fun _ _ hd ↦ hc _ _ (nested_of_inner hinner hd)) hd
      obtain ⟨i, houter⟩ :=
        Target.descend?_member (hc _ _ c.self_mem_nested).nodup hinner hinside
      exact ⟨_, _, rfl, houter⟩

section InModule

variable {m : Module} {c : Class} {path names : List String} {found : Target}

theorem Module.mem_nestedClasses :
    (path, c) ∈ m.nestedClasses ↔ ∃ outer, .ofClass outer ∈ m.items ∧ (path, c) ∈ outer.nested := by
  rw [nestedClasses, List.mem_flatMap]
  refine exists_congr fun outer ↦ and_congr_left fun _ ↦ ?_
  rw [classes, List.mem_filterMap]
  refine ⟨?_, fun h ↦ ⟨_, h, rfl⟩⟩
  rintro ⟨item, hitem, hclass⟩
  cases item <;> cases hclass
  exact hitem

theorem Module.IsAddressable.isSegment (hm : m.IsAddressable) (hc : (path, c) ∈ m.nestedClasses) :
    ∀ scope ∈ path, IsSegment scope := by
  obtain ⟨outer, houter, hc⟩ := mem_nestedClasses.1 hc
  exact Class.isSegment_of_mem_nested (hm.segments _ houter)
    (fun _ _ hd ↦ hm.classes _ (mem_nestedClasses.2 ⟨outer, houter, hd⟩)) hc

/-- What is found from a nested class is found along its path from the module scope, and the place
of it can be read. -/
theorem Module.locatePath?_nested (hm : m.IsAddressable) (hc : (path, c) ∈ m.nestedClasses)
    {inside : Way} (h : (Target.ofClass c).descend? names = some (inside, found)) :
    ∃ i way item, m.locatePath? (path ++ names) = some (i, way, found) ∧
      m.items[i]? = some item ∧ item.target.follow? way = some found := by
  obtain ⟨outer, houter, hc⟩ := mem_nestedClasses.1 hc
  obtain ⟨rest, way, rfl, hdescend⟩ := Class.descend?_nested
    (fun _ _ hd ↦ hm.classes _ (mem_nestedClasses.2 ⟨outer, houter, hd⟩)) hc h
  obtain ⟨i, hindex, hi⟩ := exists_findIdx?_of_nodup hm.nodup houter
  have hlocate : m.locatePath? (outer.name :: rest ++ names) = some (i, way, found) := by
    have hfirst : m.items.findIdx? (·.name == outer.name) = some i := hindex
    rw [List.cons_append, locatePath?, hfirst]
    simp [hi, Item.target, hdescend]
  obtain ⟨item, hitem, hfollow⟩ := follow?_of_locatePath? hlocate
  exact ⟨i, way, item, hlocate, hitem, hfollow⟩

end InModule

/-! ### Addresses -/

section Address

variable {m : Module} {path : List String} {name : String} {i : Nat} {way : Way} {found : Target}
  {item : Item}

theorem Module.locate?_address (hpath : ∀ scope ∈ path, IsScope scope) (hname : IsSegment name)
    (h : m.locatePath? (path ++ [name]) = some (i, way, found)) :
    m.locate? (scopePrefix path ++ name) = some { item := i, way } := by
  rw [locate?, Query.parse_address hpath hname, resolve?, h]
  rfl

theorem Module.get?_of_follow? (hitem : m.items[i]? = some item)
    (h : item.target.follow? way = some found) : m.get? { item := i, way } = some found := by
  simp only [get?, hitem, h, Option.bind_eq_bind, Option.bind_some]
  cases found <;> rfl

/-- A selected overload is read at the place of its chain. -/
theorem Module.get?_overload {chain : Overloads} {overload : Nat} {selected : Method}
    (hitem : m.items[i]? = some item) (h : item.target.follow? way = some (.method chain))
    (hselected : chain.all[overload]? = some selected) :
    ∃ found, m.get? { item := i, way, overload := some overload } = some (.method found) ∧
      found.first = selected := by
  simp only [get?, hitem, h, Option.bind_eq_bind, Option.bind_some]
  cases overload with
  | zero => exact ⟨chain, rfl, Option.some.inj hselected⟩
  | succ n =>
    have hrest : chain.rest[n]? = some selected := hselected
    exact ⟨⟨selected, []⟩, congrArg (Option.map _) hrest, rfl⟩

/-- The signature of an overload behind the path of its chain leads to the first overload that has
this signature. -/
theorem Module.locate?_signature {chain : Overloads} (hpath : ∀ scope ∈ path, IsScope scope)
    (hchain : ∀ o ∈ chain.all, o.IsAddressable ∧ o.name = chain.name)
    (h : m.locatePath? (path ++ [chain.name]) = some (i, way, .method chain))
    {o : Method} (ho : o ∈ chain.all) :
    ∃ overload selected, m.locate? (scopePrefix path ++ o.signature) =
        some { item := i, way, overload := some overload } ∧
      chain.all[overload]? = some selected ∧
      chain.all.find? (·.signature == o.signature) = some selected := by
  obtain ⟨hself, hname⟩ := hchain o ho
  have hselects : ∀ other ∈ chain.all,
      (Query.parse (scopePrefix path ++ o.signature)).selects other =
        (other.signature == o.signature) := fun other hother ↦
    Method.selects_signature hpath (hchain other hother).1 hself
      ((hchain other hother).2.trans hname.symm)
  obtain ⟨selected, hfind⟩ := Option.isSome_iff_exists.1
    (List.find?_isSome (p := (·.signature == o.signature)).2 ⟨o, ho, beq_self_eq_true _⟩)
  obtain ⟨hselected, overload, hlt, rfl, hearlier⟩ := List.find?_eq_some_iff_getElem.1 hfind
  refine ⟨overload, _, ?_, List.getElem?_eq_getElem hlt, hfind⟩
  have hindex : chain.all.findIdx? (Query.parse (scopePrefix path ++ o.signature)).selects =
      some overload := by
    refine List.findIdx?_eq_some_iff_getElem.2 ⟨hlt, ?_, fun j hj ↦ ?_⟩
    · rwa [hselects _ (List.getElem_mem hlt)]
    · rw [hselects _ (List.getElem_mem _)]
      simpa using hearlier j hj
  rw [Method.parse_signature hpath hself, hname] at hindex
  rw [locate?, Method.parse_signature hpath hself, hname, resolve?]
  simp only [h, Option.bind_eq_bind, Option.bind_some, hindex]
  rfl

end Address

/-- In a module that can be addressed, the names of the scopes of a class and behind them the
signature of a method lead to the first overload with this signature; the name of the method alone
leads to all overloads of it; and the name of an enumeration with the name of a value leads to the
value. The names of the scopes do not end in a colon, and the overloads of a method have its
name. -/
theorem Module.nested_declarations_found {m : Module} (hm : m.IsAddressable) {path : List String}
    {c : Class} (hc : (path, c) ∈ m.nestedClasses)
    (hpath : ∀ scope ∈ path, scope.toList.getLast? ≠ some ':') :
    (∀ chain ∈ c.methods,
      ((∀ o ∈ chain.all, o.name = chain.name) → ∀ o ∈ chain.all, ∃ place found,
        m.locate? (scopePrefix path ++ o.signature) = some place ∧
        m.get? place = some (.method found) ∧
        chain.all.find? (·.signature == o.signature) = some found.first) ∧
      ∃ place, m.locate? (scopePrefix path ++ chain.name) = some place ∧
        place.overload = none ∧ m.get? place = some (.method chain)) ∧
    ∀ e, .enum e ∈ c.members → e.info.name.toList.getLast? ≠ some ':' →
      (e.values.map (·.info.name)).Nodup → ∀ v ∈ e.values, IsSegment v.info.name →
      ∃ place, m.locate? (scopePrefix (path ++ [e.info.name]) ++ v.info.name) = some place ∧
        m.get? place = some (.value v) := by
  have hscopes : ∀ scope ∈ path, IsScope scope := fun scope hscope ↦
    ⟨hm.isSegment hc scope hscope, hpath scope hscope⟩
  have hclass : c.IsAddressable := hm.classes _ hc
  refine ⟨fun chain hchain ↦ ?_, fun e he hcolon hnodup v hv hvalue ↦ ?_⟩
  · have hmember : .method chain ∈ c.members := Class.mem_methods.1 hchain
    obtain ⟨index, hinside⟩ := Target.descend?_member hclass.nodup hmember
      (show (Member.method chain).target.descend? [] = some (.here, .method chain) from rfl)
    obtain ⟨i, way, item, hlocate, hitem, hfollow⟩ := locatePath?_nested hm hc hinside
    refine ⟨fun hshared o ho ↦ ?_, _, locate?_address hscopes (hclass.segments _ hmember) hlocate,
      rfl, get?_of_follow? hitem hfollow⟩
    have hoverloads : ∀ o ∈ chain.all, o.IsAddressable ∧ o.name = chain.name := fun o ho ↦
      ⟨hclass.method hchain ho (hshared o ho), hshared o ho⟩
    obtain ⟨overload, selected, hsignature, hselected, hfirst⟩ :=
      locate?_signature hscopes hoverloads hlocate ho
    obtain ⟨found, hget, rfl⟩ := get?_overload hitem hfollow hselected
    exact ⟨_, found, hsignature, hget, hfirst⟩
  · obtain ⟨slot, hslot⟩ := Target.descend?_value hnodup hv
    obtain ⟨index, hinside⟩ := Target.descend?_member hclass.nodup he hslot
    obtain ⟨i, way, item, hlocate, hitem, hfollow⟩ := locatePath?_nested hm hc hinside
    have hlocate : m.locatePath? (path ++ [e.info.name] ++ [v.info.name]) =
        some (i, way, .value v) := by
      rw [List.append_assoc]
      exact hlocate
    have henum : IsScope e.info.name := ⟨hclass.segments _ he, hcolon⟩
    exact ⟨_, locate?_address (List.forall_mem_append.2
      ⟨hscopes, List.forall_mem_singleton.2 henum⟩) hvalue hlocate, get?_of_follow? hitem hfollow⟩

namespace Gauges

/-- A method without parameters. -/
def turn : Method := Method.named "turn"

/-- An overload with an array and with commas inside the brackets of a type. -/
def turnTo : Method :=
  { turn with
    params := [{ type := "map<int , list< char>>  &" }, { type := "double", array := true }]
    isConst := true }

def side : Enumeration := Enumeration.named "Side" ["LEFT", "RIGHT"]

/-- A class that stands in another one. -/
def needle : Class :=
  { info := { name := "Needle" }, members := [.method ⟨turn, [turnTo]⟩, .enum side] }

/-- A module of one class with one member. -/
def holding (className : String) (member : Member) : Module :=
  { name := "Gauges", items := [.ofClass { info := { name := className }, members := [member] }] }

def gauge : Module := holding "Gauge" (.inner needle)

end Gauges

open Gauges in
theorem needle_declarations_found : gauge.IsAddressable ∧
    (∃ place found,
      gauge.locate? "Gauge::Needle::turn(map<int,list<char>>&,double[]) const" =
        some place ∧
      gauge.get? place = some (.method found) ∧ found.first = turnTo) ∧
    (∃ place, gauge.locate? "Gauge::Needle::turn" = some place ∧
      place.overload = none ∧ gauge.get? place = some (.method ⟨turn, [turnTo]⟩)) ∧
    ∃ place, gauge.locate? "Gauge::Needle::Side::RIGHT" = some place ∧
      gauge.get? place = some (.value { info := { name := "RIGHT" } }) := by
  have hm : gauge.IsAddressable := by decide +kernel
  have hneedle : (["Gauge", "Needle"], needle) ∈ gauge.nestedClasses := .tail _ (.head _)
  obtain ⟨hmethods, hvalues⟩ := Module.nested_declarations_found hm hneedle (by decide)
  obtain ⟨hoverloads, hname⟩ := hmethods ⟨turn, [turnTo]⟩ (.head _)
  have hsignature : scopePrefix ["Gauge", "Needle"] ++ turnTo.signature =
      "Gauge::Needle::turn(map<int,list<char>>&,double[]) const" := by decide +kernel
  obtain ⟨place, found, hlocate, hget, hfirst⟩ :=
    hoverloads (by decide) turnTo (.tail _ (.head _))
  have hselected : [turn, turnTo].find? (·.signature == turnTo.signature) = some turnTo := by
    decide +kernel
  refine ⟨hm, ⟨place, found, hsignature ▸ hlocate, hget, ?_⟩, ?_, ?_⟩
  · exact Option.some.inj (hfirst.symm.trans hselected)
  · have haddress : scopePrefix ["Gauge", "Needle"] ++ "turn" = "Gauge::Needle::turn" := by
      decide +kernel
    exact haddress ▸ hname
  · have haddress : scopePrefix (["Gauge", "Needle"] ++ [side.info.name]) ++ "RIGHT" =
        "Gauge::Needle::Side::RIGHT" := by decide +kernel
    have hvalue := hvalues side (.tail _ (.head _)) (by decide) (by decide +kernel)
      { info := { name := "RIGHT" } } (.tail _ (.head _)) (by decide +kernel)
    exact haddress ▸ hvalue

open Gauges in
/-- A class whose name ends in a colon hides its methods, an overload of another name stays behind
the first one, and a value with a parenthesis is taken for a method. -/
theorem declarations_out_of_reach :
    ((holding "Gauge:" (.method ⟨turn, []⟩)).IsAddressable ∧
      (holding "Gauge:" (.method ⟨turn, []⟩)).locate? "Gauge:::turn()" = none) ∧
    ((holding "Gauge" (.method ⟨turn, [.named "spin"]⟩)).IsAddressable ∧
      (holding "Gauge" (.method ⟨turn, [.named "spin"]⟩)).locate? "Gauge::spin()" = none) ∧
    (holding "Gauge" (.enum (.named "Side" ["LEFT(", "RIGHT"]))).IsAddressable ∧
      (holding "Gauge" (.enum (.named "Side" ["LEFT(", "RIGHT"]))).locate? "Gauge::Side::LEFT(" =
        none := by
  refine ⟨⟨?_, ?_⟩, ⟨?_, ?_⟩, ?_, ?_⟩ <;> decide +kernel

end Bindery
