import Bindery.Proofs.Decl.Chains
import Bindery.Proofs.Decl.Nesting
import Bindery.Proofs.Interface.Layers
import Bindery.Source.Source

/-!
Turning entries into declarations. It succeeds when every protection that is given, at any depth, is
known (`DeclFile.succeeds_toItems`). A method then says of itself where it is declared, whether it
creates or destroys objects, and whether it can be overridden
(`MethodEntry.isDeclaredIn_toMethod`).
-/

set_option autoImplicit false
set_option relaxedAutoImplicit false

namespace Bindery

/-! ### Steps that can fail -/

/-- Whether there is a result. -/
def Succeeds {α : Type} (x : Except Error α) : Prop := ∃ a, x = .ok a

section Outcomes

variable {α β : Type}

theorem succeeds_ok (a : α) : Succeeds (.ok a : Except Error α) := ⟨a, rfl⟩

theorem not_succeeds_iff {x : Except Error α} : ¬Succeeds x ↔ ∃ e, x = .error e := by
  cases x <;> simp [Succeeds]

/-- Two steps succeed when both do, if the second does so whatever the first gives. -/
theorem succeeds_bind {x : Except Error α} {f : α → Except Error β} {P Q : Prop}
    (hx : Succeeds x ↔ P) (hf : ∀ a, Succeeds (f a) ↔ Q) : Succeeds (x >>= f) ↔ P ∧ Q := by
  rw [← hx]
  constructor
  · rintro ⟨b, hb⟩
    obtain ⟨a, ha, hb⟩ := bind_eq_ok.1 hb
    exact ⟨⟨a, ha⟩, (hf a).1 ⟨b, hb⟩⟩
  · rintro ⟨⟨a, ha⟩, hq⟩
    obtain ⟨b, hb⟩ := (hf a).2 hq
    exact ⟨b, bind_eq_ok.2 ⟨a, ha, hb⟩⟩

theorem succeeds_bind_ok {x : Except Error α} {P : Prop} (hx : Succeeds x ↔ P) (f : α → β) :
    Succeeds (x >>= fun a ↦ .ok (f a)) ↔ P :=
  (succeeds_bind hx fun a ↦ iff_true_intro (succeeds_ok (f a))).trans (and_iff_left trivial)

theorem bind_ok_eq_error_iff {x : Except Error α} {f : α → β} {e : Error} :
    (x >>= fun a ↦ .ok (f a)) = .error e ↔ x = .error e := by
  cases x with
  | error _ => exact ⟨fun h ↦ by cases h; rfl, fun h ↦ by cases h; rfl⟩
  | ok _ => exact ⟨nofun, nofun⟩

theorem succeeds_mapM {f : α → Except Error β} {l : List α} :
    Succeeds (l.mapM f) ↔ ∀ a ∈ l, Succeeds (f a) := by
  refine ⟨fun ⟨bs, hbs⟩ a ha ↦ ?_, exists_mapM_eq_ok⟩
  obtain ⟨b, -, hb⟩ := exists_mem_of_mapM hbs ha
  exact ⟨b, hb⟩

theorem forall₂_of_mapM {f : α → Except Error β} {l : List α} {bs : List β}
    (h : l.mapM f = .ok bs) : List.Forall₂ (fun a b ↦ f a = .ok b) l bs := by
  induction l generalizing bs with
  | nil =>
    cases h
    exact .nil
  | cons a l ih =>
    rw [List.mapM_cons] at h
    obtain ⟨b, hb, h⟩ := bind_eq_ok.1 h
    obtain ⟨rest, hrest, h⟩ := bind_eq_ok.1 h
    cases h
    exact .cons hb (ih hrest)

theorem exists_of_forall₂ {R : α → β → Prop} {l : List α} {bs : List β}
    (h : List.Forall₂ R l bs) {b : β} (hb : b ∈ bs) : ∃ a ∈ l, R a b := by
  induction h with
  | nil => cases hb
  | cons hab _ ih =>
    rcases List.mem_cons.1 hb with rfl | hb
    · exact ⟨_, List.mem_cons_self, hab⟩
    · obtain ⟨a, ha, hab⟩ := ih hb
      exact ⟨a, List.mem_cons_of_mem _ ha, hab⟩

theorem forall₂_filterMap {γ δ : Type} {R : α → β → Prop} {S : γ → δ → Prop}
    {f : α → Option γ} {g : β → Option δ} (hrel : ∀ a b, R a b → Option.Rel S (f a) (g b))
    {l : List α} {bs : List β} (h : List.Forall₂ R l bs) :
    List.Forall₂ S (l.filterMap f) (bs.filterMap g) := by
  induction h with
  | nil => exact .nil
  | @cons a b _ _ hab _ ih =>
    have hfirst := hrel a b hab
    rw [List.filterMap_cons, List.filterMap_cons]
    generalize f a = x at hfirst ⊢
    generalize g b = y at hfirst ⊢
    cases hfirst with
    | none => exact ih
    | some hs => exact .cons hs ih

end Outcomes

/-! ### Protections -/

/-- The protections that a declaration may have. -/
def IsProtection (raw : String) : Prop := raw = "public" ∨ raw = "protected"

def CommonEntry.protections (entry : CommonEntry) : List String := entry.protection.toList

def EnumEntry.protections (entry : EnumEntry) : List String :=
  entry.common.protections ++ entry.values.flatMap (·.common.protections)

mutual

/-- The protections that are given for a class and for all that is declared inside it. -/
def ClassEntry.protections : ClassEntry → List String
  | ⟨common, _, _, _, _, _, members⟩ => common.protections ++ MemberEntry.allProtections members

def MemberEntry.protections : MemberEntry → List String
  | .method m => m.common.protections
  | .variable v => v.common.protections
  | .enum e => e.protections
  | .inner c => c.protections

def MemberEntry.allProtections : List MemberEntry → List String
  | [] => []
  | entry :: entries => entry.protections ++ MemberEntry.allProtections entries

end

def ItemEntry.protections : ItemEntry → List String
  | .ofClass c => c.protections
  | .function m => m.common.protections
  | .enum e => e.protections
  | .variable v => v.common.protections
  | .typedef t => t.common.protections
  | .define d => d.common.protections

/-- All protections that a file gives. -/
def DeclFile.protections (file : DeclFile) : List String :=
  file.items.flatMap ItemEntry.protections

theorem Protection.ofKeyword?_isSome_iff {raw : String} :
    (ofKeyword? raw).isSome = true ↔ IsProtection raw := by
  unfold ofKeyword? IsProtection
  split <;> simp_all

theorem Protection.succeeds_parse (item raw : String) :
    Succeeds (parse item raw) ↔ IsProtection raw := by
  rw [← ofKeyword?_isSome_iff, parse]
  cases ofKeyword? raw <;> simp [Succeeds]

theorem CommonEntry.succeeds_toInfo (entry : CommonEntry) (scope : Option String) :
    Succeeds (entry.toInfo scope) ↔ ∀ raw ∈ entry.protections, IsProtection raw := by
  unfold CommonEntry.toInfo protections
  cases entry.protection with
  | none => simp [Succeeds, pure, Except.pure, bind, Except.bind]
  | some raw =>
    rw [Option.toList_some, List.forall_mem_singleton]
    exact succeeds_bind_ok (Protection.succeeds_parse _ raw) _

theorem MethodEntry.succeeds_toMethod (entry : MethodEntry) (scope : Option String) :
    Succeeds (entry.toMethod scope) ↔ ∀ raw ∈ entry.common.protections, IsProtection raw :=
  succeeds_bind_ok (entry.common.succeeds_toInfo scope) _

theorem VariableEntry.succeeds_toMember (entry : VariableEntry) (className : String) :
    Succeeds (entry.toMember className) ↔ ∀ raw ∈ entry.common.protections, IsProtection raw :=
  succeeds_bind_ok (entry.common.succeeds_toInfo _) _

theorem EnumEntry.succeeds_toEnum (entry : EnumEntry) (scope : Option String) :
    Succeeds (entry.toEnum scope) ↔ ∀ raw ∈ entry.protections, IsProtection raw := by
  rw [protections, List.forall_mem_append, List.forall_mem_flatMap]
  refine succeeds_bind (entry.common.succeeds_toInfo scope) fun info ↦ succeeds_bind_ok ?_ _
  exact succeeds_mapM.trans (forall₂_congr fun value _ ↦
    succeeds_bind_ok (value.common.succeeds_toInfo scope) _)

mutual

theorem ClassEntry.succeeds_toClass (scope : Option String) : (entry : ClassEntry) →
    (Succeeds (entry.toClass scope) ↔ ∀ raw ∈ entry.protections, IsProtection raw)
  | ⟨common, _, _, _, _, _, members⟩ => by
    rw [ClassEntry.protections, List.forall_mem_append, ClassEntry.toClass]
    exact succeeds_bind (common.succeeds_toInfo scope) fun info ↦
      succeeds_bind_ok (MemberEntry.succeeds_toMembers info.name members) _

theorem MemberEntry.succeeds_toMember (className : String) : (entry : MemberEntry) →
    (Succeeds (entry.toMember className) ↔ ∀ raw ∈ entry.protections, IsProtection raw)
  | .method m => by
    rw [MemberEntry.protections, MemberEntry.toMember]
    exact succeeds_bind_ok (m.succeeds_toMethod _) _
  | .variable v => by
    rw [MemberEntry.protections, MemberEntry.toMember]
    exact succeeds_bind_ok (v.succeeds_toMember _) _
  | .enum e => by
    rw [MemberEntry.protections, MemberEntry.toMember]
    exact succeeds_bind_ok (e.succeeds_toEnum _) _
  | .inner c => by
    rw [MemberEntry.protections, MemberEntry.toMember]
    exact succeeds_bind_ok (ClassEntry.succeeds_toClass _ c) _

theorem MemberEntry.succeeds_toMembers (className : String) : (entries : List MemberEntry) →
    (Succeeds (MemberEntry.toMembers className entries) ↔
      ∀ raw ∈ MemberEntry.allProtections entries, IsProtection raw)
  | [] => by
    rw [MemberEntry.allProtections, MemberEntry.toMembers]
    exact iff_of_true (succeeds_ok []) (List.forall_mem_nil _)
  | entry :: entries => by
    rw [MemberEntry.allProtections, List.forall_mem_append, MemberEntry.toMembers]
    exact succeeds_bind (MemberEntry.succeeds_toMember className entry) fun member ↦
      succeeds_bind_ok (MemberEntry.succeeds_toMembers className entries) _

end

theorem ItemEntry.succeeds_toItem (entry : ItemEntry) :
    Succeeds entry.toItem ↔ ∀ raw ∈ entry.protections, IsProtection raw := by
  cases entry with
  | ofClass c => exact succeeds_bind_ok (c.succeeds_toClass none) _
  | function m => exact succeeds_bind_ok (m.succeeds_toMethod none) _
  | enum e => exact succeeds_bind_ok (e.succeeds_toEnum none) _
  | «variable» v =>
    exact succeeds_bind_ok (succeeds_bind_ok (v.common.succeeds_toInfo none) _) _
  | typedef t => exact succeeds_bind_ok (t.common.succeeds_toInfo none) _
  | define d => exact succeeds_bind_ok (d.common.succeeds_toInfo none) _

/-- A file can be turned into items when it gives no unknown protection. -/
theorem DeclFile.succeeds_toItems (file : DeclFile) :
    Succeeds file.toItems ↔ ∀ raw ∈ file.protections, IsProtection raw := by
  rw [protections, List.forall_mem_flatMap]
  exact succeeds_mapM.trans (forall₂_congr fun entry _ ↦ entry.succeeds_toItem)

/-! ### Methods -/

/-- What is said of a method in its own fields fits where it stands and how it was declared. Neither
constructors nor destructors have a return type. -/
structure Method.IsDeclaredIn (scope : Option String) (m : Method) : Prop where
  className : m.className = scope
  definition : m.definition = qualifiedName scope m.name
  returnType : m.returnType = none ↔ m.isCtor = true ∨ m.isDtor = true
  isVirtual : m.isPureVirtual = true → m.isVirtual = true

section Entries

variable {scope : Option String} {className : String}

/-- Attributes keep the name of their entry, and protected ones are ignored. -/
theorem CommonEntry.toInfo_eq_ok {entry : CommonEntry} {info : Info}
    (h : entry.toInfo scope = .ok info) :
    info.name = entry.name ∧ (info.protection = .protectedAccess → info.ignored = true) := by
  unfold toInfo at h
  split at h
  · obtain ⟨protection, -, h⟩ := bind_eq_ok.1 h
    cases h
    exact ⟨rfl, fun hprotected ↦ by simp_all⟩
  · cases h
    exact ⟨rfl, fun hprotected ↦ by cases hprotected⟩

theorem MethodEntry.isDeclaredIn_toMethod {entry : MethodEntry} {m : Method}
    (h : entry.toMethod scope = .ok m) : m.IsDeclaredIn scope := by
  obtain ⟨info, -, h⟩ := bind_eq_ok.1 h
  cases h
  refine ⟨rfl, rfl, ?_, fun hpure ↦ Bool.or_eq_true_iff.2 (.inr hpure)⟩
  rw [← Bool.or_eq_true]
  dsimp only
  split <;> rename_i htype <;> simp [htype]

/-- A free function is no constructor, as there is no class that it could be named like. -/
theorem MethodEntry.isCtor_toMethod {entry : MethodEntry} {m : Method}
    (h : entry.toMethod none = .ok m) : m.isCtor = false := by
  obtain ⟨info, -, h⟩ := bind_eq_ok.1 h
  cases h
  rfl

theorem VariableEntry.definition_toMember {entry : VariableEntry} {v : MemberVariable}
    (h : entry.toMember className = .ok v) :
    v.definition = MemberVariable.definitionIn className v.info.name v.type := by
  obtain ⟨info, -, h⟩ := bind_eq_ok.1 h
  cases h
  rfl

end Entries

end Bindery
