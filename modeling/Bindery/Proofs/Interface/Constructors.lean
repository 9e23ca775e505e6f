import Bindery.Proofs.Extract.ClassChains
import Bindery.Proofs.Interface.Folding
import Bindery.Proofs.Interface.Collisions

/-!
Constructors of an interface. The constructors of a class are the overloads of one chain, and the
section that the first of them belongs to is the only one that gets any. So each section holds, in
the order of their declaration, the constructors that are shown in it if the one that was declared
first belongs there, and none otherwise (`View.ctors_of_section`): a public constructor is lost
behind a protected one, and the other way round.
-/

set_option autoImplicit false
set_option relaxedAutoImplicit false

namespace Bindery

def InterfaceMember.ctor? : InterfaceMember → Option Method
  | .method m => if m.isCtor then some m else none
  | _ => none

/-- The constructors among declared methods that a section gets: those that are shown in it, if the
first of all is declared there. -/
def registeredCtors (className : String) (visibility : Protection) (declared : List Method) :
    List Method :=
  if (declared.find? (·.key == (className, true))).any (·.info.protection == visibility) then
    (declared.filter (·.key == (className, true))).filter fun ctor ↦
      ClassTarget.isShown visibility ctor.info
  else []

section Registered

variable {className : String} {visibility : Protection} {declared : List Method} {m : Method}

theorem mem_registeredCtors (h : m ∈ registeredCtors className visibility declared) :
    m ∈ declared ∧ m.info.protection = visibility := by
  unfold registeredCtors at h
  split at h
  · obtain ⟨hctor, hshown⟩ := List.mem_filter.1 h
    exact ⟨List.mem_of_mem_filter hctor, (ClassTarget.isShown_iff.1 hshown).1⟩
  · exact (List.not_mem_nil h).elim

/-- An active constructor depends on the first one alone. -/
theorem count_registeredCtors (hkey : m.key = (className, true)) (hactive : m.info.isActive = true) :
    (registeredCtors className visibility declared).count m =
      if visibility = m.info.protection ∧ (declared.find? (·.key == (className, true))).any
        (·.info.protection == m.info.protection) = true then declared.count m else 0 := by
  by_cases hvisibility : visibility = m.info.protection
  · subst hvisibility
    rw [registeredCtors]
    simp only [true_and]
    split
    · have hshown : ClassTarget.isShown m.info.protection m.info = true :=
        ClassTarget.isShown_iff.2 ⟨rfl, hactive⟩
      rw [List.count_filter (p := fun ctor : Method ↦ ClassTarget.isShown _ ctor.info) hshown]
      exact List.count_filter (beq_iff_eq.2 hkey)
    · rfl
  · rw [if_neg fun h ↦ hvisibility h.1]
    exact List.count_eq_zero.2 fun hm ↦ hvisibility (mem_registeredCtors hm).2.symm

end Registered

namespace ClassTarget

variable {target : ClassTarget} {visibility : Protection}

/-- The constructors that a chain adds to a section. -/
def chainCtors (target : ClassTarget) (visibility : Protection) (chain : Overloads) :
    List Method :=
  if chain.first.isCtor then target.shownCtors visibility chain else []

/-- Only chains of constructors add any, as long as no other method is mixed in. -/
theorem ctors_memberEntries (seen : List Method) {chain : Overloads}
    (h : ∀ m ∈ chain.all, m.isCtor = chain.first.isCtor) :
    (target.memberEntries visibility seen (.method chain)).filterMap InterfaceMember.ctor? =
      target.chainCtors visibility chain := by
  have hall : ((target.memberEntries visibility seen (.method chain)).filterMap _).Sublist _ :=
    methods_memberEntries_sublist seen (.method chain)
  rw [memberEntries, filterMap_method?_map] at hall
  rw [memberEntries, chainCtors,
    filterMap_map_method (fun _ ↦ rfl) fun m hm ↦ h m (hall.subset hm)]
  cases chain.first.isCtor <;> rfl

theorem ctors_entries (seen : List Method) {members : List Member}
    (h : ∀ chain ∈ members.filterMap Member.methods?,
      ∀ m ∈ chain.all, m.isCtor = chain.first.isCtor) :
    (target.entries visibility seen members).filterMap InterfaceMember.ctor? =
      (members.filterMap Member.methods?).flatMap (target.chainCtors visibility) := by
  induction members generalizing seen with
  | nil => rfl
  | cons member members ih =>
    rw [entries, List.filterMap_append]
    cases member with
    | method chain =>
      obtain ⟨hfirst, hrest⟩ := List.forall_mem_cons.1 h
      rw [ctors_memberEntries seen hfirst, ih _ hrest]
      rfl
    | «variable» v =>
      rw [ih _ h, memberEntries]
      split <;> rfl
    | enum e =>
      rw [ih _ h, memberEntries]
      split <;> rfl
    | inner c => exact ih _ h

theorem chainCtors_of_ne {chain : Overloads} (h : chain.first.key ≠ (target.className, true)) :
    target.chainCtors visibility chain = [] := by
  rw [chainCtors, shownCtors]
  split
  · rename_i hctor
    have hname : chain.name ≠ target.className := fun hname ↦ h (Prod.ext hname hctor)
    rw [if_neg (by simp [hname])]
  · rfl

theorem chainCtors_of_key {chain : Overloads} (h : chain.first.key = (target.className, true)) :
    target.chainCtors visibility chain =
      if chain.first.info.protection == visibility then
        chain.all.filter fun ctor ↦ isShown visibility ctor.info
      else [] := by
  have hname : chain.name = target.className := congrArg Prod.fst h
  have hctor : chain.first.isCtor = true := congrArg Prod.snd h
  rw [chainCtors, if_pos hctor, shownCtors, hname, beq_self_eq_true, Bool.and_true]
  rfl

/-- The methods of a class are held in chains, of which one at most has its constructors. -/
theorem chainCtors_eq {declared : List Method} {chains : List Overloads}
    (h : Overloads.Gathers declared chains) :
    chains.flatMap (target.chainCtors visibility) =
      registeredCtors target.className visibility declared := by
  by_cases hctors : ∃ chain ∈ chains, chain.first.key = (target.className, true)
  · obtain ⟨chain, hchain, hkey⟩ := hctors
    have hall := h.all_eq chain hchain
    obtain ⟨before, after, rfl⟩ := List.append_of_mem hchain
    have hdistinct := h.distinct
    rw [List.map_append, List.map_cons, List.nodup_middle, List.nodup_cons, hkey] at hdistinct
    have hothers : (before ++ after).flatMap (target.chainCtors visibility) = [] := by
      refine List.flatMap_eq_nil_iff.2 fun other hother ↦ chainCtors_of_ne fun hsame ↦ ?_
      refine hdistinct.1 ?_
      rw [← List.map_append, ← hsame]
      exact List.mem_map_of_mem hother
    obtain ⟨hbefore, hafter⟩ := List.append_eq_nil_iff.1 (List.flatMap_append ▸ hothers)
    rw [List.flatMap_append, List.flatMap_cons, hbefore, hafter, List.nil_append, List.append_nil,
      chainCtors_of_key hkey, registeredCtors, ← List.head?_filter, ← hkey, ← hall]
    rfl
  · have hnone : declared.filter (·.key == (target.className, true)) = [] := by
      refine List.filter_eq_nil_iff.2 fun m hm hkey ↦ hctors ?_
      obtain ⟨chain, hchain, hmem⟩ := h.exists_chain hm
      exact ⟨chain, hchain, (h.key_of_mem hchain hmem).symm.trans (eq_of_beq hkey)⟩
    rw [registeredCtors, ← List.head?_filter, hnone]
    exact List.flatMap_eq_nil_iff.2 fun chain hchain ↦
      chainCtors_of_ne fun hkey ↦ hctors ⟨chain, hchain, hkey⟩

end ClassTarget

namespace View

variable {view : View} {c : Class} {interface : ClassInterface} {folded : List Class}
  {declared : Class → List Method}

/-- The constructors of a section, of the class and of the bases that it folds. -/
theorem ctors_of_section (h : view.interfaceOf c = .ok interface)
    (hfolded : view.foldedBases c = .ok folded)
    (hdeclared : ∀ b ∈ c :: folded, Overloads.Gathers (declared b) b.methods)
    (visibility : Protection) :
    (interface.members visibility).filterMap InterfaceMember.ctor? =
      if visibility = .publicAccess ∨ view.hasProtectedSection c folded = true then
        (c :: folded).flatMap fun b ↦
          registeredCtors (view.className c) visibility (declared b)
      else [] := by
  have hentries (seen : List Method) :
      ((view.target c).entries visibility seen ((c :: folded).flatMap Class.members)).filterMap
          InterfaceMember.ctor? =
        (c :: folded).flatMap fun b ↦
          registeredCtors (view.className c) visibility (declared b) := by
    have hmethods : ((c :: folded).flatMap Class.members).filterMap Member.methods? =
        (c :: folded).flatMap Class.methods := List.filterMap_flatMap
    rw [ClassTarget.ctors_entries, hmethods, List.flatMap_assoc]
    · exact List.flatMap_congr fun b hb ↦ ClassTarget.chainCtors_eq (hdeclared b hb)
    · intro chain hchain m hm
      obtain ⟨b, hb, hchain⟩ := List.mem_flatMap.1 (hmethods ▸ hchain)
      exact congrArg Prod.snd ((hdeclared b hb).key_of_mem hchain hm)
  rw [filterMap_members h hfolded (fun _ ↦ rfl) (fun _ ↦ rfl), hentries]

/-- The constructors of a class of an extraction, when it is generated under its own name. A section
holds, in the order of their declaration, those that are shown in it if the first constructor of the
class is declared there, and those of folded bases that bear the name of the class in the same way.
So, unless a class folds itself, an active constructor stands in the section of its protection as
often as it is declared if the first constructor has the same protection, and nowhere otherwise. -/
theorem ctors_behind_first {policy : Policy} {config : Config}
    {load : String → Except Error DeclFile} {extraction : Extraction}
    (hextract : policy.extract config load = .ok extraction)
    (hc : c ∈ extraction.module.classes)
    (h : (View.mk policy extraction.module).interfaceOf c = .ok interface)
    (hname : policy.className c.name = c.name) :
    ∃ folded, (View.mk policy extraction.module).foldedBases c = .ok folded ∧
      (∀ visibility, (interface.members visibility).filterMap InterfaceMember.ctor? =
        if visibility = .publicAccess ∨
            (View.mk policy extraction.module).hasProtectedSection c folded = true then
          (c :: folded).flatMap fun b ↦ registeredCtors c.name visibility b.overloads
        else []) ∧
      (c.name ∉ policy.foldedBasesOf c.name →
        ∀ ctor ∈ c.overloads, ctor.isCtor = true → ctor.info.isActive = true →
        ctor.info.protection = .publicAccess ∨
          (View.mk policy extraction.module).hasProtectedSection c folded = true →
        ∀ visibility,
          ((interface.members visibility).filterMap InterfaceMember.ctor?).count ctor =
            if visibility = ctor.info.protection ∧
                (c.overloads.find? (·.key == (c.name, true))).any
                  (·.info.protection == ctor.info.protection) = true then
              c.overloads.count ctor
            else 0) := by
  obtain ⟨folded, hfolded, -⟩ := bind_eq_ok.1 h
  obtain ⟨hnames, hfound⟩ := foldedBases_eq_ok hfolded
  have hchained : ∀ b ∈ c :: folded, b.IsChained := by
    refine List.forall_mem_cons.2 ⟨Policy.isChained_of_extract hextract hc, fun b hb ↦ ?_⟩
    exact Policy.isChained_of_extract hextract (List.mem_of_find?_eq_some (hfound b hb))
  have hsections := ctors_of_section h hfolded fun b hb ↦ (hchained b hb).gathers
  have hown : (View.mk policy extraction.module).className c = c.name := hname
  rw [hown] at hsections
  refine ⟨folded, hfolded, hsections, fun hself ctor hctor hisCtor hactive hshown visibility ↦ ?_⟩
  have hkey : ctor.key = (c.name, true) :=
    Prod.ext ((hchained c List.mem_cons_self).name_of_isCtor hctor hisCtor) hisCtor
  have hrest : (folded.flatMap fun b ↦ registeredCtors c.name visibility b.overloads).count ctor =
      0 := by
    refine List.count_eq_zero.2 fun hmem ↦ ?_
    obtain ⟨b, hb, hmem⟩ := List.mem_flatMap.1 hmem
    have hsame : b.name = c.name :=
      ((hchained b (List.mem_cons_of_mem _ hb)).name_of_isCtor (mem_registeredCtors hmem).1
        hisCtor).symm.trans (congrArg Prod.fst hkey)
    have hnamed : b.name ∈ addAllNew [] (policy.foldedBasesOf c.name) :=
      hnames ▸ List.mem_map_of_mem hb
    exact hself (hsame ▸ (mem_addAllNew.1 hnamed).resolve_left List.not_mem_nil)
  rw [hsections]
  split
  · rw [List.flatMap_cons, List.count_append, hrest, Nat.add_zero,
      count_registeredCtors hkey hactive]
  · rename_i hsection
    have hother : visibility ≠ ctor.info.protection := fun heq ↦ hsection (heq ▸ hshown)
    rw [if_neg fun hboth ↦ hother hboth.1]
    rfl

end View

namespace Lamps

def ctorEntry (protection : String) (params : List Param) : MethodEntry where
  common := { name := "Lamp", protection := some protection }
  params

def ctor (info : Info) (params : List Param) : Method :=
  { Method.ctorOf "Lamp" with info, params, className := some "Lamp", definition := "Lamp::Lamp" }

def read (ctors : List MethodEntry) (_ : String) : Except Error DeclFile :=
  .ok ⟨[.ofClass { common := { name := "Lamp" }, members := ctors.map .method }]⟩

/-- A lamp is generated with its protected constructor. -/
def policy : Policy :=
  { Policy.empty "Lamps" "Meters" with visibility := [("Lamp::Lamp(long)", ⟨false, false⟩)] }

def power : List Param := [{ name := "power", type := "int" }]

def serial : List Param := [{ name := "serial", type := "long" }]

/-- Two public constructors, and a protected one behind them. -/
def entries : List MethodEntry :=
  [ctorEntry "public" [], ctorEntry "public" power, ctorEntry "protected" serial]

def powered : Method := ctor { name := "Lamp" } power

def numbered : Method := ctor { name := "Lamp", protection := .protectedAccess } serial

end Lamps

open Lamps in
/-- Of the constructors of a lamp, the public ones are registered, as the first one is public. The
protected one is not, though there is a protected section. -/
theorem lamp_ctors : ∃ extraction c interface, policy.extract {} (read entries) = .ok extraction ∧
    c ∈ extraction.module.classes ∧
    (View.mk policy extraction.module).interfaceOf c = .ok interface ∧
    policy.className c.name = c.name ∧ powered ∈ c.overloads ∧ numbered ∈ c.overloads ∧
    ((interface.members .publicAccess).filterMap InterfaceMember.ctor?).count powered = 1 ∧
    ((interface.members .protectedAccess).filterMap InterfaceMember.ctor?).count numbered = 0 := by
  have hok : ((policy.extract {} (read entries)).toOption.any fun extraction ↦
      extraction.module.classes.any fun c ↦ decide (c.name = "Lamp") &&
        decide (c.overloads = [ctor { name := "Lamp" } [], powered, numbered]) &&
          (View.mk policy extraction.module).hasProtectedSection c [] &&
            ((View.mk policy extraction.module).interfaceOf c).toOption.isSome) = true := by
    decide +kernel
  obtain ⟨extraction, hextract, hany⟩ := (Option.any_eq_true _ _).1 hok
  obtain ⟨c, hc, hfacts⟩ := List.any_eq_true.1 hany
  simp only [Bool.and_eq_true, decide_eq_true_eq] at hfacts
  obtain ⟨⟨⟨hname, hoverloads⟩, hsection⟩, hinterface⟩ := hfacts
  obtain ⟨interface, hinterface⟩ := Option.isSome_iff_exists.1 hinterface
  have hown : policy.className c.name = c.name := by
    rw [hname]
    rfl
  have hnone : (View.mk policy extraction.module).foldedBases c = .ok [] := by
    rw [View.foldedBases, hname]
    rfl
  obtain ⟨folded, hfolded, -, hctors⟩ := View.ctors_behind_first (eq_ok_of_toOption hextract) hc
    (eq_ok_of_toOption hinterface) hown
  cases hnone.symm.trans hfolded
  have hself : c.name ∉ policy.foldedBasesOf c.name := by
    rw [hname]
    exact List.not_mem_nil
  have hpowered : powered ∈ c.overloads := by simp [hoverloads]
  have hnumbered : numbered ∈ c.overloads := by simp [hoverloads]
  refine ⟨extraction, c, interface, eq_ok_of_toOption hextract, hc, eq_ok_of_toOption hinterface,
    hown, hpowered, hnumbered, ?_, ?_⟩
  · rw [hctors hself powered hpowered rfl rfl (.inl rfl), hoverloads, hname]
    decide +kernel
  · rw [hctors hself numbered hnumbered rfl rfl (.inr hsection), hoverloads, hname]
    decide +kernel

open Lamps in
/-- Behind a protected constructor that is left out, an active public one is not registered. -/
theorem lamp_ctor_lost :
    ((policy.extract {} (read [ctorEntry "protected" [], ctorEntry "public" power])).toOption.any
      fun extraction ↦ extraction.module.classes.any fun c ↦
        c.overloads.any (fun m ↦ decide (m = powered) && m.isCtor && m.info.isActive) &&
          ((View.mk policy extraction.module).interfaceOf c).toOption.any fun interface ↦
            ((interface.members .publicAccess).filterMap InterfaceMember.ctor?).isEmpty) = true := by
  decide +kernel

end Bindery
