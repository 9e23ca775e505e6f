import Bindery.Emit.Header
import Bindery.Proofs.Interface.Layers

/-!
What an interface holds of declarations that are left out. A declaration that is ignored or
deprecated is not active, and each kind of member has a filter of its own in front of the sections.
All filters but one drop what is not active: the destructor of a class is added whatever was said of
it (`ClassTarget.mem_memberEntries_of_isInactive`). So an inactive member is registered just when it
is that destructor, which is then written like any other, and no inactive method is entered
(`View.inactive_registered_iff`).
-/

set_option autoImplicit false
set_option relaxedAutoImplicit false

namespace Bindery

/-- What a member is declared with. A declaration that the policy adds has nothing of it. -/
def InterfaceMember.info? : InterfaceMember → Option Info
  | .method m => some m.info
  | .variable v => some v.info
  | .enum e => some e.info
  | .inner c => some c.info
  | .custom _ => none

/-- A member that is left out where it is declared. -/
def InterfaceMember.isInactive (member : InterfaceMember) : Bool :=
  member.info?.any (!·.isActive)

namespace ClassTarget

variable {target : ClassTarget} {visibility : Protection} {member : InterfaceMember}

/-- Whether methods are the destructor of the class, in a section. -/
def destroys (target : ClassTarget) (visibility : Protection) (chain : Overloads) : Bool :=
  !chain.first.isCtor && chain.first.isDtor && chain.info.protection == visibility &&
    chain.name == "~" ++ target.className

theorem destroys_iff {chain : Overloads} : target.destroys visibility chain = true ↔
    (chain.first.isCtor = false ∧ chain.first.isDtor = true) ∧
      chain.info.protection = visibility ∧ chain.name = "~" ++ target.className := by
  simp only [destroys, Bool.and_eq_true, Bool.not_eq_true', beq_iff_eq, and_assoc]

theorem ne_of_isInactive {info : Info} {shown : InterfaceMember}
    (hinactive : member.isInactive = true) (hinfo : shown.info? = some info)
    (hshown : isShown visibility info = true) : member ≠ shown := by
  rintro rfl
  rw [InterfaceMember.isInactive, hinfo, Option.any_some, (isShown_iff.1 hshown).2] at hinactive
  cases hinactive

theorem mem_memberEntries_method_of_isInactive {seen : List Method} {chain : Overloads}
    (hinactive : member.isInactive = true) :
    member ∈ target.memberEntries visibility seen (.method chain) ↔
      target.destroys visibility chain = true ∧ member = .method chain.first := by
  rw [memberEntries, List.mem_map, destroys_iff]
  split
  · rename_i hctor
    refine iff_of_false ?_ fun h ↦ Bool.noConfusion (hctor.symm.trans h.1.1.1)
    rintro ⟨m, hm, heq⟩
    exact ne_of_isInactive hinactive rfl (isShown_of_mem_shownCtors hm) heq.symm
  · rename_i hctor
    split
    · rename_i hdtor
      rw [Bool.not_eq_true] at hctor
      rw [and_iff_right (And.intro hctor hdtor)]
      constructor
      · rintro ⟨m, hm, rfl⟩
        obtain ⟨hname, rfl⟩ := mem_shownDtors.1 hm
        exact ⟨hname, rfl⟩
      · rintro ⟨hname, rfl⟩
        exact ⟨chain.first, mem_shownDtors.2 ⟨hname, rfl⟩, rfl⟩
    · rename_i hdtor
      refine iff_of_false ?_ fun h ↦ hdtor h.1.1.2
      rintro ⟨m, hm, heq⟩
      exact ne_of_isInactive hinactive rfl
        (isShown_of_mem_shownMethods ((unhidden_sublist _ _).subset hm)) heq.symm

/-- Of what is inactive, a member adds a destructor, and nothing else. -/
theorem mem_memberEntries_of_isInactive {seen : List Method} {declared : Member}
    (hinactive : member.isInactive = true) :
    member ∈ target.memberEntries visibility seen declared ↔
      ∃ chain, declared = .method chain ∧ target.destroys visibility chain = true ∧
        member = .method chain.first := by
  have hnone {info : Info} {added : InterfaceMember} {adds : Bool}
      (hinfo : added.info? = some info) (hadds : adds = true → isShown visibility info = true) :
      member ∉ if adds = true then [added] else [] := by
    split
    · rename_i h
      exact fun hmem ↦ ne_of_isInactive hinactive hinfo (hadds h) (List.mem_singleton.1 hmem)
    · exact List.not_mem_nil
  cases declared with
  | method chain =>
    rw [mem_memberEntries_method_of_isInactive hinactive]
    constructor
    · exact fun h ↦ ⟨chain, rfl, h⟩
    · rintro ⟨_, heq, h⟩
      cases heq
      exact h
  | «variable» v => exact iff_of_false (hnone rfl id) fun ⟨_, heq, _⟩ ↦ by cases heq
  | enum e =>
    refine iff_of_false (hnone rfl fun h ↦ ?_) fun ⟨_, heq, _⟩ ↦ by cases heq
    rw [Bool.and_eq_true] at h
    exact h.2
  | inner c => exact iff_of_false List.not_mem_nil fun ⟨_, heq, _⟩ ↦ by cases heq

theorem mem_entries_of_isInactive {seen : List Method} {members : List Member}
    (hinactive : member.isInactive = true) :
    member ∈ target.entries visibility seen members ↔
      ∃ chain, .method chain ∈ members ∧ target.destroys visibility chain = true ∧
        member = .method chain.first := by
  induction members generalizing seen with
  | nil => simp [entries]
  | cons declared members ih =>
    rw [entries, List.mem_append, mem_memberEntries_of_isInactive hinactive, ih]
    constructor
    · rintro (⟨chain, rfl, h⟩ | ⟨chain, hchain, h⟩)
      · exact ⟨chain, List.mem_cons_self, h⟩
      · exact ⟨chain, List.mem_cons_of_mem _ hchain, h⟩
    · rintro ⟨chain, hchain, h⟩
      rcases List.mem_cons.1 hchain with rfl | hchain
      · exact .inl ⟨chain, rfl, h⟩
      · exact .inr ⟨chain, hchain, h⟩

/-- The methods that a declaration enters are active. -/
def EntersActive (i : ClassInterface) : Prop :=
  ∀ signature entry, i.method? signature = some entry → entry.extension = false →
    entry.method.info.isActive = true

theorem keeps_entersActive (target : ClassTarget) : target.Keeps EntersActive where
  addMember h visibility _ := by
    cases visibility with
    | publicAccess => exact h
    | protectedAccess => exact h
  enter h m hactive signature entry hentry hextension := by
    rcases ClassInterface.method?_enter hentry with ⟨-, rfl⟩ | hold
    · exact hactive
    · exact h signature entry hold hextension
  extend h m signature entry hentry hextension := by
    rcases ClassInterface.method?_enter hentry with ⟨-, rfl⟩ | hold
    · cases hextension
    · exact h signature entry hold hextension

end ClassTarget

namespace View

variable {view : View} {c : Class} {interface : ClassInterface}

/-- The inactive members of a section are those destructors of the class that it declares or folds. -/
theorem mem_members_of_isInactive (h : view.interfaceOf c = .ok interface)
    {folded : List Class} (hfolded : view.foldedBases c = .ok folded) {visibility : Protection}
    {member : InterfaceMember} (hinactive : member.isInactive = true) :
    member ∈ interface.members visibility ↔
      (visibility = .publicAccess ∨ view.hasProtectedSection c folded = true) ∧
        ∃ declaring ∈ c :: folded, ∃ chain, .method chain ∈ declaring.members ∧
          (view.target c).destroys visibility chain = true ∧ member = .method chain.first := by
  have hcustom (decls : List String) : member ∉ decls.map .custom := by
    intro hmem
    obtain ⟨decl, -, rfl⟩ := List.mem_map.1 hmem
    cases hinactive
  have hentries (seen : List Method) :
      member ∈ (view.target c).entries visibility seen ((c :: folded).flatMap Class.members) ↔
        ∃ declaring ∈ c :: folded, ∃ chain, .method chain ∈ declaring.members ∧
          (view.target c).destroys visibility chain = true ∧ member = .method chain.first := by
    rw [ClassTarget.mem_entries_of_isInactive hinactive]
    constructor
    · rintro ⟨chain, hchain, hmember⟩
      obtain ⟨declaring, hdeclaring, hchain⟩ := List.mem_flatMap.1 hchain
      exact ⟨declaring, hdeclaring, chain, hchain, hmember⟩
    · rintro ⟨declaring, hdeclaring, chain, hchain, hmember⟩
      exact ⟨chain, List.mem_flatMap.2 ⟨declaring, hdeclaring, hchain⟩, hmember⟩
  cases visibility with
  | publicAccess =>
    obtain ⟨_, hsame, hmembers, -⟩ := publicMembers_eq h
    cases hfolded.symm.trans hsame
    have hinner : member ∉ (c.innerClasses.filter showsInner).map .inner := by
      intro hmem
      obtain ⟨inner, hinner, heq⟩ := List.mem_map.1 hmem
      exact ClassTarget.ne_of_isInactive hinactive rfl (List.mem_filter.1 hinner).2 heq.symm
    rw [ClassInterface.members, hmembers, List.mem_append, List.mem_append, publicEntries, hentries]
    simp only [hinner, hcustom, false_or, or_false, true_or, true_and]
  | protectedAccess =>
    obtain ⟨_, seen, hsame, hmembers⟩ := protectedMembers_eq h
    cases hfolded.symm.trans hsame
    rw [ClassInterface.members, hmembers]
    split
    · rename_i hprotected
      rw [List.mem_append, hentries]
      simp only [hcustom, or_false, hprotected, or_true, true_and]
    · rename_i hprotected
      simp [hprotected]

/-- An inactive declaration is registered just when it is a destructor of the class, among the
members of the class or of a base that it folds, and it is then written as a destructor. No inactive
method is entered. -/
theorem inactive_registered_iff (h : view.interfaceOf c = .ok interface) :
    ∃ folded, view.foldedBases c = .ok folded ∧
      (∀ visibility member, member.isInactive = true →
        (member ∈ interface.members visibility ↔
          (visibility = .publicAccess ∨ view.hasProtectedSection c folded = true) ∧
            ∃ declaring ∈ c :: folded, ∃ chain, .method chain ∈ declaring.members ∧
              (view.target c).destroys visibility chain = true ∧
              member = .method chain.first)) ∧
      (∀ visibility, ∀ member ∈ interface.members visibility, member.isInactive = true →
        ∃ m, member = .method m ∧ ∀ scope : Emit.ClassScope, scope.memberLines member =
          if scope.isAbstract then []
          else ["  " ++ (if m.isVirtual then "virtual " else "") ++ "~" ++ scope.className ++
            "();"]) ∧
      ∀ signature entry, interface.method? signature = some entry → entry.extension = false →
        entry.method.info.isActive = true := by
  obtain ⟨folded, hfolded, -⟩ := publicMembers_eq h
  refine ⟨folded, hfolded, fun visibility member ↦ mem_members_of_isInactive h hfolded,
    fun visibility member hmember hinactive ↦ ?_, ?_⟩
  · obtain ⟨-, -, -, chain, -, hdestroys, rfl⟩ :=
      (mem_members_of_isInactive h hfolded hinactive).1 hmember
    obtain ⟨⟨hctor, hdtor⟩, -⟩ := ClassTarget.destroys_iff.1 hdestroys
    refine ⟨chain.first, rfl, fun scope ↦ ?_⟩
    simp [Emit.ClassScope.memberLines, hctor, hdtor]
  · refine holds_of_keeps (ClassTarget.keeps_entersActive _) (fun members ↦ ?_) h
    intro signature entry hentry
    cases hentry

end View

namespace Meters

def start : Method := Method.ctorOf "Dial"

/-- The destructor of a dial, left out. -/
def finish : Method :=
  { Method.dtorOf "Dial" with info := { name := "~Dial", ignored := true } }

def turn : Method :=
  { (Method.named "Turn").inClass "Dial" with info := { name := "Turn", ignored := true } }

def face : MemberVariable :=
  { MemberVariable.named "Dial" "face" "int" with info := { name := "face", ignored := true } }

/-- A dial leaves out what ends and what turns it, and its face. -/
def dial : Class where
  info := { name := "Dial" }
  members := [.method ⟨start, []⟩, .method ⟨finish, []⟩, .method ⟨turn, []⟩, .variable face]

def dials : View where
  policy := Policy.empty "Dials" "Meters"
  module := { name := "Dials", items := [.ofClass dial] }

end Meters

open Meters in
/-- Of what a dial leaves out, its interface holds what ends it, and writes it. -/
theorem dial_members : ∃ interface, dials.interfaceOf dial = .ok interface ∧
    .method turn ∉ interface.publicMembers ∧ .variable face ∉ interface.publicMembers ∧
    .method finish ∈ interface.publicMembers ∧
    ∀ scope : Emit.ClassScope, scope.isAbstract = false →
      scope.memberLines (.method finish) = ["  ~" ++ scope.className ++ "();"] := by
  have hok : (dials.interfaceOf dial).toOption.isSome = true := by decide +kernel
  obtain ⟨interface, hinterface⟩ := Option.isSome_iff_exists.1 hok
  have hinterface := eq_ok_of_toOption hinterface
  obtain ⟨folded, hfolded, hmembers, hlines, -⟩ := View.inactive_registered_iff hinterface
  have hnone : dials.foldedBases dial = .ok [] := rfl
  cases hfolded.symm.trans hnone
  have hfinish : .method finish ∈ interface.publicMembers :=
    (hmembers .publicAccess (.method finish) rfl).2
      ⟨.inl rfl, dial, List.mem_cons_self, ⟨finish, []⟩, by simp [dial], by decide +kernel, rfl⟩
  refine ⟨interface, hinterface, fun hturn ↦ ?_, fun hface ↦ ?_, hfinish, fun scope hscope ↦ ?_⟩
  · obtain ⟨-, -, -, chain, -, hdestroys, heq⟩ := (hmembers .publicAccess _ rfl).1 hturn
    have hdtor := (ClassTarget.destroys_iff.1 hdestroys).1.2
    rw [← InterfaceMember.method.inj heq] at hdtor
    cases hdtor
  · obtain ⟨-, -, -, chain, -, -, heq⟩ := (hmembers .publicAccess _ rfl).1 hface
    cases heq
  · obtain ⟨_, heq, hline⟩ := hlines .publicAccess _ hfinish rfl
    cases heq
    rw [hline, hscope]
    rfl

open Meters in
/-- A dial registers what ends it although that is ignored, and the header declares it. -/
theorem dial_declares_ignored_destructor : finish.info.ignored = true ∧
    ((dials.interfaceOf dial).toOption.any fun interface ↦
      interface.publicMembers.any (·.method?.any (· == finish)) &&
        (Emit.classLines dials [("Dial", interface)] {} dial).toOption.any
          (·.contains "  ~Dial();")) = true := by
  decide +kernel

end Bindery
