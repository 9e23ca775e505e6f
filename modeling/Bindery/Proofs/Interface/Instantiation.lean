import Bindery.Policy.Edit
import Bindery.Proofs.Interface.Constructors
import Bindery.Proofs.Interface.Overriding

/-!
Templates that are generated as classes. A policy can generate a class template under another name.
Two targets that differ in the name of the class alone build interfaces that agree on everything but
constructors and destructors (`ClassBuilder.Agrees.addMembers`), since a section takes only those
that are named for the class as it is generated. So the interface of a template has all methods and
all other members of the class itself, but it lost the constructors and the destructor, unless the
template keeps its name (`View.instance_agrees`).
-/

set_option autoImplicit false
set_option relaxedAutoImplicit false

namespace Bindery

/-- A member that creates and destroys no objects. -/
def InterfaceMember.isOrdinary : InterfaceMember → Bool
  | .method m => m.isOrdinary
  | _ => true

/-! ### Targets of two names -/

/-- Targets that see methods alike, whatever class they are for. -/
def ClassTarget.IsTwin (target other : ClassTarget) : Prop :=
  ∀ m extension, target.entry m extension = other.entry m extension

/-- Builders that have registered the same methods, and the same members but for constructors and
destructors. -/
structure ClassBuilder.Agrees (b b' : ClassBuilder) : Prop where
  members : ∀ visibility, (b.interface.members visibility).filter InterfaceMember.isOrdinary =
    (b'.interface.members visibility).filter InterfaceMember.isOrdinary
  methods : b.interface.methods = b'.interface.methods
  dropped : b.interface.dropped = b'.interface.dropped
  seen : b.seen = b'.seen

namespace ClassBuilder.Agrees

open ClassTarget

variable {target other : ClassTarget} {b b' : ClassBuilder} {visibility : Protection}

theorem refl (b : ClassBuilder) : b.Agrees b := ⟨fun _ ↦ rfl, rfl, rfl, rfl⟩

theorem symm (h : b.Agrees b') : b'.Agrees b :=
  ⟨fun visibility ↦ (h.members visibility).symm, h.methods.symm, h.dropped.symm, h.seen.symm⟩

theorem addMember (h : b.Agrees b') (visibility : Protection) (member : InterfaceMember) :
    ClassBuilder.Agrees { b with interface := b.interface.addMember visibility member }
      { b' with interface := b'.interface.addMember visibility member } where
  members v := by
    rw [ClassInterface.members_addMember, ClassInterface.members_addMember, List.filter_append,
      List.filter_append, h.members]
  methods := by
    rw [ClassInterface.methods_addMember, ClassInterface.methods_addMember, h.methods]
  dropped := by cases visibility <;> exact h.dropped
  seen := h.seen

/-- A constructor or destructor makes no difference. -/
theorem addMethod_left (h : b.Agrees b') {m : Method} (hm : m.isOrdinary = false) :
    ClassBuilder.Agrees { b with interface := target.addMethod b.interface m } b' := by
  have hentered : isEntered m = false := by rw [isEntered, hm, Bool.false_and]
  have hadded : target.addMethod b.interface m =
      b.interface.addMember m.info.protection (.method m) := by
    rw [ClassTarget.addMethod, hentered]
    rfl
  rw [hadded]
  refine ⟨fun v ↦ ?_, ?_, ?_, h.seen⟩
  · rw [ClassInterface.members_addMember, List.filter_append, h.members]
    split <;> simp [InterfaceMember.isOrdinary, hm]
  · rw [ClassInterface.methods_addMember, h.methods]
  · cases m.info.protection <;> exact h.dropped

theorem addMethods_left {methods : List Method} (hmethods : ∀ m ∈ methods, m.isOrdinary = false)
    (h : b.Agrees b') :
    ClassBuilder.Agrees { b with interface := methods.foldl target.addMethod b.interface } b' := by
  induction methods generalizing b with
  | nil => exact h
  | cons m methods ih =>
    obtain ⟨hfirst, hrest⟩ := List.forall_mem_cons.1 hmethods
    exact ih hrest (h.addMethod_left hfirst)

theorem addOrdinary (h : b.Agrees b') (htwin : target.IsTwin other) (m : Method) :
    (target.addOrdinary b m).Agrees (other.addOrdinary b' m) := by
  unfold ClassTarget.addOrdinary
  rw [h.seen]
  split
  · exact h
  · have hmember := h.addMember m.info.protection (.method m)
    unfold ClassTarget.addMethod
    split
    · refine ⟨hmember.members, ?_, hmember.dropped, rfl⟩
      rw [htwin]
      exact congrArg (fun methods : Table String RegisteredMethod ↦ methods.set m.signature _)
        hmember.methods
    · exact ⟨hmember.members, hmember.methods, hmember.dropped, rfl⟩

theorem addShown (h : b.Agrees b') (info : Info) (member : InterfaceMember) :
    (ClassTarget.addShown visibility b info member).Agrees
      (ClassTarget.addShown visibility b' info member) := by
  unfold ClassTarget.addShown
  split
  · exact h.addMember visibility member
  · exact h

/-- Chains of constructors or destructors are registered for one name and not for another; all other
chains are registered for both. -/
theorem addChain (h : b.Agrees b') (htwin : target.IsTwin other) {chain : Overloads}
    (hchain : ∀ m ∈ chain.all, m.isOrdinary = chain.first.isOrdinary) :
    (target.addChain visibility b chain).Agrees (other.addChain visibility b' chain) := by
  have hskipped (hfirst : chain.first.isOrdinary = false) {methods : List Method}
      (hmethods : methods ⊆ chain.all) : ∀ m ∈ methods, m.isOrdinary = false :=
    fun m hm ↦ (hchain m (hmethods hm)).trans hfirst
  have hctors (t : ClassTarget) : t.shownCtors visibility chain ⊆ chain.all := by
    unfold shownCtors
    split
    · exact List.filter_sublist.subset
    · exact List.nil_subset _
  have hdtors (t : ClassTarget) : t.shownDtors visibility chain ⊆ chain.all := by
    intro m hm
    obtain ⟨-, rfl⟩ := mem_shownDtors.1 hm
    exact List.mem_cons_self
  unfold ClassTarget.addChain
  by_cases hctor : chain.first.isCtor = true
  · have hfirst : chain.first.isOrdinary = false := by simp [Method.isOrdinary, hctor]
    rw [if_pos hctor, if_pos hctor]
    exact (addMethods_left (hskipped hfirst (hctors other))
      (addMethods_left (hskipped hfirst (hctors target)) h).symm).symm
  · rw [if_neg hctor, if_neg hctor]
    by_cases hdtor : chain.first.isDtor = true
    · have hfirst : chain.first.isOrdinary = false := by simp [Method.isOrdinary, hdtor]
      rw [if_pos hdtor, if_pos hdtor]
      exact (addMethods_left (hskipped hfirst (hdtors other))
        (addMethods_left (hskipped hfirst (hdtors target)) h).symm).symm
    · rw [if_neg hdtor, if_neg hdtor]
      generalize shownMethods visibility chain = methods
      induction methods generalizing b b' with
      | nil => exact h
      | cons m methods ih => exact ih (h.addOrdinary htwin m)

/-- All members of a class are registered alike, but for constructors and destructors. -/
theorem addMembers (h : b.Agrees b') (htwin : target.IsTwin other) {c : Class}
    (hc : c.DeclaresOwn) :
    (target.addMembers visibility b c).Agrees (other.addMembers visibility b' c) := by
  unfold ClassTarget.addMembers
  have hchains : ∀ chain, Member.method chain ∈ c.members →
      ∀ m ∈ chain.all, m.isOrdinary = chain.first.isOrdinary := fun chain hchain ↦
    hc.isOrdinary chain (List.mem_filterMap.2 ⟨_, hchain, rfl⟩)
  generalize c.members = members at hchains ⊢
  induction members generalizing b b' with
  | nil => exact h
  | cons member members ih =>
    refine ih ?_ fun chain hchain ↦ hchains chain (List.mem_cons_of_mem _ hchain)
    cases member with
    | method chain => exact h.addChain htwin (hchains chain List.mem_cons_self)
    | enum e =>
      rw [ClassTarget.addMember, ClassTarget.addMember]
      split
      · exact h.addShown e.info (.enum e)
      · exact h
    | «variable» v => exact h.addShown v.info (.variable v)
    | inner c => exact h

end ClassBuilder.Agrees

/-! ### Which constructors and destructors are registered -/

namespace ClassTarget

variable {target : ClassTarget} {visibility : Protection} {m : Method}

theorem exists_chain_of_mem_entries {members : List Member} {seen : List Method}
    (h : .method m ∈ target.entries visibility seen members) :
    ∃ chain behind, Member.method chain ∈ members ∧
      .method m ∈ target.memberEntries visibility behind (.method chain) := by
  induction members generalizing seen with
  | nil => exact (List.not_mem_nil h).elim
  | cons member members ih =>
    rw [entries, List.mem_append] at h
    rcases h with hfirst | hrest
    · cases member with
      | method chain => exact ⟨chain, seen, List.mem_cons_self, hfirst⟩
      | «variable» v =>
        rw [memberEntries] at hfirst
        split at hfirst <;> simp at hfirst
      | enum e =>
        rw [memberEntries] at hfirst
        split at hfirst <;> simp at hfirst
      | inner c => exact (List.not_mem_nil hfirst).elim
    · obtain ⟨chain, behind, hchain, hm⟩ := ih hrest
      exact ⟨chain, behind, List.mem_cons_of_mem _ hchain, hm⟩

/-- A section takes constructors only of a class that is generated under its own name, and of the
destructors only that of the generated name. -/
theorem named_of_mem_entries {c : Class} (hchained : c.IsChained) (hown : c.DeclaresOwn)
    {seen : List Method} (h : .method m ∈ target.entries visibility seen c.members) :
    (m.isCtor = true → target.className = c.name) ∧
      (m.isCtor = false → m.isDtor = true → m.name = "~" ++ target.className) := by
  obtain ⟨chain, behind, hmember, hm⟩ := exists_chain_of_mem_entries h
  have hchain : chain ∈ c.methods := List.mem_filterMap.2 ⟨_, hmember, rfl⟩
  have hmethods : ((target.memberEntries visibility behind (.method chain)).filterMap
      InterfaceMember.method?).Sublist chain.all := methods_memberEntries_sublist behind _
  have hall : m ∈ chain.all := hmethods.subset (List.mem_filterMap.2 ⟨.method m, hm, rfl⟩)
  have hkey := hchained.gathers.key_of_mem hchain hall
  have hname : m.name = chain.name := congrArg Prod.fst hkey
  have hctor : m.isCtor = chain.first.isCtor := congrArg Prod.snd hkey
  have hordinary := hown.isOrdinary chain hchain m hall
  rw [memberEntries] at hm
  refine ⟨fun hisCtor ↦ ?_, fun hisCtor hisDtor ↦ ?_⟩
  · have hfirst := hctor.symm.trans hisCtor
    rw [if_pos hfirst] at hm
    obtain ⟨m', hshown, heq⟩ := List.mem_map.1 hm
    unfold shownCtors at hshown
    split at hshown
    · rename_i hhere
      rw [Bool.and_eq_true, beq_iff_eq, beq_iff_eq] at hhere
      have hclass := hchained.name_of_isCtor (List.mem_flatMap.2 ⟨chain, hchain, hall⟩) hisCtor
      rw [← hhere.2, ← hname, hclass]
    · exact (List.not_mem_nil hshown).elim
  · have hfirst : chain.first.isCtor = false := hctor.symm.trans hisCtor
    have hdtor : chain.first.isDtor = true := by
      simpa [Method.isOrdinary, hisCtor, hisDtor, hfirst] using hordinary.symm
    rw [if_neg (by simp [hfirst]), if_pos hdtor] at hm
    obtain ⟨m', hshown, heq⟩ := List.mem_map.1 hm
    rw [hname]
    exact (mem_shownDtors.1 hshown).1.2

end ClassTarget

/-! ### Interfaces of two names -/

/-- A policy says nothing of a name that the interface of a class could depend on. -/
structure Policy.IsSilentOn (policy : Policy) (name : String) : Prop where
  templates : policy.templatesAsClass.find? name = none
  folded : policy.foldedBases.find? name = none
  extensions : policy.interfaceExtensions.find? name = none
  forced : name ∉ policy.forcedProxies
  denied : ∀ method, name ++ "::" ++ method ∉ policy.noProxies

namespace ClassTarget

/-- What the interface of a class starts from. -/
def start (c : Class) : ClassBuilder :=
  { interface := { publicMembers := (c.innerClasses.filter View.showsInner).map .inner } }

/-- The interface of a class that folds no base, by a policy that adds nothing to it. -/
def fill (target : ClassTarget) (c : Class) : ClassBuilder :=
  let built := target.addMembers .publicAccess (start c) c
  if c.kind != .ofStruct && c.regardsProtectedMembers then
    target.addMembers .protectedAccess built c
  else built

theorem fill_agrees {target other : ClassTarget} (htwin : target.IsTwin other) {c : Class}
    (hc : c.DeclaresOwn) : (target.fill c).Agrees (other.fill c) := by
  have hbuilt : (target.addMembers .publicAccess (start c) c).Agrees
      (other.addMembers .publicAccess (start c) c) :=
    (ClassBuilder.Agrees.refl _).addMembers htwin hc
  unfold fill
  dsimp only
  split
  · exact hbuilt.addMembers htwin hc
  · exact hbuilt

/-- The name and the sight of methods are all that an interface depends on. -/
theorem IsTwin.fill_eq {target other : ClassTarget} (htwin : target.IsTwin other)
    (hname : target.className = other.className) (c : Class) : target.fill c = other.fill c := by
  have hmethod : target.addMethod = other.addMethod := by
    funext interface m
    rw [addMethod, addMethod, htwin]
  have hordinary : target.addOrdinary = other.addOrdinary := by
    funext builder m
    rw [addOrdinary, addOrdinary, hmethod]
  have hchain : target.addChain = other.addChain := by
    funext visibility builder chain
    simp only [addChain, shownCtors, shownDtors, hname, hmethod, hordinary]
  have hmember : target.addMember = other.addMember := by
    funext visibility builder member
    cases member with
    | method chain => exact congrFun (congrFun (congrFun hchain visibility) builder) chain
    | _ => rfl
  simp only [fill, addMembers, hmember]

end ClassTarget

/-- Where a policy is silent on a class, its methods are denied by the name of the class that
declares them alone. -/
theorem Policy.hasMethodProxy_of_silent {policy : Policy} {name : String}
    (h : policy.IsSilentOn name) (m : Method) : policy.hasMethodProxy name m =
      (!policy.disabledProxies && m.isVirtual &&
        m.className.all fun owner ↦ !policy.noProxies.contains (owner ++ "::" ++ m.name)) := by
  have hdenied : policy.noProxies.contains (name ++ "::" ++ m.name) = false := by
    simpa using h.denied m.name
  have howner (owner : String) :
      (owner == name || !policy.noProxies.contains (owner ++ "::" ++ m.name)) =
        !policy.noProxies.contains (owner ++ "::" ++ m.name) := by
    by_cases heq : owner = name
    · rw [heq, hdenied, beq_self_eq_true]
      rfl
    · rw [beq_false_of_ne heq, Bool.false_or]
  simp only [hasMethodProxy, hdenied, howner]
  cases policy.disabledProxies <;> cases m.isVirtual <;> rfl

namespace View

variable {view : View} {c : Class}

theorem foldedBases_of_silent (h : view.policy.foldedBases.find? c.name = none) :
    view.foldedBases c = .ok [] := by
  rw [foldedBases, Policy.foldedBasesOf, h]
  rfl

theorem interfaceOf_of_silent (hfolded : view.policy.foldedBases.find? c.name = none)
    (hextensions : view.policy.interfaceExtensions.find? c.name = none) :
    view.interfaceOf c = .ok ((view.target c).fill c).interface := by
  have hnone (visibility : Protection) : view.policy.extensionsOf c.name visibility = [] := by
    rw [Policy.extensionsOf, hextensions]
    rfl
  have hsection : view.hasProtectedSection c [] =
      (c.kind != .ofStruct && c.regardsProtectedMembers) := by
    simp [hasProtectedSection, hnone]
  have hadd (target : ClassTarget) (visibility : Protection) (builder : ClassBuilder) :
      target.addSection visibility builder [c] [] =
        .ok (target.addMembers visibility builder c) := rfl
  rw [interfaceOf, foldedBases_of_silent hfolded]
  simp only [hnone, bind, Except.bind, hadd, hsection, ClassTarget.fill]
  split <;> rfl

/-- The constructors and destructors of a section are entries of the class. -/
theorem exists_mem_entries_of_silent (hfolded : view.policy.foldedBases.find? c.name = none)
    {interface : ClassInterface} (h : view.interfaceOf c = .ok interface) {visibility : Protection}
    {m : Method} (hm : .method m ∈ interface.members visibility) :
    ∃ seen, .method m ∈ (view.target c).entries visibility seen c.members := by
  have hpicked : m ∈ (interface.members visibility).filterMap InterfaceMember.method? :=
    List.mem_filterMap.2 ⟨_, hm, rfl⟩
  rw [filterMap_members h (foldedBases_of_silent hfolded) (fun _ ↦ rfl) (fun _ ↦ rfl)] at hpicked
  split at hpicked
  · obtain ⟨member, hmember, hpick⟩ := List.mem_filterMap.1 hpicked
    cases member <;> cases hpick
    exact ⟨_, by simpa using hmember⟩
  · exact (List.not_mem_nil hpicked).elim

end View

section Instance

variable {policy : Policy} {c : Class} {N : String}

theorem Policy.templateAsClass_templateAsClass (policy : Policy) (T N : String) :
    (policy.apply (.templateAsClass T N)).templateAsClass T = true := by
  change (policy.templatesAsClass.set T N).contains T = true
  rw [Table.contains_eq_isSome_find?, Table.set, Table.find?_alter_self, Option.isSome_some]

theorem Policy.className_templateAsClass (policy : Policy) (T N : String) :
    (policy.apply (.templateAsClass T N)).className T = N := by
  change ((policy.templatesAsClass.set T N).find? T).getD T = N
  rw [Table.set, Table.find?_alter_self, Option.getD_some]

/-- The target of a template that is generated as a class, and that of the class itself, see methods
alike. -/
theorem View.isTwin_target (m m' : Module) (hT : policy.IsSilentOn c.name)
    (hN : policy.IsSilentOn N) :
    ((View.mk (policy.apply (.templateAsClass c.name N)) m).target c).IsTwin
      ((View.mk policy m').target { c with isTemplate := false }) := by
  have hplain : policy.className c.name = c.name := by
    rw [Policy.className, hT.templates, Option.getD_none]
  have hfolded : policy.foldedBasesOf c.name = [] := by
    rw [Policy.foldedBasesOf, hT.folded, Option.getD_none]
  have hpure : (View.mk (policy.apply (.templateAsClass c.name N)) m).hasProxy c =
      (View.mk policy m').hasProxy { c with isTemplate := false } := by
    change (!policy.disabledProxies && (policy.forcedProxies.contains c.name || c.hasVirtuals ||
        ((policy.foldedBasesOf c.name).filterMap m.findClass?).any Class.hasVirtuals)) =
      (!policy.disabledProxies && (policy.forcedProxies.contains c.name || c.hasVirtuals ||
        ((policy.foldedBasesOf c.name).filterMap m'.findClass?).any Class.hasVirtuals))
    rw [hfolded]
    rfl
  have hproxy (o : Method) :
      (policy.apply (.templateAsClass c.name N)).hasMethodProxy
          ((policy.apply (.templateAsClass c.name N)).className c.name) o =
        policy.hasMethodProxy (policy.className c.name) o := by
    rw [Policy.className_templateAsClass, hplain, Policy.hasMethodProxy_of_silent hT]
    exact Policy.hasMethodProxy_of_silent hN o
  intro o extension
  change RegisteredMethod.mk o o.isVirtual
      ((View.mk (policy.apply (.templateAsClass c.name N)) m).hasProxy c && o.isPureVirtual)
      _ extension = RegisteredMethod.mk o o.isVirtual
        ((View.mk policy m').hasProxy { c with isTemplate := false } && o.isPureVirtual) _ extension
  rw [hpure]
  exact congrArg (RegisteredMethod.mk o o.isVirtual _ · extension) (hproxy o)

/-- Two names of destructors are the same just when the classes are. -/
theorem tilde_append_inj {name other : String} (h : "~" ++ name = "~" ++ other) : name = other := by
  have hchars := congrArg String.toList h
  rw [String.toList_append, String.toList_append, List.append_cancel_left_eq] at hchars
  exact String.toList_inj.1 hchars

/-- A class template of an extraction, whose policy generates it as a class of another name and says
nothing else of either name, beside the same class when it is no template. The interfaces of both
exist and have the same methods, and each section has the same members but for constructors and
destructors. The template has constructors only if it keeps its name, and each of the two has no
destructor but the one that is named for the class as it is generated. So the sections are the same
just when the template keeps its name, or there is no constructor or destructor in any of them. -/
theorem View.instance_agrees {T : String} {config : Config}
    {load : String → Except Error DeclFile} {extraction : Extraction}
    (hextract : (policy.apply (.templateAsClass T N)).extract config load = .ok extraction)
    (hc : c ∈ extraction.module.classes) (hname : c.name = T) (hT : policy.IsSilentOn T)
    (hN : policy.IsSilentOn N) (m' : Module) :
    let template : View := ⟨policy.apply (.templateAsClass T N), extraction.module⟩
    let plain : View := ⟨policy, m'⟩
    let own : Class := { c with isTemplate := false }
    template.className c = N ∧ plain.className own = T ∧
      template.isGenerated c = plain.isGenerated own ∧
      ∃ i j, template.interfaceOf c = .ok i ∧ plain.interfaceOf own = .ok j ∧
        i.methods = j.methods ∧ i.dropped = j.dropped ∧
        (∀ visibility, (i.members visibility).filter InterfaceMember.isOrdinary =
          (j.members visibility).filter InterfaceMember.isOrdinary) ∧
        (∀ visibility m, .method m ∈ i.members visibility →
          (m.isCtor = true → N = T) ∧ (m.isCtor = false → m.isDtor = true → m.name = "~" ++ N)) ∧
        (∀ visibility m, .method m ∈ j.members visibility →
          m.isCtor = false → m.isDtor = true → m.name = "~" ++ T) ∧
        ((∀ visibility, i.members visibility = j.members visibility) ↔
          N = T ∨ ∀ visibility, ∀ member ∈ i.members visibility ++ j.members visibility,
            member.isOrdinary = true) := by
  subst hname
  intro template plain own
  have hplain : policy.className c.name = c.name := by
    rw [Policy.className, hT.templates, Option.getD_none]
  have hnamed : template.className c = N := Policy.className_templateAsClass policy c.name N
  have hchained : c.IsChained := Policy.isChained_of_extract hextract hc
  have hdeclares : c.DeclaresOwn := Policy.declaresOwn_of_extract hextract hc
  have htwin : (template.target c).IsTwin (plain.target own) :=
    isTwin_target extraction.module m' hT hN
  have hi : template.interfaceOf c = .ok ((template.target c).fill c).interface :=
    interfaceOf_of_silent hT.folded hT.extensions
  have hj : plain.interfaceOf own = .ok ((plain.target own).fill own).interface :=
    interfaceOf_of_silent (c := own) hT.folded hT.extensions
  have hagrees : ((template.target c).fill c).Agrees ((plain.target own).fill own) :=
    ClassTarget.fill_agrees htwin hdeclares
  have hgenerated : template.isGenerated c = plain.isGenerated own := by
    change (!c.info.ignored && (!c.isTemplate ||
        (policy.apply (.templateAsClass c.name N)).templateAsClass c.name) &&
          !policy.isFoldedBase c.name) =
      (!c.info.ignored && (!false || policy.templateAsClass c.name) && !policy.isFoldedBase c.name)
    rw [Policy.templateAsClass_templateAsClass, Bool.or_true]
    rfl
  have hmine (visibility : Protection) (m : Method)
      (hm : .method m ∈ ((template.target c).fill c).interface.members visibility) :
      (m.isCtor = true → N = c.name) ∧
        (m.isCtor = false → m.isDtor = true → m.name = "~" ++ N) := by
    obtain ⟨seen, hentry⟩ := exists_mem_entries_of_silent hT.folded hi hm
    rw [← hnamed]
    exact ClassTarget.named_of_mem_entries hchained hdeclares hentry
  have htheirs (visibility : Protection) (m : Method)
      (hm : .method m ∈ ((plain.target own).fill own).interface.members visibility)
      (hctor : m.isCtor = false) (hdtor : m.isDtor = true) : m.name = "~" ++ c.name := by
    obtain ⟨seen, hentry⟩ := exists_mem_entries_of_silent hT.folded hj hm
    rw [← hplain]
    exact (ClassTarget.named_of_mem_entries hchained hdeclares hentry).2 hctor hdtor
  refine ⟨hnamed, hplain, hgenerated, _, _, hi, hj, hagrees.methods, hagrees.dropped,
    hagrees.members, hmine, htheirs, fun hsame ↦ ?_, fun h ↦ ?_⟩
  · refine or_iff_not_imp_left.2 fun hne visibility member hmember ↦ ?_
    rw [hsame, List.mem_append, or_self] at hmember
    cases member with
    | method m =>
      -- A constructor has no place in the one interface, and a destructor has two names.
      by_contra hkind
      have hm := hsame visibility ▸ hmember
      obtain ⟨hctor, hdtor⟩ := hmine visibility m hm
      have hnot : m.isCtor = false := Bool.eq_false_iff.2 fun h ↦ hne (hctor h)
      have hdestroys : m.isDtor = true := by
        simpa [InterfaceMember.isOrdinary, Method.isOrdinary, hnot] using hkind
      exact hne (tilde_append_inj
        ((hdtor hnot hdestroys).symm.trans (htheirs visibility m hmember hnot hdestroys)))
    | _ => rfl
  · intro visibility
    rcases h with hname | hordinary
    · have hsame : (template.target c).className = (plain.target own).className :=
        hnamed.trans (hname.trans hplain.symm)
      rw [htwin.fill_eq hsame]
      rfl
    · have hkept := hagrees.members visibility
      rwa [List.filter_eq_self.2 fun member hmember ↦
          hordinary visibility member (List.mem_append_left _ hmember),
        List.filter_eq_self.2 fun member hmember ↦
          hordinary visibility member (List.mem_append_right _ hmember)] at hkept

end Instance

namespace Vectors

def policy : Policy := Policy.empty "Vectors" "Wx"

/-- The policy with vectors generated as integer vectors. -/
def integers : Policy := policy.apply (.templateAsClass "Vector" "IntVector")

def memberEntry (name : String) : MemberEntry := .method { common := { name } }

/-- A class template with a constructor, a destructor and a method. -/
def read (_ : String) : Except Error DeclFile := .ok { items := [
  .ofClass {
    common := { name := "Vector" }
    isTemplate := true
    members := [memberEntry "Vector", memberEntry "~Vector", memberEntry "Size"] }] }

def size : Method := (Method.named "Size").inClass "Vector"

theorem silent_vector : policy.IsSilentOn "Vector" :=
  ⟨rfl, rfl, rfl, List.not_mem_nil, fun _ ↦ List.not_mem_nil⟩

theorem silent_intVector : policy.IsSilentOn "IntVector" :=
  ⟨rfl, rfl, rfl, List.not_mem_nil, fun _ ↦ List.not_mem_nil⟩

end Vectors

open Vectors in
/-- Vectors and integer vectors have the same methods, and neither the constructor of a vector nor
its destructor is a member of an integer vector. -/
theorem vector_instance_agrees : ∃ extraction c i j, integers.extract {} read = .ok extraction ∧
    c ∈ extraction.module.classes ∧ c.name = "Vector" ∧ c.isTemplate = true ∧
    policy.IsSilentOn "Vector" ∧ policy.IsSilentOn "IntVector" ∧
    View.interfaceOf ⟨integers, extraction.module⟩ c = .ok i ∧
    View.interfaceOf ⟨policy, extraction.module⟩ { c with isTemplate := false } = .ok j ∧
    i.methods = j.methods ∧
    (∀ visibility, (i.members visibility).filter InterfaceMember.isOrdinary =
      (j.members visibility).filter InterfaceMember.isOrdinary) ∧
    ∀ visibility, .method (Method.ctorOf "Vector") ∉ i.members visibility ∧
      .method (Method.dtorOf "Vector") ∉ i.members visibility := by
  have hok : (integers.extract {} read).toOption.any (fun extraction ↦
      extraction.module.classes.any fun c ↦ c.name == "Vector" && c.isTemplate) = true := by
    decide +kernel
  obtain ⟨extraction, hextract, hany⟩ := (Option.any_eq_true _ _).1 hok
  obtain ⟨c, hc, hfacts⟩ := List.any_eq_true.1 hany
  rw [Bool.and_eq_true, beq_iff_eq] at hfacts
  have hextract := eq_ok_of_toOption hextract
  obtain ⟨-, -, -, i, j, hi, hj, hmethods, -, hmembers, hmine, -, -⟩ := View.instance_agrees
    hextract hc hfacts.1 silent_vector silent_intVector extraction.module
  refine ⟨extraction, c, i, j, hextract, hc, hfacts.1, hfacts.2, silent_vector, silent_intVector,
    hi, hj, hmethods, hmembers, fun visibility ↦ ⟨fun hctor ↦ ?_, fun hdtor ↦ ?_⟩⟩
  · exact absurd ((hmine visibility _ hctor).1 rfl) (by decide)
  · exact absurd ((hmine visibility _ hdtor).2 rfl rfl) (by decide)

open Vectors in
/-- A vector has its constructor, its destructor and its size, and an integer vector has the size
alone. -/
theorem vector_ctor_lost : (integers.extract {} read).toOption.any (fun extraction ↦
    extraction.module.classes.any fun c ↦ c.name == "Vector" && c.isTemplate &&
      (View.interfaceOf ⟨integers, extraction.module⟩ c).toOption.any (fun i ↦
        i.publicMembers.map InterfaceMember.method? == [some size]) &&
      (View.interfaceOf ⟨policy, extraction.module⟩ { c with isTemplate := false }).toOption.any
        fun j ↦ j.publicMembers.map InterfaceMember.method? ==
          [some (Method.ctorOf "Vector"), some (Method.dtorOf "Vector"), some size]) = true := by
  decide +kernel

end Bindery
