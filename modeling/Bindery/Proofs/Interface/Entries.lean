import Bindery.Interface.Members
import Bindery.Proofs.Except

/-!
What an interface is built of. It grows by members, by methods that are not left out and by the
declarations of the policy. Whatever these parts keep (`ClassTarget.Carries`), or the steps that
they are made of (`ClassTarget.Keeps`), holds of every interface that a declaration gives
(`View.holds_of_carries`). So nothing of it is dropped yet, and each method is entered under its own
signature, as the policy of the class sees it (`View.builds_interfaceOf`).
-/

set_option autoImplicit false
set_option relaxedAutoImplicit false

namespace Bindery

/-- A method is found when it is entered, or was found before. -/
theorem ClassInterface.method?_enter {i : ClassInterface} {entered e : RegisteredMethod}
    {signature : String} (h : (i.enter entered).method? signature = some e) :
    (signature = entered.method.signature ∧ e = entered) ∨ i.method? signature = some e := by
  change (i.methods.set entered.method.signature entered).find? signature = some e at h
  by_cases hsignature : signature = entered.method.signature
  · subst hsignature
    rw [Table.set, Table.find?_alter_self] at h
    exact .inl ⟨rfl, (Option.some.inj h).symm⟩
  · rw [Table.set, Table.find?_alter_of_ne _ hsignature] at h
    exact .inr h

namespace ClassTarget

/-! ### Which methods of a chain are shown -/

section Shown

variable {target : ClassTarget} {visibility : Protection} {info : Info} {chain : Overloads}
  {m : Method}

theorem isShown_iff : isShown visibility info = true ↔
    info.protection = visibility ∧ info.isActive = true := by
  rw [isShown, Bool.and_eq_true, beq_iff_eq]

theorem isShown_of_mem_shownCtors (h : m ∈ target.shownCtors visibility chain) :
    isShown visibility m.info = true := by
  unfold shownCtors at h
  split at h
  · exact (List.mem_filter.1 h).2
  · exact (List.not_mem_nil h).elim

theorem isShown_of_mem_shownMethods (h : m ∈ shownMethods visibility chain) :
    isShown visibility m.info = true :=
  (Bool.and_eq_true _ _ ▸ (List.mem_filter.1 h).2).1

theorem mem_shownDtors : m ∈ target.shownDtors visibility chain ↔
    (chain.info.protection = visibility ∧ chain.name = "~" ++ target.className) ∧
      m = chain.first := by
  unfold shownDtors
  split
  · rename_i hname
    rw [Bool.and_eq_true, beq_iff_eq, beq_iff_eq] at hname
    rw [List.mem_singleton, and_iff_right hname]
  · rename_i hname
    rw [Bool.and_eq_true, beq_iff_eq, beq_iff_eq] at hname
    exact iff_of_false List.not_mem_nil fun h ↦ hname h.1

end Shown

/-- The steps that build an interface for a target keep a property: adding a member, entering a
method that is active, and entering a declaration of the policy. -/
structure Keeps (target : ClassTarget) (P : ClassInterface → Prop) : Prop where
  addMember : ∀ {i}, P i → ∀ visibility member, P (i.addMember visibility member)
  enter : ∀ {i}, P i → ∀ m : Method, m.info.isActive = true → P (i.enter (target.entry m false))
  extend : ∀ {i}, P i → ∀ m, P (i.enter (target.entry m true))

/-- The parts that an interface is built of keep a property: a member, a method that is active if it
is entered, and a declaration of the policy. -/
structure Carries (target : ClassTarget) (P : ClassInterface → Prop) : Prop where
  addMember : ∀ {i}, P i → ∀ visibility member, P (i.addMember visibility member)
  addMethod : ∀ {i}, P i → ∀ m : Method, (isEntered m = true → m.info.isActive = true) →
    P (target.addMethod i m)
  addCustom : ∀ {i j}, P i → ∀ visibility decl, target.addCustom visibility i decl = .ok j → P j

section Carries

variable {target : ClassTarget} {P : ClassInterface → Prop} {i j : ClassInterface}
  {builder built : ClassBuilder}

/-! ### Methods and declarations of the policy -/

/-- Steps that keep a property make up parts that do. -/
theorem Keeps.carries (hkeeps : target.Keeps P) : target.Carries P where
  addMember := hkeeps.addMember
  addMethod h m hactive := by
    unfold ClassTarget.addMethod
    split
    · rename_i hentered
      exact hkeeps.enter (hkeeps.addMember h _ _) m (hactive hentered)
    · exact hkeeps.addMember h _ _
  addCustom h visibility decl hj := by
    simp only [ClassTarget.addCustom] at hj
    split at hj
    · obtain ⟨prototype, -, hj⟩ := bind_eq_ok.1 hj
      cases hj
      exact hkeeps.extend (hkeeps.addMember h _ _) _
    · cases hj
      exact hkeeps.addMember h _ _

theorem Carries.addMethods (hcarries : target.Carries P) (h : P i) {methods : List Method}
    (hactive : ∀ m ∈ methods, isEntered m = true → m.info.isActive = true) :
    P (methods.foldl target.addMethod i) :=
  List.foldlRecOn methods target.addMethod h fun _ hi m hm ↦ hcarries.addMethod hi m (hactive m hm)

theorem Carries.addCustoms (hcarries : target.Carries P) (h : P i) {visibility : Protection}
    {decls : List String} (hj : decls.foldlM (target.addCustom visibility) i = .ok j) : P j := by
  induction decls generalizing i with
  | nil =>
    cases hj
    exact h
  | cons decl decls ih =>
    rw [List.foldlM_cons] at hj
    obtain ⟨next, hnext, hj⟩ := bind_eq_ok.1 hj
    exact ih (hcarries.addCustom h _ _ hnext) hj

/-! ### Members, classes and sections -/

theorem Carries.addOrdinary (hcarries : target.Carries P) (h : P builder.interface) {m : Method}
    (hactive : m.info.isActive = true) : P (target.addOrdinary builder m).interface := by
  unfold ClassTarget.addOrdinary
  split
  · exact h
  · exact hcarries.addMethod h m fun _ ↦ hactive

theorem Carries.addChain (hcarries : target.Carries P) (h : P builder.interface)
    (visibility : Protection) (chain : Overloads) :
    P (target.addChain visibility builder chain).interface := by
  unfold ClassTarget.addChain
  split
  · exact hcarries.addMethods h fun m hm _ ↦ (isShown_iff.1 (isShown_of_mem_shownCtors hm)).2
  · split
    · -- A destructor can be inactive, but it is not entered.
      rename_i hdtor
      refine hcarries.addMethods h fun m hm hentered ↦ ?_
      obtain ⟨-, rfl⟩ := mem_shownDtors.1 hm
      simp [isEntered, Method.isOrdinary, hdtor] at hentered
    · exact List.foldlRecOn (motive := fun builder : ClassBuilder ↦ P builder.interface) _ _ h
        fun _ hbuilder m hm ↦
          hcarries.addOrdinary hbuilder (isShown_iff.1 (isShown_of_mem_shownMethods hm)).2

theorem Carries.addShown (hcarries : target.Carries P) (h : P builder.interface)
    (visibility : Protection) (info : Info) (member : InterfaceMember) :
    P (addShown visibility builder info member).interface := by
  unfold ClassTarget.addShown
  split
  · exact hcarries.addMember h _ _
  · exact h

theorem Carries.addClassMember (hcarries : target.Carries P) (h : P builder.interface)
    (visibility : Protection) (member : Member) :
    P (target.addMember visibility builder member).interface := by
  cases member with
  | method chain => exact hcarries.addChain h visibility chain
  | «variable» v => exact hcarries.addShown h visibility v.info _
  | enum e =>
    simp only [ClassTarget.addMember]
    split
    · exact hcarries.addShown h visibility e.info _
    · exact h
  | inner c => exact h

theorem Carries.addMembers (hcarries : target.Carries P) (h : P builder.interface)
    (visibility : Protection) (c : Class) :
    P (target.addMembers visibility builder c).interface :=
  List.foldlRecOn (motive := fun builder : ClassBuilder ↦ P builder.interface) _ _ h
    fun _ hbuilder member _ ↦ hcarries.addClassMember hbuilder visibility member

theorem Carries.addSection (hcarries : target.Carries P) (h : P builder.interface)
    {visibility : Protection} {classes : List Class} {decls : List String}
    (hbuilt : target.addSection visibility builder classes decls = .ok built) :
    P built.interface := by
  obtain ⟨interface, hdecls, hbuilt⟩ := bind_eq_ok.1 hbuilt
  cases hbuilt
  have hmembers : P (classes.foldl (target.addMembers visibility) builder).interface :=
    List.foldlRecOn (motive := fun builder : ClassBuilder ↦ P builder.interface) _ _ h
      fun _ hbuilder c _ ↦ hcarries.addMembers hbuilder visibility c
  exact hcarries.addCustoms hmembers hdecls

end Carries

/-- An interface that is built for a target, and not checked yet. -/
structure Builds (target : ClassTarget) (i : ClassInterface) : Prop where
  dropped : i.dropped = []
  entries : ∀ signature e, i.method? signature = some e →
    e.method.signature = signature ∧ e = target.entry e.method e.extension

theorem Builds.enter {target : ClassTarget} {i : ClassInterface} (h : target.Builds i) (m : Method)
    (extension : Bool) : target.Builds (i.enter (target.entry m extension)) := by
  refine ⟨h.dropped, fun signature e hentry ↦ ?_⟩
  rcases ClassInterface.method?_enter hentry with ⟨rfl, rfl⟩ | hold
  · exact ⟨rfl, rfl⟩
  · exact h.entries signature e hold

theorem keeps_builds (target : ClassTarget) : target.Keeps target.Builds where
  addMember h visibility _ := by
    cases visibility with
    | publicAccess => exact ⟨h.dropped, h.entries⟩
    | protectedAccess => exact ⟨h.dropped, h.entries⟩
  enter h m _ := h.enter m false
  extend h m := h.enter m true

end ClassTarget

namespace View

variable {view : View} {c : Class} {i : ClassInterface}

/-- What the parts of an interface keep holds of the interface of a class. -/
theorem holds_of_carries {P : ClassInterface → Prop} (hcarries : (view.target c).Carries P)
    (hstart : ∀ members, P { publicMembers := members }) (h : view.interfaceOf c = .ok i) :
    P i := by
  obtain ⟨folded, -, h⟩ := bind_eq_ok.1 h
  obtain ⟨builder, hpublic, h⟩ := bind_eq_ok.1 h
  have hbuilder : P builder.interface := hcarries.addSection (hstart _) hpublic
  split at h
  · obtain ⟨built, hprotected, h⟩ := bind_eq_ok.1 h
    cases h
    exact hcarries.addSection hbuilder hprotected
  · cases h
    exact hbuilder

theorem holds_of_keeps {P : ClassInterface → Prop} (hkeeps : (view.target c).Keeps P)
    (hstart : ∀ members, P { publicMembers := members }) (h : view.interfaceOf c = .ok i) :
    P i :=
  holds_of_carries hkeeps.carries hstart h

/-- The interface of a class drops nothing, and enters each method as its policy sees it. -/
theorem builds_interfaceOf (h : view.interfaceOf c = .ok i) : (view.target c).Builds i := by
  refine holds_of_keeps (ClassTarget.keeps_builds _) (fun members ↦ ?_) h
  refine ⟨rfl, fun signature e hentry ↦ ?_⟩
  cases hentry

end View

end Bindery
