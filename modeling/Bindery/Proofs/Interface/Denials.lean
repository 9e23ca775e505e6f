import Bindery.Emit.Interface
import Bindery.Proofs.Decl.MethodAddresses
import Bindery.Proofs.Interface.Consistency

/-!
Names that the policy keeps from being overridden. The interface file has a line for each of them as
it is written, but whether a method can be overridden is decided by comparing texts: a name denies
the methods that it names behind the class or behind the class that declares them, and all other
methods are as if it was not there (`Policy.hasMethodProxy_eq`). So an address that leads to a
method with all its overloads denies them, if it is written without blanks. But an address that
selects one overload denies none, not even the one that it selects (`View.denied_by_written_name`).
-/

set_option autoImplicit false
set_option relaxedAutoImplicit false

namespace Bindery

/-! ### What a name denies -/

/-- Whether a name is that of a method behind a class or behind the class that declares it. -/
def Method.isNamedBy (m : Method) (className name : String) : Bool :=
  name == className ++ "::" ++ m.name || m.className.any fun owner ↦ name == owner ++ "::" ++ m.name

/-- The policy without a name that it keeps from being overridden. -/
def Policy.allowing (policy : Policy) (name : String) : Policy :=
  { policy with noProxies := policy.noProxies.filter (· != name) }

/-- A name denies the methods that it is the name of, and no others. -/
theorem Policy.hasMethodProxy_eq {policy : Policy} {name : String} (hname : name ∈ policy.noProxies)
    (className : String) (m : Method) : policy.hasMethodProxy className m =
      ((policy.allowing name).hasMethodProxy className m && !m.isNamedBy className name) := by
  have hmem (text : String) :
      text ∉ policy.noProxies ↔ text ∉ (policy.allowing name).noProxies ∧ name ≠ text := by
    rw [allowing, List.mem_filter, bne_iff_ne]
    constructor
    · exact fun h ↦ ⟨fun hkept ↦ h hkept.1, fun heq ↦ h (heq ▸ hname)⟩
    · exact fun h hold ↦ h.1 ⟨hold, h.2.symm⟩
  have hnamed : m.isNamedBy className name = false ↔ name ≠ className ++ "::" ++ m.name ∧
      ∀ owner, m.className = some owner → name ≠ owner ++ "::" ++ m.name := by
    rw [Method.isNamedBy, Bool.or_eq_false_iff, beq_eq_false_iff_ne]
    cases m.className <;> simp
  rw [Bool.eq_iff_iff, Bool.and_eq_true, Bool.not_eq_true', hnamed, hasMethodProxy_eq_true_iff,
    hasMethodProxy_eq_true_iff, hmem]
  constructor
  · rintro ⟨henabled, hvirtual, ⟨hclass, hne⟩, howner⟩
    refine ⟨⟨henabled, hvirtual, hclass, fun owner h ↦ ?_⟩, hne, fun owner h ↦ ?_⟩
    · exact (howner owner h).imp id fun hdenied ↦ ((hmem _).1 hdenied).1
    · rcases howner owner h with rfl | hdenied
      · exact hne
      · exact ((hmem _).1 hdenied).2
  · rintro ⟨⟨henabled, hvirtual, hclass, howner⟩, hne, hothers⟩
    refine ⟨henabled, hvirtual, ⟨hclass, hne⟩, fun owner h ↦ ?_⟩
    exact (howner owner h).imp id fun hdenied ↦ (hmem _).2 ⟨hdenied, hothers owner h⟩

namespace View

/-- A name that the policy keeps from being overridden, and that leads to a method of a class,
stands in the interface file. It denies the methods that it is written as the name of, and no
others. So it denies all overloads if it leads to all of them and has no blanks, and none if it
selects one. -/
theorem denied_by_written_name {view : View} {name : String} {c : Class} {chain : Overloads}
    {overload : Option Nat} {item index : Nat} (hname : name ∈ view.policy.noProxies)
    (hlead : view.module.LeadsTo name c chain overload item index) :
    Emit.noDirectorLine name ∈ Emit.runtimeLines view ∧
      (∀ m, view.policy.hasMethodProxy (view.className c) m =
        ((view.policy.allowing name).hasMethodProxy (view.className c) m &&
          !m.isNamedBy (view.className c) name)) ∧
      ∀ m ∈ chain.all, m.name = chain.name → m.className = some c.name →
        (overload = none → name.toList.any Text.isBlank = false →
          view.policy.hasMethodProxy (view.className c) m = false) ∧
        (overload.isSome = true → '(' ∉ (view.className c).toList →
          view.policy.hasMethodProxy (view.className c) m =
            (view.policy.allowing name).hasMethodProxy (view.className c) m) := by
  obtain ⟨hpath, hargs⟩ := hlead.parse_eq
  have hdenies := Policy.hasMethodProxy_eq hname (view.className c)
  refine ⟨?_, hdenies, fun m _ hchain howner ↦ ⟨fun hnone hblank ↦ ?_, fun hsome hclass ↦ ?_⟩⟩
  · have hline := List.mem_map_of_mem (f := Emit.noDirectorLine) hname
    simp only [Emit.runtimeLines, List.append_assoc, List.mem_append]
    exact .inr (.inl hline)
  · rw [hnone] at hargs
    have hwritten := Query.eq_of_path hargs hblank hpath
    have hnamed : m.isNamedBy (view.className c) name = true := by
      rw [Method.isNamedBy, howner, hchain, hwritten]
      simp
    rw [hdenies, hnamed]
    exact Bool.and_false _
  · obtain ⟨hparen, hsegments⟩ := Query.paren_of_args (hargs.trans hsome)
    rw [hpath] at hsegments
    have hne (owner : String) (howner : '(' ∉ owner.toList) : name ≠ owner ++ "::" ++ m.name := by
      rintro rfl
      have hchainName : '(' ∉ m.name.toList := hchain ▸ hsegments chain.name (by simp)
      simp [howner, hchainName] at hparen
    have hnamed : m.isNamedBy (view.className c) name = false := by
      rw [Method.isNamedBy, howner]
      simp [hne _ hclass, hne _ (hsegments c.name List.mem_cons_self)]
    rw [hdenies, hnamed]
    exact Bool.and_true _

namespace Kites

def fly : Method := { (Method.named "Fly").inClass "Kite" with isVirtual := true }

def flyFor : Method := { fly with params := [{ type := "int" }] }

def land : Method := { (Method.named "Land").inClass "Kite" with isVirtual := true }

def kite : Class where
  info := { name := "Kite" }
  members := [.method ⟨fly, [flyFor]⟩, .method ⟨land, []⟩]

/-- The policy keeps one way of flying and all ways of landing from being overridden. -/
def kites : View where
  policy := { Policy.empty "Kites" "Toys" with noProxies := ["Kite::Fly(int)", "Kite::Land"] }
  module := { name := "Kites", items := [.ofClass kite] }

end Kites

open Kites in
/-- How a kite lands cannot be overridden, but how it flies is as if its name was not there. -/
theorem kite_lands :
    kites.policy.hasMethodProxy "Kite" land = false ∧
      kites.policy.hasMethodProxy "Kite" flyFor =
        (kites.policy.allowing "Kite::Fly(int)").hasMethodProxy "Kite" flyFor := by
  have hland : kites.module.LeadsTo "Kite::Land" kite ⟨land, []⟩ none 0 1 :=
    ⟨by decide +kernel, rfl, rfl⟩
  have hfly : kites.module.LeadsTo "Kite::Fly(int)" kite ⟨fly, [flyFor]⟩ (some 1) 0 0 :=
    ⟨by decide +kernel, rfl, rfl⟩
  obtain ⟨-, -, hlands⟩ := denied_by_written_name (List.mem_cons_of_mem _ List.mem_cons_self) hland
  obtain ⟨-, -, hflies⟩ := denied_by_written_name List.mem_cons_self hfly
  refine ⟨(hlands land List.mem_cons_self rfl rfl).1 rfl (by decide +kernel), ?_⟩
  exact (hflies flyFor (List.mem_cons_of_mem _ List.mem_cons_self) rfl rfl).2 rfl
    (by decide +kernel)

open Kites in
/-- The address of one way of flying leads to it and stands in the interface file, but this way can
be overridden. -/
theorem kite_flies_in_spite_of_name :
    kites.generatedClasses = [kite] ∧ "Kite::Fly(int)" ∈ kites.policy.noProxies ∧
      kites.module.locate? "Kite::Fly(int)" =
        some { item := 0, way := .member 0 .here, overload := some 1 } ∧
      (⟨fly, [flyFor]⟩ : Overloads).all[1]? = some flyFor ∧
      Emit.noDirectorLine "Kite::Fly(int)" ∈ Emit.runtimeLines kites ∧
      kites.policy.hasMethodProxy (kites.className kite) flyFor = true := by
  refine ⟨rfl, List.mem_cons_self, ?_, rfl, List.mem_cons_of_mem _ List.mem_cons_self, ?_⟩ <;>
    decide +kernel

end View

end Bindery
