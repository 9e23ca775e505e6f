import Bindery.Proofs.Decl.Chains

/-!
Gathering chains. Chains may be gathered that hold several methods each, in any order and also of
several keys. The chains that come out have different keys, in the order in which these occur first,
and reading the chain of a key is reading all chains of that key one after the other
(`gather_groups`). The invariant is `Groups`: each chain that is added changes what is read under
its own key only, since no two gathered chains share a key.
-/

set_option autoImplicit false
set_option relaxedAutoImplicit false

namespace Bindery.Overloads

/-- The keys of the methods that lead some chains. -/
def keys (chains : List Overloads) : List (String × Bool) := chains.map (·.first.key)

/-- The methods of all chains with a key, each method with its overloads behind it. -/
def methodsOf (key : String × Bool) (chains : List Overloads) : List Method :=
  (chains.filter (·.first.key == key)).flatMap all

section Reading

variable {key : String × Bool} {chain : Overloads} {chains more before after : List Overloads}

theorem keys_append : keys (chains ++ more) = keys chains ++ keys more := List.map_append

theorem methodsOf_append :
    methodsOf key (chains ++ more) = methodsOf key chains ++ methodsOf key more := by
  rw [methodsOf, List.filter_append, List.flatMap_append]
  rfl

theorem methodsOf_cons : methodsOf key (chain :: chains) =
    (if chain.first.key = key then chain.all else []) ++ methodsOf key chains := by
  by_cases hkey : chain.first.key = key <;> simp [methodsOf, hkey]

theorem methodsOf_of_not_mem (h : key ∉ keys chains) : methodsOf key chains = [] := by
  have hnone : chains.filter (·.first.key == key) = [] :=
    List.filter_eq_nil_iff.2 fun chain hchain hkey ↦
      h (eq_of_beq hkey ▸ List.mem_map_of_mem hchain)
  rw [methodsOf, hnone, List.flatMap_nil]

theorem not_mem_keys_of_nodup (h : (keys (before ++ chain :: after)).Nodup) :
    chain.first.key ∉ keys before ∧ chain.first.key ∉ keys after := by
  rw [keys_append, keys, keys, List.map_cons, List.nodup_middle, List.nodup_cons, List.mem_append,
    not_or] at h
  exact h.1

/-- Where no two chains share a key, what is read under the key of a chain is this chain. -/
theorem methodsOf_of_nodup (hdistinct : (keys chains).Nodup) (hchain : chain ∈ chains) :
    methodsOf chain.first.key chains = chain.all := by
  obtain ⟨before, after, rfl⟩ := List.append_of_mem hchain
  obtain ⟨hbefore, hafter⟩ := not_mem_keys_of_nodup hdistinct
  rw [methodsOf_append, methodsOf_of_not_mem hbefore, methodsOf_cons, if_pos rfl,
    methodsOf_of_not_mem hafter, List.nil_append, List.append_nil]

end Reading

/-! ### Adding chains one by one -/

/-- What holds of the chains that have been gathered from the declared ones. -/
structure Groups (declared chains : List Overloads) : Prop where
  distinct : (keys chains).Nodup
  keys_eq : keys chains = (keys declared).eraseDups
  methodsOf_eq : ∀ key, methodsOf key chains = methodsOf key declared
  perm : (chains.flatMap all).Perm (declared.flatMap all)

section Gather

variable {declared chains before after : List Overloads} {chain more : Overloads}

theorem eraseDups_concat_of_mem {α : Type} [BEq α] [LawfulBEq α] {as : List α} {a : α}
    (h : a ∈ as) : (as ++ [a]).eraseDups = as.eraseDups := by
  rw [List.eraseDups_append]
  simp [List.removeAll, h]

theorem eraseDups_concat_of_not_mem {α : Type} [BEq α] [LawfulBEq α] {as : List α} {a : α}
    (h : a ∉ as) : (as ++ [a]).eraseDups = as.eraseDups ++ [a] := by
  rw [List.eraseDups_append]
  simp [List.removeAll, h, List.eraseDups_cons]

namespace Groups

theorem empty : Groups [] [] where
  distinct := List.nodup_nil
  keys_eq := rfl
  methodsOf_eq _ := rfl
  perm := .nil

theorem mem_keys_iff (h : Groups declared chains) {key : String × Bool} :
    key ∈ keys chains ↔ key ∈ keys declared := by
  rw [h.keys_eq, List.mem_eraseDups]

/-- A chain joins the one that has its key. What is read under this key gets longer at the end, as
no other chain has it. -/
theorem extend (h : Groups declared (before ++ chain :: after))
    (hkey : chain.first.key = more.first.key) :
    Groups (declared ++ [more]) (before ++ chain.append more :: after) := by
  have hkeys : keys (before ++ chain.append more :: after) = keys (before ++ chain :: after) := by
    simp [keys, append]
  have hmem : more.first.key ∈ keys declared := h.mem_keys_iff.1 (by simp [keys, hkey])
  refine ⟨hkeys ▸ h.distinct, ?_, fun key ↦ ?_, ?_⟩
  · rw [hkeys, h.keys_eq, keys_append]
    exact (eraseDups_concat_of_mem hmem).symm
  · have hmore : methodsOf key (declared ++ [more]) =
        methodsOf key declared ++ methodsOf key [more] := methodsOf_append
    rw [hmore, ← h.methodsOf_eq, methodsOf_append, methodsOf_append, methodsOf_cons,
      methodsOf_cons, methodsOf_cons, ← hkey]
    by_cases hsame : chain.first.key = key
    · have hafter : key ∉ keys after := hsame ▸ (not_mem_keys_of_nodup h.distinct).2
      have hfirst : (chain.append more).first.key = key := hsame
      rw [if_pos hsame, if_pos hfirst, methodsOf_of_not_mem hafter, all_append]
      simp [methodsOf, hsame]
    · have hfirst : (chain.append more).first.key ≠ key := hsame
      rw [if_neg hsame, if_neg hfirst]
      simp [methodsOf, hsame]
  · have hperm := h.perm.append_right more.all
    simp only [List.flatMap_append, List.flatMap_cons, List.flatMap_nil, List.append_nil,
      all_append, List.append_assoc] at hperm ⊢
    exact .trans (.append_left _ (.append_left _ List.perm_append_comm)) hperm

/-- A chain whose key is new comes last. -/
theorem concat (h : Groups declared chains) (hnew : more.first.key ∉ keys chains) :
    Groups (declared ++ [more]) (chains ++ [more]) := by
  refine ⟨?_, ?_, fun key ↦ ?_, ?_⟩
  · rw [keys_append]
    exact List.nodup_append'.2 ⟨h.distinct, List.nodup_singleton _,
      List.disjoint_singleton.2 hnew⟩
  · rw [keys_append, keys_append, h.keys_eq]
    exact (eraseDups_concat_of_not_mem (h.mem_keys_iff.not.1 hnew)).symm
  · rw [methodsOf_append, methodsOf_append, h.methodsOf_eq]
  · rw [List.flatMap_append, List.flatMap_append]
    exact h.perm.append_right _

theorem insert (h : Groups declared chains) (more : Overloads) :
    Groups (declared ++ [more]) (Overloads.insert chains more) := by
  rcases insert_cases chains more with
    ⟨before, chain, after, rfl, hkey, heq⟩ | ⟨hnew, heq⟩ <;> rw [heq]
  · exact h.extend hkey
  · refine h.concat fun hmem ↦ ?_
    obtain ⟨chain, hchain, hsame⟩ := List.mem_map.1 hmem
    exact hnew chain hchain hsame

end Groups

theorem groups_gather (declared : List Overloads) : Groups declared (gather declared) := by
  induction declared using List.reverseRecOn with
  | nil => exact .empty
  | append_singleton declared more ih =>
    rw [gather, List.foldl_append]
    exact ih.insert more

/-- Chains with different keys are left as they are. -/
theorem gather_of_nodup (h : (keys chains).Nodup) : gather chains = chains := by
  induction chains using List.reverseRecOn with
  | nil => rfl
  | append_singleton chains more ih =>
    rw [keys_append] at h
    obtain ⟨hchains, -, hnew⟩ := List.nodup_append'.1 h
    rw [gather, List.foldl_append, ← gather, ih hchains]
    rcases insert_cases chains more with ⟨before, chain, after, rfl, hkey, -⟩ | ⟨-, heq⟩
    · exact (hnew (by simp [keys, hkey]) List.mem_cons_self).elim
    · exact heq

end Gather

/-- Gathered chains have different keys, in the order in which the keys occur first. The chain of a
key holds, in their order, all methods with that key and behind each of them its overloads, so that
every method is kept once. Gathering again changes nothing. -/
theorem gather_groups (chains : List Overloads) :
    (keys (gather chains)).Nodup ∧
    keys (gather chains) = (keys chains).eraseDups ∧
    (∀ chain ∈ gather chains, chain.all = methodsOf chain.first.key chains) ∧
    (∀ key, methodsOf key (gather chains) = methodsOf key chains) ∧
    ((gather chains).flatMap all).Perm (chains.flatMap all) ∧
    gather (gather chains) = gather chains := by
  have h := groups_gather chains
  refine ⟨h.distinct, h.keys_eq, fun chain hchain ↦ ?_, h.methodsOf_eq, h.perm,
    gather_of_nodup h.distinct⟩
  rw [← h.methodsOf_eq, methodsOf_of_nodup h.distinct hchain]

/-! A class turns once, by steps or back. A constructor of that name comes in between, and the last
chain holds a method of another name. -/

namespace Turns

def once : Method := Method.named "Turn"

def bySteps : Method := { Method.named "Turn" with params := [{ type := "int", name := "steps" }] }

def back : Method := { Method.named "Turn" with isConst := true }

def stop : Method := Method.named "Stop"

def chains : List Overloads := [⟨once, [bySteps]⟩, ⟨Method.ctorOf "Turn", []⟩, ⟨back, [stop]⟩]

end Turns

open Turns in
/-- What turns is gathered in one chain, with the other method behind it, and constructors in one of
their own. -/
theorem turns_gathered :
    keys (gather Turns.chains) = [("Turn", false), ("Turn", true)] ∧
    (∀ chain ∈ gather Turns.chains, chain.first.key = ("Turn", false) →
      chain.all = [once, bySteps, back, stop]) ∧
    gather (gather Turns.chains) = gather Turns.chains := by
  obtain ⟨-, hkeys, hall, -, -, hagain⟩ := gather_groups Turns.chains
  have hfirsts : (keys Turns.chains).eraseDups = [("Turn", false), ("Turn", true)] := by
    decide +kernel
  have hturns : methodsOf ("Turn", false) Turns.chains = [once, bySteps, back, stop] := by
    decide +kernel
  refine ⟨hkeys.trans hfirsts, fun chain hchain hkey ↦ ?_, hagain⟩
  rw [hall chain hchain, hkey, hturns]

end Bindery.Overloads
