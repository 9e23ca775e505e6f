import Bindery.Interface.Check

/-!
The nearest base decides. Bases are compared one after the other, and each leaves out the signatures
that an earlier one has. Read as a function of the methods that classes register (`decided`), this
finds something about a signature just when the first base that has it differs there from the class
(`mem_decided_iff`). No signature is found twice (`nodup_decided`), and the findings follow the
order of the bases and of their methods (`sublist_decided`).

When two methods differ is stated by cases (`Conflict.Holds`), which the check computes
(`Conflict.between?_eq_some_iff`).
-/

set_option autoImplicit false
set_option relaxedAutoImplicit false

namespace Bindery

/-! ### When a class differs from a base -/

namespace Conflict

/-- How a class differs from a base on a method, given the entry of the class, if it has one, and
the entry of the base. -/
inductive Holds (policy : Policy) (className : String) :
    Option RegisteredMethod → RegisteredMethod → Conflict → Prop
  /-- The base keeps a virtual method closed. The class does not register it, and the policy opens
  it there. -/
  | opened {base : RegisteredMethod} :
    base.isVirtual = true → base.proxy = false →
      policy.hasMethodProxy className base.method = true → Holds policy className none base .opened
  /-- The base keeps a virtual method closed. The class registers a declared method in its place,
  which the policy keeps closed too. -/
  | needless {own base : RegisteredMethod} :
    base.isVirtual = true → base.proxy = false → own.extension = false →
      policy.hasMethodProxy className own.method = false →
        Holds policy className (some own) base .needless
  /-- The base keeps a virtual method open. The class registers it too, and the policy closes the
  method of the base there. -/
  | closed {own base : RegisteredMethod} :
    base.isVirtual = true → base.proxy = true →
      policy.hasMethodProxy className base.method = false →
        Holds policy className (some own) base .closed

theorem between?_eq_some_iff {policy : Policy} {className : String} {own : Option RegisteredMethod}
    {base : RegisteredMethod} {conflict : Conflict} :
    between? policy className own base = some conflict ↔
      Holds policy className own base conflict := by
  constructor
  · intro h
    simp only [between?] at h
    split at h
    · cases h
    · rename_i hvirtual
      have hvirtual : base.isVirtual = true := by simpa using hvirtual
      split at h
      · rename_i hproxy
        cases own with
        | none => simp at h
        | some own =>
          simp only [Option.isSome_some, Bool.true_and, Bool.not_eq_eq_eq_not, Bool.not_true,
            Option.ite_none_right_eq_some, Option.some.injEq] at h
          obtain ⟨hclosed, rfl⟩ := h
          exact .closed hvirtual hproxy hclosed
      · rename_i hproxy
        have hproxy : base.proxy = false := by simpa using hproxy
        cases own with
        | none =>
          simp only [Option.ite_none_right_eq_some, Option.some.injEq] at h
          obtain ⟨hopen, rfl⟩ := h
          exact .opened hvirtual hproxy hopen
        | some own =>
          simp only [Bool.and_eq_true, Bool.not_eq_eq_eq_not, Bool.not_true,
            Option.ite_none_right_eq_some, Option.some.injEq] at h
          obtain ⟨⟨hdeclared, hclosed⟩, rfl⟩ := h
          exact .needless hvirtual hproxy hdeclared hclosed
  · intro h
    cases h with
    | opened hvirtual hproxy hopen => simp [between?, hvirtual, hproxy, hopen]
    | needless hvirtual hproxy hdeclared hclosed =>
      simp [between?, hvirtual, hproxy, hdeclared, hclosed]
    | closed hvirtual hproxy hclosed => simp [between?, hvirtual, hproxy, hclosed]

end Conflict

/-! ### The nearest base -/

/-- The first of some bases that has a signature, with its method. -/
def nearest? (methodsOf : String → Table String RegisteredMethod) (signature : String)
    (bases : List String) : Option (String × RegisteredMethod) :=
  bases.findSome? fun base ↦ ((methodsOf base).find? signature).map fun entry ↦ (base, entry)

theorem nearest?_cons (methodsOf : String → Table String RegisteredMethod) (signature base : String)
    (bases : List String) :
    nearest? methodsOf signature (base :: bases) =
      match (methodsOf base).find? signature with
      | some entry => some (base, entry)
      | none => nearest? methodsOf signature bases := by
  simp only [nearest?, List.findSome?_cons]
  cases (methodsOf base).find? signature <;> rfl

namespace Finding

/-! ### Findings of one base -/

theorem mem_undecided_iff {handled : List String} {methods : Table String RegisteredMethod}
    {signature : String} {entry : RegisteredMethod} :
    (signature, entry) ∈ undecided handled methods ↔
      (signature, entry) ∈ methods ∧ signature ∉ handled := by
  simp [undecided]

theorem keys_undecided_sublist (handled : List String) (methods : Table String RegisteredMethod) :
    (undecided handled methods).keys.Sublist methods.keys :=
  List.filter_sublist.map Prod.fst

theorem mem_keys_undecided {handled : List String} {methods : Table String RegisteredMethod}
    {signature : String} :
    signature ∈ (undecided handled methods).keys ↔
      signature ∈ methods.keys ∧ signature ∉ handled := by
  simp [Table.keys, undecided]

/-- Findings about the methods of a base name these methods, in their order. -/
theorem signatures_ofMethods_sublist (policy : Policy) (className : String)
    (own : Table String RegisteredMethod) (base : String)
    (methods : Table String RegisteredMethod) :
    ((ofMethods policy className own base methods).map signature).Sublist methods.keys := by
  induction methods with
  | nil => exact List.Sublist.refl []
  | cons entry methods ih =>
    obtain ⟨signature, entry⟩ := entry
    simp only [ofMethods, List.filterMap_cons]
    cases Conflict.between? policy className (own.find? signature) entry with
    | none => exact List.Sublist.cons signature ih
    | some conflict => exact List.Sublist.cons_cons signature ih

theorem base_of_mem_ofMethods {policy : Policy} {className : String}
    {own : Table String RegisteredMethod} {base : String}
    {methods : Table String RegisteredMethod} {finding : Finding}
    (h : finding ∈ ofMethods policy className own base methods) : finding.base = base := by
  obtain ⟨entry, -, hentry⟩ := List.mem_filterMap.1 h
  obtain ⟨conflict, -, rfl⟩ := Option.map_eq_some_iff.1 hentry
  rfl

theorem mem_ofMethods_iff {policy : Policy} {className : String}
    {own : Table String RegisteredMethod} {base : String}
    {methods : Table String RegisteredMethod} {finding : Finding} :
    finding ∈ ofMethods policy className own base methods ↔
      finding.className = className ∧ finding.base = base ∧
        ∃ entry, (finding.signature, entry) ∈ methods ∧
          Conflict.Holds policy className (own.find? finding.signature) entry
            finding.conflict := by
  constructor
  · intro h
    obtain ⟨⟨signature, entry⟩, hmem, hentry⟩ := List.mem_filterMap.1 h
    obtain ⟨conflict, hconflict, rfl⟩ := Option.map_eq_some_iff.1 hentry
    exact ⟨rfl, rfl, entry, hmem, Conflict.between?_eq_some_iff.1 hconflict⟩
  · obtain ⟨conflict, signature, name, other⟩ := finding
    rintro ⟨rfl, rfl, entry, hmem, hconflict⟩
    exact List.mem_filterMap.2 ⟨(signature, entry), hmem,
      Option.map_eq_some_iff.2 ⟨conflict, Conflict.between?_eq_some_iff.2 hconflict, rfl⟩⟩

/-! ### Findings of all bases -/

/-- The findings about a class, from its own methods and those of its bases, nearest first. The
signatures in `handled` are decided already. -/
def decided (policy : Policy) (className : String) (own : Table String RegisteredMethod)
    (methodsOf : String → Table String RegisteredMethod) (handled : List String) :
    List String → List Finding
  | [] => []
  | base :: bases =>
    let methods := undecided handled (methodsOf base)
    ofMethods policy className own base methods ++
      decided policy className own methodsOf (handled ++ methods.keys) bases

/-- Only the methods of the bases matter. -/
theorem decided_congr {policy : Policy} {className : String} {own : Table String RegisteredMethod}
    {methodsOf other : String → Table String RegisteredMethod} {bases : List String}
    (h : ∀ base ∈ bases, methodsOf base = other base) (handled : List String) :
    decided policy className own methodsOf handled bases =
      decided policy className own other handled bases := by
  induction bases generalizing handled with
  | nil => rfl
  | cons base bases ih =>
    obtain ⟨hbase, hrest⟩ := List.forall_mem_cons.1 h
    rw [decided, decided, hbase, ih hrest]

section Decided

variable {policy : Policy} {className : String} {own : Table String RegisteredMethod}
  {methodsOf : String → Table String RegisteredMethod}

/-- A finding is about the nearest base that has its signature, and there is one for each such base
that differs from the class. -/
theorem mem_decided_iff (hkeys : ∀ base, (methodsOf base).keys.Nodup) {handled bases : List String}
    {finding : Finding} :
    finding ∈ decided policy className own methodsOf handled bases ↔
      finding.className = className ∧ finding.signature ∉ handled ∧
        ∃ entry, nearest? methodsOf finding.signature bases = some (finding.base, entry) ∧
          Conflict.Holds policy className (own.find? finding.signature) entry
            finding.conflict := by
  induction bases generalizing handled with
  | nil => simp [decided, nearest?]
  | cons base bases ih =>
    simp only [decided, List.mem_append, mem_ofMethods_iff, ih, mem_undecided_iff,
      mem_keys_undecided, nearest?_cons, not_or]
    -- the base decides the signature, or it leaves it to the bases behind it
    cases hfind : (methodsOf base).find? finding.signature with
    | some entry =>
      have hmem : (finding.signature, entry) ∈ methodsOf base := Table.mem_of_find? hfind
      have hkey : finding.signature ∈ (methodsOf base).keys := by
        rw [Table.mem_keys_iff, hfind]
        rfl
      constructor
      · rintro (⟨hname, hbase, other, ⟨hother, hfresh⟩, hconflict⟩ | ⟨-, ⟨hfresh, hnew⟩, -⟩)
        · have heq : some entry = some other :=
            hfind.symm.trans ((Table.find?_eq_some_iff (hkeys base) _ _).2 hother)
          cases heq
          exact ⟨hname, hfresh, entry, by rw [hbase], hconflict⟩
        · exact (hnew ⟨hkey, hfresh⟩).elim
      · rintro ⟨hname, hfresh, other, heq, hconflict⟩
        cases heq
        exact .inl ⟨hname, rfl, entry, ⟨hmem, hfresh⟩, hconflict⟩
    | none =>
      have hkey : finding.signature ∉ (methodsOf base).keys := by
        rw [Table.mem_keys_iff, hfind]
        exact Bool.false_ne_true
      constructor
      · rintro (⟨-, -, other, ⟨hother, -⟩, -⟩ | ⟨hname, ⟨hfresh, -⟩, hrest⟩)
        · exact (hkey (List.mem_map_of_mem (f := Prod.fst) hother)).elim
        · exact ⟨hname, hfresh, hrest⟩
      · rintro ⟨hname, hfresh, hrest⟩
        exact .inr ⟨hname, ⟨hfresh, fun h ↦ hkey h.1⟩, hrest⟩

/-- No signature is decided twice, also when a base is reached on several paths. -/
theorem nodup_decided (hkeys : ∀ base, (methodsOf base).keys.Nodup) (handled bases : List String) :
    ((decided policy className own methodsOf handled bases).map signature).Nodup := by
  induction bases generalizing handled with
  | nil => exact List.nodup_nil
  | cons base bases ih =>
    rw [decided, List.map_append, List.nodup_append]
    have hfirst := signatures_ofMethods_sublist policy className own base
      (undecided handled (methodsOf base))
    refine ⟨?_, ih _, ?_⟩
    · exact ((hkeys base).sublist (keys_undecided_sublist handled _)).sublist hfirst
    · intro signature hfound other hlater heq
      obtain ⟨finding, hmem, rfl⟩ := List.mem_map.1 hlater
      obtain ⟨-, hfresh, -⟩ := (mem_decided_iff hkeys).1 hmem
      exact hfresh (List.mem_append_right _ (heq ▸ hfirst.subset hfound))

/-- The findings come in the order of the bases, and for each base in the order of its methods. -/
theorem sublist_decided (handled bases : List String) :
    ((decided policy className own methodsOf handled bases).map fun finding ↦
      (finding.base, finding.signature)).Sublist
        (bases.flatMap fun base ↦ (methodsOf base).keys.map fun signature ↦ (base, signature)) := by
  induction bases generalizing handled with
  | nil => exact List.Sublist.refl []
  | cons base bases ih =>
    rw [decided, List.map_append, List.flatMap_cons]
    refine List.Sublist.append ?_ (ih _)
    have hpairs : (ofMethods policy className own base (undecided handled (methodsOf base))).map
        (fun finding ↦ (finding.base, finding.signature)) =
        ((ofMethods policy className own base (undecided handled (methodsOf base))).map
          signature).map (fun signature ↦ (base, signature)) := by
      rw [List.map_map]
      refine List.map_congr_left fun finding hmem ↦ ?_
      rw [base_of_mem_ofMethods hmem]
      rfl
    rw [hpairs]
    exact ((signatures_ofMethods_sublist policy className own base _).trans
      (keys_undecided_sublist handled _)).map _

end Decided

end Finding

end Bindery
