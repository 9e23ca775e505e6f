import Bindery.Proofs.Decl.TypeTexts
import Bindery.Proofs.Typemap.Records
import Bindery.Typemap.Rules
import Mathlib.Data.List.Forall2

/-!
Return types that rules drop. The first rule that drops types and matches a run of the parameters of
a method decides on its return type (`declaredReturn_of_supply`). A rule is given types to drop in a
call, which takes their normal texts, or with its record, which takes them as they stand, while the
return type of the method is always compared in its normal text. So a type that is spaced otherwise
in a record is never dropped (`getName_kept_by_record`).
-/

set_option autoImplicit false
set_option relaxedAutoImplicit false

namespace Bindery

/-! ### Runs of parameters -/

/-- Whether a parameter is as one part of a pattern says. -/
def ParamPattern.Fits (part : ParamPattern) (p : Param) : Prop :=
  part.type = comparableType p.signatureType ∧ ∀ name ∈ part.name, name = p.name

theorem ParamPattern.isMatch_iff (part : ParamPattern) (p : Param) :
    part.isMatch p = true ↔ part.Fits p := by
  rw [isMatch, Fits, Bool.and_eq_true, beq_iff_eq, Option.all_eq_true]
  simp only [beq_iff_eq, Option.mem_def]

/-- Whether the parts of a pattern say, one by one, how a run of consecutive parameters is. -/
def FitsRun (parts : List ParamPattern) (params : List Param) : Prop :=
  ∃ before run after, params = before ++ run ++ after ∧ List.Forall₂ ParamPattern.Fits parts run

theorem matchesStart_iff {parts : List ParamPattern} {params : List Param} :
    matchesStart parts params = true ↔
      ∃ run after, params = run ++ after ∧ List.Forall₂ ParamPattern.Fits parts run := by
  induction parts generalizing params with
  | nil => exact ⟨fun _ ↦ ⟨[], params, rfl, .nil⟩, fun _ ↦ by rw [matchesStart]⟩
  | cons part parts ih =>
    cases params with
    | nil =>
      constructor
      · intro h
        cases h
      · rintro ⟨run, after, hparams, hrun⟩
        rw [(List.append_eq_nil_iff.1 hparams.symm).1] at hrun
        cases hrun
    | cons p params =>
      rw [matchesStart, Bool.and_eq_true, ih, ParamPattern.isMatch_iff]
      constructor
      · rintro ⟨hp, run, after, rfl, hrun⟩
        exact ⟨p :: run, after, rfl, .cons hp hrun⟩
      · rintro ⟨run, after, hparams, hrun⟩
        obtain ⟨first, rest, hfirst, hrest, rfl⟩ := List.forall₂_cons_left_iff.1 hrun
        obtain ⟨rfl, rfl⟩ := List.cons.inj hparams
        exact ⟨hfirst, rest, after, rfl, hrest⟩

theorem matchesRun_iff {parts : List ParamPattern} {params : List Param} :
    matchesRun parts params = true ↔ FitsRun parts params := by
  induction params with
  | nil =>
    rw [matchesRun, matchesStart_iff]
    constructor
    · rintro ⟨run, after, hparams, hrun⟩
      exact ⟨[], run, after, hparams, hrun⟩
    · rintro ⟨before, run, after, hparams, hrun⟩
      obtain ⟨hfront, rfl⟩ := List.append_eq_nil_iff.1 hparams.symm
      exact ⟨run, [], by rw [(List.append_eq_nil_iff.1 hfront).2]; rfl, hrun⟩
  | cons p params ih =>
    rw [matchesRun, Bool.or_eq_true, matchesStart_iff, ih]
    constructor
    · rintro (⟨run, after, hparams, hrun⟩ | ⟨before, run, after, rfl, hrun⟩)
      · exact ⟨[], run, after, hparams, hrun⟩
      · exact ⟨p :: before, run, after, rfl, hrun⟩
    · rintro ⟨before, run, after, hparams, hrun⟩
      cases before with
      | nil => exact .inl ⟨run, after, hparams, hrun⟩
      | cons first before =>
        exact .inr ⟨before, run, after, (List.cons.inj hparams).2, hrun⟩

/-- Whether one of the patterns of a rule says how a run of the parameters of a method is. -/
def Typemap.Matches (map : Typemap) (m : Method) : Prop :=
  ∃ pattern ∈ map.patterns, FitsRun (parsePattern pattern) m.params

theorem Typemap.matchesMethod_iff {map : Typemap} {m : Method} :
    map.matchesMethod m = true ↔ map.Matches m := by
  rw [matchesMethod, parsedPatterns, List.any_map, List.any_eq_true]
  simp only [Function.comp_apply, matchesRun_iff, Matches]

/-! ### Rules that are given types to drop -/

/-- How a rule is given the types that it drops. -/
inductive Supply
  /-- In a call, on a rule without any. -/
  | call
  /-- With the record that the rule is read from. -/
  | record

/-- A rule, and how it is given the types that it drops. -/
structure SuppliedRule where
  supply : Supply
  origin : Origin
  map : Typemap

namespace SuppliedRule

def rule? (entry : SuppliedRule) : Option Typemap :=
  match entry.supply with
  | .call => some (Typemap.ignoreOut { entry.map with ignoredOut := [] } entry.map.ignoredOut)
  | .record => Typemap.ofJson? entry.map.toJson

/-- Whether a rule drops a type, which is given by its normal text. -/
def Names (entry : SuppliedRule) (type : String) : Prop :=
  match entry.supply with
  | .call => ∃ text ∈ entry.map.ignoredOut, normalizeType text = type
  | .record => type ∈ entry.map.ignoredOut

/-- The same rule, given its types in a call. -/
def inCall (entry : SuppliedRule) : SuppliedRule := { entry with supply := .call }

/-- The first rule that drops types and matches a method. -/
def Decides (entries : List SuppliedRule) (m : Method) (entry : SuppliedRule) : Prop :=
  (entry.map.ignoredOut ≠ [] ∧ entry.map.Matches m) ∧
    ∃ before after, entries = before ++ entry :: after ∧
      ∀ earlier ∈ before, ¬(earlier.map.ignoredOut ≠ [] ∧ earlier.map.Matches m)

/-- Whether the rule that decides on the return type of a method drops it. -/
def Drops (entries : List SuppliedRule) (m : Method) : Prop :=
  ∃ entry, Decides entries m entry ∧ entry.Names (normalizeType m.typeText)

/-- The return type that a method is declared with by rules that are given types to drop. -/
def declaredReturn? (entries : List SuppliedRule) (m : Method) : Option String := do
  let maps ← entries.mapM fun entry ↦ entry.rule?.map (entry.origin, ·)
  return ({ maps } : TypemapRules).declaredReturnType m

/-! ### Supplied rules as rules -/

variable {entries : List SuppliedRule} {m : Method} {type : String}

/-- The rule that an entry gives. -/
def built (entry : SuppliedRule) : Typemap :=
  match entry.supply with
  | .call => { entry.map with ignoredOut := entry.map.ignoredOut.map normalizeType }
  | .record => entry.map.inFieldOrder

theorem rule?_eq (entry : SuppliedRule) : entry.rule? = some entry.built := by
  unfold rule? built
  cases entry.supply with
  | call => rfl
  | record => exact entry.map.ofJson?_toJson

theorem patterns_built (entry : SuppliedRule) : entry.built.patterns = entry.map.patterns := by
  unfold built
  cases entry.supply <;> rfl

theorem hasIgnoredOut_built (entry : SuppliedRule) :
    entry.built.hasIgnoredOut = entry.map.hasIgnoredOut := by
  unfold built
  cases entry.supply with
  | call => exact congrArg (!·) List.isEmpty_map
  | record => rfl

theorem contains_built (entry : SuppliedRule) :
    entry.built.ignoredOut.contains type = true ↔ entry.Names type := by
  rw [List.contains_iff_mem]
  unfold built Names
  cases entry.supply with
  | call => exact List.mem_map
  | record => exact Iff.rfl

theorem matchesMethod_built (entry : SuppliedRule) :
    entry.built.matchesMethod m = entry.map.matchesMethod m := by
  rw [Typemap.matchesMethod, Typemap.parsedPatterns, patterns_built]
  rfl

/-- The rules of a list of entries, in the order in which they are asked. -/
def rules (entries : List SuppliedRule) : TypemapRules :=
  { maps := entries.map fun entry ↦ (entry.origin, entry.built) }

theorem declaredReturn?_eq :
    declaredReturn? entries m = some ((rules entries).declaredReturnType m) := by
  have hmaps : entries.mapM (fun entry ↦ entry.rule?.map (entry.origin, ·)) =
      some (rules entries).maps := by
    refine (mapM_congr_left fun entry _ ↦ ?_).trans List.mapM_pure
    rw [rule?_eq]
    rfl
  rw [declaredReturn?, hmaps]
  rfl

/-- Whether a rule can decide on the return type of a method. -/
def mayDecide (m : Method) (entry : SuppliedRule) : Bool :=
  entry.map.hasIgnoredOut && entry.map.matchesMethod m

theorem mayDecide_iff {entry : SuppliedRule} :
    entry.mayDecide m = true ↔ entry.map.ignoredOut ≠ [] ∧ entry.map.Matches m := by
  rw [mayDecide, Bool.and_eq_true, Typemap.matchesMethod_iff, Typemap.hasIgnoredOut]
  simp

theorem find?_mayDecide {entry : SuppliedRule} :
    entries.find? (mayDecide m) = some entry ↔ Decides entries m entry := by
  rw [List.find?_eq_some_iff_append, Decides]
  simp only [Bool.not_eq_true', ← Bool.not_eq_true, mayDecide_iff]

theorem dropsReturn_rules : (rules entries).dropsReturn m =
    (entries.find? (mayDecide m)).any
      (·.built.ignoredOut.contains (normalizeType m.typeText)) := by
  have hbuilt : (fun map : Typemap ↦
      decide (map.hasIgnoredOut = true ∧ map.matchesMethod m = true)) ∘ built = mayDecide m := by
    funext entry
    simp [mayDecide, hasIgnoredOut_built, matchesMethod_built]
  have hinOrder : (rules entries).inOrder = entries.map built := by
    rw [TypemapRules.inOrder, rules, List.map_map]
    rfl
  rw [TypemapRules.dropsReturn, List.find?_filter, hinOrder, List.find?_map, hbuilt, Option.any_map]

theorem dropsReturn_rules_iff : (rules entries).dropsReturn m = true ↔ Drops entries m := by
  rw [dropsReturn_rules, Option.any_eq_true, Drops]
  simp only [find?_mayDecide, contains_built]

theorem declaredReturn?_of_drops (h : Drops entries m) :
    declaredReturn? entries m = some "void" := by
  rw [declaredReturn?_eq, TypemapRules.declaredReturnType, if_pos (dropsReturn_rules_iff.2 h)]

theorem declaredReturn?_of_not_drops (h : ¬Drops entries m) :
    declaredReturn? entries m = some m.typeText := by
  rw [declaredReturn?_eq, TypemapRules.declaredReturnType, if_neg (mt dropsReturn_rules_iff.1 h)]

/-! ### Calls and records -/

theorem decides_inCall {entry : SuppliedRule} : Decides (entries.map inCall) m entry ↔
    ∃ original, Decides entries m original ∧ original.inCall = entry := by
  have hsame : mayDecide m ∘ inCall = mayDecide m := rfl
  rw [← find?_mayDecide, List.find?_map, hsame, Option.map_eq_some_iff]
  simp only [find?_mayDecide]

/-- A list of entries has one rule at most that decides. -/
theorem Decides.unique {first second : SuppliedRule} (hfirst : Decides entries m first)
    (hsecond : Decides entries m second) : first = second :=
  Option.some.inj ((find?_mayDecide.2 hfirst).symm.trans (find?_mayDecide.2 hsecond))

/-- What a rule drops, it drops as well when it is given its types in a call. -/
theorem Names.inCall {entry : SuppliedRule} (h : entry.Names (normalizeType type)) :
    entry.inCall.Names (normalizeType type) := by
  unfold Names at h
  split at h
  · exact h
  · exact ⟨normalizeType type, h, normalizeType_normalizeType type⟩

theorem drops_inCall : Drops (entries.map inCall) m ↔
    ∃ entry, Decides entries m entry ∧ entry.inCall.Names (normalizeType m.typeText) := by
  simp only [Drops, decides_inCall]
  constructor
  · rintro ⟨_, ⟨entry, hentry, rfl⟩, hnames⟩
    exact ⟨entry, hentry, hnames⟩
  · rintro ⟨entry, hentry, hnames⟩
    exact ⟨entry.inCall, ⟨entry, hentry, rfl⟩, hnames⟩

/-- Giving all types in calls changes nothing where the deciding record names what it drops in
normal text. -/
theorem declaredReturn?_inCall_eq_iff :
    declaredReturn? (entries.map inCall) m = declaredReturn? entries m ↔
      m.typeText = "void" ∨ ∀ entry, Decides entries m entry →
        entry.inCall.Names (normalizeType m.typeText) → entry.Names (normalizeType m.typeText) := by
  by_cases hdrops : Drops entries m
  · obtain ⟨entry, hentry, hnames⟩ := hdrops
    rw [declaredReturn?_of_drops ⟨entry, hentry, hnames⟩,
      declaredReturn?_of_drops (drops_inCall.2 ⟨entry, hentry, hnames.inCall⟩)]
    exact iff_of_true rfl (.inr fun other hother _ ↦ hentry.unique hother ▸ hnames)
  · rw [declaredReturn?_of_not_drops hdrops]
    by_cases hcall : Drops (entries.map inCall) m
    · obtain ⟨entry, hentry, hnames⟩ := drops_inCall.1 hcall
      rw [declaredReturn?_of_drops hcall, Option.some.injEq, eq_comm]
      refine ⟨.inl, fun h ↦ h.resolve_right fun hall ↦ ?_⟩
      exact hdrops ⟨entry, hentry, hall entry hentry hnames⟩
    · rw [declaredReturn?_of_not_drops hcall]
      exact iff_of_true rfl (.inr fun entry hentry hnames ↦
        (hcall (drops_inCall.2 ⟨entry, hentry, hnames⟩)).elim)

/-- A method is declared without its return type where the first rule that drops types and matches
the method names the type, and with its return type as it is written everywhere else. A rule that is
given its types in a call names each type that one of its texts is normally; a rule that is read
from a record names the texts themselves. So the two ways differ where the rule that decides is read
from a record, the type is not `void`, and a text in the record is the type only when it is
normalized. Whatever record a rule is read from, its texts are kept as they stand. -/
theorem declaredReturn_of_supply (entries : List SuppliedRule) (m : Method) :
    (Drops entries m → declaredReturn? entries m = some "void") ∧
    (¬Drops entries m → declaredReturn? entries m = some m.typeText) ∧
    (declaredReturn? (entries.map inCall) m = declaredReturn? entries m ↔
      m.typeText = "void" ∨ ∀ entry, Decides entries m entry →
        (∃ text ∈ entry.map.ignoredOut, normalizeType text = normalizeType m.typeText) →
          entry.Names (normalizeType m.typeText)) ∧
    ∀ (members : Shape.Members) (types : List String) (map : Typemap),
      Typemap.ofJson? (.obj members) = some map →
        members.lookup "ignored_out" = some (.texts types) → map.ignoredOut = types :=
  ⟨declaredReturn?_of_drops, declaredReturn?_of_not_drops, declaredReturn?_inCall_eq_iff,
    fun _ _ _ hread htypes ↦ Typemap.ignoredOut_of_ofJson? hread htypes⟩

end SuppliedRule

/-- A rule that drops references to strings, which it spells with a space. -/
def outputCount : Typemap :=
  { patterns := ["int * OUTPUT"], rubyType := some "Integer", ignoredOut := ["wxString &"] }

def getName : Method :=
  { Method.named "GetName" with
    returnType := some "wxString &", params := [{ name := "OUTPUT", type := "int *" }] }

/-- The same text drops the type when it is given in a call, and does not when it is read. -/
theorem getName_kept_by_record :
    SuppliedRule.declaredReturn? [⟨.call, .own, outputCount⟩] getName = some "void" ∧
      SuppliedRule.declaredReturn? [⟨.record, .own, outputCount⟩] getName =
        some "wxString &" := by
  decide +kernel

end Bindery
