import Bindery.Extract.Extraction
import Bindery.Proofs.Decl.Changes
import Mathlib.Data.List.Basic

/-!
What a policy makes of the declarations of a module. Every pass of an extraction is a run of
revisions whose addresses mean the same from the first to the last, so that the passes together are
one revision, which can be told from the declarations as they were read (`Policy.settled`). A
declaration is decided on by the last entry that regards it, or by the last that ignores it when
none regards it, and it is restricted by the last entry that names it. Without a platform an
extraction does exactly this, and it fails just when something that has to be found is missing
(`extract_settles`).
-/

set_option autoImplicit false
set_option relaxedAutoImplicit false

namespace Bindery

/-! ### Runs of revisions -/

section Runs

variable {α β : Type}

/-- Makes revisions that each have to find something, and fails at the first that does not. -/
def Module.reviseEach (m : Module) (find : α → Option β) (failure : α → Error)
    (revision : α → Revision) (as : List α) : Except Error Module :=
  match as.find? (find · |>.isNone) with
  | some a => .error (failure a)
  | none => .ok (m.revise (.sequence (as.map revision)))

theorem Module.reviseEach_cases (m : Module) (find : α → Option β) (failure : α → Error)
    (revision : α → Revision) (as : List α) :
    (¬∃ a ∈ as, find a = none) ∧
        m.reviseEach find failure revision as = .ok (m.revise (.sequence (as.map revision))) ∨
      (∃ a ∈ as, find a = none) ∧ ∃ e, m.reviseEach find failure revision as = .error e := by
  rw [reviseEach]
  cases hfind : as.find? (find · |>.isNone) with
  | some a =>
    have hnone : (find a).isNone = true := List.find?_some (p := (find · |>.isNone)) hfind
    exact .inr ⟨⟨a, List.mem_of_find?_eq_some hfind, Option.isNone_iff_eq_none.1 hnone⟩, _, rfl⟩
  | none =>
    exact .inl ⟨fun ⟨a, ha, hnone⟩ ↦
      List.find?_eq_none.1 hfind a ha (Option.isNone_iff_eq_none.2 hnone), rfl⟩

/-- A run of revisions is one revision, when no revision changes what the others are. -/
theorem foldl_revisions (revisions : Module → α → Revision) {step : Module → α → Module}
    (hrevisions : ∀ m e, revisions (m.revise e) = revisions m)
    (hstep : ∀ m a, step m a = m.revise (revisions m a))
    (as : List α) (m : Module) : as.foldl step m = m.revise (.sequence (as.map (revisions m))) := by
  induction as generalizing m with
  | nil => exact m.revise_nothing.symm
  | cons a as ih =>
    rw [List.foldl_cons, hstep, ih, hrevisions, List.map_cons, Revision.sequence_cons,
      Module.revise_andThen]

/-- The same of revisions that have to find something, when no revision makes or spoils a find. -/
theorem foldlM_revisions (find : Module → α → Option β) (failure : α → Error)
    (revisions : Module → α → Revision) {step : Module → α → Except Error Module}
    (hfind : ∀ m e a, (find (m.revise e) a).isNone = (find m a).isNone)
    (hrevisions : ∀ m e, revisions (m.revise e) = revisions m)
    (hstep : ∀ m a,
      step m a = (find m a).elim (.error (failure a)) fun _ ↦ .ok (m.revise (revisions m a)))
    (as : List α) (m : Module) :
    as.foldlM step m = m.reviseEach (find m) failure (revisions m) as := by
  induction as generalizing m with
  | nil => exact congrArg Except.ok m.revise_nothing.symm
  | cons a as ih =>
    rw [List.foldlM_cons, hstep, Module.reviseEach, List.find?_cons]
    cases find m a with
    | none => rfl
    | some _ =>
      refine (ih (m.revise (revisions m a))).trans ?_
      simp only [Module.reviseEach, hfind, hrevisions, List.map_cons, Revision.sequence_cons,
        Module.revise_andThen, Option.isNone_some]

end Runs

/-! ### The revision that a policy comes to -/

/-- The last element with a property. -/
def lastWhere {α : Type} (p : α → Bool) (as : List α) : Option α := (as.filter p).getLast?

theorem lastWhere_append {α : Type} (p : α → Bool) (as bs : List α) :
    lastWhere p (as ++ bs) = (lastWhere p bs).or (lastWhere p as) := by
  rw [lastWhere, List.filter_append, List.getLast?_append, lastWhere, lastWhere]

theorem lastWhere_cons {α : Type} (p : α → Bool) (a : α) (as : List α) :
    lastWhere p (a :: as) = (lastWhere p as).or (if p a then some a else none) := by
  refine (lastWhere_append p [a] as).trans (congrArg _ ?_)
  by_cases h : p a <;> simp [lastWhere, h]

/-- What was set last is all that is seen of values that are set one after the other. -/
theorem foldl_override {α β : Type} (p : α → Bool) (set : α → β → β)
    (hset : ∀ a b x, set b (set a x) = set b x) (as : List α) (x : β) :
    as.foldl (fun x a ↦ if p a then set a x else x) x =
      match lastWhere p as with
      | some a => set a x
      | none => x := by
  induction as generalizing x with
  | nil => rfl
  | cons a as ih =>
    rw [List.foldl_cons, ih, lastWhere, lastWhere, List.filter_cons]
    cases p a with
    | false => rfl
    | true =>
      simp only [if_true, List.getLast?_cons]
      cases (as.filter p).getLast? with
      | none => rfl
      | some b => exact hset a b x

theorem foldl_extend {α β : Type} (p : α → Bool) (more : α → List β) (as : List α) (xs : List β) :
    as.foldl (fun xs a ↦ if p a then xs ++ more a else xs) xs =
      xs ++ (as.filter p).flatMap more := by
  induction as generalizing xs with
  | nil => exact (List.append_nil xs).symm
  | cons a as ih =>
    rw [List.foldl_cons, ih, List.filter_cons]
    cases p a with
    | false => rfl
    | true => exact List.append_assoc xs (more a) _

namespace Policy

/-- The names that are restricted, each behind its guard. -/
def restrictions (policy : Policy) : List (Guard × String) :=
  policy.onlyFor.flatMap fun (guard, names) ↦ names.map (guard, ·)

/-- The last of some decisions that covers a declaration. -/
def lastDecision (decisions : List (String × Visibility)) (m : Module) (d : Location) :
    Option Visibility :=
  (lastWhere (fun decision ↦ m.covers decision.1 d) decisions).map Prod.snd

/-- The decision on a declaration: the last that regards it, or if there is none the last that
ignores it. -/
def decisionOn (policy : Policy) (m : Module) (d : Location) : Option Visibility :=
  (lastDecision (policy.visibility.filter (!·.2.ignore)) m d).or
    (lastDecision (policy.visibility.filter (·.2.ignore)) m d)

/-- The guard of the last restriction that covers a declaration. -/
def guardOn (policy : Policy) (m : Module) (d : Location) : Option Guard :=
  (lastWhere (fun restriction ↦ m.covers restriction.2 d) policy.restrictions).map Prod.fst

/-- The attributes of a declaration under a policy. -/
def settledInfo (policy : Policy) (m : Module) (d : Location) (info : Info) : Info :=
  { info with
    ignored := ((policy.decisionOn m d).map Visibility.ignore).getD info.ignored
    ignoreDoc := ((policy.decisionOn m d).map Visibility.ignoreDoc).getD info.ignoreDoc
    onlyFor := (policy.guardOn m d).or info.onlyFor }

/-- The inheritance chain of the class at a place, if the policy gives it one. -/
def chainOf? (policy : Policy) (m : Module) (i : Nat) : Option (List String) :=
  (lastWhere (fun entry ↦ m.declares entry.1 i) policy.inheritanceChains).map Prod.snd

/-- The parameter mappings that the policy has for the class at a place. -/
def mappingsOf (policy : Policy) (m : Module) (i : Nat) : List ParamMapping :=
  (policy.paramMappings.filter fun entry ↦ m.declares entry.1 i).flatMap Prod.snd

/-- All that a policy changes about the declarations of a module. -/
def settled (policy : Policy) (m : Module) : Revision where
  info := policy.settledInfo m
  bases i old := ((policy.chainOf? m i).map Base.chain).getD old
  paramMappings i old := old ++ policy.mappingsOf m i
  name_info _ _ := rfl

/-! ### The passes -/

def chainRevision (m : Module) (entry : String × List String) : Revision :=
  .onClass (m.declares entry.1) (fun _ ↦ Base.chain entry.2) fun old ↦ old

def decisionRevision (m : Module) (decision : String × Visibility) : Revision :=
  .onInfo (m.covers decision.1) (·.setIgnored decision.2.ignore decision.2.ignoreDoc) fun _ ↦ rfl

def restrictionRevision (m : Module) (restriction : Guard × String) : Revision :=
  .onInfo (m.covers restriction.2) ({ · with onlyFor := some restriction.1 }) fun _ ↦ rfl

def mappingRevision (m : Module) (entry : String × List ParamMapping) : Revision :=
  .onClass (m.declares entry.1) (fun old ↦ old) (· ++ entry.2)

def chainPass (policy : Policy) (m : Module) : Revision :=
  .sequence (policy.inheritanceChains.map (chainRevision m))

def decisionPass (policy : Policy) (m : Module) : Revision :=
  .sequence (policy.decisions.map (decisionRevision m))

def restrictionPass (policy : Policy) (m : Module) : Revision :=
  .sequence (policy.restrictions.map (restrictionRevision m))

def mappingPass (policy : Policy) (m : Module) : Revision :=
  .sequence (policy.paramMappings.map (mappingRevision m))

section Stable

variable (m : Module) (e : Revision)

theorem chainRevision_revise : chainRevision (m.revise e) = chainRevision m := by
  funext entry
  rw [chainRevision, chainRevision, m.declares_revise]

theorem decisionRevision_revise : decisionRevision (m.revise e) = decisionRevision m := by
  funext decision
  simp only [decisionRevision, m.covers_revise]

theorem restrictionRevision_revise : restrictionRevision (m.revise e) = restrictionRevision m := by
  funext restriction
  simp only [restrictionRevision, m.covers_revise]

theorem mappingRevision_revise : mappingRevision (m.revise e) = mappingRevision m := by
  funext entry
  rw [mappingRevision, mappingRevision, m.declares_revise]

end Stable

theorem overrideChains_eq (policy : Policy) (m : Module) :
    policy.overrideChains m = m.reviseEach (fun entry ↦ m.findClass? entry.1)
      (fun entry ↦ .unresolved policy.moduleName entry.1 .overrideChain) (chainRevision m)
      policy.inheritanceChains := by
  refine foldlM_revisions (fun m entry ↦ m.findClass? entry.1) _ chainRevision
    (fun m e entry ↦ m.isNone_findClass?_revise entry.1 e) chainRevision_revise
    (fun m (className, chain) ↦ ?_) _ m
  have hupdate : m.updateClass? className (·.setInheritanceChain chain) =
      (m.findClass? className).map fun _ ↦ m.revise (chainRevision m (className, chain)) :=
    m.updateClass?_eq className (fun _ ↦ Base.chain chain) fun old ↦ old
  simp only [hupdate]
  cases m.findClass? className <;> rfl

theorem applyMappings_eq (policy : Policy) (m : Module) :
    policy.applyMappings m = m.reviseEach (fun entry ↦ m.findClass? entry.1)
      (fun entry ↦ .unresolved policy.moduleName entry.1 .mapParams) (mappingRevision m)
      policy.paramMappings := by
  refine foldlM_revisions (fun m entry ↦ m.findClass? entry.1) _ mappingRevision
    (fun m e entry ↦ m.isNone_findClass?_revise entry.1 e) mappingRevision_revise
    (fun m (className, mappings) ↦ ?_) _ m
  have hupdate : m.updateClass? className (addMappings mappings) =
      (m.findClass? className).map fun _ ↦ m.revise (mappingRevision m (className, mappings)) :=
    m.updateClass?_eq className (fun old ↦ old) (· ++ mappings)
  simp only [hupdate]
  cases m.findClass? className <;> rfl

theorem applyVisibility_eq (policy : Policy) (m : Module) : policy.applyVisibility m =
    m.revise (.sequence (policy.decisions.map (decisionRevision m))) :=
  foldl_revisions decisionRevision decisionRevision_revise
    (fun m decision ↦ m.getD_update?_eq
      (·.setIgnored decision.2.ignore decision.2.ignoreDoc) (fun _ ↦ rfl) decision.1)
    policy.decisions m

theorem restrict_eq (policy : Policy) (m : Module) (restriction : Guard × String) :
    policy.restrict restriction.1 m restriction.2 = (m.locate? restriction.2).elim
      (.error
        (.unresolved policy.moduleName restriction.2 (.restrict (guardLabel restriction.1))))
      fun _ ↦ .ok (m.revise (restrictionRevision m restriction)) := by
  have hupdate : m.update? restriction.2 ({ · with onlyFor := some restriction.1 }) =
      (m.locate? restriction.2).map fun _ ↦ m.revise (restrictionRevision m restriction) :=
    m.update?_eq ({ · with onlyFor := some restriction.1 }) (fun _ ↦ rfl) restriction.2
  rw [restrict, hupdate]
  cases m.locate? restriction.2 <;> rfl

theorem foldlM_restrict (policy : Policy) (onlyFor : List (Guard × List String)) (m : Module) :
    onlyFor.foldlM (fun m (guard, names) ↦ names.foldlM (policy.restrict guard) m) m =
      (onlyFor.flatMap fun (guard, names) ↦ names.map (guard, ·)).foldlM
        (fun m restriction ↦ policy.restrict restriction.1 m restriction.2) m := by
  induction onlyFor generalizing m with
  | nil => rfl
  | cons entry onlyFor ih =>
    rw [List.foldlM_cons, List.flatMap_cons, List.foldlM_append, List.foldlM_map]
    exact congrArg (Except.bind _) (funext ih)

theorem applyRestrictions_eq (policy : Policy) (m : Module) :
    policy.applyRestrictions m = m.reviseEach (fun restriction ↦ m.locate? restriction.2)
      (fun restriction ↦
        .unresolved policy.moduleName restriction.2 (.restrict (guardLabel restriction.1)))
      (restrictionRevision m) policy.restrictions := by
  have hfind : ∀ (m : Module) (e : Revision) (restriction : Guard × String),
      ((m.revise e).locate? restriction.2).isNone = (m.locate? restriction.2).isNone :=
    fun m e restriction ↦ by rw [m.locate?_revise]
  have hrun := foldlM_revisions (fun m (restriction : Guard × String) ↦ m.locate? restriction.2)
    (fun restriction ↦
      .unresolved policy.moduleName restriction.2 (.restrict (guardLabel restriction.1)))
    restrictionRevision hfind restrictionRevision_revise policy.restrict_eq policy.restrictions m
  rw [applyRestrictions, foldlM_restrict]
  exact hrun

section Cases

variable (policy : Policy) (m : Module) (e : Revision)

theorem overrideChains_cases :
    (¬∃ entry ∈ policy.inheritanceChains, m.findClass? entry.1 = none) ∧
        policy.overrideChains m = .ok (m.revise (policy.chainPass m)) ∨
      (∃ entry ∈ policy.inheritanceChains, m.findClass? entry.1 = none) ∧
        ∃ e, policy.overrideChains m = .error e := by
  rw [overrideChains_eq]
  exact m.reviseEach_cases _ _ _ _

theorem applyVisibility_revise :
    policy.applyVisibility (m.revise e) = m.revise (e.andThen (policy.decisionPass m)) := by
  rw [applyVisibility_eq, decisionRevision_revise, m.revise_andThen]
  rfl

theorem applyRestrictions_cases :
    (¬∃ restriction ∈ policy.restrictions, m.locate? restriction.2 = none) ∧
        policy.applyRestrictions (m.revise e) =
          .ok (m.revise (e.andThen (policy.restrictionPass m))) ∨
      (∃ restriction ∈ policy.restrictions, m.locate? restriction.2 = none) ∧
        ∃ err, policy.applyRestrictions (m.revise e) = .error err := by
  rw [applyRestrictions_eq, restrictionRevision_revise, m.revise_andThen]
  simp only [m.locate?_revise]
  exact (m.revise e).reviseEach_cases _ _ _ _

theorem applyMappings_cases :
    (¬∃ entry ∈ policy.paramMappings, m.findClass? entry.1 = none) ∧
        policy.applyMappings (m.revise e) = .ok (m.revise (e.andThen (policy.mappingPass m))) ∨
      (∃ entry ∈ policy.paramMappings, m.findClass? entry.1 = none) ∧
        ∃ err, policy.applyMappings (m.revise e) = .error err := by
  have hnone : ∀ name, m.findClass? name = none ↔ (m.revise e).findClass? name = none := by
    intro name
    rw [← Option.isNone_iff_eq_none, ← Option.isNone_iff_eq_none, m.isNone_findClass?_revise]
  rw [applyMappings_eq, mappingRevision_revise, m.revise_andThen]
  simp only [hnone]
  exact (m.revise e).reviseEach_cases _ _ _ _

end Cases

/-! ### The passes come to what the policy settles -/

theorem lastWhere_decisions (policy : Policy) (m : Module) (d : Location) :
    (lastWhere (fun decision ↦ m.covers decision.1 d) policy.decisions).map Prod.snd =
      policy.decisionOn m d := by
  rw [decisions, lastWhere_append, Option.map_or]
  rfl

theorem info_decisionRevision (m : Module) (decision : String × Visibility) (d : Location)
    (info : Info) : (decisionRevision m decision).info d info =
      if m.covers decision.1 d then info.setIgnored decision.2.ignore decision.2.ignoreDoc
      else info := rfl

theorem info_restrictionRevision (m : Module) (restriction : Guard × String) (d : Location)
    (info : Info) : (restrictionRevision m restriction).info d info =
      if m.covers restriction.2 d then { info with onlyFor := some restriction.1 }
      else info := rfl

theorem info_decisions (policy : Policy) (m : Module) (d : Location) (old : Info) :
    policy.decisions.foldl (fun info decision ↦ (decisionRevision m decision).info d info) old =
      { old with
        ignored := ((policy.decisionOn m d).map Visibility.ignore).getD old.ignored
        ignoreDoc := ((policy.decisionOn m d).map Visibility.ignoreDoc).getD old.ignoreDoc } := by
  simp only [info_decisionRevision]
  rw [foldl_override (fun decision : String × Visibility ↦ m.covers decision.1 d)
    (fun decision (info : Info) ↦ info.setIgnored decision.2.ignore decision.2.ignoreDoc)
    fun _ _ _ ↦ rfl, ← lastWhere_decisions]
  cases lastWhere (fun decision ↦ m.covers decision.1 d) policy.decisions <;> rfl

theorem info_restrictions (policy : Policy) (m : Module) (d : Location) (old : Info) :
    policy.restrictions.foldl
        (fun info restriction ↦ (restrictionRevision m restriction).info d info) old =
      { old with onlyFor := (policy.guardOn m d).or old.onlyFor } := by
  simp only [info_restrictionRevision]
  rw [foldl_override (fun restriction : Guard × String ↦ m.covers restriction.2 d)
    (fun restriction (info : Info) ↦ { info with onlyFor := some restriction.1 })
    fun _ _ _ ↦ rfl, guardOn]
  cases lastWhere (fun restriction ↦ m.covers restriction.2 d) policy.restrictions <;> rfl

theorem bases_chains (policy : Policy) (m : Module) (i : Nat) (old : List Base) :
    policy.inheritanceChains.foldl (fun bases entry ↦ (chainRevision m entry).bases i bases) old =
      ((policy.chainOf? m i).map Base.chain).getD old := by
  have hstep : ∀ entry bases, (chainRevision m entry).bases i bases =
      if m.declares entry.1 i then Base.chain entry.2 else bases := fun _ _ ↦ rfl
  simp only [hstep]
  rw [foldl_override (fun entry : String × List String ↦ m.declares entry.1 i)
    (fun entry (_ : List Base) ↦ Base.chain entry.2) fun _ _ _ ↦ rfl, chainOf?]
  cases lastWhere (fun entry ↦ m.declares entry.1 i) policy.inheritanceChains <;> rfl

theorem paramMappings_mappings (policy : Policy) (m : Module) (i : Nat)
    (old : List ParamMapping) : policy.paramMappings.foldl
      (fun mappings entry ↦ (mappingRevision m entry).paramMappings i mappings) old =
        old ++ policy.mappingsOf m i :=
  foldl_extend (fun entry : String × List ParamMapping ↦ m.declares entry.1 i) Prod.snd
    policy.paramMappings old

/-- The passes together are the revision that is read off the declarations as they were read. -/
theorem passes_eq_settled (policy : Policy) (m : Module) :
    (((policy.chainPass m).andThen (policy.decisionPass m)).andThen
      (policy.restrictionPass m)).andThen (policy.mappingPass m) = policy.settled m := by
  have hmappingBases : ∀ i entry bases, (mappingRevision m entry).bases i bases = bases :=
    fun _ _ bases ↦ ite_self bases
  have hchainMappings : ∀ i entry mappings,
      (chainRevision m entry).paramMappings i mappings = mappings :=
    fun _ _ mappings ↦ ite_self mappings
  ext1
  · have hchain : ∀ d entry info, (chainRevision m entry).info d info = info := fun _ _ _ ↦ rfl
    have hmapping : ∀ d entry info, (mappingRevision m entry).info d info = info := fun _ _ _ ↦ rfl
    funext d old
    simp only [Revision.andThen, chainPass, decisionPass, restrictionPass, mappingPass,
      Revision.info_sequence, List.foldl_map, info_decisions, info_restrictions, hchain, hmapping,
      List.foldl_fixed]
    rfl
  · have hdecision : ∀ i decision bases, (decisionRevision m decision).bases i bases = bases :=
      fun _ _ _ ↦ rfl
    have hrestriction : ∀ i restriction bases,
        (restrictionRevision m restriction).bases i bases = bases := fun _ _ _ ↦ rfl
    funext i old
    simp only [Revision.andThen, chainPass, decisionPass, restrictionPass, mappingPass,
      Revision.bases_sequence, List.foldl_map, bases_chains, hdecision, hrestriction, hmappingBases,
      List.foldl_fixed]
    rfl
  · have hdecision : ∀ i decision mappings,
        (decisionRevision m decision).paramMappings i mappings = mappings := fun _ _ _ ↦ rfl
    have hrestriction : ∀ i restriction mappings,
        (restrictionRevision m restriction).paramMappings i mappings = mappings := fun _ _ _ ↦ rfl
    funext i old
    simp only [Revision.andThen, chainPass, decisionPass, restrictionPass, mappingPass,
      Revision.paramMappings_sequence, List.foldl_map, paramMappings_mappings, hchainMappings,
      hdecision, hrestriction, List.foldl_fixed]
    rfl

/-! ### Extractions -/

/-- The passes in front of the filter for a platform. -/
def settledBefore (policy : Policy) (m : Module) : Revision :=
  ((policy.chainPass m).andThen (policy.decisionPass m)).andThen (policy.restrictionPass m)

/-- Whether something is missing that a policy has to find. -/
def Misses (policy : Policy) (m : Module) : Prop :=
  (∃ restriction ∈ policy.restrictions, m.locate? restriction.2 = none) ∨
    (∃ entry ∈ policy.inheritanceChains, m.findClass? entry.1 = none) ∨
    ∃ entry ∈ policy.paramMappings, m.findClass? entry.1 = none

/-- The extraction of a module whose declarations have gone through all passes. -/
def extractionOf (policy : Policy) (config : Config) (m : Module) : Extraction where
  module := m
  includes := policy.headers m
  deprecations := if config.noDeprecate then {} else Deprecations.collect policy m

section Extracted

variable {policy : Policy} {config : Config} {load : String → Except Error DeclFile} {m : Module}

theorem extract_eq (hm : Module.extract load policy.moduleName policy.items = .ok m) :
    policy.extract config load = (policy.overrideChains m).bind fun m ↦
      (policy.applyRestrictions (policy.applyVisibility m)).bind fun m ↦
        (policy.applyMappings (policy.applyPlatform config.platform m)).bind fun m ↦
          .ok (policy.extractionOf config m) := by
  rw [extract, hm]
  rfl

/-- Either everything is found, and an extraction is what the passes come to with the filter for the
platform between them, or it fails. The filter does not matter for which of the two it is. -/
theorem extract_cases_of_filter {filter : Revision}
    (hfilter : ∀ e, policy.applyPlatform config.platform (m.revise e) = m.revise (e.andThen filter))
    (hm : Module.extract load policy.moduleName policy.items = .ok m) :
    ¬policy.Misses m ∧ (∃ extraction, policy.extract config load = .ok extraction ∧
        extraction.module =
          m.revise (((policy.settledBefore m).andThen filter).andThen (policy.mappingPass m))) ∨
      policy.Misses m ∧ ∃ e, policy.extract config load = .error e := by
  rw [extract_eq hm]
  obtain ⟨hchains, hoverride⟩ | ⟨hchains, e, hoverride⟩ := policy.overrideChains_cases m
  case inr => exact .inr ⟨.inr (.inl hchains), e, by rw [hoverride]; rfl⟩
  rw [hoverride, Except.bind, applyVisibility_revise]
  obtain ⟨hnames, hrestrict⟩ | ⟨hnames, e, hrestrict⟩ := policy.applyRestrictions_cases m
    ((policy.chainPass m).andThen (policy.decisionPass m))
  case inr => exact .inr ⟨.inl hnames, e, by rw [hrestrict]; rfl⟩
  rw [hrestrict, Except.bind, hfilter]
  obtain ⟨hmappings, hmap⟩ | ⟨hmappings, e, hmap⟩ := policy.applyMappings_cases m
    ((policy.settledBefore m).andThen filter)
  case inr => exact .inr ⟨.inr (.inr hmappings), e, congrArg (Except.bind · _) hmap⟩
  exact .inl ⟨fun h ↦ h.elim hnames fun h ↦ h.elim hchains hmappings, _,
    congrArg (Except.bind · _) hmap, rfl⟩

/-- Without a platform an extraction is what the policy settles, if everything is found. -/
theorem extract_cases (hplatform : config.platform = none)
    (hm : Module.extract load policy.moduleName policy.items = .ok m) :
    ¬policy.Misses m ∧ (∃ extraction, policy.extract config load = .ok extraction ∧
        extraction.module = m.revise (policy.settled m)) ∨
      policy.Misses m ∧ ∃ e, policy.extract config load = .error e := by
  have hfilter : ∀ e, policy.applyPlatform config.platform (m.revise e) =
      m.revise (e.andThen .nothing) := fun e ↦ by rw [hplatform]; rfl
  rw [← passes_eq_settled]
  exact extract_cases_of_filter hfilter hm

end Extracted

/-- What an extraction without a platform makes of every declaration, and when there is one. -/
theorem extract_settles (policy : Policy) (config : Config) (load : String → Except Error DeclFile)
    (hplatform : config.platform = none) :
    (∀ extraction, policy.extract config load = .ok extraction →
      ∃ m, Module.extract load policy.moduleName policy.items = .ok m ∧
        extraction.module = m.revise (policy.settled m) ∧
        ∀ d, extraction.module.infoAt? d = (m.infoAt? d).map (policy.settledInfo m d)) ∧
    ∀ m, Module.extract load policy.moduleName policy.items = .ok m →
      ((∃ e, policy.extract config load = .error e) ↔ policy.Misses m) := by
  refine ⟨fun extraction hextract ↦ ?_, fun m hm ↦ ⟨fun ⟨e, herror⟩ ↦ ?_, fun hmisses ↦ ?_⟩⟩
  · cases hm : Module.extract load policy.moduleName policy.items with
    | error e =>
      rw [extract, hm] at hextract
      cases hextract
    | ok m =>
      obtain ⟨_, other, hother, hmodule⟩ | ⟨_, e, herror⟩ := extract_cases hplatform hm
      · cases hextract.symm.trans hother
        refine ⟨m, rfl, hmodule, fun d ↦ ?_⟩
        rw [hmodule, Module.infoAt?_revise]
        rfl
      · cases hextract.symm.trans herror
  · obtain ⟨_, extraction, hextract, _⟩ | ⟨hmisses, _⟩ := extract_cases hplatform hm
    · cases hextract.symm.trans herror
    · exact hmisses
  · exact ((extract_cases hplatform hm).resolve_left fun h ↦ h.1 hmisses).2

end Policy

/-! ### A dial with a regarded overload -/

namespace Dials

def dial : ClassEntry where
  common := { name := "Dial" }
  members := [
    .method { common := { name := "turn" } },
    .method { common := { name := "turn" }, params := [{ type := "int" }] },
    .enum { common := { name := "Scale" }, values := [{ common := { name := "LINEAR" } }] }]

def read (_ : String) : Except Error DeclFile := .ok ⟨[.ofClass dial]⟩

/-- Turning is ignored but for turning by steps, and the scale is for one platform. -/
def policy : Policy :=
  { Policy.empty "Dials" "Meters" with
    visibility := [("Dial::turn", ⟨true, true⟩), ("Dial::turn(int)", ⟨false, true⟩)]
    onlyFor := [(.single "linux", ["Dial::Scale", "Dial::LINEAR"])]
    inheritanceChains := [("Dial", ["Control", "Object"])] }

def turn : Location := ⟨0, .member 0 .here, some 0⟩

def turnBySteps : Location := ⟨0, .member 0 .here, some 1⟩

/-- The places of both overloads, of the scale and of its value. -/
def places : List Location := [⟨0, .member 0 .here, some 0⟩, ⟨0, .member 0 .here, some 1⟩,
  ⟨0, .member 1 .here, none⟩, ⟨0, .member 1 (.value 0), none⟩]

def attributes : List (Option Info) := [
  some { name := "turn", ignored := true, ignoreDoc := true },
  some { name := "turn", ignoreDoc := true },
  some { name := "Scale", onlyFor := some (.single "linux") },
  some { name := "LINEAR", onlyFor := some (.single "linux") }]

end Dials

open Dials in
/-- The overload that is regarded is kept, though all overloads are ignored before. -/
theorem dials_settled : ({} : Config).platform = none ∧
    ∃ extraction, policy.extract {} read = .ok extraction ∧
      places.map extraction.module.infoAt? = attributes := by
  obtain ⟨hsettles, -⟩ := Policy.extract_settles policy {} read rfl
  refine ⟨rfl, ?_⟩
  cases hextract : policy.extract {} read with
  | error e =>
    have hok : (policy.extract {} read).isOk = true := by decide +kernel
    rw [hextract] at hok
    cases hok
  | ok extraction =>
    obtain ⟨m, hm, -, hinfo⟩ := hsettles extraction hextract
    have hread : (Module.extract read policy.moduleName policy.items).toOption.map (fun m ↦
        places.map fun d ↦ (m.infoAt? d).map (policy.settledInfo m d)) = some attributes := by
      decide +kernel
    rw [hm] at hread
    exact ⟨extraction, rfl, (List.map_congr_left fun d _ ↦ hinfo d).trans (Option.some.inj hread)⟩

end Bindery
