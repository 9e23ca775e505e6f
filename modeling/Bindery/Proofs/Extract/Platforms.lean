import Bindery.Proofs.Extract.Processing

/-!
Extractions for a platform. A declaration keeps the guard of the last restriction that covers it.
The filter for a platform goes over all restrictions once more, and leaves out what each of those
covers that does not admit the platform. So the guard that is kept does not decide alone: a
declaration that an earlier restriction keeps from the platform stays left out, although its own
guard admits the platform (`extract_on_platform`, `dial_left_out_where_admitted`). In all else an
extraction for a platform is the one without (`extract_cases_on`).
-/

set_option autoImplicit false
set_option relaxedAutoImplicit false

namespace Bindery

namespace Policy

/-! ### The restrictions that cover a declaration -/

/-- The last restriction that covers a declaration. -/
def restrictionOn (policy : Policy) (m : Module) (d : Location) : Option (Guard × List String) :=
  lastWhere (fun restriction ↦ restriction.2.any (m.covers · d)) policy.onlyFor

/-- Whether some restriction that covers a declaration does not admit a platform. -/
def isForeign (policy : Policy) (platform : String) (m : Module) (d : Location) : Bool :=
  policy.onlyFor.any fun restriction ↦
    !restriction.1.admits platform && restriction.2.any (m.covers · d)

/-- The names of one restriction have one guard. -/
theorem lastWhere_map_names (covered : String → Bool) (guard : Guard) (names : List String) :
    (lastWhere (fun restriction : Guard × String ↦ covered restriction.2)
      (names.map (guard, ·))).map Prod.fst = if names.any covered then some guard else none := by
  induction names with
  | nil => rfl
  | cons name names ih =>
    rw [List.map_cons, lastWhere_cons, Option.map_or, ih]
    by_cases hname : covered name <;> by_cases hnames : names.any covered <;> simp [hname, hnames]

/-- The guard of a declaration is that of the last restriction that covers it. -/
theorem guardOn_eq (policy : Policy) (m : Module) (d : Location) :
    policy.guardOn m d = (policy.restrictionOn m d).map Prod.fst := by
  rw [guardOn, restrictionOn, restrictions]
  induction policy.onlyFor with
  | nil => rfl
  | cons restriction onlyFor ih =>
    obtain ⟨guard, names⟩ := restriction
    rw [List.flatMap_cons, lastWhere_append, lastWhere_cons, Option.map_or, Option.map_or, ih,
      lastWhere_map_names (m.covers · d)]
    by_cases hnames : names.any (m.covers · d) <;> simp [hnames]

/-- What the last restriction keeps from a platform is foreign to it. -/
theorem isForeign_of_restrictionOn {policy : Policy} {platform : String} {m : Module} {d : Location}
    {guard : Guard} {names : List String} (h : policy.restrictionOn m d = some (guard, names))
    (hadmits : guard.admits platform = false) : policy.isForeign platform m d = true := by
  obtain ⟨hmem, hcovers⟩ := List.mem_filter.1 (List.mem_of_getLast? h)
  exact List.any_eq_true.2 ⟨_, hmem, by rw [hadmits]; exact hcovers⟩

/-! ### The filter for a platform is a revision -/

/-- The names that some restriction keeps from a platform. -/
def foreignNames (policy : Policy) (platform : String) : List String :=
  policy.onlyFor.flatMap fun (guard, names) ↦ if guard.admits platform then [] else names

def foreignRevision (m : Module) (name : String) : Revision :=
  .onInfo (m.covers name) (fun info ↦ info.setIgnored true info.ignoreDoc) fun _ ↦ rfl

def platformPass (policy : Policy) (platform : Option String) (m : Module) : Revision :=
  match platform with
  | some platform => .sequence ((policy.foreignNames platform).map (foreignRevision m))
  | none => .nothing

theorem foreignRevision_revise (m : Module) (e : Revision) :
    foreignRevision (m.revise e) = foreignRevision m := by
  funext name
  simp only [foreignRevision, m.covers_revise]

theorem dropForeign_eq (policy : Policy) (platform : String) (m : Module) :
    policy.dropForeign platform m = (policy.foreignNames platform).foldl ignoreForPlatform m := by
  rw [foreignNames, List.foldl_flatMap, dropForeign]
  refine congrArg (List.foldl · m policy.onlyFor) (funext fun m ↦ funext fun restriction ↦ ?_)
  by_cases h : restriction.1.admits platform <;> simp [h]

theorem applyPlatform_revise (policy : Policy) (platform : Option String) (m : Module)
    (e : Revision) : policy.applyPlatform platform (m.revise e) =
      m.revise (e.andThen (policy.platformPass platform m)) := by
  rw [m.revise_andThen]
  cases platform with
  | none => exact (Module.revise_nothing _).symm
  | some platform =>
    have hrun := foldl_revisions foreignRevision foreignRevision_revise
      (fun m name ↦ m.getD_update?_eq (fun info ↦ info.setIgnored true info.ignoreDoc)
        (fun _ ↦ rfl) name) (policy.foreignNames platform) (m.revise e)
    rw [applyPlatform, dropForeign_eq, platformPass, ← foreignRevision_revise m e]
    exact hrun

theorem any_foreignNames (policy : Policy) (platform : String) (m : Module) (d : Location) :
    (policy.foreignNames platform).any (m.covers · d) = policy.isForeign platform m d := by
  rw [foreignNames, isForeign, List.any_flatMap]
  refine congrArg policy.onlyFor.any (funext fun restriction ↦ ?_)
  by_cases h : restriction.1.admits platform <;> simp [h]

/-- The filter leaves out what is foreign, and changes nothing else. -/
theorem info_platformPass (policy : Policy) (platform : String) (m : Module) (d : Location)
    (old : Info) : (policy.platformPass (some platform) m).info d old =
      { old with ignored := old.ignored || policy.isForeign platform m d } := by
  rw [platformPass, Revision.info_sequence, List.foldl_map, ← any_foreignNames]
  induction policy.foreignNames platform generalizing old with
  | nil => simp
  | cons name names ih =>
    have hstep : (foreignRevision m name).info d old =
        if m.covers name d then old.setIgnored true old.ignoreDoc else old := rfl
    rw [List.foldl_cons, ih, hstep, List.any_cons]
    cases m.covers name d <;> simp [Info.setIgnored]

/-! ### Extractions -/

/-- All that a policy changes about the declarations of a module, for a platform if one is given. -/
def settledOn (policy : Policy) (platform : Option String) (m : Module) : Revision :=
  ((policy.settledBefore m).andThen (policy.platformPass platform m)).andThen (policy.mappingPass m)

theorem info_mappingPass (policy : Policy) (m : Module) (d : Location) (old : Info) :
    (policy.mappingPass m).info d old = old := by
  have hmapping : ∀ entry info, (mappingRevision m entry).info d info = info := fun _ _ ↦ rfl
  rw [mappingPass, Revision.info_sequence, List.foldl_map]
  simp only [hmapping, List.foldl_fixed]

theorem info_settledOn (policy : Policy) (platform : String) (m : Module) (d : Location)
    (old : Info) : (policy.settledOn (some platform) m).info d old =
      { policy.settledInfo m d old with
        ignored := (policy.settledInfo m d old).ignored || policy.isForeign platform m d } := by
  have hsettled : (policy.settledBefore m).info d old = policy.settledInfo m d old := by
    rw [← info_mappingPass policy m d ((policy.settledBefore m).info d old)]
    exact congrArg (fun e ↦ Revision.info e d old) (policy.passes_eq_settled m)
  simp only [settledOn, Revision.andThen, info_mappingPass, info_platformPass, hsettled]

/-- Either everything is found, and an extraction is what the policy settles on the platform, or it
fails. -/
theorem extract_cases_on {policy : Policy} (config : Config)
    {load : String → Except Error DeclFile} {m : Module}
    (hm : Module.extract load policy.moduleName policy.items = .ok m) :
    ¬policy.Misses m ∧ (∃ extraction, policy.extract config load = .ok extraction ∧
        extraction.module = m.revise (policy.settledOn config.platform m)) ∨
      policy.Misses m ∧ ∃ e, policy.extract config load = .error e :=
  extract_cases_of_filter (policy.applyPlatform_revise config.platform m) hm

/-- What an extraction for a platform makes of a declaration that is restricted, in comparison with
the extraction without a platform. -/
theorem extract_on_platform (policy : Policy) (config : Config)
    (load : String → Except Error DeclFile) {platform : String}
    (hplatform : config.platform = some platform) {extraction : Extraction}
    (hextract : policy.extract config load = .ok extraction) :
    ∃ m plain, Module.extract load policy.moduleName policy.items = .ok m ∧
      policy.extract { config with platform := none } load = .ok plain ∧
      ∀ d guard names old, policy.restrictionOn m d = some (guard, names) →
        plain.module.infoAt? d = some old →
        ∃ new, extraction.module.infoAt? d = some new ∧ new.onlyFor = some guard ∧
          new.ignored = (old.ignored || policy.isForeign platform m d) ∧
          (guard.admits platform = false → new.ignored = true) := by
  cases hm : Module.extract load policy.moduleName policy.items with
  | error e =>
    rw [extract, hm] at hextract
    cases hextract
  | ok m =>
    obtain ⟨hfound, other, hother, hmodule⟩ | ⟨_, e, herror⟩ := extract_cases_on config hm
    case inr => cases hextract.symm.trans herror
    cases hextract.symm.trans hother
    have hnone : ({ config with platform := none } : Config).platform = none := rfl
    obtain ⟨_, plain, hplain, hplainModule⟩ | ⟨hmisses, _⟩ := extract_cases hnone hm
    case inr => exact (hfound hmisses).elim
    refine ⟨m, plain, rfl, hplain, fun d guard names old hrestriction hold ↦ ?_⟩
    rw [hplainModule, Module.infoAt?_revise] at hold
    obtain ⟨read, hread, rfl⟩ := Option.map_eq_some_iff.1 hold
    refine ⟨(policy.settledOn (some platform) m).info d read, ?_, ?_, ?_, fun hadmits ↦ ?_⟩
    · rw [hmodule, Module.infoAt?_revise, hread, hplatform]
      rfl
    · rw [info_settledOn, settledInfo, guardOn_eq, hrestriction]
      rfl
    · rw [info_settledOn]
      rfl
    · rw [info_settledOn, isForeign_of_restrictionOn hrestriction hadmits]
      exact Bool.or_true _

end Policy

/-! ### A dial that is restricted twice -/

namespace Dials

/-- Turning is for one platform, but turning by steps is moved to another. -/
def ported : Policy :=
  { Policy.empty "Dials" "Meters" with
    onlyFor := [(.single "msw", ["Dial::turn"]), (.single "gtk", ["Dial::turn(int)"])] }

def onGtk : Config := { platform := some "gtk" }

end Dials

open Dials in
/-- Turning is left out on the platform that its guard does not admit. -/
theorem dial_left_out_on_gtk : onGtk.platform = some "gtk" ∧
    ∃ extraction, ported.extract onGtk read = .ok extraction ∧
      ∃ new, extraction.module.infoAt? turn = some new ∧ new.onlyFor = some (.single "msw") ∧
        new.ignored = true := by
  refine ⟨rfl, ?_⟩
  cases hextract : ported.extract onGtk read with
  | error e =>
    have hok : (ported.extract onGtk read).isOk = true := by decide +kernel
    rw [hextract] at hok
    cases hok
  | ok extraction =>
    obtain ⟨m, plain, hm, hplain, hinfo⟩ :=
      Policy.extract_on_platform ported onGtk read rfl hextract
    have hrestriction : (Module.extract read ported.moduleName ported.items).toOption.map
        (ported.restrictionOn · turn) = some (some (.single "msw", ["Dial::turn"])) := by
      decide +kernel
    have hold : (ported.extract { onGtk with platform := none } read).toOption.map
        (·.module.infoAt? turn) =
          some (some { name := "turn", onlyFor := some (.single "msw") }) := by
      decide +kernel
    rw [hm] at hrestriction
    rw [hplain] at hold
    obtain ⟨new, hnew, honly, -, hignored⟩ :=
      hinfo turn _ _ _ (Option.some.inj hrestriction) (Option.some.inj hold)
    exact ⟨extraction, rfl, new, hnew, honly, hignored (by decide +kernel)⟩

open Dials in
/-- Turning by steps is left out too, although the guard that it keeps admits the platform, and
without a platform it is part of the interface. -/
theorem dial_left_out_where_admitted : (Guard.single "gtk").admits "gtk" = true ∧
    ((ported.extract onGtk read).toOption.bind (·.module.infoAt? turnBySteps)).map
      (fun info ↦ (info.onlyFor, info.ignored)) = some (some (.single "gtk"), true) ∧
    ((ported.extract { onGtk with platform := none } read).toOption.bind
      (·.module.infoAt? turnBySteps)).map
        (fun info ↦ (info.onlyFor, info.ignored)) = some (some (.single "gtk"), false) :=
  ⟨by decide +kernel, by decide +kernel, by decide +kernel⟩

end Bindery
