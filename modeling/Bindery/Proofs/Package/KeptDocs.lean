import Bindery.Proofs.Emit.LeftOut
import Bindery.Proofs.Extract.Platforms
import Bindery.Proofs.Extract.Precedence
import Bindery.Proofs.Package.Emittable
import Bindery.Proofs.Package.Indexing

/-!
Declarations that are ignored with their documentation kept. A policy decides apart from each other
whether a declaration is left out of the interface and whether it is left out of the documentation.
Both decisions reach the declaration (`Policy.extract_of_ignored`). But the stub is made from the
registered interfaces, and from items that are not ignored, so that what is ignored is documented
nowhere, whether its documentation is kept or not (`Package.ignored_left_out`).
-/

set_option autoImplicit false
set_option relaxedAutoImplicit false

namespace Bindery

namespace Policy

/-- A last decision that no standing regard hides is the one that decisions come to. -/
theorem decisionAfter_of_no_regard {decisions : List (String × Visibility)} {m : Module}
    {d : Location} (h : ∀ regard ∈ standing decisions, m.covers regard.1 d = true →
      regard.2.ignore = true) :
    decisionAfter decisions m d = lastDecision decisions m d := by
  have hnone : ((standing decisions).filter (!·.2.ignore)).filter
      (fun decision ↦ m.covers decision.1 d) = [] := by
    refine List.filter_eq_nil_iff.2 fun decision hdecision hcovers ↦ ?_
    obtain ⟨hmem, hregard⟩ := List.mem_filter.1 hdecision
    rw [h decision hmem hcovers] at hregard
    cases hregard
  rw [decisionAfter, lastDecision, lastWhere, hnone]
  rfl

/-- On every platform, what a policy ignores is ignored, and its documentation is left out as the
policy says. -/
theorem visibility_settledOn {policy : Policy} {m : Module} {d : Location} {ignoreDoc : Bool}
    (h : policy.decisionOn m d = some ⟨true, ignoreDoc⟩) (platform : Option String) (old : Info) :
    ((policy.settledOn platform m).info d old).visibility = ⟨true, ignoreDoc⟩ := by
  have hsettled : (policy.settledInfo m d old).visibility = ⟨true, ignoreDoc⟩ := by
    rw [settledInfo, h]
    rfl
  cases platform with
  | none =>
    have hnone : (policy.settledOn none m).info d old = policy.settledInfo m d old :=
      congrArg (fun e ↦ Revision.info e d old) (policy.passes_eq_settled m)
    rw [hnone, hsettled]
  | some platform =>
    obtain ⟨hignored, hdoc⟩ := Visibility.mk.inj hsettled
    rw [info_settledOn, Info.visibility, hignored, hdoc, Bool.true_or]

/-- A declaration that was ignored last, and that no standing regard covers, is ignored in an
extraction, and its documentation is left out or kept as this decision says. -/
theorem extract_of_ignored {start : Policy} (hstart : start.visibility = []) {edits : List Edit}
    {config : Config} {load : String → Except Error DeclFile} {extraction : Extraction}
    (hextract : (start.applyAll edits).extract config load = .ok extraction) :
    ∃ m, Module.extract load (start.applyAll edits).moduleName (start.applyAll edits).items =
        .ok m ∧
      ∀ d old ignoreDoc, m.infoAt? d = some old →
        lastDecision (edits.flatMap Edit.decisions) m d = some ⟨true, ignoreDoc⟩ →
        (∀ regard ∈ standing (edits.flatMap Edit.decisions), m.covers regard.1 d = true →
          regard.2.ignore = true) →
        ∃ new, extraction.module.infoAt? d = some new ∧ new.visibility = ⟨true, ignoreDoc⟩ := by
  cases hm : Module.extract load (start.applyAll edits).moduleName (start.applyAll edits).items with
  | error e =>
    rw [extract, hm] at hextract
    cases hextract
  | ok m =>
    obtain ⟨-, other, hother, hmodule⟩ | ⟨-, e, herror⟩ := extract_cases_on config hm
    case inr => cases hextract.symm.trans herror
    cases hextract.symm.trans hother
    refine ⟨m, rfl, fun d old ignoreDoc hold hlast hregards ↦ ?_⟩
    have hdecision : (start.applyAll edits).decisionOn m d = some ⟨true, ignoreDoc⟩ := by
      rw [decisionOn_eq (visibility_applyAll hstart edits), decisionAfter_of_no_regard hregards,
        hlast]
    exact ⟨_, by rw [hmodule, Module.infoAt?_revise, hold]; rfl,
      visibility_settledOn hdecision config.platform old⟩

end Policy

namespace Package

variable {package : Package} {s : Session} {module : String} {policy : Policy}
  {extraction : Extraction}

theorem keeps_filtered_extract (policy : Policy) :
    (package.extract policy).Moves (Session.Keeps fun s ↦ s.registry.Filtered) := by
  intro s hs
  have hregistry : ((package.extract policy).run s).2.registry = s.registry :=
    registry_of_extract rfl
  exact hregistry.symm ▸ hs

/-- Whatever a package does, it registers filtered interfaces only. -/
theorem works_filtered (package : Package) :
    package.Works (Session.Keeps fun s ↦ s.registry.Filtered) where
  extract policy _ := keeps_filtered_extract policy
  register policy _ := (keeps_filtered_extract policy).bind fun extraction s hs ↦ by
    obtain ⟨outcome, registry, hrun, hregistry⟩ :=
      View.run_forM_registerClass_cases ⟨policy, extraction.module⟩
        (View.generatedClasses ⟨policy, extraction.module⟩) s
    rw [View.registerClasses, hrun]
    intro name i hi
    change registry.interface? name = some i at hi
    rcases hregistry name with hold | ⟨-, hnew⟩
    · exact hs name i (hold ▸ hi)
    · obtain ⟨c, -, hbuilt⟩ := Option.bind_eq_some_iff.1 (hnew.symm.trans hi)
      exact View.filtered_interfaceOf (eq_ok_of_toOption hbuilt)
  settle _ _ hs name i hi := by
    obtain ⟨old, hold, hwithin⟩ := InterfaceRegistry.exists_of_foldl_settle hi
    exact (hs name old hold).of_within hwithin
  mark _ _ hs := hs
  write _ _ _ := Run.moves_writeIfChanged_of_files fun _ hs ↦ hs

/-- After any operations on a package, for a module that is prepared. A declaration whose last
decision ignores it, and that no standing regard covers, is ignored after the extraction, and marked
for the documentation as this decision says. But neither output looks at this mark of what is
ignored: what the header has for an ignored declaration it has for a destructor in the body of a
class, and the documentation stub has nothing at all for it. -/
theorem ignored_left_out {files : Files} {shared : InterfaceRegistry} (hshared : shared.Filtered)
    {operations : List Operation}
    (hs : s = package.afterOperations { files, registry := shared } operations)
    (hprepared : package.IsPrepared s module policy extraction) {rules : TypemapRules}
    {text stub : String}
    (hheader : Emit.header ⟨policy, extraction.module⟩ s.registry rules = .ok text)
    (hstub : Emit.documentation ⟨policy, extraction.module⟩ s.registry rules = .ok stub) :
    (∀ (start : Policy) (edits : List Edit), start.visibility = [] → policy = start.applyAll edits →
      ∃ m, Module.extract (package.source.load s.files ·) policy.moduleName policy.items = .ok m ∧
        ∀ d old ignoreDoc, m.infoAt? d = some old →
          Policy.lastDecision (edits.flatMap Edit.decisions) m d = some ⟨true, ignoreDoc⟩ →
          (∀ regard ∈ Policy.standing (edits.flatMap Edit.decisions),
            m.covers regard.1 d = true → regard.2.ignore = true) →
          ∃ new, extraction.module.infoAt? d = some new ∧ new.visibility = ⟨true, ignoreDoc⟩) ∧
    (∃ parts, Emit.outline ⟨policy, extraction.module⟩ s.registry rules = .ok parts ∧
      text = Text.unlines (Emit.Part.linesOf Emit.isGuarded parts) ∧
      (∀ line, .line line ∈ parts → line ∈ Emit.opening policy ++ Emit.closing policy) ∧
      ∀ place declared body, (Emit.Part.written place declared body).Occurs parts →
        declared.info.ignored = true → place = .member ∧
          ∃ m : Method, declared = .method ⟨m, []⟩ ∧ m.isCtor = false ∧ m.isDtor = true) ∧
    ∃ parts, Emit.stubOutline ⟨policy, extraction.module⟩ s.registry rules = .ok parts ∧
      stub = Text.unlines (Emit.Part.linesOf Emit.heedsNone parts) ∧
      (∀ line, .line line ∈ parts → line ∈ Emit.stubOpening policy ++ Emit.stubClosing policy) ∧
      ∀ place declared body, (Emit.Part.written place declared body).Occurs parts →
        declared.info.ignored = false ∧ declared.info.ignoreDoc = false := by
  have hfiltered : s.registry.Filtered := by
    rw [hs]
    exact (works_filtered package).afterOperations _ operations hshared
  have haccounted : package.Accounted s := by
    rw [hs]
    exact ((reachable_start package files shared).afterOperations operations).accounted
  refine ⟨fun start edits hstart hpolicy ↦ ?_, ?_, ?_⟩
  · have hextract := haccounted.kept policy (mem_of_policy hprepared.1).1 extraction hprepared.2.1
    subst hpolicy
    exact Policy.extract_of_ignored hstart hextract
  · rw [Emit.header_eq] at hheader
    obtain ⟨parts, hparts, rfl⟩ := Prototype.exists_of_map_eq_ok hheader
    have hlines (line : String) (hline : .line line ∈ parts) := Emit.line_mem_outline hparts hline
    exact ⟨parts, hparts, rfl, hlines, Emit.every_outline hfiltered hparts⟩
  · rw [Emit.documentation_eq] at hstub
    obtain ⟨parts, hparts, rfl⟩ := Prototype.exists_of_map_eq_ok hstub
    have hlines (line : String) (hline : .line line ∈ parts) :=
      Emit.line_mem_stubOutline hparts hline
    exact ⟨parts, hparts, rfl, hlines, Emit.every_stubOutline hfiltered hparts⟩

namespace Panels

def method (name : String) (params : List Param) : MemberEntry :=
  .method { common := { name }, params }

/-- Classes with methods and an enumeration, more enumerations, a variable and a definition. -/
def file : DeclFile := { items := [
  .ofClass {
    common := { name := "Panel" }
    members := [
      method "Show" [], method "Show" [{ name := "deep", type := "bool" }], method "Hide" [],
      .enum { common := { name := "Side" }, values := [{ common := { name := "LEFT" } }] }] },
  .ofClass { common := { name := "Border" } },
  .enum {
    common := { name := "Mode" }
    values := [{ common := { name := "ON" } }, { common := { name := "OFF" } }] },
  .enum { common := { name := "Tint" }, values := [{ common := { name := "GREY" } }] },
  .variable { common := { name := "depth" }, type := "int" },
  .define { common := { name := "LIMIT" }, value := some "12" }] }

/-- One declaration of each kind is ignored. -/
def ignored : List String :=
  ["Panel::Show(bool)", "Panel::Side", "Border", "OFF", "Tint", "depth", "LIMIT"]

/-- One way of showing a panel. -/
def showing : Location := ⟨0, .member 0 .here, some 1⟩

/-- Where all of these are declared. -/
def places : List Location := [showing, ⟨0, .member 2 .here, none⟩,
  ⟨1, .here, none⟩, ⟨2, .value 1, none⟩, ⟨3, .here, none⟩, ⟨4, .here, none⟩, ⟨5, .here, none⟩]

def panels (edits : List Edit) : Policy := (Policy.empty "Panels" "Wx").applyAll edits

def panelling : Package where
  name := "Wx"
  config := {}
  source := .memory [("Panels", file)]
  manifest := none
  policies := [panels [.ignore ignored false]]
  distinct := by decide

def analyzed : Session := panelling.afterOperations {} [.call ⟨.analyze, "Panels"⟩]

/-- What a stub lists: the lines of the constants, and for each documented class its name, the lines
of its enumerations, and its methods by the numbers of their overloads. -/
structure Listing where
  constants : List String
  classes : List (String × List String × List (String × Nat))
  deriving Repr, DecidableEq

/-- What the stub of the panels lists under some edits. -/
def listing? (edits : List Edit) : Option Listing := do
  let policy := panels edits
  let extraction ← (policy.extract {} fun _ ↦ .ok file).toOption
  let view : View := ⟨policy, extraction.module⟩
  let classes ← (view.generatedClasses.filter (!·.info.ignoreDoc)).mapM fun c ↦ do
    let i ← (view.interfaceOf c).toOption
    return (c.name, Emit.memberEnumStubs i,
      (Emit.stubMethods policy c i).map fun (name, overloads) ↦ (name, overloads.length))
  return { constants := Emit.constantStubs extraction.module, classes }

end Panels

open Panels in
/-- One way of showing a panel is ignored, and its documentation is to be kept. But the stub has
nothing for it. -/
theorem panel_showing_not_documented : ∃ extraction text stub,
    let view : View := ⟨panels [.ignore ignored false], extraction.module⟩
    panelling.IsPrepared analyzed "Panels" view.policy extraction ∧
      Emit.header view analyzed.registry {} = .ok text ∧
      Emit.documentation view analyzed.registry {} = .ok stub ∧
      ∃ new, extraction.module.infoAt? showing = some new ∧ new.visibility = ⟨true, false⟩ ∧
        ∃ parts, stub = Text.unlines (Emit.Part.linesOf Emit.heedsNone parts) ∧
          ∀ place declared body, (Emit.Part.written place declared body).Occurs parts →
            declared.info ≠ new := by
  have hanalyzed : ((panelling.analyze "Panels").run {}).2 = analyzed :=
    (after_analyze panelling {} "Panels").symm
  have hok : ((panelling.analyze "Panels").run {}).1.toOption.isSome = true := by decide +kernel
  obtain ⟨extraction, hextraction⟩ := Option.isSome_iff_exists.1 hok
  have hanalyze : (panelling.analyze "Panels").run {} = (.ok extraction, analyzed) :=
    Prod.ext (eq_ok_of_toOption hextraction) hanalyzed
  obtain ⟨policy, hprepared⟩ := isPrepared_of_analyze_eq_ok hanalyze
  obtain rfl : panels [.ignore ignored false] = policy :=
    Except.ok.inj (Eq.trans rfl hprepared.1)
  have hreachable : panelling.Reachable panelling.KeepsDeclarations analyzed :=
    (reachable_start panelling .empty []).afterOperations _
  have hemittable : View.Emittable ⟨panels [.ignore ignored false], extraction.module⟩
      analyzed.registry :=
    { registered := hprepared.2.2
      based := hreachable.basesKnown _ List.mem_cons_self extraction hprepared.2.1 }
  obtain ⟨text, htext⟩ := Emit.exists_header hemittable {}
  obtain ⟨stub, hstub⟩ := Emit.exists_documentation hemittable {}
  have hshared : InterfaceRegistry.Filtered [] := fun _ _ h ↦ by cases h
  have hs : analyzed = panelling.afterOperations { files := .empty, registry := [] }
      [.call ⟨.analyze, "Panels"⟩] := rfl
  obtain ⟨hdecided, -, parts, -, hlines, -, hlisted⟩ :=
    ignored_left_out hshared hs hprepared htext hstub
  obtain ⟨m, hm, hnew⟩ := hdecided (Policy.empty "Panels" "Wx") [.ignore ignored false] rfl rfl
  have hread : (Module.extract (panelling.source.load analyzed.files ·) "Panels"
      ["Panels"]).toOption.any (fun m ↦ (m.infoAt? showing).isSome &&
        Policy.lastDecision (ignored.map (·, ⟨true, false⟩)) m showing == some ⟨true, false⟩) =
          true := by
    decide +kernel
  rw [show Module.extract (panelling.source.load analyzed.files ·) "Panels" ["Panels"] = .ok m
    from hm] at hread
  obtain ⟨hsome, hlast⟩ := Bool.and_eq_true_iff.1 hread
  obtain ⟨old, hold⟩ := Option.isSome_iff_exists.1 hsome
  have hregards : ∀ decision ∈ Policy.standing ([Edit.ignore ignored false].flatMap Edit.decisions),
      decision.2.ignore = true := by
    decide
  obtain ⟨new, hinfo, hvisibility⟩ := hnew showing old false hold (beq_iff_eq.1 hlast)
    fun regard hregard _ ↦ hregards regard hregard
  refine ⟨extraction, text, stub, hprepared, htext, hstub, new, hinfo, hvisibility, parts, hlines,
    fun place declared body hoccurs heq ↦ ?_⟩
  have hignored : declared.info.ignored = true := by rw [heq]; exact congrArg (·.ignore) hvisibility
  exact Bool.noConfusion ((hlisted place declared body hoccurs).1.symm.trans hignored)

open Panels in
/-- What the stub lists is the same whether the documentation of what is ignored is kept or not, and
it is not what the stub lists when nothing is ignored. -/
theorem panels_not_documented :
    (((panels [.ignore ignored false]).extract {} fun _ ↦ .ok file).toOption.map fun extraction ↦
      places.map fun d ↦ (extraction.module.infoAt? d).map Info.visibility) =
        some (places.map fun _ ↦ some ⟨true, false⟩) ∧
    listing? [.ignore ignored false] = some {
      constants := ["", "  # Mode values", "  ON = nil"]
      classes := [("Panel", [], [("show", 1), ("hide", 1)])] } ∧
    listing? [.ignore ignored true] = listing? [.ignore ignored false] ∧
    listing? [] = some {
      constants := ["", "  # Mode values", "  ON = nil", "  OFF = nil", "", "  # Tint values",
        "  GREY = nil", "", "  # @return [Integer]", "  DEPTH = nil", "", "  LIMIT = nil"]
      classes := [
        ("Panel", ["", "    # Side values", "    LEFT = nil"], [("show", 2), ("hide", 1)]),
        ("Border", [], [])] } := by
  decide +kernel

end Package

end Bindery
