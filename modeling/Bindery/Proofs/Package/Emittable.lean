import Bindery.Proofs.Package.Emission
import Bindery.Proofs.Package.Reachability

/-!
Modules whose outputs can be made. The header and the documentation of a module need two things of
each class that it generates: that the base class is known, and that the class is registered under
the name that it is generated under. The first is decided when the module is extracted, and only
such extractions are kept (`Reachable.basesKnown`). The second is brought about by the analysis, and
no class is ever taken out of the registry (`Continues.registry`). So once a module has been
analyzed, its header and its documentation can be made, whatever happens next
(`emittable_once_analyzed`).
-/

set_option autoImplicit false
set_option relaxedAutoImplicit false

namespace Bindery

/-! ### Texts -/

/-- Each class that the module generates is registered, and its base class is known. -/
structure View.Emittable (view : View) (registry : InterfaceRegistry) : Prop where
  registered : ∀ c ∈ view.generatedClasses, registry.hasClass (view.className c) = true
  based : ∀ c ∈ view.generatedClasses, ∃ base, view.baseClass c = .ok base

section Emittable

variable {view : View} {registry : InterfaceRegistry} (h : view.Emittable registry)

include h

theorem View.Emittable.expect {c : Class} (hc : c ∈ view.generatedClasses) :
    ∃ interface, registry.expect (view.className c) = .ok interface :=
  InterfaceRegistry.exists_expect_eq_ok (h.registered c hc)

theorem Emit.exists_header (rules : TypemapRules) :
    ∃ text, Emit.header view registry rules = .ok text := by
  have hlines : ∀ c ∈ view.generatedClasses, ∃ lines,
      classLines view registry rules c = .ok lines := by
    intro c hc
    obtain ⟨interface, hinterface⟩ := h.expect hc
    obtain ⟨base, hbase⟩ := h.based c hc
    exact ⟨_, bind_eq_ok.2 ⟨interface, hinterface, bind_eq_ok.2 ⟨base, hbase, rfl⟩⟩⟩
  obtain ⟨classes, hclasses⟩ := exists_mapM_eq_ok hlines
  rw [header]
  split
  · exact ⟨_, bind_eq_ok.2 ⟨classes, hclasses, rfl⟩⟩
  · exact ⟨_, rfl⟩

theorem Emit.exists_documentation (rules : TypemapRules) :
    ∃ text, Emit.documentation view registry rules = .ok text := by
  have hstubs : ∀ c ∈ view.generatedClasses.filter (!·.info.ignoreDoc), ∃ lines,
      classStub view registry rules c = .ok lines := by
    intro c hc
    have hgenerated := (List.mem_filter.1 hc).1
    obtain ⟨interface, hinterface⟩ := h.expect hgenerated
    obtain ⟨base, hbase⟩ := h.based c hgenerated
    exact ⟨_, bind_eq_ok.2 ⟨interface, hinterface, bind_eq_ok.2 ⟨base, hbase, rfl⟩⟩⟩
  obtain ⟨classes, hclasses⟩ := exists_mapM_eq_ok hstubs
  exact ⟨_, bind_eq_ok.2 ⟨classes, hclasses, rfl⟩⟩

end Emittable

namespace Package

variable {package : Package} {Changed : Files → Files → Prop} {s t u : Session} {module : String}
  {policy : Policy} {extraction : Extraction}

/-! ### Extractions -/

/-- The base classes of all classes are known that extracted modules generate. -/
def BasesKnown (package : Package) (s : Session) : Prop :=
  ∀ policy ∈ package.policies, ∀ extraction,
    s.extractions.find? policy.moduleName = some extraction →
      ∀ c ∈ View.generatedClasses ⟨policy, extraction.module⟩,
        ∃ base, View.baseClass ⟨policy, extraction.module⟩ c = .ok base

theorem keeps_basesKnown_extract (hpolicy : policy ∈ package.policies) :
    (package.extract policy).Moves (Session.Keeps package.BasesKnown) := by
  intro s hs other hother extraction hkept
  rcases find?_extractions_of_extract rfl hkept with hold | ⟨hsame, -, hbases⟩
  · exact hs other hother extraction hold
  · obtain rfl := eq_of_moduleName_eq hother hpolicy hsame
    exact hbases

theorem Reachable.basesKnown (hs : package.Reachable Changed s) : package.BasesKnown s := by
  refine hs.of_upholds (fun files registry policy _ extraction h ↦ ?_)
    (upholds_keeps (fun policy hpolicy ↦ keeps_basesKnown_extract hpolicy) ?_)
  · cases h
  · intro s t _ hextractions _ hs
    rw [BasesKnown, hextractions]
    exact hs

/-! ### Analyses -/

theorem isPrepared_of_analyze_eq_ok (h : (package.analyze module).run s = (.ok extraction, t)) :
    ∃ policy, package.IsPrepared t module policy extraction := by
  rcases package.analyze_cases module s with
    ⟨e, u, hrun, -⟩ | ⟨policy, found, u, hrun, -, hprepared, -⟩ |
      ⟨policy, found, u, hrun, -, hprepared, -⟩
  · cases hrun.symm.trans h
  · cases hrun.symm.trans h
    exact ⟨policy, hprepared⟩
  · cases hrun.symm.trans h
    exact ⟨policy, hprepared.mono (.refl _) fun _ _ hfound ↦ hfound⟩

theorem Reachable.analyze (hs : package.Reachable Changed s) (module : String) :
    package.Reachable Changed ((package.analyze module).run s).2 := by
  rw [← after_analyze]
  exact hs.operate (.call ⟨.analyze, module⟩)

/-- In every session that the package can get into, however files are changed: after a module has
been analyzed, its header and its documentation can be made with the registry of the package, by any
rules, and in every session that follows. -/
theorem emittable_once_analyzed (hs : package.Reachable Changed s)
    (hanalyze : (package.analyze module).run s = (.ok extraction, t))
    (hlater : package.Continues Changed t u) :
    ∃ policy, package.policy module = .ok policy ∧ ∀ rules,
      (∃ text, Emit.header ⟨policy, extraction.module⟩ u.registry rules = .ok text) ∧
        ∃ text, Emit.documentation ⟨policy, extraction.module⟩ u.registry rules = .ok text := by
  obtain ⟨policy, hprepared⟩ := isPrepared_of_analyze_eq_ok hanalyze
  obtain ⟨hpolicy, hextraction, hclasses⟩ := hprepared
  have ht : package.Reachable Changed t := by
    have hreached := hs.analyze module
    rwa [hanalyze] at hreached
  have hemittable : View.Emittable ⟨policy, extraction.module⟩ u.registry :=
    { registered := fun c hc ↦ hlater.registry.hasClass (hclasses c hc)
      based := ht.basesKnown policy (mem_of_policy hpolicy).1 extraction hextraction }
  exact ⟨policy, hpolicy, fun rules ↦
    ⟨Emit.exists_header hemittable rules, Emit.exists_documentation hemittable rules⟩⟩

open Drawing in
/-- The outputs of the circles can be made after the shapes have been looked up, and still when the
code of the shapes has been written behind their analysis. -/
theorem circles_emittable :
    let looked := drawing.operate (.ensure "Shape") {}
    let analyzed := (drawing.analyze "Circles").run looked
    let later := drawing.operate (.call ⟨.code, "Shapes"⟩) analyzed.2
    drawing.Reachable drawing.KeepsDeclarations looked ∧
      drawing.Continues drawing.KeepsDeclarations analyzed.2 later ∧
      ∃ extraction policy, analyzed.1 = .ok extraction ∧ drawing.policy "Circles" = .ok policy ∧
        ∀ rules,
          (∃ text, Emit.header ⟨policy, extraction.module⟩ later.registry rules = .ok text) ∧
          ∃ text, Emit.documentation ⟨policy, extraction.module⟩ later.registry rules =
            .ok text := by
  intro looked analyzed later
  have hs : drawing.Reachable drawing.KeepsDeclarations looked :=
    (reachable_start drawing .empty []).operate (.ensure "Shape")
  have hlater : drawing.Continues drawing.KeepsDeclarations analyzed.2 later :=
    .single (.operate (.call ⟨.code, "Shapes"⟩))
  have hok : analyzed.1.toOption.isSome = true := by decide +kernel
  obtain ⟨extraction, hextraction⟩ := Option.isSome_iff_exists.1 hok
  have hanalyzed : analyzed = (.ok extraction, analyzed.2) :=
    Prod.ext (eq_ok_of_toOption hextraction) rfl
  obtain ⟨policy, hpolicy, htexts⟩ := emittable_once_analyzed hs hanalyzed hlater
  exact ⟨hs, hlater, extraction, policy, eq_ok_of_toOption hextraction, hpolicy, htexts⟩

end Package

end Bindery
