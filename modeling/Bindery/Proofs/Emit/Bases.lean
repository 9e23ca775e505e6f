import Bindery.Emit.Header
import Bindery.Proofs.Emit.Sections
import Bindery.Proofs.Interface.Consistency
import Bindery.Proofs.Interface.Routes

/-!
Whether a class is compared with the base that its header names. The base class is found on a walk
up the hierarchy that folds and ignores bases as the walk through all bases does, so it is listed
among them and the check compares the class with it (`View.mem_baseList_of_baseClass`). A policy can
name the base class instead. The walk through all bases knows nothing of that: when it does not come
across the named base by itself, the header derives the class from a base that the check never looks
at (`View.declared_base_compared_iff`).
-/

set_option autoImplicit false
set_option relaxedAutoImplicit false

namespace Bindery

/-! ### Two walks up a hierarchy -/

/-- A base class that is chosen is a candidate, unless it was found beneath one. -/
theorem exists_of_chooseBase {className name : String} {folded : List String}
    {candidates : List (String × Except Error (Option String))}
    (h : chooseBase className folded candidates = .ok (some name)) :
    ∃ candidate ∈ candidates, (candidate.1 = name ∧ name ∉ folded) ∨
      candidate.2 = .ok (some name) := by
  match candidates with
  | [] => cases h
  | [(first, beneath)] =>
    rw [chooseBase] at h
    split at h
    · exact ⟨(first, beneath), List.mem_cons_self, .inr h⟩
    · rename_i hfolded
      obtain rfl : first = name := Option.some.inj (Except.ok.inj h)
      exact ⟨(first, beneath), List.mem_cons_self, .inl ⟨rfl, by simpa using hfolded⟩⟩
  | first :: second :: rest => cases h

/-- A base that is not folded is the first of its ancestors. -/
theorem Base.mem_ancestors_self {policy : Policy} {folded : List String} {base : Base}
    (h : base.name ∉ folded) : base.name ∈ base.ancestors policy folded := by
  obtain ⟨name, bases⟩ := base
  rw [Base.ancestors, if_neg (by simpa using h)]
  exact List.mem_append_left _ (List.mem_singleton_self name)

theorem Base.mem_ancestors_of_bases {policy : Policy} {folded : List String} {base : Base}
    {name : String} (h : name ∈ Base.ancestorsOf policy (policy.foldedBasesOf base.name)
      (policy.ignoredBasesOf base.name) base.bases) : name ∈ base.ancestors policy folded := by
  obtain ⟨own, bases⟩ := base
  rw [Base.ancestors]
  exact List.mem_append_right _ h

mutual

/-- What is found beneath a base is an ancestor of it. -/
theorem Base.mem_ancestorsOf_of_beneath {policy : Policy} {className name : String} :
    (base : Base) → base.beneath policy className = .ok (some name) →
      name ∈ Base.ancestorsOf policy (policy.foldedBasesOf base.name)
        (policy.ignoredBasesOf base.name) base.bases
  | ⟨own, bases⟩, h => by
    rw [Base.beneath] at h
    obtain ⟨candidate, hcandidate, hname⟩ := exists_of_chooseBase h
    exact Base.mem_ancestorsOf_of_candidates bases candidate hcandidate hname

theorem Base.mem_ancestorsOf_of_candidates {policy : Policy} {className name : String}
    {folded ignored : List String} : (bases : List Base) →
      ∀ candidate ∈ Base.candidates policy className ignored bases,
        (candidate.1 = name ∧ name ∉ folded) ∨ candidate.2 = .ok (some name) →
          name ∈ Base.ancestorsOf policy folded ignored bases
  | [], candidate, hcandidate, _ => by
    rw [Base.candidates] at hcandidate
    cases hcandidate
  | base :: bases, candidate, hcandidate, hname => by
    have hrest (hlater : candidate ∈ Base.candidates policy className ignored bases) :
        name ∈ Base.ancestorsOf policy folded ignored bases :=
      Base.mem_ancestorsOf_of_candidates bases candidate hlater hname
    rw [Base.candidates] at hcandidate
    rw [Base.ancestorsOf]
    by_cases hignored : ignored.contains base.name = true
    · rw [if_pos hignored] at hcandidate
      exact List.mem_append_right _ (hrest hcandidate)
    · rw [if_neg hignored] at hcandidate ⊢
      rcases List.mem_cons.1 hcandidate with rfl | hlater
      · refine List.mem_append_left _ ?_
        rcases hname with ⟨rfl, hfolded⟩ | hbeneath
        · exact Base.mem_ancestors_self hfolded
        · exact Base.mem_ancestors_of_bases (Base.mem_ancestorsOf_of_beneath base hbeneath)
      · exact List.mem_append_right _ (hrest hlater)

end

namespace View

variable {view : View} {c : Class} {name : String}

/-- A base class that the policy does not name is listed among the bases. -/
theorem mem_baseList_of_baseClass (hfree : view.policy.overrideBases.find? c.name = none)
    (h : view.baseClass c = .ok (some name)) : name ∈ view.baseList c := by
  rw [baseClass, hfree] at h
  obtain ⟨candidate, hcandidate, hname⟩ := exists_of_chooseBase h
  rw [mem_baseList]
  exact Base.mem_ancestorsOf_of_candidates c.bases candidate hcandidate hname

/-- A base is listed when a route leads to it. -/
theorem mem_baseList_iff_route : name ∈ view.baseList c ↔
    ∃ route ∈ view.routes c, route.getLast? = some name := by
  have hroutes := Base.getLast?_routesOf view.policy (view.policy.foldedBasesOf c.name)
    (view.policy.ignoredBasesOf c.name) c.bases
  have hmem : some name ∈ (view.routes c).map List.getLast? ↔ name ∈ view.baseList c := by
    rw [routes, hroutes, mem_baseList]
    simp
  rw [← hmem, List.mem_map]

/-- What is found about a class is found at one of its bases. -/
theorem base_mem_baseList {methodsOf : String → Table String RegisteredMethod} {finding : Finding}
    (h : finding ∈ view.decided methodsOf c) : finding.base ∈ view.baseList c := by
  have hpair : (finding.base, finding.signature) ∈
      (view.decided methodsOf c).map fun finding ↦ (finding.base, finding.signature) :=
    List.mem_map_of_mem h
  obtain ⟨base, hbase, hmem⟩ :=
    List.mem_flatMap.1 ((Finding.sublist_decided [] (view.baseList c)).subset hpair)
  obtain ⟨signature, -, hsame⟩ := List.mem_map.1 hmem
  exact (Prod.mk.inj hsame).1 ▸ hbase

/-- It does not matter what a class registers that is no base. -/
theorem decided_congr_of_not_mem {methodsOf other : String → Table String RegisteredMethod}
    (hname : name ∉ view.baseList c) (hown : name ≠ view.className c)
    (hsame : ∀ className ≠ name, methodsOf className = other className) :
    view.decided methodsOf c = view.decided other c :=
  decided_congr (hsame _ (Ne.symm hown)) fun base hbase ↦
    hsame base fun heq ↦ hname (heq ▸ hbase)

end View

/-! ### Declarations in a header -/

/-- A header holds the declaration of each generated class, with the base class that the policy
shows. -/
theorem Emit.exists_declaration {view : View} {registry : InterfaceRegistry} {rules : TypemapRules}
    {text : String} {c : Class} (h : header view registry rules = .ok text)
    (hkind : view.policy.generates .classes = true) (hc : c ∈ view.generatedClasses) :
    ∃ (scope : ClassScope) (base : Option String),
      view.baseClass c = .ok base ∧ scope.source = c ∧ scope.className = view.className c ∧
        ∃ front back, text = Text.unlines (front ++
          Guard.enclose c.info.onlyFor (scope.declaration base) ++ back) := by
  rw [header, if_pos hkind] at h
  obtain ⟨classes, hclasses, h⟩ := bind_eq_ok.1 h
  obtain ⟨lines, hlines, hclass⟩ := exists_mem_of_mapM hclasses hc
  obtain ⟨interface, -, hclass⟩ := bind_eq_ok.1 hclass
  obtain ⟨base, hbase, hclass⟩ := bind_eq_ok.1 hclass
  obtain rfl := Except.ok.inj hclass
  obtain rfl := Except.ok.inj h
  let scope : ClassScope :=
    { rules, source := c, className := view.className c, interface,
      isAbstract := view.isAbstract c }
  let declaration := Guard.enclose c.info.onlyFor (scope.declaration base)
  have hflatten : declaration <:+: classes.flatten :=
    (List.suffix_cons "" declaration).isInfix.trans (List.infix_of_mem_flatten hlines)
  have hmore {front back : List String} (h : declaration <:+: front) :
      declaration <:+: front ++ back := h.trans (List.prefix_append front back).isInfix
  refine ⟨scope, base, hbase, rfl, rfl, exists_unlines_of_infix ?_⟩
  exact hmore (hmore (hmore (hmore (hmore
    (hflatten.trans (List.suffix_append _ classes.flatten).isInfix)))))

namespace View

/-- When the header of a module can be made and its check comes to an end, in whatever sessions: the
header declares each generated class with the base class that the policy shows. This base is listed
when the policy does not name it, and when it does, only if a route leads to it all the same. If the
base is listed, it is registered after the check, and wherever it is the nearest base to have a
method, the check finds how the class differs from it there. If it is not listed, nothing that is
found about the class is about it, and nothing would change with the methods that it registers. -/
theorem declared_base_compared_iff {view : View} {registry : InterfaceRegistry}
    {rules : TypemapRules} {text : String} {c : Class}
    (hheader : Emit.header view registry rules = .ok text)
    (hkind : view.policy.generates .classes = true) (hc : c ∈ view.generatedClasses)
    {ensure : String → Run Unit} (hensure : ∀ name, (ensure name).Moves Session.RegistryGrows)
    {session after : Session} {found : List Finding}
    (hfindings : (view.findings ensure).run session = (.ok found, after)) :
    ∃ (scope : Emit.ClassScope) (base : Option String), view.baseClass c = .ok base ∧
      scope.source = c ∧ scope.className = view.className c ∧
      (∃ front back, text = Text.unlines (front ++
        Guard.enclose c.info.onlyFor (scope.declaration base) ++ back)) ∧
      ∀ name, base = some name →
        (name ∈ view.baseList c ↔ view.policy.overrideBases.find? c.name = none ∨
          ∃ route ∈ view.routes c, route.getLast? = some name) ∧
        (name ∈ view.baseList c → after.registry.hasClass name = true ∧
          ∀ signature entry conflict,
            nearest? after.registry.methodsOf signature (view.baseList c) = some (name, entry) →
            Conflict.Holds view.policy (view.className c)
              ((after.registry.methodsOf (view.className c)).find? signature) entry conflict →
              ⟨conflict, signature, view.className c, name⟩ ∈ found) ∧
        (name ∉ view.baseList c →
          (∀ finding ∈ view.decided after.registry.methodsOf c, finding.base ≠ name) ∧
          ∀ methodsOf, (∀ other ≠ name, methodsOf other = after.registry.methodsOf other) →
            name ≠ view.className c →
              view.decided methodsOf c = view.decided after.registry.methodsOf c) := by
  obtain ⟨scope, base, hbase, hsource, hname, htext⟩ := Emit.exists_declaration hheader hkind hc
  obtain ⟨hfound, -⟩ := findings_eq_ok hensure hfindings
  refine ⟨scope, base, hbase, hsource, hname, htext, fun name hsome ↦ ⟨?_, ?_, ?_⟩⟩
  · subst hsome
    constructor
    · exact fun hlisted ↦ .inr (mem_baseList_iff_route.1 hlisted)
    · rintro (hfree | hroute)
      · exact mem_baseList_of_baseClass hfree hbase
      · exact mem_baseList_iff_route.2 hroute
  · intro hlisted
    refine ⟨hasClass_of_findings hensure hfindings hc hlisted, ?_⟩
    intro signature entry conflict hnearest hconflict
    rw [hfound, List.mem_flatMap]
    exact ⟨c, hc, ((view.decides_decided after.registry c).mem_iff _).2
      ⟨rfl, entry, hnearest, hconflict⟩⟩
  · intro hunlisted
    exact ⟨fun finding hfinding heq ↦ hunlisted (heq ▸ base_mem_baseList hfinding),
      fun methodsOf hsame hown ↦ decided_congr_of_not_mem hunlisted hown hsame⟩

end View

namespace Figures

open Hierarchy

/-- Forms and shapes are drawn. -/
def forms : View := moduleOf "Forms" []
  [declare "Form" [] [virtual "Draw"], declare "Shape" [] [virtual "Draw"]]

/-- A disc is a shape. A circle is made a form, and keeps closed how it is drawn. -/
def figures : View :=
  let figures := moduleOf "Figures" ["Circle::Draw"]
    [declare "Disc" [⟨"Shape", []⟩] [virtual "Draw"], declare "Circle" [] [virtual "Draw"]]
  { figures with policy := { figures.policy with overrideBases := [("Circle", "Form")] } }

/-- All of them are registered. -/
def drawn : Session :=
  ([forms, figures].forM View.registerClasses : Run Unit).run {} |>.2

end Figures

open Figures Hierarchy in
/-- A disc is compared with the shape that its header derives it from. -/
theorem disc_compared_with_shape :
    ∃ c ∈ figures.generatedClasses, c.name = "Disc" ∧ figures.policy.generates .classes = true ∧
      ∃ text after scope, Emit.header figures drawn.registry {} = .ok text ∧
        (figures.findings known).run drawn = (.ok [], after) ∧
        (∃ front back, text = Text.unlines (front ++
          Guard.enclose c.info.onlyFor (Emit.ClassScope.declaration scope (some "Shape")) ++
            back)) ∧
        "Shape" ∈ figures.baseList c ∧ after.registry.hasClass "Shape" = true := by
  have hdisc : ∃ c ∈ figures.generatedClasses, c.name = "Disc" ∧
      (figures.baseClass c).toOption = some (some "Shape") ∧
      (figures.policy.overrideBases.find? c.name).isNone = true := by decide
  have htext : (Emit.header figures drawn.registry {}).toOption.isSome = true := by decide
  have hfound : ((figures.findings known).run drawn).1.toOption = some [] := by decide
  obtain ⟨c, hc, hname, hbase, hfree⟩ := hdisc
  obtain ⟨text, htext⟩ := Option.isSome_iff_exists.1 htext
  have hheader := eq_ok_of_toOption htext
  have hrun := Run.run_eq_of_toOption hfound
  obtain ⟨scope, base, hbaseClass, -, -, hshown, hcompared⟩ :=
    View.declared_base_compared_iff hheader rfl hc (fun _ ↦ Run.moves_pure ()) hrun
  obtain rfl : base = some "Shape" :=
    Except.ok.inj (hbaseClass.symm.trans (eq_ok_of_toOption hbase))
  obtain ⟨hlisted, hregistered, -⟩ := hcompared "Shape" rfl
  have hmem := hlisted.2 (.inl (Option.isNone_iff_eq_none.1 hfree))
  exact ⟨c, hc, hname, rfl, text, _, scope, hheader, hrun, hshown, hmem, (hregistered hmem).1⟩

open Figures Hierarchy in
/-- The header derives a circle from a form, which it is not compared with. So the check passes,
though the circle closes a method that the form keeps open. -/
theorem circle_not_compared_with_form :
    ∃ c ∈ figures.generatedClasses, c.name = "Circle" ∧
      (figures.baseClass c).toOption = some (some "Form") ∧
      (Emit.classLines figures drawn.registry {} c).toOption.any
        (·.contains "class Circle : public Form") = true ∧
      "Form" ∉ figures.baseList c ∧
      ((figures.findings known).run drawn).1.toOption = some [] ∧
      ((drawn.registry.methodsOf "Form").find? "Draw()").bind
        (Conflict.between? figures.policy "Circle"
          ((drawn.registry.methodsOf "Circle").find? "Draw()")) = some .closed := by
  decide

end Bindery
