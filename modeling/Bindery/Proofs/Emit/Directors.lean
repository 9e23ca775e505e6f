import Bindery.Emit.Interface
import Mathlib.Data.List.Infix

/-!
What an interface file tells cannot be overridden. Behind the code that begins it, it has one line
for each of its closed classes, in the order of the module, and then one for each name that the
policy keeps from being overridden. Any other such line comes from code that is taken over as it is
written (`Emit.closing_lines_eq`). The closed classes are the generated classes without proxies, but
if the policy has disabled all proxies then templates that are generated as classes are left out of
them.
-/

set_option autoImplicit false
set_option relaxedAutoImplicit false

namespace Bindery.Emit

/-- Whether a line of an interface file tells that something cannot be overridden. -/
def closes (line : String) : Bool := Text.startsWith "%feature(\"nodirector\") " line

/-- The code that an interface file takes over as it is written. -/
def verbatim (policy : Policy) (extraction : Extraction) (rules : TypemapRules) : List String :=
  [.header, .begin, .swigBegin, .runtime, .init, .interface, .wrapper].map policy.codeText ++
    extraction.swigCode policy :: rules.blocks .own ++
    (View.generatedClasses ⟨policy, extraction.module⟩).map fun c ↦
      extraction.extendCode policy (policy.className c.name)

/-- Among some lines, nothing but the given code tells that something cannot be overridden. -/
def ClosesOnlyBy (code lines : List String) : Prop :=
  ∀ line ∈ lines, closes line = true → line ∈ code

section Lines

variable {code lines more : List String}

theorem startsWith_append (start rest : String) : Text.startsWith start (start ++ rest) = true := by
  rw [Text.startsWith, String.toList_append, List.isPrefixOf_iff_prefix]
  exact List.prefix_append _ _

theorem closes_noDirectorLine (name : String) : closes (noDirectorLine name) = true :=
  (congrArg closes String.append_assoc).trans (startsWith_append _ _)

/-- Of two texts that begin the same line, one begins with the other. -/
theorem closes_append_eq_false {start : String} (rest : String)
    (h : (closes start || Text.startsWith start "%feature(\"nodirector\") ") = false) :
    closes (start ++ rest) = false := by
  rw [Bool.or_eq_false_iff] at h
  rw [Bool.eq_false_iff] at *
  intro hcloses
  rw [closes, Text.startsWith, String.toList_append, List.isPrefixOf_iff_prefix] at hcloses
  rcases List.prefix_or_prefix_of_prefix hcloses (List.prefix_append _ _) with hprefix | hprefix
  · exact h.1 (List.isPrefixOf_iff_prefix.2 hprefix)
  · exact Bool.eq_false_iff.1 h.2 (List.isPrefixOf_iff_prefix.2 hprefix)

theorem closes_between_eq_false {start : String} (middle rest : String)
    (h : (closes start || Text.startsWith start "%feature(\"nodirector\") ") = false) :
    closes (start ++ middle ++ rest) = false :=
  (congrArg closes String.append_assoc).trans (closes_append_eq_false _ h)

theorem closesOnlyBy_append :
    ClosesOnlyBy code (lines ++ more) ↔ ClosesOnlyBy code lines ∧ ClosesOnlyBy code more :=
  List.forall_mem_append

theorem closesOnlyBy_cons {line : String} (hline : closes line = false)
    (h : ClosesOnlyBy code lines) : ClosesOnlyBy code (line :: lines) :=
  List.forall_mem_cons.2 ⟨fun hcloses ↦ absurd (hcloses.symm.trans hline) Bool.noConfusion, h⟩

theorem closesOnlyBy_of_all (h : lines.all (!closes ·) = true) : ClosesOnlyBy code lines := by
  intro line hline hcloses
  have hopen := List.all_eq_true.1 h line hline
  rw [hcloses] at hopen
  cases hopen

theorem closesOnlyBy_of_subset (h : lines ⊆ code) : ClosesOnlyBy code lines :=
  fun _ hline _ ↦ h hline

theorem closesOnlyBy_map {α : Type} {f : α → String} {l : List α}
    (h : ∀ a ∈ l, closes (f a) = false) : ClosesOnlyBy code (l.map f) := by
  intro line hline hcloses
  obtain ⟨a, ha, rfl⟩ := List.mem_map.1 hline
  rw [h a ha] at hcloses
  cases hcloses

theorem closesOnlyBy_flatMap {α : Type} {f : α → List String} {l : List α}
    (h : ∀ a ∈ l, ClosesOnlyBy code (f a)) : ClosesOnlyBy code (l.flatMap f) := by
  intro line hline
  obtain ⟨a, ha, hline⟩ := List.mem_flatMap.1 hline
  exact h a ha line hline

theorem closesOnlyBy_ite {shown : Prop} [Decidable shown] (h : ClosesOnlyBy code lines)
    (hmore : ClosesOnlyBy code more) : ClosesOnlyBy code (if shown then lines else more) := by
  split
  · exact h
  · exact hmore

/-- Code with what stands around it. -/
theorem closesOnlyBy_around (front : List String) {back : List String} {piece : String}
    (hpiece : piece ∈ code) (hfront : ClosesOnlyBy code front) (hback : ClosesOnlyBy code back) :
    ClosesOnlyBy code (front ++ piece :: back) :=
  closesOnlyBy_append.2 ⟨hfront, List.forall_mem_cons.2 ⟨fun _ ↦ hpiece, hback⟩⟩

theorem closesOnlyBy_plainCode {piece : String} (hpiece : piece ∈ code) :
    ClosesOnlyBy code (plainCode piece) :=
  closesOnlyBy_ite (closesOnlyBy_of_all rfl)
    (closesOnlyBy_around [""] hpiece (closesOnlyBy_of_all rfl) (closesOnlyBy_of_all rfl))

theorem closesOnlyBy_codeBlock {directive piece : String} (hpiece : piece ∈ code)
    (h : closes (directive ++ " %\x7b") = false) : ClosesOnlyBy code (codeBlock directive piece) :=
  closesOnlyBy_ite (closesOnlyBy_of_all rfl)
    (closesOnlyBy_around ["", directive ++ " %\x7b"] hpiece
      (closesOnlyBy_of_all (by simp [h]; rfl)) (closesOnlyBy_of_all rfl))

end Lines

section Files

variable {code : List String} {policy : Policy} {view : View}

theorem closesOnlyBy_gcLines : ClosesOnlyBy code (gcLines view) := by
  have hgc (c : Class) (name : String) : closes (gcLine view c name) = false := by
    rw [gcLine, String.append_assoc, String.append_assoc]
    refine closes_append_eq_false _ ?_
    cases view.gcType c <;> rfl
  exact closesOnlyBy_flatMap fun c _ ↦
    closesOnlyBy_cons (hgc c _) (closesOnlyBy_map fun inner _ ↦ hgc inner _)

theorem closesOnlyBy_beginLines {includes : List String} (hheader : policy.codeText .header ∈ code)
    (hbegin : policy.codeText .begin ∈ code) (hswig : policy.codeText .swigBegin ∈ code) :
    ClosesOnlyBy code (beginLines policy includes) := by
  have hdisown (disown : String × Bool) : closes (disownLine disown) = false := by
    unfold disownLine
    simp only [String.append_assoc]
    exact closes_append_eq_false _ rfl
  have hnew (decl : String) : closes ("%newobject " ++ decl ++ ";") = false :=
    closes_between_eq_false _ _ rfl
  have hinclude (header : String) : closes ("#include \"" ++ header ++ "\"") = false :=
    closes_between_eq_false _ _ rfl
  rw [beginLines, includeLines]
  simp only [closesOnlyBy_append]
  exact ⟨⟨⟨⟨⟨⟨⟨closesOnlyBy_cons rfl (closesOnlyBy_map fun disown _ ↦ hdisown disown),
    closesOnlyBy_map fun decl _ ↦ hnew decl⟩, closesOnlyBy_of_all rfl⟩,
    closesOnlyBy_map fun header _ ↦ hinclude header⟩, closesOnlyBy_plainCode hheader⟩,
    closesOnlyBy_of_all rfl⟩, closesOnlyBy_codeBlock hbegin rfl⟩, closesOnlyBy_plainCode hswig⟩

theorem closesOnlyBy_renameLines (renames : Table String (List String)) :
    ClosesOnlyBy code (renameLines renames) := by
  refine closesOnlyBy_flatMap fun rename _ ↦ closesOnlyBy_map fun source _ ↦ ?_
  simp only [String.append_assoc]
  exact closes_append_eq_false _ rfl

theorem closesOnlyBy_extendLines {extraction : Extraction} {c : Class}
    (h : extraction.extendCode view.policy (view.policy.className c.name) ∈ code) :
    ClosesOnlyBy code (extendLines view extraction c) := by
  have hextend : closes ("%extend " ++ view.policy.className c.name ++ " \x7b") = false :=
    closes_between_eq_false _ _ rfl
  exact closesOnlyBy_ite (closesOnlyBy_of_all rfl)
    (closesOnlyBy_cons rfl (closesOnlyBy_cons hextend
      (closesOnlyBy_around [] h (closesOnlyBy_of_all rfl) (closesOnlyBy_of_all rfl))))

theorem closesOnlyBy_importLines {config : Config} (h : view.policy.codeText .interface ∈ code) :
    ClosesOnlyBy code (importLines view config) := by
  have himport (file : String) : closes ("%import \"" ++ file ++ "\"") = false :=
    closes_between_eq_false _ _ rfl
  have hinclude (file : String) : closes ("%include \"" ++ file ++ "\"") = false :=
    closes_between_eq_false _ _ rfl
  rw [importLines]
  simp only [closesOnlyBy_append]
  exact ⟨⟨closesOnlyBy_cons rfl (closesOnlyBy_map fun file _ ↦ himport file),
    closesOnlyBy_map fun file _ ↦ hinclude file⟩,
    closesOnlyBy_ite
      (closesOnlyBy_cons rfl (closesOnlyBy_cons (hinclude _) (closesOnlyBy_of_all rfl)))
      (closesOnlyBy_around [""] h (closesOnlyBy_of_all rfl) (closesOnlyBy_of_all rfl))⟩

/-- What follows the closed classes and the names in a section of the runtime. -/
def runtimeRest (policy : Policy) : List String :=
  renameLines policy.renames ++ renameLines policy.rubyRenames ++
    policy.mixins.map (fun mixin ↦ "%feature(\"mixin\") " ++ mixin ++ ";") ++
    ["", "%runtime %\x7b"] ++
    (if (policy.codeText .runtime).isEmpty then [] else [policy.codeText .runtime]) ++
    ["extern VALUE " ++ packageVariable policy.package ++ "; // The global package module",
      "WXRUBY_EXPORT VALUE wxRuby_Core(); // returns the core package module", "%\x7d"]

theorem runtimeLines_eq (view : View) : runtimeLines view =
    [""] ++ (closedClasses view).map (fun c ↦ noDirectorLine (view.policy.className c.name)) ++
      view.policy.noProxies.map noDirectorLine ++ runtimeRest view.policy := by
  simp only [runtimeLines, runtimeRest, List.append_assoc, List.cons_append, List.nil_append]

theorem closesOnlyBy_runtimeRest (h : policy.codeText .runtime ∈ code) :
    ClosesOnlyBy code (runtimeRest policy) := by
  have hmixin (mixin : String) : closes ("%feature(\"mixin\") " ++ mixin ++ ";") = false :=
    closes_between_eq_false _ _ rfl
  have hvariable : closes ("extern VALUE " ++ packageVariable policy.package ++
      "; // The global package module") = false :=
    closes_between_eq_false _ _ rfl
  rw [runtimeRest]
  simp only [closesOnlyBy_append]
  exact ⟨⟨⟨⟨⟨closesOnlyBy_renameLines _, closesOnlyBy_renameLines _⟩,
    closesOnlyBy_map fun mixin _ ↦ hmixin mixin⟩, closesOnlyBy_of_all rfl⟩,
    closesOnlyBy_ite (closesOnlyBy_of_all rfl)
      (closesOnlyBy_of_subset (List.cons_subset.2 ⟨h, List.nil_subset _⟩))⟩,
    closesOnlyBy_cons hvariable (closesOnlyBy_of_all rfl)⟩

/-- Without proxies, templates that are generated as classes are not closed. -/
theorem closedClasses_eq (view : View) : closedClasses view = view.generatedClasses.filter fun c ↦
    !view.hasProxy c && !(view.policy.disabledProxies && c.isTemplate) := by
  rw [closedClasses, View.generatedClasses]
  cases hdisabled : view.policy.disabledProxies with
  | false => simp
  | true =>
    have hproxy (c : Class) : view.hasProxy c = false := by simp [View.hasProxy, hdisabled]
    rw [if_pos rfl, List.filter_filter]
    refine List.filter_congr fun c _ ↦ ?_
    cases htemplate : c.isTemplate <;> simp [hproxy, View.isGenerated, htemplate]

theorem closedClasses_eq_filter_iff (view : View) :
    closedClasses view = view.generatedClasses.filter (!view.hasProxy ·) ↔
      (view.policy.disabledProxies = true → ∀ c ∈ view.generatedClasses, c.isTemplate = false) := by
  rw [closedClasses_eq]
  constructor
  · intro h hdisabled c hc
    have hproxy : view.hasProxy c = false := by simp [View.hasProxy, hdisabled]
    have hmem : c ∈ view.generatedClasses.filter (!view.hasProxy ·) :=
      List.mem_filter.2 ⟨hc, by rw [hproxy]; rfl⟩
    rw [← h] at hmem
    simpa [hproxy, hdisabled] using (List.mem_filter.1 hmem).2
  · intro h
    refine List.filter_congr fun c hc ↦ ?_
    cases hdisabled : view.policy.disabledProxies with
    | false => simp
    | true => simp [h hdisabled c hc]

end Files

/-- The lines of an interface file in front of its closing lines. -/
def beforeClosing (policy : Policy) (extraction : Extraction) : List String :=
  notice ++
    ["", "%include \"../common.i\"", "", "%module(directors=\"1\") " ++ policy.moduleName, ""] ++
    gcLines ⟨policy, extraction.module⟩ ++ beginLines policy extraction.includes ++ [""]

/-- The lines of an interface file behind its closing lines. -/
def behindClosing (policy : Policy) (extraction : Extraction) (rules : TypemapRules)
    (config : Config) : List String :=
  let view : View := ⟨policy, extraction.module⟩
  runtimeRest policy ++ typemapLines rules ++ plainCode (extraction.swigCode policy) ++
    codeBlock "%init" (policy.codeText .init) ++
    view.generatedClasses.flatMap (extendLines view extraction) ++ importLines view config ++
    codeBlock "%wrapper" (policy.codeText .wrapper)

section Files

variable {policy : Policy} {extraction : Extraction} {rules : TypemapRules} {config : Config}

theorem codeText_mem_verbatim {part : CodeSection} (h : part ≠ .swig) :
    policy.codeText part ∈ verbatim policy extraction rules := by
  refine List.mem_append_left _ (List.mem_append_left _ (List.mem_map_of_mem ?_))
  cases part <;> simp_all

theorem closesOnlyBy_beforeClosing :
    ClosesOnlyBy (verbatim policy extraction rules) (beforeClosing policy extraction) := by
  have hmodule : closes ("%module(directors=\"1\") " ++ policy.moduleName) = false :=
    closes_append_eq_false _ rfl
  simp only [beforeClosing, closesOnlyBy_append]
  exact ⟨⟨⟨⟨closesOnlyBy_of_all rfl, closesOnlyBy_cons rfl (closesOnlyBy_cons rfl
    (closesOnlyBy_cons rfl (closesOnlyBy_cons hmodule (closesOnlyBy_of_all rfl))))⟩,
    closesOnlyBy_gcLines⟩,
    closesOnlyBy_beginLines (codeText_mem_verbatim (by decide)) (codeText_mem_verbatim (by decide))
      (codeText_mem_verbatim (by decide))⟩, closesOnlyBy_of_all rfl⟩

theorem closesOnlyBy_behindClosing : ClosesOnlyBy (verbatim policy extraction rules)
    (behindClosing policy extraction rules config) := by
  have hswig : extraction.swigCode policy ∈ verbatim policy extraction rules := by simp [verbatim]
  have hblocks : rules.blocks .own ⊆ verbatim policy extraction rules := by
    intro block hblock
    simp [verbatim, hblock]
  have hextend (c : Class) (hc : c ∈ View.generatedClasses ⟨policy, extraction.module⟩) :
      extraction.extendCode policy (policy.className c.name) ∈ verbatim policy extraction rules :=
    List.mem_append_right _ (List.mem_map_of_mem hc)
  simp only [behindClosing, closesOnlyBy_append]
  exact ⟨⟨⟨⟨⟨⟨closesOnlyBy_runtimeRest (codeText_mem_verbatim (by decide)),
    closesOnlyBy_ite (closesOnlyBy_of_all rfl)
      (closesOnlyBy_cons rfl (closesOnlyBy_of_subset hblocks))⟩,
    closesOnlyBy_plainCode hswig⟩,
    closesOnlyBy_codeBlock (codeText_mem_verbatim (by decide)) rfl⟩,
    closesOnlyBy_flatMap fun c hc ↦ closesOnlyBy_extendLines (hextend c hc)⟩,
    closesOnlyBy_importLines (codeText_mem_verbatim (by decide))⟩,
    closesOnlyBy_codeBlock (codeText_mem_verbatim (by decide)) rfl⟩

end Files

/-- An interface file has a closing line for each closed class, in the order of the module, and then
for each name that the policy keeps from being overridden; only code that is taken over can have
others. The closed classes are the generated classes without proxies, unless all proxies are
disabled and a template is generated as a class. -/
theorem closing_lines_eq (policy : Policy) (extraction : Extraction) (rules : TypemapRules)
    (config : Config) :
    let view : View := ⟨policy, extraction.module⟩
    let closing := (closedClasses view).map (fun c ↦ noDirectorLine (policy.className c.name)) ++
      policy.noProxies.map noDirectorLine
    interfaceFile policy extraction rules config = Text.unlines (beforeClosing policy extraction ++
        closing ++ behindClosing policy extraction rules config) ∧
      closing.all closes = true ∧
      ClosesOnlyBy (verbatim policy extraction rules)
        (beforeClosing policy extraction ++ behindClosing policy extraction rules config) ∧
      (closedClasses view = view.generatedClasses.filter fun c ↦
        !view.hasProxy c && !(policy.disabledProxies && c.isTemplate)) ∧
      (closedClasses view = view.generatedClasses.filter (!view.hasProxy ·) ↔
        (policy.disabledProxies = true → ∀ c ∈ view.generatedClasses, c.isTemplate = false)) := by
  intro view closing
  refine ⟨?_, ?_, closesOnlyBy_append.2 ⟨closesOnlyBy_beforeClosing, closesOnlyBy_behindClosing⟩,
    closedClasses_eq view, closedClasses_eq_filter_iff view⟩
  · rw [interfaceFile, runtimeLines_eq, beforeClosing, behindClosing]
    simp only [closing, view, List.append_assoc]
  · simp [closing, List.all_append, closes_noDirectorLine]

namespace Sheets

def sheet : Class where
  info := { name := "Sheet" }

/-- A template that is generated as a class. -/
def pile : Class where
  info := { name := "Pile" }
  isTemplate := true

def policy : Policy :=
  { Policy.empty "Sheets" "Paper" with
    disabledProxies := true, templatesAsClass := [("Pile", "SheetPile")] }

def extraction : Extraction where
  module := { name := "Sheets", items := [.ofClass sheet, .ofClass pile] }
  includes := []
  deprecations := {}

end Sheets

open Sheets in
/-- A pile of sheets is generated and has no proxy, but no line of the file closes it. -/
theorem pile_not_closed :
    let view : View := ⟨policy, extraction.module⟩
    let others := beforeClosing policy extraction ++ behindClosing policy extraction {} {}
    view.generatedClasses = [sheet, pile] ∧ view.hasProxy pile = false ∧
      policy.className pile.name = "SheetPile" ∧
      interfaceFile policy extraction {} {} = Text.unlines (beforeClosing policy extraction ++
        [noDirectorLine "Sheet"] ++ behindClosing policy extraction {} {}) ∧
      others.contains (noDirectorLine "SheetPile") = false := by
  refine ⟨rfl, rfl, rfl, ?_, ?_⟩
  · rfl
  · decide +kernel

end Bindery.Emit
