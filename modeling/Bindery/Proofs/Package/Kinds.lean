import Bindery.Proofs.Emit.LeftOut
import Bindery.Proofs.Package.Determinism
import Bindery.Proofs.Package.Imports

/-!
Kinds of declarations that a policy leaves out. The header of a module does not depend on the
declarations of such a kind at all (`Emit.header_without`). The script of constants is made without
asking the policy: leaving out the definitions takes them from the header, and keeps the constants
that are made by a script (`Package.skipped_kinds_of_writeCode`).
-/

set_option autoImplicit false
set_option relaxedAutoImplicit false

namespace Bindery

def Item.kind : Item → GenKind
  | .ofClass _ => .classes
  | .function _ => .functions
  | .enum _ => .enums
  | .variable _ => .variables
  | .typedef _ => .typedefs
  | .define _ => .defines

/-- A module without its declarations of a kind. Members of classes stay with their class. -/
def Module.without (m : Module) (kind : GenKind) : Module :=
  { m with items := m.items.filter (·.kind != kind) }

def View.without (view : View) (kind : GenKind) : View :=
  { view with module := view.module.without kind }

namespace Module

variable {m : Module} {kind : GenKind}

theorem kind_ne_of_mem_without {item : Item} (h : item ∈ (m.without kind).items) :
    item.kind ≠ kind := by
  have hkind := (List.mem_filter.1 h).2
  simpa using hkind

section Other

variable {own : GenKind} (hne : kind ≠ own)

include hne

/-- What is made from declarations of one kind is made without those of another as well. -/
theorem flatMap_without {α : Type} {f : Item → List α}
    (hf : ∀ item, item.kind ≠ own → f item = []) :
    (m.without kind).items.flatMap f = m.items.flatMap f := by
  rw [without]
  induction m.items with
  | nil => rfl
  | cons item items ih =>
    by_cases hkind : item.kind = kind
    · rw [List.filter_cons_of_neg (by simpa using hkind), List.flatMap_cons,
        hf item (hkind ▸ hne), List.nil_append, ih]
    · rw [List.filter_cons_of_pos (by simpa using hkind), List.flatMap_cons, List.flatMap_cons, ih]

theorem filterMap_without {α : Type} {f : Item → Option α}
    (hf : ∀ item, item.kind ≠ own → f item = none) :
    (m.without kind).items.filterMap f = m.items.filterMap f := by
  rw [List.filterMap_eq_flatMap_toList, List.filterMap_eq_flatMap_toList]
  refine flatMap_without hne fun item hitem ↦ ?_
  rw [hf item hitem]
  rfl

end Other

theorem classes_without (hne : kind ≠ .classes) : (m.without kind).classes = m.classes :=
  filterMap_without hne fun item hitem ↦ by
    cases item <;> first | rfl | exact (hitem rfl).elim

theorem activeDefines_without (hne : kind ≠ .defines) :
    Constants.activeDefines (m.without kind) = Constants.activeDefines m :=
  filterMap_without hne fun item hitem ↦ by
    cases item <;> first | rfl | exact (hitem rfl).elim

theorem activeDefines_without_defines : Constants.activeDefines (m.without .defines) = [] := by
  refine List.filterMap_eq_nil_iff.2 fun item hitem ↦ ?_
  have hkind := kind_ne_of_mem_without hitem
  cases item with
  | define => exact (hkind rfl).elim
  | _ => rfl

end Module

/-! ### The header -/

namespace Emit

variable {view : View} {kind : GenKind}

/-- A section of the header is made from declarations of its own kind, and not at all when its kind
is left out. -/
theorem section_without {own : GenKind} {lines : Module → List String}
    (hskipped : view.policy.generates kind = false)
    (hlines : kind ≠ own → lines (view.module.without kind) = lines view.module) :
    (if view.policy.generates own then lines (view.module.without kind) else []) =
      if view.policy.generates own then lines view.module else [] := by
  by_cases hown : kind = own
  · rw [← hown, hskipped]
    rfl
  · rw [hlines hown]

/-- The header of a module does not depend on the declarations of a kind that is left out. -/
theorem header_without (registry : InterfaceRegistry) (rules : TypemapRules)
    (hskipped : view.policy.generates kind = false) :
    header (view.without kind) registry rules = header view registry rules := by
  have htypedefs := @section_without view kind .typedefs typedefLines hskipped fun hne ↦
    Module.flatMap_without hne fun item hitem ↦ by
      cases item <;> first | rfl | exact (hitem rfl).elim
  have hvariables := @section_without view kind .variables variableLines hskipped fun hne ↦
    Module.flatMap_without hne fun item hitem ↦ by
      cases item <;> first | rfl | exact (hitem rfl).elim
  have henums := @section_without view kind .enums enumLines hskipped fun hne ↦
    Module.flatMap_without hne fun item hitem ↦ by
      cases item <;> first | rfl | exact (hitem rfl).elim
  have hfunctions := @section_without view kind .functions (functionLines rules) hskipped fun hne ↦
    Module.flatMap_without hne fun item hitem ↦ by
      cases item <;> first | rfl | exact (hitem rfl).elim
  have hdefines := @section_without view kind .defines defineLines hskipped fun hne ↦ by
    rw [defineLines, defineLines, Module.activeDefines_without hne]
  have hclasses (hgenerates : view.policy.generates .classes = true) :
      (view.without kind).generatedClasses.mapM (classLines (view.without kind) registry rules) =
        view.generatedClasses.mapM (classLines view registry rules) := by
    have hne : kind ≠ .classes := by
      rintro rfl
      rw [hskipped] at hgenerates
      cases hgenerates
    have hsame : (view.without kind).generatedClasses = view.generatedClasses :=
      congrArg (List.filter view.isGenerated) (Module.classes_without hne)
    rw [hsame]
    rfl
  have hpolicy : (view.without kind).policy = view.policy := rfl
  have hmodule : (view.without kind).module = view.module.without kind := rfl
  simp only [header, hpolicy, hmodule, htypedefs, hvariables, henums, hdefines, hfunctions]
  split
  · rename_i hgenerates
    rw [hclasses hgenerates]
  · rfl

end Emit

/-! ### The script -/

namespace Constants

variable {m : Module} {package : String}

/-- A line of the script stands for a constant that is made when the toolkit runs. -/
theorem mem_scriptLines {line : String} : line ∈ scriptLines m ↔
    ∃ d, .define d ∈ m.items ∧ d.info.ignored = false ∧ classify? d = some (.script line) := by
  rw [scriptLines, List.mem_filterMap]
  refine exists_congr fun d ↦ ?_
  rw [mem_activeDefines, and_assoc]
  refine and_congr_right fun _ ↦ and_congr_right fun _ ↦ ?_
  split
  · rename_i found hfound
    rw [hfound, Option.some.injEq, Option.some.injEq, Emission.script.injEq]
  · rename_i hother
    exact iff_of_false (fun h ↦ by cases h) fun h ↦ hother line h

theorem script?_eq_none_iff : script? package m = none ↔ scriptLines m = [] := by
  rw [script?]
  cases hlines : scriptLines m <;> simp

/-- There is no script without definitions, and no other kind makes a difference to it. -/
theorem script?_without (kind : GenKind) :
    script? package (m.without kind) = if kind = .defines then none else script? package m := by
  split
  · rename_i hdefines
    rw [hdefines, script?_eq_none_iff, scriptLines, Module.activeDefines_without_defines]
    rfl
  · rename_i hne
    rw [script?, script?, scriptLines, scriptLines, Module.activeDefines_without hne]

end Constants

namespace Package

variable {package : Package} {s t : Session} {module : String}

/-- After the code of a module has been written, its header is the one of the module without the
declarations of any kind that is left out. Its script has a line for each constant that needs one,
whether the definitions are left out or not. It is written unless there is no such constant, so that
leaving out the definitions makes no difference to it. -/
theorem skipped_kinds_of_writeCode (h : (package.writeCode module).run s = (.ok (), t)) :
    ∃ policy extraction rules header, package.IsPrepared t module policy extraction ∧
      let view : View := ⟨policy, extraction.module⟩
      let script? := Constants.script? policy.package extraction.module
      t.files.content? (Files.destination (package.config.headerFile module)) = some header ∧
      t.files.content? (Files.destination (package.config.scriptFile module)) =
        script?.or (s.files.content? (Files.destination (package.config.scriptFile module))) ∧
      (script? = none ↔ ∀ d, .define d ∈ extraction.module.items → d.info.ignored = false →
        ∀ line, Constants.classify? d ≠ some (.script line)) ∧
      ∀ kind ∈ policy.skipped,
        Emit.header (view.without kind) t.registry rules = .ok header ∧
        Constants.script? policy.package (view.without kind).module =
          if kind = .defines then none else script? := by
  obtain ⟨policy, extraction, texts, u, hanalyze, hprepared, htexts, hcontent, hother⟩ :=
    exists_of_writeCode_eq_ok h
  obtain ⟨rules, header, hheader, rfl⟩ := codeTexts_eq_ok hprepared.1 htexts
  refine ⟨policy, extraction, rules, header, hprepared,
    hcontent _ _ (List.mem_cons_of_mem _ List.mem_cons_self), ?_, ?_, fun kind hkind ↦ ?_⟩
  · have hfiles : u.files = s.files := by
      rw [← files_analyze package module s, hanalyze]
    cases hscript : Constants.script? policy.package extraction.module with
    | some script =>
      rw [Option.some_or]
      exact hcontent _ _ (by simp [hscript])
    | none =>
      rw [Option.none_or, ← hfiles]
      refine hother _ fun hplace ↦ ?_
      have hapart := package.nodup_codeOutputs module
      simp only [outputs, List.map_cons, List.map_nil, List.nodup_cons, List.mem_cons,
        List.not_mem_nil, or_false, not_or, not_false_eq_true, List.nodup_nil, and_true] at hapart
      simp only [hscript, Option.toList_none, List.map_nil, List.map_cons, List.mem_cons,
        List.not_mem_nil, or_false] at hplace
      exact hplace.elim (fun h ↦ hapart.1.2 h.symm) fun h ↦ hapart.2 h.symm
  · rw [Constants.script?_eq_none_iff, List.eq_nil_iff_forall_not_mem]
    simp only [Constants.mem_scriptLines, not_exists, not_and]
    exact ⟨fun h d hd hactive line hline ↦ h line d hd hactive hline,
      fun h line d hd hactive hline ↦ h d hd hactive line hline⟩
  · have hskipped : policy.generates kind = false := by simp [Policy.generates, hkind]
    exact ⟨(Emit.header_without _ _ hskipped).trans hheader, Constants.script?_without kind⟩

namespace Measures

/-- A module of two definitions, which leaves out its definitions. The value of the second can only
be made while the toolkit runs. -/
def meters : Package where
  name := "Meters"
  config := {}
  source := .memory [("Dials",
    { items := [
      .define { common := { name := "wxDIAL_LIMIT" }, value := some "12" },
      .define { common := { name := "wxDIAL_SIZE" }, value := some "wxSize(-1, -1)" }] })]
  manifest := none
  policies := [{ Policy.empty "Dials" "Meters" with skipped := [.defines] }]
  distinct := by decide

def metersWritten : Session := ((meters.writeCode "Dials").run {}).2

theorem write_meters : (meters.writeCode "Dials").run {} = (.ok (), metersWritten) := by
  have hok : ((meters.writeCode "Dials").run {}).1.toOption = some () := by decide +kernel
  rw [metersWritten]
  exact Run.run_eq_of_toOption hok

end Measures

open Measures in
/-- The header of the dials is the one of a module without definitions. -/
theorem dials_header_without_defines : ∃ policy, ∃ extraction : Extraction, ∃ rules header,
    (meters.writeCode "Dials").run {} = (.ok (), metersWritten) ∧
      GenKind.defines ∈ policy.skipped ∧
      metersWritten.files.content? (Files.destination "swig/include/Dials.h") = some header ∧
      Emit.header ⟨policy, extraction.module.without .defines⟩ metersWritten.registry rules =
        .ok header := by
  obtain ⟨policy, extraction, rules, header, hprepared, hheader, -, -, hkinds⟩ :=
    skipped_kinds_of_writeCode write_meters
  obtain rfl : policy = { Policy.empty "Dials" "Meters" with skipped := [.defines] } :=
    Except.ok.inj (hprepared.1.symm.trans rfl)
  exact ⟨_, extraction, rules, header, write_meters, List.mem_cons_self, hheader,
    (hkinds .defines List.mem_cons_self).1⟩

open Measures in
/-- The module of the dials leaves out its definitions, and still a script is written because of one
of them. -/
theorem dials_script_with_define :
    (meters.policy "Dials").toOption.any (·.skipped.contains .defines) = true ∧
      (meters.writeCode "Dials").run {} = (.ok (), metersWritten) ∧
      ({} : Session).files.isFile "lib/wx/ext/dials_ext.rb" = false ∧
      metersWritten.files.isFile "lib/wx/ext/dials_ext.rb" = true ∧
      (metersWritten.extractions.find? "Dials").any (fun extraction ↦
        Constants.scriptLines extraction.module == ["  DIAL_SIZE = Wx::Size.new(-1, -1)"]) =
          true :=
  ⟨by decide, write_meters, by decide, by decide +kernel, by decide +kernel⟩

end Package

end Bindery
