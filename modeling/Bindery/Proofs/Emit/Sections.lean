import Bindery.Emit.Interface
import Mathlib.Data.List.Infix

/-!
An interface file as its sections. Each section stands in the file between the lines of those before
it and the lines of those behind it (`Emit.exists_of_mem_sections`).
-/

set_option autoImplicit false
set_option relaxedAutoImplicit false

namespace Bindery.Emit

/-- Lines that stand together among others stand together in their text. -/
theorem exists_unlines_of_infix {part lines : List String} (h : part <:+: lines) :
    ∃ front back, Text.unlines lines = Text.unlines (front ++ part ++ back) := by
  obtain ⟨front, back, rfl⟩ := h
  exact ⟨front, back, rfl⟩

variable {policy : Policy} {extraction : Extraction} {rules : TypemapRules} {config : Config}

/-- The sections of an interface file, in order. Each generated class has one for what it is
extended with. -/
def sections (policy : Policy) (extraction : Extraction) (rules : TypemapRules) (config : Config) :
    List (List String) :=
  let view : View := ⟨policy, extraction.module⟩
  [notice,
    ["", "%include \"../common.i\"", "", "%module(directors=\"1\") " ++ policy.moduleName, ""],
    gcLines view, beginLines policy extraction.includes, runtimeLines view, typemapLines rules,
    plainCode (extraction.swigCode policy), codeBlock "%init" (policy.codeText .init)] ++
    view.generatedClasses.map (extendLines view extraction) ++
    [importLines view config, codeBlock "%wrapper" (policy.codeText .wrapper)]

theorem interfaceFile_eq_sections : interfaceFile policy extraction rules config =
    Text.unlines (sections policy extraction rules config).flatten := by
  simp only [interfaceFile, sections, List.flatten_append, List.flatten_cons, List.flatten_nil,
    List.append_nil, List.append_assoc, List.flatMap_def]

theorem exists_of_mem_sections {lines : List String}
    (h : lines ∈ sections policy extraction rules config) :
    ∃ front back, interfaceFile policy extraction rules config =
      Text.unlines (front ++ lines ++ back) := by
  rw [interfaceFile_eq_sections]
  exact exists_unlines_of_infix (List.infix_of_mem_flatten h)

theorem importLines_mem_sections (policy : Policy) (extraction : Extraction)
    (rules : TypemapRules) (config : Config) :
    importLines ⟨policy, extraction.module⟩ config ∈ sections policy extraction rules config :=
  List.mem_append_right _ List.mem_cons_self

theorem extendLines_mem_sections (rules : TypemapRules) (config : Config) {c : Class}
    (hc : c ∈ View.generatedClasses ⟨policy, extraction.module⟩) :
    extendLines ⟨policy, extraction.module⟩ extraction c ∈
      sections policy extraction rules config :=
  List.mem_append_left _ (List.mem_append_right _ (List.mem_map_of_mem hc))

end Bindery.Emit
