import Bindery.Proofs.Emit.Sections
import Bindery.Proofs.Package.Emittable
import Bindery.Proofs.Package.Indexing
import Bindery.Proofs.Package.OutputPaths

/-!
The imports of an interface file. Besides the files of the policy, the interface file of a module
imports a header for each base of its classes that it does not declare itself
(`Emit.mem_imports`). Headers are written for modules and named like them, but the import names the
header like the class. So it names the header of the module that generates the base when this module
is named like the base, and otherwise that of another module or none at all
(`Package.imports_named_like_bases`).
-/

set_option autoImplicit false
set_option relaxedAutoImplicit false

namespace Bindery

section Headers

variable {config : Config} {module : String}

/-- Different modules have different headers. -/
theorem Config.headerInclude_inj {other : String} :
    config.headerInclude module = config.headerInclude other ↔ module = other := by
  constructor
  · intro h
    have htexts := congrArg String.toList h
    simp only [headerInclude, String.toList_append] at htexts
    exact String.toList_inj.1 (List.append_cancel_left (List.append_cancel_right htexts))
  · exact congrArg config.headerInclude

theorem Config.headerInclude_mem_map {modules : List String} :
    config.headerInclude module ∈ modules.map config.headerInclude ↔ module ∈ modules := by
  constructor
  · intro h
    obtain ⟨other, hother, heq⟩ := List.mem_map.1 h
    exact headerInclude_inj.1 heq ▸ hother
  · exact List.mem_map_of_mem

end Headers

namespace Emit

variable {view : View} {config : Config}

/-- Each file is imported for the policy, or for a base that the module does not declare. -/
theorem mem_imports {file : String} : file ∈ imports view config ↔
    file ∈ view.policy.swigImportsPrepend ∨
      (∃ c ∈ view.generatedClasses, ∃ base ∈ foreignBases view c,
        file = config.headerInclude base) ∨
      file ∈ view.policy.swigImportsAppend := by
  have hbases : file ∈ (view.generatedClasses.flatMap (foreignBases view)).map
      config.headerInclude ↔ ∃ c ∈ view.generatedClasses, ∃ base ∈ foreignBases view c,
        file = config.headerInclude base := by
    simp only [List.mem_map, List.mem_flatMap]
    constructor
    · rintro ⟨base, ⟨c, hc, hbase⟩, rfl⟩
      exact ⟨c, hc, base, hbase, rfl⟩
    · rintro ⟨c, hc, base, hbase, rfl⟩
      exact ⟨base, ⟨c, hc, hbase⟩, rfl⟩
  rw [imports, mem_addAllNew, List.mem_append, List.mem_append, hbases, or_assoc]
  exact or_iff_right List.not_mem_nil

def importLine (file : String) : String := "%import \"" ++ file ++ "\""

/-- The interface file has one line for each import. -/
theorem exists_importLines (policy : Policy) (extraction : Extraction) (rules : TypemapRules)
    (config : Config) : ∃ front back, interfaceFile policy extraction rules config =
      Text.unlines (front ++ (imports ⟨policy, extraction.module⟩ config).map importLine ++
        back) := by
  obtain ⟨front, back, h⟩ := exists_of_mem_sections
    (importLines_mem_sections policy extraction rules config)
  rw [h]
  unfold importLines
  exact ⟨front ++ [""], _, by
    simp only [List.append_assoc, List.cons_append, List.nil_append]; rfl⟩

end Emit

/-! ### Written files -/

theorem Run.moves_writeTexts (texts : List (String × String)) :
    (writeTexts texts).Moves (Session.Writes (texts.map Prod.fst)) :=
  moves_forM fun entry hentry ↦
    (moves_writeIfChanged (List.mem_map_of_mem hentry) entry.2).bind fun _ ↦ moves_pure _

/-- Texts that go to different places are all there once they have been written. -/
theorem Run.content?_of_writeTexts {texts : List (String × String)} {s t : Session}
    (hapart : ((texts.map Prod.fst).map Files.destination).Nodup)
    (h : (writeTexts texts).run s = (.ok (), t)) {path text : String}
    (hentry : (path, text) ∈ texts) :
    t.files.content? (Files.destination path) = some text := by
  induction texts generalizing s with
  | nil => exact (List.not_mem_nil hentry).elim
  | cons first rest ih =>
    obtain ⟨hfirst, hrest⟩ := List.nodup_cons.1 hapart
    rw [writeTexts, List.forM] at h
    obtain ⟨_, u, hwrite, hmore⟩ := run_bind_eq_ok.1 h
    rcases List.mem_cons.1 hentry with rfl | hmem
    · obtain ⟨written, v, hwritten, hv⟩ := run_bind_eq_ok.1 hwrite
      cases hv
      -- What is written behind the first text goes to other places.
      rw [((moves_writeTexts rest).of_eq hmore).content _ hfirst, (writeIfChanged_eq_ok hwritten).1]
    · exact ih hrest hmore hmem

namespace Package

variable {package : Package} {s t u : Session} {module : String} {policy : Policy}
  {extraction : Extraction}

/-- No two files of the code of a module go to the same place. -/
theorem nodup_codeOutputs (package : Package) (module : String) :
    ((package.outputs .code module).map Files.destination).Nodup := by
  change ([OutputKind.interface, .header, .script].map fun kind ↦
    Files.destination (package.config.output kind module)).Nodup
  exact List.Nodup.map (OutputKind.destination_output_injective package.config module) (by decide)

/-- The code of a module is its interface file, its header, and its script if it has one. -/
theorem codeTexts_eq_ok {registry : InterfaceRegistry} {texts : List (String × String)}
    (hpolicy : package.policy module = .ok policy)
    (h : package.codeTexts module extraction registry = .ok texts) :
    ∃ rules header, Emit.header ⟨policy, extraction.module⟩ registry rules = .ok header ∧
      texts = (package.config.interfaceFile module,
          Emit.interfaceFile policy extraction rules package.config) ::
        (package.config.headerFile module, header) ::
        (Constants.script? policy.package extraction.module).toList.map fun script ↦
          (package.config.scriptFile module, script) := by
  obtain ⟨found, hfound, h⟩ := bind_eq_ok.1 h
  obtain rfl : policy = found := Except.ok.inj (hpolicy.symm.trans hfound)
  obtain ⟨rules, -, h⟩ := bind_eq_ok.1 h
  obtain ⟨header, hheader, h⟩ := bind_eq_ok.1 h
  cases h
  exact ⟨rules, header, hheader, rfl⟩

theorem sublist_codeTexts {registry : InterfaceRegistry} {texts : List (String × String)}
    (hpolicy : package.policy module = .ok policy)
    (h : package.codeTexts module extraction registry = .ok texts) :
    (texts.map Prod.fst).Sublist (package.outputs .code module) := by
  obtain ⟨rules, header, -, rfl⟩ := codeTexts_eq_ok hpolicy h
  cases Constants.script? policy.package extraction.module <;> simp [outputs]

/-- The code of a prepared module is in its files. -/
structure HoldsCode (package : Package) (s : Session) (module : String) (policy : Policy)
    (extraction : Extraction) (rules : TypemapRules) : Prop where
  prepared : package.IsPrepared s module policy extraction
  interface : s.files.content? (Files.destination (package.config.interfaceFile module)) =
    some (Emit.interfaceFile policy extraction rules package.config)
  header : ∃ header,
    Emit.header ⟨policy, extraction.module⟩ s.registry rules = .ok header ∧
      s.files.content? (Files.destination (package.config.headerFile module)) = some header

/-- After the code of a module has been written, its files hold the texts that are made of the
extraction, and all other files are as they were after the analysis. -/
theorem exists_of_writeCode_eq_ok (h : (package.writeCode module).run s = (.ok (), t)) :
    ∃ policy extraction texts u, (package.analyze module).run s = (.ok extraction, u) ∧
      package.IsPrepared t module policy extraction ∧
      package.codeTexts module extraction t.registry = .ok texts ∧
      (∀ path text, (path, text) ∈ texts →
        t.files.content? (Files.destination path) = some text) ∧
      ∀ place ∉ (texts.map Prod.fst).map Files.destination,
        t.files.content? place = u.files.content? place := by
  obtain ⟨extraction, u, hanalyze, hemit⟩ := Run.run_bind_eq_ok.1 h
  obtain ⟨policy, hprepared⟩ := isPrepared_of_analyze_eq_ok hanalyze
  rw [emitCode, Run.run_get_bind] at hemit
  obtain ⟨texts, v, hrun, hwrite⟩ := Run.run_bind_eq_ok.1 hemit
  rw [Run.run_ofExcept] at hrun
  obtain ⟨htexts, rfl⟩ := Prod.mk.inj hrun
  have hwrites : u.Writes (texts.map Prod.fst) t := (Run.moves_writeTexts texts).of_eq hwrite
  have hapart : ((texts.map Prod.fst).map Files.destination).Nodup :=
    ((sublist_codeTexts hprepared.1 htexts).map Files.destination).nodup
      (package.nodup_codeOutputs module)
  have hregistry : t.registry = u.registry := by rw [hwrites.same]
  have hextractions : t.extractions = u.extractions := by rw [hwrites.same]
  exact ⟨policy, extraction, texts, u, hanalyze,
    hprepared.mono (hregistry ▸ .refl _) (hextractions ▸ fun _ _ hfound ↦ hfound),
    hregistry ▸ htexts, fun path text hentry ↦ Run.content?_of_writeTexts hapart hwrite hentry,
    fun place hplace ↦ hwrites.content place hplace⟩

theorem holdsCode_of_writeCode (h : (package.writeCode module).run s = (.ok (), t)) :
    ∃ policy extraction rules, package.HoldsCode t module policy extraction rules := by
  obtain ⟨policy, extraction, texts, -, -, hprepared, htexts, hcontent, -⟩ :=
    exists_of_writeCode_eq_ok h
  obtain ⟨rules, header, hheader, rfl⟩ := codeTexts_eq_ok hprepared.1 htexts
  exact ⟨policy, extraction, rules, hprepared, hcontent _ _ List.mem_cons_self, header, hheader,
    hcontent _ _ (List.mem_cons_of_mem _ List.mem_cons_self)⟩

/-- The module that is found for a class generates it, as the files declare it. -/
theorem Reachable.accounts_of_owner (hs : package.Reachable package.KeepsDeclarations s)
    {name : String} (h : (package.owner name).run s = (.ok policy, t)) :
    policy ∈ package.policies ∧ ∃ extraction, package.Accounts t policy extraction name := by
  have ht : package.Accounted t := by
    have hlater := hs.operate (.owner name)
    rw [Package.operate, h] at hlater
    exact hlater.accounted
  obtain ⟨hpolicy, hindex⟩ := indexedFor_of_owner h
  obtain ⟨other, hother, hname, extraction, haccounts⟩ := ht.indexed name _ hindex
  obtain rfl := eq_of_moduleName_eq hother hpolicy hname
  exact ⟨hpolicy, extraction, haccounts⟩

/-- In every session that the package can get into while its declarations stay as they are, when the
code of a module has been written: its header is there, and so is its interface file, which has one
line for each import. Apart from the files of the policy, these are the headers of the bases of
generated classes that the module does not declare, and each is named like the class. So it names a
header of the package just when some module is named like the class, and the header of the module
that is found to generate the class just when this is the module of that name. -/
theorem imports_named_like_bases (hs : package.Reachable package.KeepsDeclarations s)
    (h : (package.writeCode module).run s = (.ok (), t)) :
    ∃ policy extraction rules, package.HoldsCode t module policy extraction rules ∧
      let view : View := ⟨policy, extraction.module⟩
      let config := package.config
      (∃ front back, Emit.interfaceFile policy extraction rules config =
        Text.unlines (front ++ (Emit.imports view config).map Emit.importLine ++ back)) ∧
      (∀ file, file ∈ Emit.imports view config ↔ file ∈ policy.swigImportsPrepend ∨
        (∃ c ∈ view.generatedClasses, ∃ base ∈ Emit.foreignBases view c,
          file = config.headerInclude base) ∨
        file ∈ policy.swigImportsAppend) ∧
      ∀ c ∈ view.generatedClasses, ∀ base ∈ Emit.foreignBases view c,
        (config.headerInclude base ∈ package.moduleNames.map config.headerInclude ↔
          base ∈ package.moduleNames) ∧
        ∀ owner u, (package.owner base).run t = (.ok owner, u) →
          owner ∈ package.policies ∧ (∃ found, package.Accounts u owner found base) ∧
            (config.headerInclude base = config.headerInclude owner.moduleName ↔
              base = owner.moduleName) := by
  have ht : package.Reachable package.KeepsDeclarations t := by
    have hlater := hs.operate (.call ⟨.code, module⟩)
    have hreply : (package.perform ⟨.code, module⟩).run s = (.ok .code, t) :=
      Run.run_bind_of_ok h _
    rwa [operate, hreply] at hlater
  obtain ⟨policy, extraction, rules, hholds⟩ := holdsCode_of_writeCode h
  refine ⟨policy, extraction, rules, hholds, Emit.exists_importLines _ _ _ _,
    fun _ ↦ Emit.mem_imports, fun c hc base hbase ↦ ⟨Config.headerInclude_mem_map, ?_⟩⟩
  intro owner u howner
  obtain ⟨hpolicy, haccounts⟩ := ht.accounts_of_owner howner
  exact ⟨hpolicy, haccounts, Config.headerInclude_inj⟩

namespace Drawing

def classEntry (name : String) (bases : List Base) : ItemEntry :=
  .ofClass { common := { name }, bases, members := [methodEntry "Draw"] }

/-- Circles and rings. The module of shapes is named like its class, and that of discs is not. -/
def rims : Package where
  name := "Drawing"
  config := {}
  source := .memory [
    ("Circles",
      { items := [classEntry "Circle" [⟨"Shape", []⟩], classEntry "Ring" [⟨"Disc", []⟩]] }),
    ("Shape", { items := [classEntry "Shape" []] }),
    ("Discs", { items := [classEntry "Disc" []] })]
  manifest := none
  policies := ["Circles", "Shape", "Discs"].map (Policy.empty · "Drawing")
  distinct := by decide

/-- The session after the code of the circles has been written. -/
def rimsWritten : Session := ((rims.writeCode "Circles").run {}).2

theorem write_rims : (rims.writeCode "Circles").run {} = (.ok (), rimsWritten) := by
  have hok : ((rims.writeCode "Circles").run {}).1.toOption = some () := by decide +kernel
  rw [rimsWritten]
  exact Run.run_eq_of_toOption hok

/-- The module of the circles, as it has been extracted. -/
def rimsView : Option View :=
  (rimsWritten.extractions.find? "Circles").map fun extraction ↦
    ⟨Policy.empty "Circles" "Drawing", extraction.module⟩

end Drawing

open Drawing in
/-- The circles import the header of the shapes. -/
theorem shape_imported : rims.Reachable rims.KeepsDeclarations {} ∧
    (rims.writeCode "Circles").run {} = (.ok (), rimsWritten) ∧
    ∃ policy extraction rules c owner u,
      rims.HoldsCode rimsWritten "Circles" policy extraction rules ∧
        c ∈ View.generatedClasses ⟨policy, extraction.module⟩ ∧
        "Shape" ∈ Emit.foreignBases ⟨policy, extraction.module⟩ c ∧
        (rims.owner "Shape").run rimsWritten = (.ok owner, u) ∧
        rims.config.headerInclude "Shape" = rims.config.headerInclude owner.moduleName := by
  have hs : rims.Reachable rims.KeepsDeclarations {} := reachable_start rims .empty []
  obtain ⟨policy, extraction, rules, hholds, -, -, hbases⟩ := imports_named_like_bases hs write_rims
  have hcircle : rimsView.any (fun view ↦ view.generatedClasses.any fun c ↦
      (Emit.foreignBases view c).contains "Shape") = true := by decide +kernel
  have howner : ((rims.owner "Shape").run rimsWritten).1.toOption.map Policy.moduleName =
      some "Shape" := by decide +kernel
  obtain ⟨owner, hfound, hname⟩ := Option.map_eq_some_iff.1 howner
  obtain rfl : policy = Policy.empty "Circles" "Drawing" :=
    Except.ok.inj (hholds.prepared.1.symm.trans rfl)
  have hkept : rimsWritten.extractions.find? "Circles" = some extraction := hholds.prepared.2.1
  rw [rimsView, hkept, Option.map_some, Option.any_some, List.any_eq_true] at hcircle
  obtain ⟨c, hc, hbase⟩ := hcircle
  have hshape := List.contains_iff_mem.1 hbase
  have hrun := Run.run_eq_of_toOption hfound
  exact ⟨hs, write_rims, _, extraction, rules, c, owner, _, hholds, hc, hshape, hrun,
    ((hbases c hc "Shape" hshape).2 owner _ hrun).2.2.2 hname.symm⟩

open Drawing in
/-- The rings import a header for discs that is not that of their module, nor that of any other
module. -/
theorem disc_imported_in_vain : rims.Reachable rims.KeepsDeclarations {} ∧
    (rims.writeCode "Circles").run {} = (.ok (), rimsWritten) ∧
    rimsView.any (fun view ↦ view.generatedClasses.any fun c ↦
      c.name == "Ring" && (Emit.foreignBases view c).contains "Disc") = true ∧
    ((rims.owner "Disc").run rimsWritten).1.toOption.map Policy.moduleName = some "Discs" ∧
    rimsView.any (fun view ↦ (Emit.imports view rims.config).contains "include/Disc.h") = true ∧
    "include/Disc.h" ≠ rims.config.headerInclude "Discs" ∧
    "include/Disc.h" ∉ rims.moduleNames.map rims.config.headerInclude :=
  ⟨reachable_start rims .empty [], write_rims, by decide +kernel, by decide +kernel,
    by decide +kernel, by decide, by decide⟩

end Package

end Bindery
