import Bindery.Emit.Header
import Bindery.Package.Basic
import Bindery.Proofs.Files.Spelling
import Bindery.Proofs.Package.Outputs
import Mathlib.Data.List.Nodup

/-!
Which outputs of a package share a file. The outputs of one module are different files, wherever
they go (`OutputKind.destination_output_injective`). The modules of a package have different names,
and each of them has its own interface, header and dependency file. But scripts and stubs are named
by the module in lower case, and the guard of a header in upper case, which is not looked at when
the names are told apart: modules whose names differ in case only write to one script and to one
stub, and a module may be named like the file of the common type maps. These are all outputs that
meet, where no name has a slash in it and the directories are different ones
(`Package.shared_outputs`).
-/

set_option autoImplicit false
set_option relaxedAutoImplicit false

namespace Bindery

/-! ### Slashes in lower case -/

namespace Text

theorem slash_ne_of_lowerExpansions :
    ∀ expansion ∈ lowerExpansions, ∀ n ∈ expansion.2, Char.ofNat n ≠ '/' := by decide

theorem slash_lt_of_lowerRuns {run : CaseRun} (h : run ∈ lowerRuns) :
    47 < run.first + run.shift := by
  have hall : (lowerRuns.all fun run ↦ decide (47 < run.first + run.shift)) = true := by
    decide +kernel
  exact of_decide_eq_true (List.all_eq_true.1 hall run h)

theorem toLower_eq_slash : ∀ n < 128, (Char.ofNat n).toLower = '/' → n = 47 := by decide

theorem eq_of_ofNat_eq_slash {n : Nat} (h : Char.ofNat n = '/') : n = 47 := by
  by_cases hvalid : n.isValidChar
  · rw [Char.ofNat, dif_pos hvalid] at h
    exact congrArg Char.toNat h
  · rw [Char.ofNat, dif_neg hvalid] at h
    exact absurd h (by decide)

/-- No other character is lower-cased to a slash. -/
theorem eq_slash_of_mem_lowerChar {c : Char} (h : '/' ∈ lowerChar c) : c = '/' := by
  unfold lowerChar mapCase at h
  split at h
  · rename_i hascii
    have hlower := toLower_eq_slash c.toNat hascii
    rw [Char.ofNat_toNat] at hlower
    rw [← Char.ofNat_toNat c, hlower (List.mem_singleton.1 h).symm]
  · split at h
    · rename_i image himage
      obtain ⟨n, hn, hslash⟩ := List.mem_map.1 h
      obtain ⟨_, _, himage, -⟩ := List.lookup_eq_some_iff.1 himage
      exact absurd hslash (slash_ne_of_lowerExpansions (c.toNat, image) (by simp [himage]) n hn)
    · split at h
      · rename_i run hrun
        have hfirst := slash_lt_of_lowerRuns (List.mem_of_find?_eq_some hrun)
        have hcovers := List.find?_some hrun
        simp only [CaseRun.covers, Bool.and_eq_true, decide_eq_true_eq] at hcovers
        have hslash := eq_of_ofNat_eq_slash (List.mem_singleton.1 h).symm
        omega
      · exact (List.mem_singleton.1 h).symm

theorem slash_mem_of_lowerFrom {before rest : List Char} (h : '/' ∈ lowerFrom before rest) :
    '/' ∈ rest := by
  induction rest generalizing before with
  | nil => exact h
  | cons c rest ih =>
    rw [lowerFrom] at h
    rcases List.mem_append.1 h with himage | hrest
    · split at himage
      · split at himage <;> exact absurd himage (by decide)
      · rw [eq_slash_of_mem_lowerChar himage]
        exact List.mem_cons_self
    · exact List.mem_cons_of_mem _ (ih hrest)

theorem slash_notMem_lower {s : String} (h : '/' ∉ s.toList) : '/' ∉ (lower s).toList := by
  rw [lower, String.toList_ofList]
  exact fun hmem ↦ h (slash_mem_of_lowerFrom hmem)

end Text

/-! ### Names below a directory -/

/-- A name of one component, which names no directory that is there already. -/
structure Path.IsName (name : String) : Prop where
  slash : '/' ∉ name.toList
  isFileName : Files.isFileName name = true

section Names

variable {dir dir' name other : String}

/-- A text with an ending that is no dot is a name. -/
theorem Path.isName_append {body ending : String} {c : Char} (hbody : '/' ∉ body.toList)
    (hending : '/' ∉ ending.toList) (hlast : ending.toList.getLast? = some c) (hdot : c ≠ '.') :
    Path.IsName (body ++ ending) := by
  have hwhole : (body ++ ending).toList.getLast? = some c := by simp [hlast]
  have hne (text : String) (htext : text.toList.getLast? ≠ some c) : body ++ ending ≠ text :=
    fun heq ↦ htext (heq ▸ hwhole)
  have hempty := hne "" (by simp)
  have hstays := hne "." (by simpa using hdot.symm)
  have habove := hne ".." (by simpa using hdot.symm)
  refine ⟨by simp [hbody, hending], ?_⟩
  simp only [Files.isFileName, Files.stays, Bool.and_eq_true, Bool.not_eq_true', bne_iff_ne, ne_eq,
    Bool.or_eq_false_iff, beq_eq_false_iff_ne]
  exact ⟨⟨hempty, hstays⟩, habove⟩

theorem Path.IsName.components (h : IsName name) :
    Path.components name = (.none, [name.toList]) := by
  have hstays : isTrivial name.toList = false := by
    have hname := h.isFileName
    rw [← String.ofList_toList (s := name), Files.isFileName, Files.stays_ofList] at hname
    simp only [Bool.and_eq_true, Bool.not_eq_true'] at hname
    exact hname.1
  have hlead : leadOf name.toList = .none := by
    unfold leadOf
    split
    · rename_i hname
      exact absurd (hname ▸ List.mem_cons_self) h.slash
    · rename_i hname
      rw [hname] at hstays
      exact absurd hstays (by decide)
    · rename_i hname
      exact absurd (hname ▸ List.mem_cons_of_mem _ List.mem_cons_self) h.slash
    · rfl
  rw [components_eq, hlead, List.splitOn_eq_singleton h.slash]
  simp [hstays]

theorem Path.IsName.isAbsolute (h : IsName name) : Path.isAbsolute name = false := by
  rw [Bool.eq_false_iff, ne_eq, isAbsolute_iff]
  have hlead : leadOf name.toList = .none :=
    congrArg Prod.fst ((components_eq name).symm.trans h.components)
  rw [hlead]
  exact nofun

/-- A name comes last in a directory. -/
theorem Path.IsName.components_join (h : IsName name) (dir : String) :
    Path.components (join dir name) =
      ((Path.components dir).1, (Path.components dir).2 ++ [name.toList]) := by
  by_cases hdir : dir = ""
  · rw [hdir, join_empty, h.components]
    rfl
  · have hname : (name.toList.splitOn '/').filter (!isTrivial ·) = [name.toList] :=
      congrArg Prod.snd ((components_eq name).symm.trans h.components)
    rw [Path.components_join h.isAbsolute hdir, hname]

theorem Path.components_join_eq_iff (h : IsName name) (h' : IsName other) :
    components (join dir name) = components (join dir' other) ↔
      components dir = components dir' ∧ name = other := by
  rw [h.components_join, h'.components_join, Prod.mk.injEq, List.append_singleton_inj,
    String.toList_inj, ← and_assoc, Prod.ext_iff]

theorem Files.destination_join (h : Path.IsName name) (dir : String) :
    destination (Path.join dir name) = destination dir ++ [name] := by
  have hname := h.isFileName
  simp only [isFileName, Bool.and_eq_true, Bool.not_eq_true', bne_iff_ne, ne_eq] at hname
  rw [destination_eq_walk, h.components_join, destination_eq_walk dir, List.map_append,
    walk_append]
  simp [walk, hname]

theorem Files.destination_join_eq_iff (h : Path.IsName name) (h' : Path.IsName other) :
    destination (Path.join dir name) = destination (Path.join dir' other) ↔
      destination dir = destination dir' ∧ name = other := by
  rw [destination_join h, destination_join h', List.append_singleton_inj]

end Names

/-! ### The outputs of a module -/

inductive OutputKind
  | interface
  | header
  | script
  | doc
  | deps
  deriving Repr, DecidableEq

/-- The file that an output of a module is written to. -/
def Config.output (config : Config) : OutputKind → String → String
  | .interface => config.interfaceFile
  | .header => config.headerFile
  | .script => config.scriptFile
  | .doc => config.docFile
  | .deps => config.depsFile

namespace OutputKind

def dir (config : Config) : OutputKind → String
  | .interface => config.swigDir
  | .header => config.includeDir
  | .script => config.extDir
  | .doc => config.docDir
  | .deps => config.depsDir

def fileName (module : String) : OutputKind → String
  | .interface => module ++ ".i"
  | .header => module ++ ".h"
  | .script => Text.lower module ++ "_ext.rb"
  | .doc => Text.lower module ++ ".rb"
  | .deps => "." ++ module ++ ".dep"

/-- Whether the files of a kind are named by the module in lower case. -/
def isLowered : OutputKind → Bool
  | .script => true
  | .doc => true
  | _ => false

theorem output_eq (config : Config) (kind : OutputKind) (module : String) :
    config.output kind module = Path.join (kind.dir config) (kind.fileName module) := by
  cases kind <;> rfl

theorem fileName_eq_iff (kind : OutputKind) (module other : String) :
    kind.fileName module = kind.fileName other ↔
      if kind.isLowered then Text.lower module = Text.lower other else module = other := by
  cases kind <;> simp [fileName, isLowered]

theorem isName_fileName {module : String} (h : '/' ∉ module.toList) (kind : OutputKind) :
    Path.IsName (kind.fileName module) := by
  have hlower := Text.slash_notMem_lower h
  cases kind with
  | interface => exact Path.isName_append (c := 'i') h (by decide) (by decide) (by decide)
  | header => exact Path.isName_append (c := 'h') h (by decide) (by decide) (by decide)
  | script => exact Path.isName_append (c := 'b') hlower (by decide) (by decide) (by decide)
  | doc => exact Path.isName_append (c := 'b') hlower (by decide) (by decide) (by decide)
  | deps =>
    have hdotted : '/' ∉ ("." ++ module).toList := by simp [h]
    exact Path.isName_append (c := 'p') hdotted (by decide) (by decide) (by decide)

def all : List OutputKind := [.interface, .header, .script, .doc, .deps]

theorem mem_all (kind : OutputKind) : kind ∈ all := by cases kind <;> decide

/-- The last character of the files of a kind. -/
def ending : OutputKind → Char
  | .interface => 'i'
  | .header => 'h'
  | .script | .doc => 'b'
  | .deps => 'p'

theorem ending_mem (kind : OutputKind) : kind.ending ∈ ['i', 'h', 'b', 'p'] := by
  cases kind <;> decide

theorem getLast?_output (config : Config) (kind : OutputKind) (module : String) :
    (config.output kind module).toList.getLast? = some kind.ending := by
  rw [output_eq]
  refine Path.getLast?_join ?_ _
  cases kind <;> simp [fileName, ending, List.getLast?_append, List.getLast?_cons]

theorem isFileName_output (config : Config) (kind : OutputKind) (module : String) :
    Files.isFileName (Files.fileName (config.output kind module)) = true :=
  HasOutputEnding.isFileName ⟨kind.ending, kind.ending_mem, getLast?_output config kind module⟩

theorem eq_or_of_ending_eq {kind kind' : OutputKind} (h : kind.ending = kind'.ending) :
    kind = kind' ∨ kind = .script ∧ kind' = .doc ∨ kind = .doc ∧ kind' = .script := by
  cases kind <;> cases kind' <;> first | exact absurd h (by decide) | simp

theorem fileName_script_ne_doc (config : Config) (module : String) :
    Files.fileName (config.output .script module) ≠ Files.fileName (config.output .doc module) := by
  rw [output_eq, output_eq, Files.fileName_join, Files.fileName_join, fileName, fileName,
    Files.fileName_append (by decide), Files.fileName_append (by decide)]
  intro h
  have hlength := congrArg (List.length ∘ String.toList) h
  simp at hlength

/-- The outputs of a module are different files, wherever they go. -/
theorem destination_output_injective (config : Config) (module : String) :
    Function.Injective fun kind ↦ Files.destination (config.output kind module) := by
  intro kind kind' h
  have hname := isFileName_output config kind module
  have hname' := isFileName_output config kind' module
  have hending : kind.ending = kind'.ending := by
    by_contra hne
    exact Files.destination_ne hne hname hname' (outputEnding_ne kind.ending_mem).1
      (outputEnding_ne kind'.ending_mem).1 (getLast?_output _ _ _) (getLast?_output _ _ _) h
  dsimp only at h
  rw [Files.destination_eq hname, Files.destination_eq hname'] at h
  have hfile := List.singleton_inj.1 (List.append_inj' h rfl).2
  rcases eq_or_of_ending_eq hending with heq | ⟨rfl, rfl⟩ | ⟨rfl, rfl⟩
  · exact heq
  · exact (fileName_script_ne_doc config module hfile).elim
  · exact (fileName_script_ne_doc config module hfile.symm).elim

end OutputKind

/-- The file of the common type maps is the interface file of a module with this name. -/
theorem Config.commonTypemapsFile_eq (config : Config) :
    config.commonTypemapsFile = config.output .interface "common_typemaps" := rfl

/-! ### Outputs that meet -/

section Shared

variable {κ : Type} {spot : String → κ} {config : Config}

/-- A way to tell files apart goes by the directory and the name. -/
def TellsNames (spot : String → κ) : Prop :=
  ∀ dir dir' name other, Path.IsName name → Path.IsName other →
    (spot (Path.join dir name) = spot (Path.join dir' other) ↔ spot dir = spot dir' ∧ name = other)

theorem tellsNames_components : TellsNames Path.components :=
  fun _ _ _ _ ↦ Path.components_join_eq_iff

theorem tellsNames_destination : TellsNames Files.destination :=
  fun _ _ _ _ ↦ Files.destination_join_eq_iff

/-- The directories of the outputs are told apart. -/
def Config.IsApart (spot : String → κ) (config : Config) : Prop :=
  (OutputKind.all.map fun kind ↦ spot (kind.dir config)).Nodup

instance [DecidableEq κ] : Decidable (config.IsApart spot) := List.nodupDecidable _

theorem Config.IsApart.eq_of_dir (h : config.IsApart spot) {kind other : OutputKind}
    (hdir : spot (kind.dir config) = spot (other.dir config)) : kind = other :=
  List.inj_on_of_nodup_map h kind.mem_all other.mem_all hdir

theorem Config.output_eq_iff (hspot : TellsNames spot) (hdirs : config.IsApart spot)
    {module other : String} (hmodule : '/' ∉ module.toList) (hother : '/' ∉ other.toList)
    (kind kind' : OutputKind) :
    spot (config.output kind module) = spot (config.output kind' other) ↔
      kind = kind' ∧
        if kind.isLowered then Text.lower module = Text.lower other else module = other := by
  rw [OutputKind.output_eq, OutputKind.output_eq,
    hspot _ _ _ _ (kind.isName_fileName hmodule) (kind'.isName_fileName hother),
    ← OutputKind.fileName_eq_iff]
  constructor
  · rintro ⟨hdir, hname⟩
    obtain rfl := hdirs.eq_of_dir hdir
    exact ⟨rfl, hname⟩
  · rintro ⟨rfl, hname⟩
    exact ⟨rfl, hname⟩

/-- The outputs of different modules that share a file are scripts and stubs of modules whose names
are the same in lower case. The file of the common type maps is shared with a module of its name
only. -/
structure SharesLowered (spot : String → κ) (config : Config) (policies : List Policy) : Prop where
  modules : policies.Pairwise fun p q ↦
    '/' ∉ p.moduleName.toList → '/' ∉ q.moduleName.toList → ∀ kind kind',
      (spot (config.output kind p.moduleName) = spot (config.output kind' q.moduleName) ↔
        kind = kind' ∧ kind.isLowered = true ∧ Text.lower p.moduleName = Text.lower q.moduleName)
  commonTypemaps : ∀ p ∈ policies, '/' ∉ p.moduleName.toList → ∀ kind,
    (spot (config.output kind p.moduleName) = spot config.commonTypemapsFile ↔
      kind = .interface ∧ p.moduleName = "common_typemaps")

theorem sharesLowered_of_isApart (hspot : TellsNames spot) (hdirs : config.IsApart spot)
    {policies : List Policy} (hdistinct : (policies.map Policy.moduleName).Nodup) :
    SharesLowered spot config policies where
  modules := by
    refine (List.pairwise_map.1 hdistinct).imp fun hne hp hq kind kind' ↦ ?_
    rw [Config.output_eq_iff hspot hdirs hp hq]
    cases kind.isLowered <;> simp [hne]
  commonTypemaps p _ hp kind := by
    rw [config.commonTypemapsFile_eq, Config.output_eq_iff hspot hdirs hp (by decide)]
    refine and_congr_right fun hkind ↦ ?_
    rw [hkind]
    exact Iff.rfl

theorem headerSymbol_eq_iff (module other : String) :
    Emit.headerSymbol module = Emit.headerSymbol other ↔ Text.upper module = Text.upper other := by
  simp [Emit.headerSymbol]

end Shared

namespace Package

theorem distinct_of_build {name : String} {config : Config} {source : Source}
    {manifest : Option String} {policies : List Policy} {package : Package}
    (h : build name config source manifest policies = .ok package) :
    (policies.map Policy.moduleName).Nodup := by
  obtain ⟨_, -, h⟩ := bind_eq_ok.1 h
  split at h
  · cases h
  · rename_i hdistinct
    exact (nodup_of_firstRepeat hdistinct).1

/-- In a package that is accepted, the guards of two headers are the same just when the names of the
modules are so in upper case. Where the directories are different ones, by their spelling or by the
places that they lead to, the outputs of different modules are different files but for scripts and
stubs of modules whose names are the same in lower case, and no output is the file of the common
type maps but the interface file of a module with its name. -/
theorem shared_outputs {name : String} {config : Config} {source : Source}
    {manifest : Option String} {policies : List Policy} {package : Package}
    (h : build name config source manifest policies = .ok package) :
    (policies.Pairwise fun p q ↦
      (Emit.headerSymbol p.moduleName = Emit.headerSymbol q.moduleName ↔
        Text.upper p.moduleName = Text.upper q.moduleName)) ∧
    (config.IsApart Path.components → SharesLowered Path.components config policies) ∧
    (config.IsApart Files.destination → SharesLowered Files.destination config policies) :=
  ⟨List.pairwise_of_forall fun _ _ ↦ headerSymbol_eq_iff _ _,
    fun hdirs ↦ sharesLowered_of_isApart tellsNames_components hdirs (distinct_of_build h),
    fun hdirs ↦ sharesLowered_of_isApart tellsNames_destination hdirs (distinct_of_build h)⟩

/-- Modules whose names differ in case only. -/
def framePolicies : List Policy := [.empty "Frame" "Wx", .empty "frame" "Wx"]

/-- Both modules are documented in one file and guard their headers by one symbol, and have
interface files of their own. -/
theorem frame_stubs_shared : ∃ package,
    build "Wx" {} (.memory []) none framePolicies = .ok package ∧
    Files.destination (Config.docFile {} "Frame") = Files.destination (Config.docFile {} "frame") ∧
    Emit.headerSymbol "Frame" = Emit.headerSymbol "frame" ∧
    Files.destination (Config.interfaceFile {} "Frame") ≠
      Files.destination (Config.interfaceFile {} "frame") := by
  obtain ⟨package, hbuild⟩ :
      ∃ package, build "Wx" {} (.memory []) none framePolicies = .ok package := ⟨_, rfl⟩
  obtain ⟨hguards, -, hshared⟩ := shared_outputs hbuild
  have houtputs := List.rel_of_pairwise_cons (hshared (by decide)).modules List.mem_cons_self
    (by decide) (by decide)
  exact ⟨package, hbuild, (houtputs .doc .doc).2 ⟨rfl, rfl, by decide⟩,
    (List.rel_of_pairwise_cons hguards List.mem_cons_self).2 (by decide),
    fun hsame ↦ absurd ((houtputs .interface .interface).1 hsame).2.1 (by decide)⟩

/-- The stubs of two modules are one file. -/
theorem frame_stub_overwritten : ¬∀ (name : String) (config : Config) (source : Source)
    (manifest : Option String) (policies : List Policy) (package : Package),
    build name config source manifest policies = .ok package →
    config.IsApart Files.destination →
    policies.Pairwise fun p q ↦ ∀ kind kind',
      Files.destination (config.output kind p.moduleName) ≠
        Files.destination (config.output kind' q.moduleName) := by
  intro h
  have hapart := h "Wx" {} (.memory []) none framePolicies _ rfl (by decide)
  have hstub : Config.docFile {} "Frame" = Config.docFile {} "frame" := by decide
  exact List.rel_of_pairwise_cons hapart List.mem_cons_self .doc .doc
    (congrArg Files.destination hstub)

end Package

end Bindery
