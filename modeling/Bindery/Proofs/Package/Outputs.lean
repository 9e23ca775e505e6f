import Bindery.Package.Calls
import Bindery.Proofs.Files.Growth
import Bindery.Proofs.Interface.Entries
import Bindery.Proofs.Package.Steps

/-!
The outputs of a package and its declarations. All that a package writes ends otherwise than files
of declarations, so that writing it leaves the declarations as they are: a module that can be read
once gives the same extraction at any later time (`extraction_of_grown`).
-/

set_option autoImplicit false
set_option relaxedAutoImplicit false

namespace Bindery

/-! ### Endings -/

theorem Path.getLast?_join {name : String} {c : Char} (h : name.toList.getLast? = some c)
    (dir : String) : (Path.join dir name).toList.getLast? = some c := by
  unfold Path.join
  split
  · exact h
  · split <;> simp [List.getLast?_append, List.getLast?_cons, h]

/-- Paths that end as those do that a package writes. -/
def HasOutputEnding (path : String) : Prop :=
  ∃ c ∈ ['i', 'h', 'b', 'p'], path.toList.getLast? = some c

theorem hasOutputEnding_join {ending : String} {c : Char}
    (hending : ending.toList.getLast? = some c) (hc : c ∈ ['i', 'h', 'b', 'p'])
    (dir name : String) : HasOutputEnding (Path.join dir (name ++ ending)) :=
  ⟨c, hc, Path.getLast?_join (by simp [List.getLast?_append, hending]) dir⟩

theorem outputEnding_ne {c : Char} (hc : c ∈ ['i', 'h', 'b', 'p']) :
    c ≠ '/' ∧ c ≠ '.' ∧ 'n' ≠ c := by
  simp only [List.mem_cons, List.not_mem_nil, or_false] at hc
  rcases hc with rfl | rfl | rfl | rfl <;> decide

theorem HasOutputEnding.isFileName {path : String} (h : HasOutputEnding path) :
    Files.isFileName (Files.fileName path) = true := by
  obtain ⟨c, hc, hlast⟩ := h
  obtain ⟨hslash, hdot, -⟩ := outputEnding_ne hc
  exact Files.isFileName_of_getLast? hslash hdot hlast

/-- No output is written to the place of a file of declarations. -/
theorem HasOutputEnding.destination_ne {path : String} (h : HasOutputEnding path)
    (dir item : String) :
    Files.destination (Source.itemPath dir item) ≠ Files.destination path := by
  have hfile := h.isFileName
  obtain ⟨c, hc, hlast⟩ := h
  obtain ⟨hslash, -, hne⟩ := outputEnding_ne hc
  have hitem : (Source.itemPath dir item).toList.getLast? = some 'n' :=
    Path.getLast?_join (by simp [Source.fileName, List.getLast?_append]) dir
  have hitemFile := Files.isFileName_of_getLast? (by decide) (by decide) hitem
  exact Files.destination_ne hne hitemFile hfile (by decide) hslash hitem hlast

/-! ### Declarations -/

section Declarations

variable {paths : List String} {fs later : Files}

/-- The declarations of an item are loaded alike where its file is read alike. -/
theorem Source.load_of_read? {item : String}
    (hread : ∀ dir text, fs.read? (itemPath dir item) = some text →
      later.read? (itemPath dir item) = some text) {file : DeclFile} {source : Source}
    (h : source.load fs item = .ok file) : source.load later item = .ok file := by
  induction source generalizing file with
  | memory files => exact h
  | directory dir =>
    change loadFile fs dir item = .ok file at h
    change loadFile later dir item = .ok file
    delta loadFile at h ⊢
    cases hfile : fs.read? (itemPath dir item) with
    | none =>
      rw [hfile] at h
      cases h
    | some text =>
      rw [hfile] at h
      rw [hread dir text hfile]
      exact h
  | validating inner ih =>
    obtain ⟨loaded, hloaded, h⟩ := bind_eq_ok.1 h
    exact bind_eq_ok.2 ⟨loaded, ih hloaded, h⟩

/-- A file of declarations is read as before. -/
theorem Source.load_of_grown (hgrown : Files.Grown paths fs later)
    (hpaths : ∀ path ∈ paths, HasOutputEnding path) {item : String} {file : DeclFile}
    {source : Source} (h : source.load fs item = .ok file) :
    source.load later item = .ok file := by
  refine load_of_read? (fun dir text hread ↦ hgrown.read? (fun hmem ↦ ?_) hread) h
  obtain ⟨path, hpath, heq⟩ := List.mem_map.1 hmem
  exact (hpaths path hpath).destination_ne dir item heq.symm

theorem Module.foldlM_addDeclarations_of_load {load load' : String → Except Error DeclFile}
    (hload : ∀ item file, load item = .ok file → load' item = .ok file) {items : List String}
    {m module : Module} (h : items.foldlM (Module.addDeclarations load) m = .ok module) :
    items.foldlM (Module.addDeclarations load') m = .ok module := by
  induction items generalizing m with
  | nil => exact h
  | cons item items ih =>
    rw [List.foldlM_cons] at h ⊢
    obtain ⟨next, hnext, h⟩ := bind_eq_ok.1 h
    obtain ⟨file, hfile, hnext⟩ := bind_eq_ok.1 hnext
    exact bind_eq_ok.2 ⟨next, bind_eq_ok.2 ⟨file, hload item file hfile, hnext⟩, ih h⟩

/-- The extraction of a module, while its declarations can be read as before. -/
theorem Policy.extract_of_load {load load' : String → Except Error DeclFile}
    (hload : ∀ item file, load item = .ok file → load' item = .ok file) {policy : Policy}
    {config : Config} {extraction : Extraction} (h : policy.extract config load = .ok extraction) :
    policy.extract config load' = .ok extraction := by
  obtain ⟨m, hm, h⟩ := bind_eq_ok.1 h
  exact bind_eq_ok.2 ⟨m, Module.foldlM_addDeclarations_of_load hload hm, h⟩

end Declarations

namespace Package

variable {package : Package}

/-! ### Outputs -/

/-- The outputs of a module, by their paths. -/
def moduleOutputs (package : Package) (module : String) : List String :=
  package.outputs .code module ++ package.outputs .doc module

/-- The outputs of all modules. -/
def allOutputs (package : Package) : List String :=
  package.policies.flatMap fun policy ↦ package.moduleOutputs policy.moduleName

theorem mem_moduleOutputs {kind : CallKind} {module path : String}
    (h : path ∈ package.outputs kind module) : path ∈ package.moduleOutputs module := by
  cases kind with
  | analyze => exact (List.not_mem_nil h).elim
  | code => exact List.mem_append_left _ h
  | doc => exact List.mem_append_right _ h

theorem mem_allOutputs {kind : CallKind} {policy : Policy} (hpolicy : policy ∈ package.policies)
    {path : String} (h : path ∈ package.outputs kind policy.moduleName) :
    path ∈ package.allOutputs := List.mem_flatMap.2 ⟨policy, hpolicy, mem_moduleOutputs h⟩

theorem hasOutputEnding_of_mem_outputs {kind : CallKind} {module path : String}
    (h : path ∈ package.outputs kind module) : HasOutputEnding path := by
  cases kind with
  | analyze => exact (List.not_mem_nil h).elim
  | code =>
    simp only [outputs, List.mem_cons, List.not_mem_nil, or_false] at h
    rcases h with rfl | rfl | rfl
    · exact hasOutputEnding_join (c := 'i') (by decide) (by decide) _ _
    · exact hasOutputEnding_join (c := 'h') (by decide) (by decide) _ _
    · exact hasOutputEnding_join (c := 'b') (by decide) (by decide) _ _
  | doc =>
    simp only [outputs, List.mem_singleton] at h
    subst h
    exact hasOutputEnding_join (c := 'b') (by decide) (by decide) _ _

theorem hasOutputEnding_of_mem_allOutputs {path : String} (h : path ∈ package.allOutputs) :
    HasOutputEnding path := by
  obtain ⟨policy, -, hpath⟩ := List.mem_flatMap.1 h
  exact (List.mem_append.1 hpath).elim hasOutputEnding_of_mem_outputs hasOutputEnding_of_mem_outputs

theorem hasOutputEnding_depsFile (config : Config) (module : String) :
    HasOutputEnding (config.depsFile module) :=
  hasOutputEnding_join (c := 'p') (by decide) (by decide) _ _

theorem hasOutputEnding_commonTypemapsFile (config : Config) :
    HasOutputEnding config.commonTypemapsFile :=
  ⟨'i', by decide, Path.getLast?_join (by decide) _⟩

/-! ### Extractions -/

variable {paths : List String} {fs later : Files}

/-- A module that can be read gives the same extraction after outputs have been written. -/
theorem extraction_of_grown (hgrown : Files.Grown paths fs later)
    (hpaths : ∀ path ∈ paths, HasOutputEnding path) {policy : Policy} {extraction : Extraction}
    (h : package.extraction fs policy = .ok extraction) :
    package.extraction later policy = .ok extraction :=
  Policy.extract_of_load (fun _ _ ↦ Source.load_of_grown hgrown hpaths) h

/-- The modules of the package that can be read give the same extractions later. -/
def KeepsDeclarations (package : Package) (fs later : Files) : Prop :=
  ∀ policy ∈ package.policies, ∀ extraction, package.extraction fs policy = .ok extraction →
    package.extraction later policy = .ok extraction

theorem keepsDeclarations_refl (package : Package) (fs : Files) :
    package.KeepsDeclarations fs fs := fun _ _ _ h ↦ h

theorem keepsDeclarations_write {path : String} (hpath : HasOutputEnding path) (fs : Files)
    (text : String) : package.KeepsDeclarations fs (fs.write path text).2 := by
  intro policy _ extraction h
  have hgrown := (Files.Grown.refl [path] fs).write hpath.isFileName (List.mem_singleton_self path)
    text
  exact extraction_of_grown hgrown (fun other hother ↦ List.mem_singleton.1 hother ▸ hpath) h

end Package

end Bindery
