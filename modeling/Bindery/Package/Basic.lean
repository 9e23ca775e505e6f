import Bindery.Manifest
import Bindery.Source.Source
import Bindery.Text.Quoted

/-!
Packages. A package is a set of modules that are generated together, each by its policy, from one
source of declarations.
-/

set_option autoImplicit false
set_option relaxedAutoImplicit false

namespace Bindery

/-- The first name that occurred before, in a list or among the names seen already. -/
def firstRepeat? (seen : List String) : List String → Option String
  | [] => none
  | name :: names => if name ∈ seen then some name else firstRepeat? (name :: seen) names

theorem nodup_of_firstRepeat {names seen : List String} (h : firstRepeat? seen names = none) :
    names.Nodup ∧ ∀ name ∈ names, name ∉ seen := by
  induction names generalizing seen with
  | nil => exact ⟨List.nodup_nil, fun _ hmem ↦ (List.not_mem_nil hmem).elim⟩
  | cons name names ih =>
    simp only [firstRepeat?] at h
    split at h
    · cases h
    · rename_i hname
      obtain ⟨hnodup, hseen⟩ := ih h
      refine ⟨List.nodup_cons.2 ⟨fun hmem ↦ hseen name hmem List.mem_cons_self, hnodup⟩, ?_⟩
      intro other hmem
      rcases List.mem_cons.1 hmem with rfl | htail
      · exact hname
      · exact fun hold ↦ hseen other htail (List.mem_cons_of_mem _ hold)

structure Package where
  name : String
  config : Config
  source : Source
  /-- The manifest that the package was read from. -/
  manifest : Option String
  /-- The policies of the modules, in order. -/
  policies : List Policy
  distinct : (policies.map Policy.moduleName).Nodup

namespace Package

/-- The checked declaration files of the configured directory. -/
def usualSource (config : Config) : Source := .validating (.directory config.declsDir)

/-- A package of a usable configuration, with modules of different names. -/
def build (name : String) (config : Config) (source : Source) (manifest : Option String)
    (policies : List Policy) : Except Error Package := do
  config.validate
  match h : firstRepeat? [] (policies.map Policy.moduleName) with
  | some module => .error (.config (.duplicateModule module name))
  | none =>
    .ok { name, config, source, manifest, policies, distinct := (nodup_of_firstRepeat h).1 }

/-- The package that a manifest describes. -/
def ofManifest (manifest : Manifest) (path : Option String) : Except Error Package := do
  build manifest.package manifest.config (usualSource manifest.config) path (← manifest.policies)

def moduleNames (package : Package) : List String := package.policies.map Policy.moduleName

/-- A package as a single line shows it. -/
def summary (package : Package) : String :=
  "Package \x7b name: " ++ Text.quoted package.name ++ ", modules: [" ++
    ", ".intercalate (package.moduleNames.map Text.quoted) ++ "] \x7d"

def policy (package : Package) (module : String) : Except Error Policy :=
  match package.policies.find? (·.moduleName == module) with
  | some policy => .ok policy
  | none => .error (.config (.unknownModule module package.name))

end Package

end Bindery
