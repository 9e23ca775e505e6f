import Bindery.Config
import Bindery.Files.Tree
import Bindery.Json.Reader
import Bindery.Policy.Decode
import Bindery.Policy.Preset

/-!
Manifests. A manifest names a package, configures it, and lists its modules, each with the edits
that make its policy.
-/

set_option autoImplicit false
set_option relaxedAutoImplicit false

namespace Bindery

structure ModuleSection where
  name : String
  /-- The declaration files, or none for the file of the name of the module. -/
  items : List String := []
  /-- The built-in setup that the edits refine. -/
  preset : Option String := none
  edits : List Edit := []

structure Manifest where
  config : Config := {}
  package : String
  modules : List ModuleSection := []

def ModuleSection.ofRecord? (shape : Shape.RecordShape) (json : Json) :
    Option ModuleSection := do
  let members ← shape ["name", "items", "director", "policy"] json
  return {
    name := ← Shape.needed members "name" Shape.text
    items := ← Shape.given members "items" [] (Shape.list Shape.text)
    preset := ← Shape.optional members "director" Shape.text
    edits := ← Shape.given members "policy" [] (Shape.list Edit.ofJson?) }

def packageName? (shape : Shape.RecordShape) (json : Json) : Option String := do
  let members ← shape ["name"] json
  Shape.needed members "name" Shape.text

/-- The policy of a module: the built-in setup, and after it the edits of the manifest. -/
def ModuleSection.policy (part : ModuleSection) (package : String)
    (commonIgnoredBases : List String) : Except Error Policy := do
  let start := Policy.empty part.name package
  let items := if part.items.isEmpty then start.items else part.items
  let start := { start with items, commonIgnoredBases }
  let start ← match part.preset with
    | some preset => (start.applyPreset preset).mapError (.inModule part.name)
    | none => pure start
  return start.applyAll part.edits

namespace Manifest

def ofRecord? (shape : Shape.RecordShape) (json : Json) : Option Manifest := do
  let members ← shape ["config", "package", "module"] json
  return {
    config := ← Shape.given members "config" {} (Config.ofRecord? shape)
    package := ← Shape.needed members "package" (packageName? shape)
    modules := ← Shape.given members "module" [] (Shape.list (ModuleSection.ofRecord? shape)) }

def ofJson? : Json → Option Manifest := ofRecord? Shape.closedRecord

/-- A manifest from the value of its document. -/
def ofDocument? : Json → Option Manifest := Shape.document (ofRecord? Shape.documentRecord)

def policyOf (manifest : Manifest) (part : ModuleSection) : Except Error Policy :=
  part.policy manifest.package manifest.config.ignoredBases

/-- The policies of all modules, in order. -/
def policies (manifest : Manifest) : Except Error (List Policy) :=
  manifest.modules.mapM manifest.policyOf

def parse? (text : String) : Option Manifest := (Json.read? text).bind ofDocument?

/-- Reads a manifest. Relative paths of its configuration are taken from its directory. -/
def load (fs : Files) (path : String) : Except Error Manifest :=
  match fs.read? path with
  | none => .error (.unreadableManifest path)
  | some text =>
    match parse? text with
    | none => .error (.malformedManifest path)
    | some manifest =>
      .ok { manifest with
        config := manifest.config.resolvePaths ((Path.parent? path).getD ".") }

end Manifest

end Bindery
