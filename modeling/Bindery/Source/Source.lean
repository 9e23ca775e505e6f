import Bindery.Files.Tree
import Bindery.Source.Declare
import Bindery.Source.Validate

/-!
Where declarations come from: files held in memory, or the JSON files of a directory, one for each
item. A source can check what it hands out.
-/

set_option autoImplicit false
set_option relaxedAutoImplicit false

namespace Bindery

inductive Source
  | memory (files : List (String × DeclFile))
  | directory (dir : String)
  | validating (inner : Source)

namespace Source

def fileName (item : String) : String := item ++ ".json"

/-- The file that holds the declarations of an item. -/
def itemPath (dir item : String) : String := Path.join dir (fileName item)

/-- Adds a file to those held in memory, in place of an earlier one of its item. -/
def insertFile (files : List (String × DeclFile)) (item : String) (file : DeclFile) :
    List (String × DeclFile) :=
  (item, file) :: files.filter (·.1 != item)

/-- The items of a directory, in order. -/
def available (fs : Files) (dir : String) : List String :=
  ((fs.fileNames dir).filterMap fun name ↦
    match Path.splitExtension name with
    | (stem, some "json") => some stem
    | _ => none).mergeSort fun a b ↦ decide (a ≤ b)

def loadFile (fs : Files) (dir item : String) : Except Error DeclFile :=
  match fs.read? (itemPath dir item) with
  | none => .error (.fileNotFound (itemPath dir item))
  | some text =>
    match DeclFile.parse text with
    | .ok file => .ok file
    | .error _ => .error (.extract item .undecodable)

def load (fs : Files) (item : String) : Source → Except Error DeclFile
  | .memory files =>
    match files.lookup item with
    | some file => .ok file
    | none => .error (.extract item .noDeclarations)
  | .directory dir => loadFile fs dir item
  | .validating inner => do
    let file ← inner.load fs item
    file.validate item
    return file

/-- The file behind an item, if there is one. -/
def origin? (item : String) : Source → Option String
  | .memory _ => none
  | .directory dir => some (itemPath dir item)
  | .validating inner => inner.origin? item

end Source

/-- Adds the declarations of an item to a module. -/
def Module.addDeclarations (load : String → Except Error DeclFile) (m : Module) (item : String) :
    Except Error Module := do
  let file ← load item
  let items ← file.toItems
  return items.foldl Module.addItem m

/-- The module of the declarations of some items, read in order. -/
def Module.extract (load : String → Except Error DeclFile) (name : String)
    (itemNames : List String) : Except Error Module :=
  itemNames.foldlM (Module.addDeclarations load) { name, itemNames }

end Bindery
