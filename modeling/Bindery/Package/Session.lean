import Bindery.Extract.Extraction
import Bindery.Interface.Registry

/-!
What a package has worked out so far. A step that fails keeps everything that was done before it
failed.
-/

set_option autoImplicit false
set_option relaxedAutoImplicit false

namespace Bindery

structure Session where
  files : Files := .empty
  registry : InterfaceRegistry := []
  /-- The extractions of modules, each made once. -/
  extractions : Table String Extraction := []
  /-- The module that generates each class. -/
  classIndex : Table String String := []
  /-- The modules that have passed the check. -/
  checked : List String := []

abbrev Run := ExceptT Error (StateM Session)

namespace Session

def indexClass (session : Session) (className module : String) : Session :=
  { session with classIndex := session.classIndex.set className module }

def keepExtraction (session : Session) (module : String) (extraction : Extraction) : Session :=
  { session with extractions := session.extractions.set module extraction }

def withRegistry (session : Session) (registry : InterfaceRegistry) : Session :=
  { session with registry }

end Session

namespace Run

/-- Writes a file, unless it holds the text already. Tells whether it was written. -/
def writeIfChanged (path text : String) : Run Bool := do
  let session ← get
  if session.files.read? path = some text then return false
  let (written, files) := session.files.write path text
  set { session with files }
  if written then return true else throw .io

/-- Writes texts by their paths, in order. The first file that cannot be written stops it. -/
def writeTexts (texts : List (String × String)) : Run Unit :=
  texts.forM fun entry ↦ do
    let _ ← writeIfChanged entry.1 entry.2

def expectInterface (className : String) : Run ClassInterface := do
  ofExcept ((← get).registry.expect className)

end Run

end Bindery
