import Bindery.Error
import Bindery.Files.Tree
import Bindery.Json.Document
import Bindery.Json.Reader

/-!
The configuration of a package: where its input is found and where each output of a module goes.
-/

set_option autoImplicit false
set_option relaxedAutoImplicit false

namespace Bindery

structure Config where
  /-- The directory that emitted include lines name. -/
  interfaceDir : String := "include"
  swigDir : String := "swig"
  includeDir : String := "swig/include"
  extDir : String := "lib/wx/ext"
  docDir : String := "lib/wx/doc/gen"
  depsDir : String := ".deps"
  declsDir : String := "decls"
  /-- The only platform that is generated for, if there is one. -/
  platform : Option String := none
  /-- Whether deprecated methods get no forwarding wrappers. -/
  noDeprecate : Bool := false
  commonIncludes : List String := ["swig/common.i"]
  /-- Base classes that are dropped from every hierarchy. -/
  ignoredBases : List String := ["wxTrackable"]
  deriving Repr, DecidableEq

namespace Config

def fields : List String :=
  ["interface_dir", "swig_dir", "include_dir", "ext_dir", "doc_dir", "deps_dir", "decls_dir",
    "platform", "no_deprecate", "common_includes", "ignored_bases"]

/-- Fields that are not given have their usual values. -/
def ofRecord? (shape : Shape.RecordShape) (json : Json) : Option Config := do
  let members ← shape fields json
  let usual : Config := {}
  return {
    interfaceDir := ← Shape.given members "interface_dir" usual.interfaceDir Shape.text
    swigDir := ← Shape.given members "swig_dir" usual.swigDir Shape.text
    includeDir := ← Shape.given members "include_dir" usual.includeDir Shape.text
    extDir := ← Shape.given members "ext_dir" usual.extDir Shape.text
    docDir := ← Shape.given members "doc_dir" usual.docDir Shape.text
    depsDir := ← Shape.given members "deps_dir" usual.depsDir Shape.text
    declsDir := ← Shape.given members "decls_dir" usual.declsDir Shape.text
    platform := ← Shape.optional members "platform" Shape.text
    noDeprecate := ← Shape.given members "no_deprecate" usual.noDeprecate Shape.flag
    commonIncludes :=
      ← Shape.given members "common_includes" usual.commonIncludes (Shape.list Shape.text)
    ignoredBases :=
      ← Shape.given members "ignored_bases" usual.ignoredBases (Shape.list Shape.text) }

def toJson (config : Config) : Json := .obj [
  ("interface_dir", .str config.interfaceDir), ("swig_dir", .str config.swigDir),
  ("include_dir", .str config.includeDir), ("ext_dir", .str config.extDir),
  ("doc_dir", .str config.docDir), ("deps_dir", .str config.depsDir),
  ("decls_dir", .str config.declsDir), ("platform", .optText config.platform),
  ("no_deprecate", .bool config.noDeprecate), ("common_includes", .texts config.commonIncludes),
  ("ignored_bases", .texts config.ignoredBases)]

def validate (config : Config) : Except Error Unit :=
  if Text.isBlankText config.interfaceDir then .error (.config .emptyInterfaceDir)
  else if config.platform.any Text.isBlankText then .error (.config .blankPlatform)
  else .ok ()

/-- A configuration that is usable, from the value of its document. -/
def decode (json : Json) : Except Error Config :=
  match Shape.document (ofRecord? Shape.documentRecord) json with
  | none => .error .malformedConfig
  | some config => config.validate.map fun _ ↦ config

def parse (text : String) : Except Error Config :=
  match Json.read? text with
  | none => .error .malformedConfig
  | some json => decode json

def load (fs : Files) (path : String) : Except Error Config :=
  if !fs.exists? path then .error (.fileNotFound path)
  else
    match fs.read? path with
    | none => .error .io
    | some text => parse text

/-- Takes relative paths from a directory. -/
def resolvePaths (config : Config) (root : String) : Config :=
  { config with
    swigDir := Path.join root config.swigDir
    includeDir := Path.join root config.includeDir
    extDir := Path.join root config.extDir
    docDir := Path.join root config.docDir
    depsDir := Path.join root config.depsDir
    declsDir := Path.join root config.declsDir
    commonIncludes := config.commonIncludes.map (Path.join root) }

def interfaceFile (config : Config) (module : String) : String :=
  Path.join config.swigDir (module ++ ".i")

def headerFile (config : Config) (module : String) : String :=
  Path.join config.includeDir (module ++ ".h")

/-- The header of a module as include lines name it. -/
def headerInclude (config : Config) (module : String) : String :=
  config.interfaceDir ++ "/" ++ module ++ ".h"

def scriptFile (config : Config) (module : String) : String :=
  Path.join config.extDir (Text.lower module ++ "_ext.rb")

def docFile (config : Config) (module : String) : String :=
  Path.join config.docDir (Text.lower module ++ ".rb")

def depsFile (config : Config) (module : String) : String :=
  Path.join config.depsDir ("." ++ module ++ ".dep")

def commonTypemapsFile (config : Config) : String :=
  Path.join config.swigDir "common_typemaps.i"

end Config

end Bindery
