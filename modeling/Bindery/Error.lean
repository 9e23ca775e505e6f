import Bindery.Decl.Prototype

/-!
What can go wrong, by cause, and the wording of each cause.
-/

set_option autoImplicit false
set_option relaxedAutoImplicit false

namespace Bindery

inductive ConfigFault
  | emptyInterfaceDir
  | blankPlatform
  | duplicateModule (module package : String)
  | unknownModule (module package : String)
  | unknownPreset (name : String)
  deriving Repr, DecidableEq

def ConfigFault.message : ConfigFault → String
  | .emptyInterfaceDir => "interface_dir cannot be empty"
  | .blankPlatform => "platform cannot be an empty string"
  | .duplicateModule module package =>
    "module " ++ module ++ " declared twice in package " ++ package
  | .unknownModule module package => "unknown module " ++ module ++ " in package " ++ package
  | .unknownPreset name => "unknown director '" ++ name ++ "'"

/-- Why the declarations of an item cannot be used. -/
inductive ExtractFault
  | noDeclarations
  | undecodable
  | unnamed (kind : String)
  | duplicate (kind name : String)
  | unnamedMember (className : String)
  | invalidProtection (raw : String)
  deriving Repr, DecidableEq

def malformedInput : String := "Declaration input error: the text does not have the expected form"

def ExtractFault.message : ExtractFault → String
  | .noDeclarations => "no declarations available"
  | .undecodable => malformedInput
  | .unnamed kind => "unnamed " ++ kind ++ " declaration"
  | .duplicate kind name => "duplicate " ++ kind ++ " declaration '" ++ name ++ "'"
  | .unnamedMember className => "unnamed member in class " ++ className
  | .invalidProtection raw => "Invalid protection [" ++ raw ++ "]"

/-- What a declaration was looked up for. -/
inductive Purpose
  | overrideChain
  | restrict (label : String)
  | mapParams
  | foldInto (className : String)
  deriving Repr, DecidableEq

def Purpose.message : Purpose → String
  | .overrideChain => "override the inheritance chain"
  | .restrict label => "set only_for [" ++ label ++ "]"
  | .mapParams => "apply parameter mappings"
  | .foldInto className => "fold into class " ++ className

inductive TypemapFault
  | noPatterns
  | noConversion (patterns : List String)
  | noPrecedence (patterns : List String)
  deriving Repr, DecidableEq

def TypemapFault.message : TypemapFault → String
  | .noPatterns => "typemap without patterns"
  | .noConversion patterns =>
    "typemap for " ++ ", ".intercalate patterns ++ " defines no conversion"
  | .noPrecedence patterns =>
    "typecheck for " ++ ", ".intercalate patterns ++ " requires a precedence"

inductive Error
  /-- A file cannot be read or written. -/
  | io
  /-- A declaration text or a policy does not have the expected form. -/
  | malformedInput
  /-- A configuration does not have the expected form. -/
  | malformedConfig
  | config (fault : ConfigFault)
  | extract (item : String) (fault : ExtractFault)
  | unresolved (module target : String) (purpose : Purpose)
  | prototype (className decl : String) (fault : Prototype.Fault) (offset : Nat)
  /-- A class has several bases left and none of them is its base class. -/
  | ambiguousBase (className : String) (bases : List String)
  | unknownOwner (className : String)
  | duplicateInterface (className : String)
  | missingInterface (className : String)
  | inconsistent (module package : String) (errors : List String)
  | typemap (fault : TypemapFault)
  | fileNotFound (path : String)
  | unreadableManifest (path : String)
  | malformedManifest (path : String)
  /-- What went wrong with one module of a manifest. -/
  | inModule (module : String) (cause : Error)
  deriving Repr, DecidableEq, Inhabited

def Error.message : Error → String
  | .io => "IO error: the file cannot be accessed"
  | .malformedInput => Bindery.malformedInput
  | .malformedConfig => "Configuration parse error: the value does not have the expected form"
  | .config fault => "Configuration error: " ++ fault.message
  | .extract item fault => "Extraction error in " ++ item ++ ": " ++ fault.message
  | .unresolved module target purpose =>
    "Cannot find '" ++ target ++ "' for module '" ++ module ++ "' to " ++ purpose.message
  | .prototype className decl fault offset =>
    "Unable to parse custom declaration [" ++ decl ++ "] for class " ++ className ++ ": " ++
      fault.message ++ " (at offset " ++ toString offset ++ ")"
  | .ambiguousBase className bases =>
    "Hierarchy error for class " ++ className ++
      ": Cannot determine base class from multiple inheritance hierarchy: " ++
      ", ".intercalate bases
  | .unknownOwner className => "Cannot determine director for class " ++ className
  | .duplicateInterface className =>
    "duplicate interface registry for class " ++ className
  | .missingInterface className => "missing preprocessed data for class " ++ className
  | .inconsistent module package errors =>
    "Errors found generating for module " ++ module ++ " from package " ++ package ++ ":\n" ++
      "\n".intercalate errors
  | .typemap fault => "Typemap error: " ++ fault.message
  | .fileNotFound path => "File not found: " ++ path
  | .unreadableManifest path => "Failed to read manifest " ++ path
  | .malformedManifest path => "Invalid manifest " ++ path
  | .inModule module cause => "module " ++ module ++ ": " ++ cause.message

/-- Reads a prototype of `className`. The place of a failure is reported as a number of bytes, with
the text without the white space around it. -/
def Prototype.parse (className text : String) : Except Error Prototype :=
  let cs := breaksToSpaces text.toList
  match parseChars className cs with
  | .ok prototype => .ok prototype
  | .error failure =>
    .error (.prototype className (Text.trim text) failure.fault (byteOffset cs failure.place))

end Bindery
