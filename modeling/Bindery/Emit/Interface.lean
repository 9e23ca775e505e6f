import Bindery.Config
import Bindery.Emit.Notice
import Bindery.Extract.Extraction
import Bindery.Typemap.Rules

/-!
The interface file of a module, which tells the interface tool what to wrap: how objects are kept,
what is renamed or cannot be overridden, the type maps, the code of the policy, and the headers of
the bases from other modules.
-/

set_option autoImplicit false
set_option relaxedAutoImplicit false

namespace Bindery.Emit

/-- A section of verbatim code, if there is any. -/
def codeBlock (directive code : String) : List String :=
  if code.isEmpty then [] else ["", directive ++ " %\x7b", code, "%\x7d"]

/-- Directives in between, if there are any. -/
def plainCode (code : String) : List String := if code.isEmpty then [] else ["", code]

def gcLine (view : View) (c : Class) (name : String) : String :=
  (view.gcType c).directive ++ "(" ++ name ++ ");"

/-- How the objects of each class and of its inner classes are kept. -/
def gcLines (view : View) : List String :=
  view.generatedClasses.flatMap fun c ↦
    gcLine view c (view.policy.className c.name) ::
      (c.innerClasses.filter (!·.info.ignored)).map fun inner ↦ gcLine view inner inner.name

def disownLine (disown : String × Bool) : String :=
  "%apply SWIGTYPE *" ++ (if disown.2 then "DISOWN" else "") ++ " \x7b " ++ disown.1 ++ " \x7d;"

/-- The header of the toolkit itself is included by the shared files. -/
def includeLines (includes : List String) : List String :=
  (includes.filter fun header ↦ !Text.occursIn "wx.h".toList header.toList).map fun header ↦
    "#include \"" ++ header ++ "\""

def beginLines (policy : Policy) (includes : List String) : List String :=
  "" :: policy.disowns.map disownLine ++
    policy.newObjects.map (fun decl ↦ "%newobject " ++ decl ++ ";") ++
    ["", "%header %\x7b"] ++ includeLines includes ++ plainCode (policy.codeText .header) ++
    ["%\x7d"] ++ codeBlock "%begin" (policy.codeText .begin) ++
    plainCode (policy.codeText .swigBegin)

def noDirectorLine (name : String) : String := "%feature(\"nodirector\") " ++ name ++ ";"

/-- The classes that cannot be derived from. When nothing can be overridden these are all classes
but templates and folded bases. -/
def closedClasses (view : View) : List Class :=
  if view.policy.disabledProxies then
    view.module.classes.filter fun c ↦
      !c.info.ignored && !c.isTemplate && !view.policy.isFoldedBase c.name
  else view.generatedClasses.filter (!view.hasProxy ·)

def renameLines (renames : Table String (List String)) : List String :=
  renames.flatMap fun (target, sources) ↦
    sources.map fun source ↦ "%rename(" ++ target ++ ") " ++ source ++ ";"

/-- The variable that holds the module of the package. -/
def packageVariable (package : String) : String :=
  "m" ++ String.ofList (Text.splitScope package.toList).flatten

def runtimeLines (view : View) : List String :=
  let policy := view.policy
  let runtime := policy.codeText .runtime
  "" :: (closedClasses view).map (fun c ↦ noDirectorLine (policy.className c.name)) ++
    policy.noProxies.map noDirectorLine ++ renameLines policy.renames ++
    renameLines policy.rubyRenames ++
    policy.mixins.map (fun mixin ↦ "%feature(\"mixin\") " ++ mixin ++ ";") ++
    ["", "%runtime %\x7b"] ++ (if runtime.isEmpty then [] else [runtime]) ++
    ["extern VALUE " ++ packageVariable policy.package ++ "; // The global package module",
      "WXRUBY_EXPORT VALUE wxRuby_Core(); // returns the core package module", "%\x7d"]

def typemapLines (rules : TypemapRules) : List String :=
  let blocks := rules.blocks .own
  if blocks.isEmpty then [] else "" :: blocks

def extendLines (view : View) (extraction : Extraction) (c : Class) : List String :=
  let className := view.policy.className c.name
  let code := extraction.extendCode view.policy className
  if code.isEmpty then [] else ["", "%extend " ++ className ++ " \x7b", code, "\x7d;"]

/-- The bases of a class that other modules declare, farthest first. -/
def foreignBases (view : View) (c : Class) : List String :=
  (view.baseList c).reverse.filter fun base ↦ (view.module.findClass? base).isNone

/-- The files that are imported, each once. -/
def imports (view : View) (config : Config) : List String :=
  let bases := (view.generatedClasses.flatMap (foreignBases view)).map config.headerInclude
  addAllNew [] (view.policy.swigImportsPrepend ++ bases ++ view.policy.swigImportsAppend)

def importLines (view : View) (config : Config) : List String :=
  let policy := view.policy
  let code := policy.codeText .interface
  "" :: (imports view config).map (fun file ↦ "%import \"" ++ file ++ "\"") ++
    policy.swigIncludes.map (fun file ↦ "%include \"" ++ file ++ "\"") ++
    (if code.isEmpty
      then ["", "%include \"" ++ config.headerInclude policy.moduleName ++ "\""] else ["", code])

/-- The interface file of an extracted module. -/
def interfaceFile (policy : Policy) (extraction : Extraction) (rules : TypemapRules)
    (config : Config) : String :=
  let view : View := ⟨policy, extraction.module⟩
  Text.unlines (notice ++
    ["", "%include \"../common.i\"", "", "%module(directors=\"1\") " ++ policy.moduleName, ""] ++
    gcLines view ++ beginLines policy extraction.includes ++ runtimeLines view ++
    typemapLines rules ++ plainCode (extraction.swigCode policy) ++
    codeBlock "%init" (policy.codeText .init) ++
    view.generatedClasses.flatMap (extendLines view extraction) ++ importLines view config ++
    codeBlock "%wrapper" (policy.codeText .wrapper))

end Bindery.Emit
