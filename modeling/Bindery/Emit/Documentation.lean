import Bindery.Extract.Extraction
import Bindery.Interface.Registry
import Bindery.Naming
import Bindery.Typemap.Rules

/-!
The documentation stub of a module: its constants, and its classes with the names and types of the
target language. Overloads of one name are listed above a single definition.
-/

set_option autoImplicit false
set_option relaxedAutoImplicit false

namespace Bindery.Emit

def stubNotice : List String :=
  ["# ----------------------------------------------------------------------------",
    "# This file is automatically generated by the WXRuby3 documentation",
    "# generator. Do not alter this file.",
    "# ----------------------------------------------------------------------------",
    ""]

/-- The documentation of a declaration as comment lines. -/
def docLines (start : String) (info : Info) : List String :=
  let lines (text : String) : List String := (Text.lines text).map (start ++ ·)
  (info.briefDoc.map lines).getD [] ++
    (match info.detailedDoc with
      | some detail => String.ofList (Text.trimEndChars start.toList) :: lines detail
      | none => [])

def enumStub (indent : String) (e : Enumeration) : List String :=
  "" :: (if e.isAnonymous then []
      else [indent ++ "# " ++ Naming.className e.info.name ++ " values"]) ++
    (e.values.filter fun v ↦ !v.info.ignored && !v.info.ignoreDoc).map fun v ↦
      indent ++ Naming.constantName v.info.name ++ " = nil"

/-! ### Types and parameters -/

/-- A native type without its `const` and without references and pointers at its end. -/
def plainType (type : String) : String :=
  let normal := (Text.remove "const " (normalizeType type)).toList
  String.ofList (normal.reverse.dropWhile fun c ↦ c == '*' || c == '&' || c == ' ').reverse

def integerTypes : List String :=
  ["int", "long", "short", "unsigned", "unsigned int", "unsigned long", "size_t", "wxCoord"]

/-- The type of the target language that a native type stands for, if no type map names one. -/
def rubyType (type : String) : String :=
  let plain := plainType type
  if plain == "void" then "void"
  else if plain == "bool" then "Boolean"
  else if integerTypes.contains plain then "Integer"
  else if plain == "float" || plain == "double" then "Float"
  else if plain == "wxString" || plain == "char" then "String"
  else if Text.startsWith "wx" plain then "Wx::" ++ Naming.className plain
  else plain

def rubyParam (p : Param) : String :=
  if p.name.isEmpty then "arg" else Naming.methodName p.name

def rubyParams (m : Method) : String := ", ".intercalate (m.params.map rubyParam)

/-- The types of the parameters, and of the result unless the method makes an object. -/
def signatureTags (rules : TypemapRules) (start : String) (m : Method) : List String :=
  let params := m.params.map fun p ↦
    start ++ "@param " ++ rubyParam p ++ " [" ++
      (rules.rubyParamType? p).getD (rubyType p.type) ++ "]"
  let result := rules.declaredReturnType m
  let tag := start ++ "@return [" ++ (rules.rubyReturnType? result).getD (rubyType result) ++ "]"
  params ++ (if m.isCtor then [] else [tag])

/-! ### Classes -/

/-- The name of a method in the target language. -/
def stubName (policy : Policy) (c : Class) (m : Method) : String :=
  if m.isCtor then "initialize"
  else
    let renames := policy.rubyRenames.filter (·.2.contains (c.name ++ "::" ++ m.name))
    (renames.head?.map Prod.fst).getD (Naming.methodName m.name)

/-- Whether a method is documented. -/
def isDocumented (interface : ClassInterface) (m : Method) : Bool :=
  !m.isDtor && !m.info.ignoreDoc && !interface.isDropped m

/-- The documented public methods by their names, in the order in which the names occur. -/
def stubMethods (policy : Policy) (c : Class) (interface : ClassInterface) :
    Table String (List Method) :=
  interface.publicMembers.foldl (fun methods member ↦
    match member with
    | .method m =>
      if isDocumented interface m then methods.alter (stubName policy c m) [] (· ++ [m])
      else methods
    | _ => methods) []

def methodStub (rules : TypemapRules) (name : String) : List Method → List String
  | [m] =>
    "" :: docLines "    # " m.info ++ signatureTags rules "    # " m ++
      ["    def " ++ (if m.isStatic then "self." else "") ++ name ++ "(" ++ rubyParams m ++ ") end"]
  | methods =>
    "" :: methods.flatMap (fun m ↦
        ("    # @overload " ++ name ++ "(" ++ rubyParams m ++ ")") ::
          docLines "    #   " m.info ++ signatureTags rules "    #   " m) ++
      ["    def " ++ (if methods.all Method.isStatic then "self." else "") ++ name ++ "(*args) end"]

def memberEnumStubs (interface : ClassInterface) : List String :=
  interface.publicMembers.flatMap fun
    | .enum e => if e.info.ignoreDoc then [] else enumStub "    " e
    | _ => []

def classOpening (policy : Policy) (c : Class) (name : String) (base : Option String) : String :=
  if policy.mixins.contains c.name then "  module " ++ name
  else
    match base with
    | some base => "  class " ++ name ++ " < " ++ Naming.className base
    | none => "  class " ++ name

def classStub (view : View) (registry : InterfaceRegistry) (rules : TypemapRules) (c : Class) :
    Except Error (List String) := do
  let className := view.policy.className c.name
  let interface ← registry.expect className
  let base ← view.baseClass c
  let name := Naming.className className
  return "" :: docLines "  # " c.info ++ [classOpening view.policy c name base] ++
    memberEnumStubs interface ++
    (stubMethods view.policy c interface).flatMap (fun (method, overloads) ↦
      methodStub rules method overloads) ++
    ["", "  end # " ++ name]

/-! ### The stub -/

def constantStub : Item → List String
  | .enum e => if e.hasActiveValues then enumStub "  " e else []
  | .variable v =>
    ["", "  # @return [" ++ rubyType v.type ++ "]",
      "  " ++ Naming.constantName v.info.name ++ " = nil"]
  | .define d =>
    if d.isConstant then ["", "  " ++ Naming.constantName d.info.name ++ " = nil"] else []
  | _ => []

def constantStubs (m : Module) : List String :=
  (m.items.filter fun item ↦ !item.info.ignored && !item.info.ignoreDoc).flatMap constantStub

/-- The documentation stub of a module whose classes are registered. -/
def documentation (view : View) (registry : InterfaceRegistry) (rules : TypemapRules) :
    Except Error String := do
  let scopes := (Text.splitScope view.policy.package.toList).map String.ofList
  let documented := view.generatedClasses.filter (!·.info.ignoreDoc)
  let classes ← documented.mapM (classStub view registry rules)
  return Text.unlines (stubNotice ++ scopes.flatMap (fun scope ↦ ["", "module " ++ scope]) ++
    constantStubs view.module ++ classes.flatten ++ scopes.flatMap fun _ ↦ ["", "end"])

end Bindery.Emit
