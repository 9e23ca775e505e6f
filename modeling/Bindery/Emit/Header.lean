import Bindery.Config
import Bindery.Emit.Constants
import Bindery.Emit.Notice
import Bindery.Extract.Extraction
import Bindery.Interface.Registry
import Bindery.Typemap.Rules

/-!
The header of a module. It declares everything that the interface tool wraps: type definitions,
classes as they are registered, variables, enumerations, constants and functions, in this order.
What is restricted to platforms stands between the lines of its guard.
-/

set_option autoImplicit false
set_option relaxedAutoImplicit false

namespace Bindery.Emit

/-! ### Members of classes -/

def shownValues (e : Enumeration) : List EnumValue := e.values.filter (!·.info.ignored)

/-- The values of an enumeration, with a comma between each and the next. -/
def valueLines (indent : String) : List EnumValue → List String
  | [] => []
  | [v] => Guard.enclose v.info.onlyFor [indent ++ v.info.name]
  | v :: rest =>
    Guard.enclose v.info.onlyFor [indent ++ v.info.name ++ ","] ++ valueLines indent rest

def memberEnum (indent className : String) (e : Enumeration) : List String :=
  let name := if e.isAnonymous then "" else e.info.name
  Guard.enclose e.info.onlyFor
    ([indent ++ "// from " ++ className ++ "::" ++ e.info.name,
      indent ++ "enum " ++ name ++ " \x7b"] ++
      valueLines (indent ++ "  ") (shownValues e) ++ [indent ++ "\x7d;"])

/-- The specifiers in front of a method. -/
def specifiers (m : Method) : String :=
  (if m.isStatic then "static " else "") ++ (if m.isVirtual then "virtual " else "")

/-- A method of an inner class. -/
def innerMethod (indent className : String) (m : Method) : String :=
  if m.isCtor then indent ++ className ++ m.argsString ++ ";"
  else if m.isDtor then indent ++ "~" ++ className ++ "();"
  else indent ++ specifiers m ++ m.typeText ++ " " ++ m.name ++ m.argsString ++ ";"

def innerMethods (indent className : String) (chain : Overloads) : List String :=
  (chain.all.filter fun m ↦ m.info.isActive && !m.isTemplate).flatMap fun m ↦
    Guard.enclose m.info.onlyFor [innerMethod indent className m]

/-- Whether a member of an inner class is written out. -/
def isShownInside (info : Info) : Bool := info.protection == .publicAccess && info.isActive

mutual

/-- An inner class with its public members, which are written from the declaration itself. -/
def innerClass (indent : String) : Class → List String
  | ⟨info, kind, _, members, _, _, _, _⟩ =>
    [indent ++ kind.keyword ++ " " ++ info.name, indent ++ "\x7b"] ++
      (if kind = .ofStruct then [] else [indent ++ "public:"]) ++
      innerMembers (indent ++ "  ") info.name members ++ [indent ++ "\x7d;"]

def innerMember (indent className : String) : Member → List String
  | .method chain =>
    if isShownInside chain.info then innerMethods indent className chain else []
  | .variable v =>
    if isShownInside v.info then [indent ++ v.type ++ " " ++ v.info.name ++ ";"] else []
  | .enum e =>
    if isShownInside e.info && e.hasActiveValues then memberEnum indent className e else []
  | .inner c => if isShownInside c.info then innerClass indent c else []

def innerMembers (indent className : String) : List Member → List String
  | [] => []
  | m :: members => innerMember indent className m ++ innerMembers indent className members

end

/-- What the members of a class are written for. -/
structure ClassScope where
  rules : TypemapRules
  source : Class
  className : String
  interface : ClassInterface
  isAbstract : Bool

namespace ClassScope

/-- Whether a method is written without an implementation. -/
def isPure (scope : ClassScope) (m : Method) : Bool :=
  m.isPureVirtual && (scope.interface.method? m.signature).any (·.pureVirtual)

def methodLines (scope : ClassScope) (m : Method) : List String :=
  ["  // from " ++ m.definition,
    "  " ++ specifiers m ++ scope.rules.declaredReturnType m ++ " " ++ m.name ++
      scope.source.mapParams m ++ (if scope.isPure m then " =0" else "") ++ ";"]

def variableLines (v : MemberVariable) : List String :=
  ["  // from " ++ v.definition,
    "  " ++ (if v.isStatic then "static " else "") ++ v.type ++ " " ++ v.info.name ++ ";"]

/-- The lines of an added declaration, the last one closed by a semicolon. -/
def customLines : List String → List String
  | [] => []
  | [line] => ["  " ++ line ++ ";"]
  | line :: rest => ("  " ++ line) :: customLines rest

def memberLines (scope : ClassScope) : InterfaceMember → List String
  | .inner c => Guard.enclose c.info.onlyFor (innerClass "  " c)
  | .method m =>
    if m.isCtor then
      if scope.isAbstract then []
      else Guard.enclose m.info.onlyFor ["  " ++ scope.className ++ scope.source.mapParams m ++ ";"]
    else if m.isDtor then
      if scope.isAbstract then []
      else ["  " ++ (if m.isVirtual then "virtual " else "") ++ "~" ++ scope.className ++ "();"]
    else if scope.interface.isDropped m then []
    else Guard.enclose m.info.onlyFor (scope.methodLines m)
  | .enum e => memberEnum "  " scope.className e
  | .variable v => Guard.enclose v.info.onlyFor (variableLines v)
  | .custom decl => "  // custom wxRuby extension" :: customLines (Text.lines decl)

/-- The body of a class. Only classes name their sections. -/
def body (scope : ClassScope) : List String :=
  let isStruct := scope.source.kind == .ofStruct
  (if isStruct then [] else ["public:"]) ++
    (if scope.isAbstract then ["  virtual ~" ++ scope.className ++ "() =0;"] else []) ++
    scope.interface.publicMembers.flatMap scope.memberLines ++
    (if isStruct || scope.interface.protectedMembers.isEmpty then []
      else ["", " protected:"] ++ scope.interface.protectedMembers.flatMap scope.memberLines)

/-- The declaration of a class. Its base is announced in front of it. -/
def declaration (scope : ClassScope) (base : Option String) : List String :=
  let announced := match base with
    | some base => ["class " ++ base ++ ";", ""]
    | none => []
  let derived := match base with
    | some base => " : public " ++ base
    | none => ""
  announced ++ [scope.source.kind.keyword ++ " " ++ scope.className ++ derived, "\x7b"] ++
    scope.body ++ ["\x7d;"]

end ClassScope

/-! ### Sections of the header -/

def typedefLines (m : Module) : List String :=
  m.items.flatMap fun
    | .typedef t =>
      if t.info.isActive then Guard.enclose t.info.onlyFor [t.definition ++ ";"] else []
    | _ => []

def classLines (view : View) (registry : InterfaceRegistry) (rules : TypemapRules) (c : Class) :
    Except Error (List String) := do
  let className := view.policy.className c.name
  let interface ← registry.expect className
  let base ← view.baseClass c
  let scope : ClassScope :=
    { rules, source := c, className, interface, isAbstract := view.isAbstract c }
  return "" :: Guard.enclose c.info.onlyFor (scope.declaration base)

/-- The type of a constant that stands for a variable. An array of characters is a pointer. -/
def constantType (v : GlobalVariable) : String :=
  if Text.occursIn "char".toList v.type.toList && v.argsString == "[]" then v.type ++ "*"
  else v.type

/-- The name of a constant that stands for a variable. It keeps the marking of the toolkit. -/
def variableConstant (name : String) : String :=
  (if Text.startsWith "wx" name then "wx" else "") ++ Naming.constantName name

def variableLines (m : Module) : List String :=
  m.items.flatMap fun
    | .variable v =>
      if v.info.isActive then
        Guard.enclose v.info.onlyFor
          ["%constant " ++ constantType v ++ " " ++ variableConstant v.info.name ++ " = " ++
            v.info.name ++ ";"]
      else []
    | _ => []

def valueConstant (v : EnumValue) : List String :=
  Guard.enclose v.info.onlyFor ["%constant int " ++ v.info.name ++ " = " ++ v.info.name ++ ";"]

def enumLines (m : Module) : List String :=
  m.items.flatMap fun
    | .enum e =>
      if e.info.isActive && e.hasActiveValues then
        Guard.enclose e.info.onlyFor
          (["", "// from enum " ++ e.info.name] ++
            (if e.isAnonymous then [] else ["enum " ++ e.info.name ++ ";"]) ++
            (shownValues e).flatMap valueConstant)
      else []
    | _ => []

def defineLines (m : Module) : List String :=
  let lines := (Constants.activeDefines m).flatMap fun d ↦
    match Constants.classify? d with
    | some (.header line) => Guard.enclose d.info.onlyFor [line]
    | _ => []
  if lines.isEmpty then [] else "" :: lines

def functionLines (rules : TypemapRules) (m : Module) : List String :=
  m.items.flatMap fun
    | .function chain =>
      (chain.all.filter fun f ↦ f.info.isActive && !f.isTemplate).flatMap fun f ↦
        Guard.enclose f.info.onlyFor
          [rules.declaredReturnType f ++ " " ++ f.name ++ f.argsString ++ ";"]
    | _ => []

def warnLines (policy : Policy) : List String :=
  if policy.warnFilters.isEmpty then []
  else "" :: policy.warnFilters.flatMap fun (warning, decls) ↦
    decls.map fun decl ↦ "%warnfilter(" ++ toString warning ++ ") " ++ decl ++ ";"

/-- The symbol that keeps a header from being read twice. -/
def headerSymbol (moduleName : String) : String := "__" ++ Text.upper moduleName ++ "_H_INCLUDED__"

/-- The header of a module whose classes are registered. -/
def header (view : View) (registry : InterfaceRegistry) (rules : TypemapRules) :
    Except Error String := do
  let policy := view.policy
  let symbol := headerSymbol policy.moduleName
  let part (kind : GenKind) (lines : List String) : List String :=
    if policy.generates kind then lines else []
  let classes ← if policy.generates .classes
    then view.generatedClasses.mapM (classLines view registry rules) else pure []
  return Text.unlines (notice ++ ["", "#ifndef " ++ symbol, "#define " ++ symbol] ++
    warnLines policy ++ part .typedefs (typedefLines view.module) ++ classes.flatten ++
    part .variables (variableLines view.module) ++ part .enums (enumLines view.module) ++
    part .defines (defineLines view.module) ++
    part .functions (functionLines rules view.module) ++
    ["", "#endif /* " ++ symbol ++ " */"])

end Bindery.Emit
