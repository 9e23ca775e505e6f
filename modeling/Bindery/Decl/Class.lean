import Bindery.Decl.Method

/-!
Classes with their members and their hierarchies, and the plain declarations: enumerations,
variables, type definitions and constants.
-/

set_option autoImplicit false
set_option relaxedAutoImplicit false

namespace Bindery

structure EnumValue where
  info : Info
  value : Option String := none
  deriving Repr, DecidableEq

structure Enumeration where
  info : Info
  isAnonymous : Bool
  values : List EnumValue := []
  deriving Repr, DecidableEq

/-- An enumeration is anonymous when its name is empty or made up by the extraction tool. -/
def Enumeration.isAnonymousName (name : String) : Bool := name.isEmpty || Text.startsWith "@" name

def Enumeration.named (name : String) (values : List String) : Enumeration :=
  { info := { name }
    isAnonymous := isAnonymousName name
    values := values.map fun value ↦ { info := { name := value } } }

def Enumeration.hasActiveValues (e : Enumeration) : Bool := e.values.any (!·.info.ignored)

structure GlobalVariable where
  info : Info
  type : String
  definition : String
  /-- What follows the name, such as array brackets. -/
  argsString : String := ""
  value : Option String := none
  deriving Repr, DecidableEq

def GlobalVariable.named (name type : String) : GlobalVariable :=
  { info := { name }, type, definition := type ++ " " ++ name }

structure MemberVariable where
  info : Info
  type : String
  definition : String
  isStatic : Bool := false
  deriving Repr, DecidableEq

def MemberVariable.definitionIn (className name type : String) : String :=
  type ++ " " ++ className ++ "::" ++ name

def MemberVariable.named (className name type : String) : MemberVariable :=
  { info := { name }, type, definition := definitionIn className name type }

structure TypeDefinition where
  info : Info
  type : String
  definition : String
  deriving Repr, DecidableEq

def TypeDefinition.named (name type : String) : TypeDefinition :=
  { info := { name }, type, definition := "typedef " ++ type ++ " " ++ name }

/-- A preprocessor definition. -/
structure Define where
  info : Info
  value : Option String := none
  /-- Takes arguments, so that it stands for no constant. -/
  isFunctionLike : Bool := false
  deriving Repr, DecidableEq

def Define.isConstant (d : Define) : Bool :=
  !d.info.ignored && !d.isFunctionLike && d.value.any (!Text.isBlankText ·)

inductive ClassKind
  | ofClass
  | ofStruct
  deriving Repr, DecidableEq, Inhabited

def ClassKind.keyword : ClassKind → String
  | .ofClass => "class"
  | .ofStruct => "struct"

/-- A base class with the hierarchy above it. -/
structure Base where
  name : String
  bases : List Base := []
  deriving Repr, BEq

mutual

/-- Whether a name occurs in a hierarchy. -/
def Base.contains (name : String) : Base → Bool
  | ⟨own, bases⟩ => own == name || Base.anyContains name bases

def Base.anyContains (name : String) : List Base → Bool
  | [] => false
  | base :: bases => base.contains name || Base.anyContains name bases

end

/-- The hierarchy of single inheritance from the nearest base to the farthest. -/
def Base.chain : List String → List Base
  | [] => []
  | name :: farther => [⟨name, Base.chain farther⟩]

/-- A parameter declaration that is written in place of another. -/
structure ParamMapping where
  source : String
  target : String
  deriving Repr, DecidableEq

mutual

structure Class where
  info : Info
  kind : ClassKind := .ofClass
  bases : List Base := []
  members : List Member := []
  isAbstract : Bool := false
  isTemplate : Bool := false
  includes : List String := []
  paramMappings : List ParamMapping := []

inductive Member where
  | method (chain : Overloads)
  | variable (v : MemberVariable)
  | enum (e : Enumeration)
  | inner (c : Class)

end

deriving instance Repr, BEq for Class, Member

def Member.info : Member → Info
  | .method chain => chain.info
  | .variable v => v.info
  | .enum e => e.info
  | .inner c => c.info

def Member.name (m : Member) : String := m.info.name

def Member.methods? : Member → Option Overloads
  | .method chain => some chain
  | _ => none

/-- Joins methods to the chain of their key among the members, or puts them last. -/
def Member.insertMethods : List Member → Overloads → List Member
  | [], more => [.method more]
  | .method chain :: members, more =>
    if chain.sharesKey more then .method (chain.append more) :: members
    else .method chain :: insertMethods members more
  | member :: members, more => member :: insertMethods members more

namespace Class

def name (c : Class) : String := c.info.name

/-- Adds a member. Methods of one name become overloads, and a method that names no class yet is
declared by this one. -/
def addMember (c : Class) : Member → Class
  | .method chain =>
    let first := match chain.first.className with
      | some _ => chain.first
      | none => chain.first.inClass c.name
    { c with members := Member.insertMethods c.members { chain with first } }
  | member => { c with members := c.members ++ [member] }

/-- The method chains, in the order of their first declarations. -/
def methods (c : Class) : List Overloads := c.members.filterMap Member.methods?

def innerClasses (c : Class) : List Class :=
  c.members.filterMap fun
    | .inner inner => some inner
    | _ => none

def findMethod? (c : Class) (name : String) : Option Overloads :=
  c.methods.find? (·.name == name)

def isDerivedFrom (c : Class) (name : String) : Bool := Base.anyContains name c.bases

/-- Whether some protected member is not left out, so that the class has a protected section. -/
def regardsProtectedMembers (c : Class) : Bool :=
  let regarded (info : Info) : Bool := info.protection == .protectedAccess && !info.ignored
  c.members.any fun
    | .method chain => chain.all.any (regarded ·.info)
    | member => regarded member.info

def hasVirtuals (c : Class) : Bool :=
  (c.methods.flatMap Overloads.all).any fun m ↦ m.isVirtual && m.isOrdinary && !m.info.ignored

def setInheritanceChain (c : Class) (names : List String) : Class :=
  { c with bases := Base.chain names }

/-- A parameter as the mappings of the class declare it. A mapping is found by the declaration in
front of the first `=`. -/
def mapParam (mappings : List ParamMapping) (p : Param) : String :=
  let plain := p.declaration.toList.takeWhile (· != '=')
  let wanted := normalizeTypeChars (Text.trimChars plain)
  match mappings.find? fun mapping ↦ normalizeTypeChars mapping.source.toList == wanted with
  | some mapping => mapping.target
  | none => p.declaration

/-- The parameter list of a method as the class declares it. -/
def mapParams (c : Class) (m : Method) : String :=
  "(" ++ ", ".intercalate (m.params.map (mapParam c.paramMappings)) ++ ")" ++ m.constSuffix

end Class

end Bindery
