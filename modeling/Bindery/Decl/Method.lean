import Bindery.Decl.Info
import Bindery.Decl.TypeText

/-!
Methods and free functions. Methods of one name are held together: the one declared first, and its
overloads in the order of their declaration. The signature of a method, its name with the normal
types of its parameters, tells it from the other overloads.
-/

set_option autoImplicit false
set_option relaxedAutoImplicit false

namespace Bindery

structure Param where
  name : String := ""
  type : String
  default : Option String := none
  /-- Declared with array brackets. -/
  array : Bool := false
  deriving Repr, DecidableEq

/-- The normal type of a parameter, with its array brackets. -/
def Param.signatureType (p : Param) : String :=
  normalizeType p.type ++ (if p.array then "[]" else "")

/-- A parameter without its default value. -/
def Param.declarator (p : Param) : String :=
  p.type ++ (if p.name.isEmpty then "" else " " ++ p.name) ++ (if p.array then "[]" else "")

def Param.declaration (p : Param) : String :=
  p.declarator ++ (match p.default with
    | some value => "=" ++ value
    | none => "")

/-- A method of a class, or a free function when it has no class. -/
structure Method where
  info : Info
  className : Option String := none
  /-- Constructors and destructors have none. -/
  returnType : Option String := some "void"
  params : List Param := []
  /-- The name qualified by the declaring class. -/
  definition : String := ""
  isVirtual : Bool := false
  isPureVirtual : Bool := false
  isOverride : Bool := false
  isStatic : Bool := false
  isConst : Bool := false
  isCtor : Bool := false
  isDtor : Bool := false
  isOperator : Bool := false
  isTemplate : Bool := false
  deriving Repr, DecidableEq

namespace Method

def name (m : Method) : String := m.info.name

/-- A public method that returns nothing. -/
def named (name : String) : Method :=
  { info := { name }, isOperator := Text.startsWith "operator" name }

def inClass (m : Method) (className : String) : Method :=
  { m with className := some className, definition := className ++ "::" ++ m.name }

def ctorOf (className : String) : Method :=
  { (named className).inClass className with returnType := none, isCtor := true }

def dtorOf (className : String) : Method :=
  { (named ("~" ++ className)).inClass className with returnType := none, isDtor := true }

/-- The type written in front of the name. -/
def typeText (m : Method) : String := m.returnType.getD "void"

def isVoid (m : Method) : Bool := normalizeType m.typeText == "void"

def constSuffix (m : Method) : String := if m.isConst then " const" else ""

def signature (m : Method) : String :=
  m.name ++ "(" ++ ",".intercalate (m.params.map Param.signatureType) ++ ")" ++ m.constSuffix

/-- The parameter list as it is declared. -/
def argsString (m : Method) : String :=
  "(" ++ ", ".intercalate (m.params.map Param.declaration) ++ ")" ++ m.constSuffix

/-- Whether the parameters have the given types, however these are spaced. -/
def takesTypes (m : Method) (types : List String) : Bool :=
  m.params.map Param.signatureType == types.map normalizeType

/-- An ordinary method creates and destroys nothing. -/
def isOrdinary (m : Method) : Bool := !m.isCtor && !m.isDtor

end Method

/-- A method with its overloads, in the order of their declaration. -/
structure Overloads where
  first : Method
  rest : List Method := []
  deriving Repr, DecidableEq

namespace Overloads

def info (chain : Overloads) : Info := chain.first.info

def name (chain : Overloads) : String := chain.first.info.name

def all (chain : Overloads) : List Method := chain.first :: chain.rest

def append (chain more : Overloads) : Overloads := { chain with rest := chain.rest ++ more.all }

def map (f : Method → Method) (chain : Overloads) : Overloads :=
  ⟨f chain.first, chain.rest.map f⟩

/-- Changes one overload, counted from the first. -/
def modify (chain : Overloads) (index : Nat) (f : Method → Method) : Overloads :=
  match index with
  | 0 => { chain with first := f chain.first }
  | n + 1 => { chain with rest := chain.rest.modify n f }

/-- Overloads share a name, and a constructor is no overload of another method. -/
def sharesKey (chain other : Overloads) : Bool :=
  chain.name == other.name && chain.first.isCtor == other.first.isCtor

def findOverload? (chain : Overloads) (types : List String) : Option Method :=
  chain.all.find? (·.takesTypes types)

/-- Joins a chain to the earlier chain of its key, or puts it last. -/
def insert : List Overloads → Overloads → List Overloads
  | [], more => [more]
  | chain :: chains, more =>
    if chain.sharesKey more then chain.append more :: chains else chain :: insert chains more

/-- Gathers the methods of one key at the place of the first of them. -/
def gather (chains : List Overloads) : List Overloads := chains.foldl insert []

theorem all_append (chain more : Overloads) : (chain.append more).all = chain.all ++ more.all := rfl

end Overloads

end Bindery
