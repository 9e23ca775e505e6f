import Bindery.Typemap.Standard

/-!
The type maps of a module: its own rules, and after them the shared ones. A question is answered by
the first rule that matches. The tool that reads the written rules lets a later one replace an
earlier one, so they are written in reverse.
-/

set_option autoImplicit false
set_option relaxedAutoImplicit false

namespace Bindery

/-- Where a rule comes from. -/
inductive Origin
  | own
  | shared
  deriving Repr, DecidableEq

structure TypemapRules where
  maps : List (Origin × Typemap) := []
  applies : List (Origin × MapApply) := []

namespace TypemapRules

/-- Adds a rule behind all others, if it is usable. -/
def register (rules : TypemapRules) (origin : Origin) (map : Typemap) :
    Except Error TypemapRules := do
  map.validate
  return { rules with maps := rules.maps ++ [(origin, map)] }

def registerAll (rules : TypemapRules) (origin : Origin) (maps : List Typemap) :
    Except Error TypemapRules :=
  maps.foldlM (fun rules map ↦ rules.register origin map) rules

def applyAll (rules : TypemapRules) (origin : Origin) (applies : List MapApply) : TypemapRules :=
  { rules with applies := rules.applies ++ applies.map fun apply ↦ (origin, apply) }

def extendShared (rules : TypemapRules) : Except Error TypemapRules := do
  let rules ← rules.registerAll .shared Typemap.Standard.rules
  return rules.applyAll .shared Typemap.Standard.applies

/-- The rules of a module, in front of the shared ones. -/
def forModule (maps : List Typemap) (applies : List MapApply) : Except Error TypemapRules := do
  let rules ← registerAll {} .own maps
  (rules.applyAll .own applies).extendShared

/-- The rules in the order in which they are asked. -/
def inOrder (rules : TypemapRules) : List Typemap := rules.maps.map Prod.snd

def findForParam? (rules : TypemapRules) (p : Param) : Option Typemap :=
  rules.inOrder.find? (·.matchesParam p)

def findForType? (rules : TypemapRules) (type : String) : Option Typemap :=
  rules.inOrder.find? (·.matchesType type)

/-- The rules that name a type of the target language. -/
def described (rules : TypemapRules) : List Typemap := rules.inOrder.filter (·.rubyType.isSome)

def rubyParamType? (rules : TypemapRules) (p : Param) : Option String :=
  (rules.described.find? (·.matchesParam p)).bind Typemap.rubyType

def rubyReturnType? (rules : TypemapRules) (type : String) : Option String :=
  (rules.described.find? (·.matchesType type)).bind Typemap.rubyType

/-- Whether the return type of a method is dropped. The first rule that drops types and matches the
method decides. -/
def dropsReturn (rules : TypemapRules) (m : Method) : Bool :=
  ((rules.inOrder.filter Typemap.hasIgnoredOut).find? (·.matchesMethod m)).any
    fun map ↦ map.ignoredOut.contains (normalizeType m.typeText)

/-- The return type that a method is declared with. -/
def declaredReturnType (rules : TypemapRules) (m : Method) : String :=
  if rules.dropsReturn m then "void" else m.typeText

/-- The rules of an origin as directives, the one asked first being written last. -/
def blocks (rules : TypemapRules) (origin : Origin) : List String :=
  (rules.maps.reverse.filter (·.1 == origin)).map (·.2.render) ++
    (rules.applies.filter (·.1 == origin)).map (·.2.render)

def render (rules : TypemapRules) (origin : Origin) : String := Text.unlines (rules.blocks origin)

end TypemapRules

end Bindery
