import Bindery.Decl.Method
import Bindery.Decl.ParamText
import Bindery.Error
import Bindery.Json.Shape

/-!
Type maps. A rule names the native parameters it is for, by patterns, and says how their values are
converted in each direction. A pattern is a parameter or a run of parameters; a parameter pattern
without a name matches every name, and a leading `const` of the type does not count.
-/

set_option autoImplicit false
set_option relaxedAutoImplicit false

namespace Bindery

/-- What a conversion is for. -/
inductive Direction
  | input
  | output
  | argOut
  | check
  | default
  | freeArg
  | directorIn
  | directorOut
  | directorArgOut
  | typecheck
  | varOut
  deriving Repr, DecidableEq

namespace Direction

/-- All directions, in the order in which a rule is written out. -/
def all : List Direction :=
  [.input, .default, .typecheck, .check, .argOut, .freeArg, .output, .directorIn, .directorOut,
    .directorArgOut, .varOut]

def name : Direction → String
  | .input => "in"
  | .output => "out"
  | .argOut => "argout"
  | .check => "check"
  | .default => "default"
  | .freeArg => "freearg"
  | .directorIn => "directorin"
  | .directorOut => "directorout"
  | .directorArgOut => "directorargout"
  | .typecheck => "typecheck"
  | .varOut => "varout"

theorem mem_all (d : Direction) : d ∈ all := by cases d <;> decide

end Direction

/-- The conversion of one direction. -/
structure Fragment where
  code : String := ""
  /-- The declaration of a temporary variable, for inputs. -/
  temp : Option String := none
  /-- Whether the input takes no argument from the caller. -/
  ignoreInput : Bool := false
  /-- The rank among overloads, for type checks. -/
  precedence : Option String := none
  deriving Repr, DecidableEq

def Fragment.ofCode (code : String) : Fragment := { code }

structure Typemap where
  patterns : List String := []
  /-- The type in the target language, as the documentation names it. -/
  rubyType : Option String := none
  fragments : List (Direction × Fragment) := []
  /-- Return types that are dropped from the methods the rule matches. -/
  ignoredOut : List String := []
  deriving Repr, DecidableEq

/-- A type as patterns compare it, without a leading `const`. -/
def comparableType (type : String) : String :=
  let normal := normalizeType type
  match Text.afterStart? "const ".toList normal.toList with
  | some rest => String.ofList rest
  | none => normal

/-- One parameter of a pattern. -/
structure ParamPattern where
  type : String
  name : Option String
  deriving Repr, DecidableEq

namespace ParamPattern

/-- The text in front of array brackets at the end. -/
def beforeBrackets? (cs : List Char) : Option (List Char) :=
  (Text.beforeEnd? [']'] cs).bind fun rest ↦ Text.beforeEnd? ['['] (Text.trimEndChars rest)

def parse (text : List Char) : ParamPattern :=
  let text := Text.trimChars text
  match beforeBrackets? text with
  | some text =>
    let (type, name) := ParamText.split (String.ofList text)
    ⟨comparableType (type ++ "[]"), name⟩
  | none =>
    let (type, name) := ParamText.split (String.ofList text)
    ⟨comparableType type, name⟩

def isMatch (pattern : ParamPattern) (p : Param) : Bool :=
  pattern.type == comparableType p.signatureType && pattern.name.all (· == p.name)

end ParamPattern

/-- Whether a list of patterns matches the beginning of a parameter list. -/
def matchesStart : List ParamPattern → List Param → Bool
  | [], _ => true
  | _ :: _, [] => false
  | pattern :: patterns, p :: params => pattern.isMatch p && matchesStart patterns params

/-- Whether a list of patterns matches a run of consecutive parameters. -/
def matchesRun (patterns : List ParamPattern) : List Param → Bool
  | [] => matchesStart patterns []
  | p :: params => matchesStart patterns (p :: params) || matchesRun patterns params

namespace Typemap

/-- A rule with nothing but patterns. -/
def ofPatterns (patterns : List String) : Typemap := { patterns := patterns.map Text.trim }

def fragment? (map : Typemap) (d : Direction) : Option Fragment := map.fragments.lookup d

def withFragment (map : Typemap) (d : Direction) (f : Fragment) : Typemap :=
  { map with fragments := (d, f) :: map.fragments.filter (·.1 != d) }

def withCode (map : Typemap) (d : Direction) (code : String) : Typemap :=
  map.withFragment d (.ofCode code)

def withTypecheck (map : Typemap) (precedence code : String) : Typemap :=
  map.withFragment .typecheck { code, precedence := some precedence }

def withRubyType (map : Typemap) (type : String) : Typemap := { map with rubyType := some type }

/-- Drops return types from the methods that the rule matches. -/
def ignoreOut (map : Typemap) (types : List String) : Typemap :=
  { map with ignoredOut := map.ignoredOut ++ types.map normalizeType }

/-- A rule has patterns and describes something, and a type check has a precedence. -/
def validate (map : Typemap) : Except Error Unit :=
  if map.patterns.isEmpty then .error (.typemap .noPatterns)
  else if Direction.all.all (fun d ↦ (map.fragment? d).isNone) && map.rubyType.isNone then
    .error (.typemap (.noConversion map.patterns))
  else if (map.fragment? .typecheck).any (·.precedence.isNone) then
    .error (.typemap (.noPrecedence map.patterns))
  else .ok ()

/-- The parameters of a pattern, which commas separate. -/
def parsePattern (pattern : String) : List ParamPattern :=
  (pattern.toList.splitOn ',').map ParamPattern.parse

def parsedPatterns (map : Typemap) : List (List ParamPattern) := map.patterns.map parsePattern

def matchesParam (map : Typemap) (p : Param) : Bool :=
  map.parsedPatterns.any fun
    | [pattern] => pattern.isMatch p
    | _ => false

/-- A type matches the patterns that name no parameter. -/
def matchesType (map : Typemap) (type : String) : Bool :=
  map.parsedPatterns.any fun
    | [pattern] => pattern.name.isNone && pattern.type == comparableType type
    | _ => false

def matchesMethod (map : Typemap) (m : Method) : Bool :=
  map.parsedPatterns.any fun patterns ↦ matchesRun patterns m.params

def hasIgnoredOut (map : Typemap) : Bool := !map.ignoredOut.isEmpty

/-! ### Writing rules -/

/-- A pattern as a directive names it. A run of parameters stands in parentheses. -/
def target (temp : Option String) (pattern : String) : String :=
  let own := if pattern.toList.contains ',' then "(" ++ pattern ++ ")" else pattern
  match temp with
  | some temp => own ++ " (" ++ temp ++ ")"
  | none => own

/-- The direction as a directive names it. -/
def method (d : Direction) (f : Fragment) : String :=
  d.name ++ (if d == .input && f.ignoreInput then ",numinputs=0" else "") ++
    (match f.precedence with
      | some precedence => ", precedence=SWIG_TYPECHECK_" ++ Text.upper precedence
      | none => "")

def codeLine (line : String) : String :=
  if Text.isBlankText line then "\n" else "  " ++ line ++ "\n"

def codeBody (code : String) : String :=
  String.join ((Text.lines (String.ofList (Text.trimEndChars code.toList))).map codeLine)

/-- One fragment as a directive. -/
def directive (map : Typemap) (d : Direction) (f : Fragment) : String :=
  let temp := if d == .input then f.temp else none
  "%typemap(" ++ method d f ++ ") " ++ ", ".intercalate (map.patterns.map (target temp)) ++
    " \x7b\n" ++ codeBody f.code ++ "\x7d\n"

/-- The directives of a rule, in the order of `Direction.all`. -/
def directives (map : Typemap) : List String :=
  Direction.all.filterMap fun d ↦ (map.fragment? d).map (map.directive d)

def render (map : Typemap) : String := String.join map.directives

end Typemap

/-- Uses the rules of one pattern for further declarations. -/
structure MapApply where
  source : String
  targets : List String
  deriving Repr, DecidableEq

def MapApply.render (apply : MapApply) : String :=
  "%apply " ++ apply.source ++ " \x7b " ++ ", ".intercalate apply.targets ++ " \x7d;"

/-! ### Rules as records -/

def Fragment.ofJson? (json : Json) : Option Fragment := do
  let members ← Shape.record ["code", "temp", "ignore_input", "precedence"] json
  return {
    code := ← Shape.given members "code" "" Shape.text
    temp := ← Shape.optional members "temp" Shape.text
    ignoreInput := ← Shape.given members "ignore_input" false Shape.flag
    precedence := ← Shape.optional members "precedence" Shape.text }

/-- The directions in the order of the fields of a rule. -/
def Typemap.fieldDirections : List Direction :=
  [.input, .output, .argOut, .check, .default, .freeArg, .directorIn, .directorOut,
    .directorArgOut, .typecheck, .varOut]

def Typemap.fields : List String :=
  ["patterns", "rb_type"] ++ fieldDirections.map Direction.name ++ ["ignored_out"]

def Typemap.fragmentField? (members : Shape.Members) (d : Direction) :
    Option (Option (Direction × Fragment)) :=
  (Shape.optional members d.name Fragment.ofJson?).map fun f ↦ f.map fun f ↦ (d, f)

def Typemap.ofJson? (json : Json) : Option Typemap := do
  let members ← Shape.record fields json
  let fragments ← fieldDirections.mapM (fragmentField? members)
  return {
    patterns := ← Shape.given members "patterns" [] (Shape.list Shape.text)
    rubyType := ← Shape.optional members "rb_type" Shape.text
    fragments := fragments.filterMap id
    ignoredOut := ← Shape.given members "ignored_out" [] (Shape.list Shape.text) }

def Fragment.toJson (f : Fragment) : Json := .obj [
  ("code", .str f.code), ("temp", .optText f.temp), ("ignore_input", .bool f.ignoreInput),
  ("precedence", .optText f.precedence)]

def Typemap.toJson (map : Typemap) : Json := .obj (
  [("patterns", .texts map.patterns), ("rb_type", .optText map.rubyType)] ++
    fieldDirections.map (fun d ↦ (d.name, ((map.fragment? d).map Fragment.toJson).getD .null)) ++
    [("ignored_out", .texts map.ignoredOut)])

def MapApply.toJson (apply : MapApply) : Json :=
  .obj [("from", .str apply.source), ("to", .texts apply.targets)]

def MapApply.ofJson? (json : Json) : Option MapApply := do
  let members ← Shape.record ["from", "to"] json
  return {
    source := ← Shape.needed members "from" Shape.text
    targets := ← Shape.needed members "to" (Shape.list Shape.text) }

end Bindery
