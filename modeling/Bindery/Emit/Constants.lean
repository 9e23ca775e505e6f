import Bindery.Decl.Module
import Bindery.Naming
import Bindery.Text.WordTable

/-!
Constants. Most preprocessor definitions become constants of the interface header. Values that can
only be made while the toolkit runs (sizes, points, colours, fonts and system settings) are made by
a script when it is loaded.
-/

set_option autoImplicit false
set_option relaxedAutoImplicit false

namespace Bindery.Constants

/-- Where a constant is written. -/
inductive Emission
  | header (line : String)
  | script (line : String)
  deriving Repr, DecidableEq

def isDecimal (c : Char) : Bool := Text.inRanges Text.decimalRanges c

def isWordChar (c : Char) : Bool := Text.inRanges Text.wordRanges c

/-- What stands between a beginning and an end, on one line. -/
def between? (start ending : String) (cs : List Char) : Option (List Char) := do
  let rest ← Text.afterStart? start.toList cs
  let inner ← Text.beforeEnd? ending.toList rest
  if inner.contains '\n' then none else some inner

def wrappedString? (cs : List Char) : Option (List Char) := between? "wxString(\"" "\")" cs

/-- The constructor call of one of some classes: the class without its marking, and the arguments.
-/
def construction? (classes : List String) (cs : List Char) : Option (String × List Char) :=
  classes.findSome? fun name ↦ (between? ("wx" ++ name ++ "(") ")" cs).map fun args ↦ (name, args)

/-- A call of the system settings: the function, and the arguments. -/
def systemSetting? (cs : List Char) : Option (List Char × List Char) := do
  let rest ← Text.afterStart? "wxSystemSettings::".toList cs
  let name := rest.takeWhile isWordChar
  let args ← between? "(" ")" (rest.dropWhile isWordChar)
  if name.isEmpty then none else some (name, args)

/-- An argument list in the target language. -/
def rubyArgs (args : List Char) : String :=
  ", ".intercalate (((args.splitOn ',').map fun arg ↦
    Naming.constantValue (String.ofList arg)).filter (!·.isEmpty))

def delayed (name value : String) : String :=
  "  Wx.add_delayed_constant(self, :" ++ Naming.constantName name ++ ") \x7b " ++ value ++ " \x7d"

def stringConstant (name value : String) : String :=
  "%constant char*  " ++ name ++ " = " ++ value ++ ";"

/-- How a constant of a name and a value is written. -/
def classifyValue (name value : String) : Emission :=
  let cs := value.toList
  if cs.head?.any isDecimal then .header ("#define " ++ name ++ " " ++ value)
  else if Text.startsWith "\"" value then .header (stringConstant name value)
  else
    match wrappedString? cs with
    | some inner => .header (stringConstant name ("\"" ++ String.ofList inner ++ "\""))
    | none =>
      match construction? ["Size", "Point"] cs with
      | some (type, args) =>
        .script ("  " ++ Naming.constantName name ++ " = Wx::" ++ type ++ ".new(" ++
          rubyArgs args ++ ")")
      | none =>
        match construction? ["Colour", "Font"] cs with
        | some (type, args) =>
          .script (delayed name ("Wx::" ++ type ++ ".new(" ++ rubyArgs args ++ ")"))
        | none =>
          match systemSetting? cs with
          | some (function, args) =>
            .script (delayed name ("Wx::SystemSettings." ++
              Naming.underscore (String.ofList function) ++ "(" ++ rubyArgs args ++ ")"))
          | none => .header ("%constant int  " ++ name ++ " = " ++ value ++ ";")

/-- How a definition is written, if it stands for a constant. -/
def classify? (d : Define) : Option Emission :=
  if d.isConstant then some (classifyValue d.info.name (Text.trim (d.value.getD ""))) else none

/-- The definitions of a module that are not left out. -/
def activeDefines (m : Module) : List Define :=
  m.items.filterMap fun
    | .define d => if d.info.ignored then none else some d
    | _ => none

def scriptLines (m : Module) : List String :=
  (activeDefines m).filterMap fun d ↦
    match classify? d with
    | some (.script line) => some line
    | _ => none

def scriptNotice : String :=
  "# ----------------------------------------------------------------------------\n" ++
  "# This file is automatically generated by the WXRuby3 code\n" ++
  "# generator. Do not alter this file.\n" ++
  "# ----------------------------------------------------------------------------\n\n"

/-- The script of a module, if it has a constant for one. -/
def script? (package : String) (m : Module) : Option String :=
  let lines := scriptLines m
  if lines.isEmpty then none
  else
    let scopes := Text.splitScope package.toList
    some (scriptNotice ++
      String.join (scopes.map fun scope ↦ "module " ++ String.ofList scope ++ "\n") ++ "\n" ++
      String.join (lines.map (· ++ "\n")) ++ "\n" ++
      String.join (scopes.map fun _ ↦ "end\n"))

end Bindery.Constants
