import Bindery.Text.Case
import Bindery.Text.Pieces

/-!
Names in the target language. The `wx` marking of the toolkit is dropped, classes keep their
capitals, methods are written in small letters with underscores, and constants in capitals.
-/

set_option autoImplicit false
set_option relaxedAutoImplicit false

namespace Bindery.Naming

/-- A name without the toolkit marking, unless nothing else is in it. -/
def strip (name : String) : String :=
  let cs := name.toList
  let rest := (Text.afterStart? ['w', 'x'] cs).orElse fun _ ↦ Text.afterStart? ['W', 'X'] cs
  match rest with
  | some (c :: rest) => String.ofList (c :: rest)
  | _ => name

/-- Whether a capital starts a new word, between the characters before and after it. In a run of
capitals only the last one does, if a small letter follows. -/
def startsWord (before after : Option Char) : Bool :=
  match before with
  | none => false
  | some p =>
    p.isLower || p.isDigit || (p.isUpper && after.any Char.isLower)

/-- Writes the words of a text in small letters. `before` is the character in front of the text, and
`broken` tells whether the output so far ends in an underscore. -/
def underscoreFrom (before : Option Char) (broken : Bool) : List Char → List Char
  | [] => []
  | c :: rest =>
    if c.isUpper then
      let mark := if startsWord before rest.head? && !broken then ['_'] else []
      mark ++ c.toLower :: underscoreFrom (some c) false rest
    else c :: underscoreFrom (some c) (c == '_') rest

def underscore (name : String) : String :=
  String.ofList (underscoreFrom none false name.toList)

def methodName (name : String) : String := underscore name

/-- The class name, without its scope. -/
def className (name : String) : String :=
  strip (String.ofList (Text.lastScopePiece name.toList))

/-- A name that has no small letters is a constant name already. -/
def constantName (name : String) : String :=
  let plain := strip name
  if plain.toList.all (!·.isLower) then plain else Text.upper (underscore plain)

/-- The expression for a native constant used as an argument. -/
def constantValue (arg : String) : String :=
  let arg := Text.trim arg
  if arg.toList.head?.any (fun c ↦ c.isDigit || c == '-') then arg
  else if arg == "NULL" || arg == "nullptr" then "nil"
  else if Text.startsWith "wx" arg then "Wx::" ++ strip arg
  else arg

end Bindery.Naming
