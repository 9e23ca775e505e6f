import Bindery.Decl.Token

/-!
Parameter texts. A parameter is written as its type and, after it, its name. The last word of a
parameter is its name when the words in front of it already say a type, and it is no type word
itself.
-/

set_option autoImplicit false
set_option relaxedAutoImplicit false

namespace Bindery.ParamText

/-- Words that are part of a type and never the name of a parameter. -/
def typeWords : List String :=
  ["void", "bool", "char", "short", "int", "long", "float", "double", "unsigned", "signed",
    "const", "volatile", "struct", "enum", "wchar_t", "size_t"]

/-- Words that only qualify the type after them. -/
def qualifiers : List String := ["const", "volatile", "unsigned", "signed", "struct", "enum"]

def isPointerMark (c : Char) : Bool := c == '*' || c == '&'

/-- Appends a token to a type text. Words and pointer marks are set off by a space, but there is
none between pointer marks, after `<`, or after a colon. -/
def appendToken (out : List Char) : Token → List Char
  | .word chars =>
    if out.isEmpty || out.getLast?.any (fun c ↦ c == '<' || c == ':') then out ++ chars
    else out ++ ' ' :: chars
  | .symbol c =>
    if isPointerMark c && !(out.isEmpty || out.getLast?.any isPointerMark) then out ++ [' ', c]
    else out ++ [c]

def joinTokens (tokens : List Token) : List Char := tokens.foldl appendToken []

/-- The text of a type. -/
def typeOf (tokens : List Token) : String := String.ofList (joinTokens tokens)

/-- Whether tokens say a type by themselves. -/
def saysType (tokens : List Token) : Bool :=
  tokens.any fun
    | .word chars => !qualifiers.contains (String.ofList chars)
    | .symbol c => isPointerMark c || c == '>'

def isTypeWord (chars : List Char) : Bool := typeWords.contains (String.ofList chars)

/-- The tokens of the type, and the name if there is one. -/
def splitTokens (tokens : List Token) : List Token × Option (List Char) :=
  match tokens.getLast? with
  | some (.word last) =>
    if saysType tokens.dropLast && !isTypeWord last then (tokens.dropLast, some last)
    else (tokens, none)
  | _ => (tokens, none)

/-- Splits a text into a type and an optional name. What follows a character that starts no token is
left out. -/
def split (text : String) : String × Option String :=
  let (type, name) := splitTokens (Token.readAll text.toList)
  (typeOf type, name.map String.ofList)

end Bindery.ParamText
