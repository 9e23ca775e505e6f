import Bindery.Text.Blank

/-!
Type texts. The same native type can be spaced in many ways; its normal text has one space between
words and none next to the marks that stick to their neighbours.
-/

set_option autoImplicit false
set_option relaxedAutoImplicit false

namespace Bindery

/-- Marks that join the word in front of them. -/
def joinsLeft (c : Char) : Bool :=
  c == '*' || c == '&' || c == '>' || c == ',' || c == '[' || c == ']'

/-- Marks that join the word after them. -/
def joinsRight (c : Char) : Bool := c == '<' || c == ','

/-- Whether `word` follows `out` without a space. -/
def isGlued (out word : List Char) : Bool :=
  out.isEmpty || word.head?.any joinsLeft || out.getLast?.any joinsRight

def appendWord (out word : List Char) : List Char :=
  if isGlued out word then out ++ word else out ++ ' ' :: word

def normalizeTypeChars (cs : List Char) : List Char := (Text.words cs).foldl appendWord []

/-- The normal text of a type. Types are equal when their normal texts are. -/
def normalizeType (ty : String) : String := String.ofList (normalizeTypeChars ty.toList)

end Bindery
