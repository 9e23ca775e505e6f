import Bindery.Text.Blank

/-!
Cutting text into pieces: scope paths at `::`, lines at line feeds, and texts with a known beginning
or end.
-/

set_option autoImplicit false
set_option relaxedAutoImplicit false

namespace Bindery.Text

/-- Puts a character in front of the first piece. -/
def consFirst (c : Char) : List (List Char) → List (List Char)
  | [] => [[c]]
  | piece :: pieces => (c :: piece) :: pieces

/-- The pieces between the `::` marks, found from left to right. -/
def splitScope : List Char → List (List Char)
  | ':' :: ':' :: rest => [] :: splitScope rest
  | c :: rest => consFirst c (splitScope rest)
  | [] => [[]]

/-- What follows the last `::`, found from the right. -/
def lastScopePiece (cs : List Char) : List Char :=
  ((splitScope cs.reverse).headD []).reverse

/-- The rest of a text after a known beginning. -/
def afterStart? : List Char → List Char → Option (List Char)
  | [], cs => some cs
  | p :: ps, c :: cs => if p == c then afterStart? ps cs else none
  | _ :: _, [] => none

/-- The part of a text in front of a known end. -/
def beforeEnd? (ending cs : List Char) : Option (List Char) :=
  (afterStart? ending.reverse cs.reverse).map List.reverse

def startsWith (start s : String) : Bool := start.toList.isPrefixOf s.toList

def endsWith (ending s : String) : Bool := ending.toList.reverse.isPrefixOf s.toList.reverse

/-- Whether `piece` occurs somewhere in a text. -/
def occursIn (piece : List Char) : List Char → Bool
  | [] => piece.isEmpty
  | c :: cs => piece.isPrefixOf (c :: cs) || occursIn piece cs

/-- Drops one carriage return at the end of a line. -/
def dropReturn (line : List Char) : List Char :=
  (beforeEnd? ['\r'] line).getD line

/-- The lines of a text. A line feed ends a line, with a carriage return in front of it dropped; a
last line without a line feed is kept as it stands, and is no line at all when it is empty. -/
def lineList (cs : List Char) : List (List Char) :=
  let pieces := cs.splitOn '\n'
  let last := pieces.getLastD []
  pieces.dropLast.map dropReturn ++ (if last.isEmpty then [] else [last])

def lines (s : String) : List String := (lineList s.toList).map String.ofList

/-- The text of some lines, with a line feed behind each. -/
def unlines (lines : List String) : String := String.join (lines.map (· ++ "\n"))

/-- A text without the occurrences of a piece, found from left to right. The first `skip` characters
are passed over. -/
def removeFrom (piece : List Char) (skip : Nat) : List Char → List Char
  | [] => []
  | c :: cs =>
    if 0 < skip then removeFrom piece (skip - 1) cs
    else if piece.isPrefixOf (c :: cs) then removeFrom piece (piece.length - 1) cs
    else c :: removeFrom piece 0 cs

def remove (piece s : String) : String := String.ofList (removeFrom piece.toList 0 s.toList)

/-- Splits at the first character of a kind: what is in front of it, and what follows it. -/
def cutAtFirst (p : Char → Bool) : List Char → Option (List Char × List Char)
  | [] => none
  | c :: cs =>
    if p c then some ([], cs)
    else (cutAtFirst p cs).map fun cut ↦ (c :: cut.1, cut.2)

end Bindery.Text
