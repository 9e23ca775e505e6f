import Bindery.Text.Blank

/-!
Tokens of native declarations: names, which may be qualified, and single symbols. A text is read one
token at a time, and what is left is always an end of the text, so a place in it is known by what
is left there.
-/

set_option autoImplicit false
set_option relaxedAutoImplicit false

namespace Bindery

inductive Token
  | word (chars : List Char)
  | symbol (c : Char)
  deriving Repr, DecidableEq

namespace Token

def text : Token → List Char
  | .word chars => chars
  | .symbol c => [c]

/-- The token between single quotes. -/
def quotedText (t : Token) : String := "'" ++ String.ofList t.text ++ "'"

def ofName (name : String) : Token := .word name.toList

def isNameChar (c : Char) : Bool := c.isAlphanum || c == '_'

def isSymbolChar (c : Char) : Bool := "*&()<>,[]=~;:".toList.contains c

/-- The longest beginning made of name characters and `::` marks, and the rest. -/
def spanName : List Char → List Char × List Char
  | ':' :: ':' :: rest => (':' :: ':' :: (spanName rest).1, (spanName rest).2)
  | c :: rest =>
    if isNameChar c then (c :: (spanName rest).1, (spanName rest).2) else ([], c :: rest)
  | [] => ([], [])

/-- The outcome of reading one token. -/
inductive Step
  /-- Only white space is left. -/
  | finished
  /-- A character that no token starts with; `start` begins with it. -/
  | unexpected (c : Char) (start : List Char)
  /-- A token, the text from its first character on, and the text after it. -/
  | found (t : Token) (start rest : List Char)

def next (cs : List Char) : Step :=
  match Text.trimStartChars cs with
  | [] => .finished
  | c :: rest =>
    if isNameChar c then .found (.word (c :: (spanName rest).1)) (c :: rest) (spanName rest).2
    else if isSymbolChar c then .found (.symbol c) (c :: rest) rest
    else .unexpected c (c :: rest)

theorem spanName_append (cs : List Char) : (spanName cs).1 ++ (spanName cs).2 = cs := by
  fun_induction spanName cs with
  | case1 rest ih => simp [ih]
  | case2 c rest _ _ ih => simp [ih]
  | case3 => rfl
  | case4 => rfl

theorem length_spanName_le (cs : List Char) : (spanName cs).2.length ≤ cs.length := by
  have h := congrArg List.length (spanName_append cs)
  rw [List.length_append] at h
  omega

theorem length_trimStart_le (cs : List Char) :
    (Text.trimStartChars cs).length ≤ cs.length := by
  unfold Text.trimStartChars
  induction cs with
  | nil => exact Nat.le_refl _
  | cons c cs ih =>
    rw [List.dropWhile_cons]
    split
    · exact Nat.le_succ_of_le ih
    · exact Nat.le_refl _

/-- Reading a token uses up some of the text. -/
theorem length_lt_of_next {cs start rest : List Char} {t : Token}
    (h : next cs = .found t start rest) : rest.length < cs.length := by
  have hle := length_trimStart_le cs
  unfold next at h
  split at h
  · cases h
  · rename_i c tail hcs
    rw [hcs, List.length_cons] at hle
    split at h
    · cases h
      exact Nat.lt_of_le_of_lt (length_spanName_le tail) hle
    · split at h
      · cases h
        exact hle
      · cases h

/-- The tokens of a text up to its end, or up to a character that starts none. -/
def readAll (cs : List Char) : List Token :=
  match h : next cs with
  | .found t _ rest =>
    have : rest.length < cs.length := length_lt_of_next h
    t :: readAll rest
  | _ => []
termination_by cs.length

end Token

end Bindery
