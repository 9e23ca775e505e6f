import Bindery.Decl.Method
import Bindery.Decl.ParamText

/-!
Prototypes: method declarations that a policy adds to a class as free text. The accepted form is

    visibility? (virtual | static)? type? ~? name ( parameters? ) const? override? (= 0)? ;?

where a visibility may be followed by a colon, a parameter is a type with an optional name, array
brackets and a default value, and only constructors and destructors have no type. A default value
is any text up to the next comma or closing parenthesis that no bracket or quote encloses.

A failure knows its place as the end of the text that starts there.
-/

set_option autoImplicit false
set_option relaxedAutoImplicit false

namespace Bindery

structure Prototype where
  /-- The visibility, if one is written. -/
  protection : Option Protection
  isVirtual : Bool
  isStatic : Bool
  /-- Constructors and destructors have none. -/
  returnType : Option String
  /-- The name, without the mark of a destructor. -/
  name : String
  isDtor : Bool
  params : List Param
  isConst : Bool
  isOverride : Bool
  isPureVirtual : Bool
  deriving Repr, DecidableEq

namespace Prototype

/-- Why a text is no prototype. -/
inductive Fault
  | unexpectedCharacter (c : Char)
  | expectedSymbol (symbol : Char) (found : Option Token)
  | expectedZero (found : Option Token)
  | missingParameterList
  | unterminatedTemplate
  | expectedName (found : Token)
  | missingName
  | unterminatedParameters
  | emptyParameter
  | missingDefault
  | unterminatedDefault
  | leftover (found : Token)
  | missingReturnType (name : String)
  | destructorType
  deriving Repr, DecidableEq

def Fault.message : Fault → String
  | .unexpectedCharacter c => "unexpected character '" ++ c.toString ++ "'"
  | .expectedSymbol symbol (some t) =>
    "expected '" ++ symbol.toString ++ "' but found " ++ t.quotedText
  | .expectedSymbol symbol none => "expected '" ++ symbol.toString ++ "' at end of input"
  | .expectedZero (some t) => "expected '0' but found " ++ t.quotedText
  | .expectedZero none => "expected '0' at end of input"
  | .missingParameterList => "missing '(' after method name"
  | .unterminatedTemplate => "unterminated template argument list"
  | .expectedName t => "expected method name but found " ++ t.quotedText
  | .missingName => "missing method name"
  | .unterminatedParameters => "unterminated parameter list"
  | .emptyParameter => "empty parameter declaration"
  | .missingDefault => "missing default value"
  | .unterminatedDefault => "unterminated default value"
  | .leftover t => "unexpected " ++ t.quotedText ++ " after declaration"
  | .missingReturnType name => "missing return type for '" ++ name ++ "'"
  | .destructorType => "destructor cannot declare a return type"

/-- A fault, with the part of the text from the place of the fault on. -/
structure Failure where
  fault : Fault
  place : List Char
  deriving Repr, DecidableEq

/-- Takes the token if it is the next one. -/
def accept (t : Token) (cs : List Char) : Except Failure (Bool × List Char) :=
  match Token.next cs with
  | .found found _ rest => if found = t then .ok (true, rest) else .ok (false, cs)
  | .unexpected c start => .error ⟨.unexpectedCharacter c, start⟩
  | .finished => .ok (false, cs)

def acceptWord (word : String) (cs : List Char) : Except Failure (Bool × List Char) :=
  accept (.ofName word) cs

/-- The nesting of template brackets after a token. -/
def nesting (depth : Nat) (t : Token) : Nat :=
  if t = .symbol '<' then depth + 1
  else if t = .symbol '>' then depth - 1
  else depth

/-- A token with the text that starts at it. -/
abbrev Placed := Token × List Char

/-- The tokens up to the parenthesis that opens the parameter list, which is consumed. A parenthesis
between template brackets opens nothing. -/
def readHead (depth : Nat) (cs : List Char) : Except Failure (List Placed × List Char) :=
  match h : Token.next cs with
  | .finished =>
    .error ⟨if depth = 0 then .missingParameterList else .unterminatedTemplate, []⟩
  | .unexpected c start => .error ⟨.unexpectedCharacter c, start⟩
  | .found t start rest =>
    have : rest.length < cs.length := Token.length_lt_of_next h
    if depth = 0 ∧ t = .symbol '(' then .ok ([], rest)
    else (readHead (nesting depth t) rest).map fun read ↦ ((t, start) :: read.1, read.2)
termination_by cs.length

/-- The parts of a head: the tokens of the type, the name, and whether it names a destructor. -/
structure Head where
  type : List Token
  name : List Char
  isDtor : Bool

/-- Splits a head. From the word `operator` on all is the name; else the name is the last word. -/
def splitHead (text : List Char) (head : List Placed) : Except Failure Head :=
  let tokens := head.map Prod.fst
  let beforeOperator := tokens.takeWhile (· != .ofName "operator")
  let fromOperator := tokens.dropWhile (· != .ofName "operator")
  if !fromOperator.isEmpty then
    .ok ⟨beforeOperator, fromOperator.flatMap Token.text, false⟩
  else
    match head.getLast? with
    | none => .error ⟨.missingName, text⟩
    | some (.symbol c, place) => .error ⟨.expectedName (.symbol c), place⟩
    | some (.word name, _) =>
      if tokens.dropLast.getLast? == some (.symbol '~') then
        .ok ⟨tokens.dropLast.dropLast, name, true⟩
      else .ok ⟨tokens.dropLast, name, false⟩

def singleQuote : Char := Char.ofNat 39

/-- The raw text of a default value. It ends at a comma or a closing parenthesis outside of brackets
and quotes, which is consumed; the answer tells whether it was the parenthesis. -/
def scanDefault (quote : Option Char) (depth : Nat) :
    List Char → Option (List Char × Bool × List Char)
  | [] => none
  | c :: cs =>
    let keep (quote : Option Char) (depth : Nat) :=
      (scanDefault quote depth cs).map fun read ↦ (c :: read.1, read.2)
    match quote with
    | some q => keep (if c == q then none else some q) depth
    | none =>
      if c == '"' || c == singleQuote then keep (some c) depth
      else if c == '(' || c == '<' then keep none (depth + 1)
      else if (c == ')' || c == '>') && depth != 0 then keep none (depth - 1)
      else if (c == ',' || c == ')') && depth == 0 then some ([], c == ')', cs)
      else keep none depth

theorem length_lt_of_scanDefault {quote : Option Char} {depth : Nat} {cs value rest : List Char}
    {last : Bool} (h : scanDefault quote depth cs = some (value, last, rest)) :
    rest.length < cs.length := by
  induction cs generalizing quote depth value with
  | nil => simp [scanDefault] at h
  | cons c cs ih =>
    have keep {quote : Option Char} {depth : Nat}
        (h : (scanDefault quote depth cs).map (fun read ↦ (c :: read.1, read.2)) =
          some (value, last, rest)) : rest.length < (c :: cs).length := by
      obtain ⟨⟨v, l, r⟩, hread, heq⟩ := Option.map_eq_some_iff.1 h
      cases heq
      exact Nat.lt_succ_of_lt (ih hread)
    simp only [scanDefault] at h
    split at h
    · exact keep h
    · split at h
      · exact keep h
      · split at h
        · exact keep h
        · split at h
          · exact keep h
          · split at h
            · cases h
              exact Nat.lt_succ_self _
            · exact keep h

/-- A parameter as it is read. -/
structure Draft where
  tokens : List Token := []
  array : Bool := false
  default : Option String := none
  /-- Whether the parameter list ends after it. -/
  last : Bool

def Draft.cons (t : Token) (d : Draft) : Draft := { d with tokens := t :: d.tokens }

def Draft.isLoneVoid (d : Draft) : Bool := d.tokens == [.ofName "void"]

def Draft.toParam (d : Draft) : Param :=
  let (type, name) := ParamText.splitTokens d.tokens
  { name := String.ofList (name.getD [])
    type := ParamText.typeOf type
    default := d.default
    array := d.array }

/-- The default value after its `=`, with which the parameter ends. -/
def readDefault (cs : List Char) : Except Failure (Draft × List Char) :=
  match scanDefault none 0 cs with
  | none => .error ⟨.unterminatedDefault, []⟩
  | some (value, last, rest) =>
    let value := Text.trimChars value
    if value.isEmpty then .error ⟨.missingDefault, cs⟩
    else .ok ({ default := some (String.ofList value), last }, rest)

/-- Takes a closing square bracket. -/
def closeBracket (cs : List Char) : Except Failure (Unit × List Char) :=
  match Token.next cs with
  | .finished => .error ⟨.expectedSymbol ']' none, []⟩
  | .unexpected c start => .error ⟨.unexpectedCharacter c, start⟩
  | .found t start rest =>
    if t = .symbol ']' then .ok ((), rest) else .error ⟨.expectedSymbol ']' (some t), start⟩

theorem length_lt_of_closeBracket {cs rest : List Char} {u : Unit}
    (h : closeBracket cs = .ok (u, rest)) : rest.length < cs.length := by
  unfold closeBracket at h
  split at h
  · cases h
  · cases h
  · rename_i hnext
    split at h
    · cases h
      exact Token.length_lt_of_next hnext
    · cases h

/-- One parameter, with the comma or parenthesis after it. Between template brackets every token
belongs to the type. -/
def readParam (depth : Nat) (cs : List Char) : Except Failure (Draft × List Char) :=
  match h : Token.next cs with
  | .finished =>
    .error ⟨if depth = 0 then .unterminatedParameters else .unterminatedTemplate, []⟩
  | .unexpected c start => .error ⟨.unexpectedCharacter c, start⟩
  | .found t _ rest =>
    have : rest.length < cs.length := Token.length_lt_of_next h
    if depth = 0 ∧ t = .symbol ',' then .ok ({ last := false }, rest)
    else if depth = 0 ∧ t = .symbol ')' then .ok ({ last := true }, rest)
    else if depth = 0 ∧ t = .symbol '=' then readDefault rest
    else if depth = 0 ∧ t = .symbol '[' then
      match hclose : closeBracket rest with
      | .error e => .error e
      | .ok (_, rest') =>
        have : rest'.length < rest.length := length_lt_of_closeBracket hclose
        (readParam depth rest').map fun read ↦ ({ read.1 with array := true }, read.2)
    else (readParam (nesting depth t) rest).map fun read ↦ (read.1.cons t, read.2)
termination_by cs.length

theorem length_lt_of_readDefault {cs rest : List Char} {d : Draft}
    (h : readDefault cs = .ok (d, rest)) : rest.length < cs.length := by
  unfold readDefault at h
  split at h
  · cases h
  · rename_i hscan
    simp only at h
    split at h
    · cases h
    · cases h
      exact length_lt_of_scanDefault hscan

theorem exists_of_map_eq_ok {ε α β : Type} {f : α → β} {x : Except ε α} {b : β}
    (h : x.map f = .ok b) : ∃ a, x = .ok a ∧ f a = b := by
  cases x with
  | error e => cases h
  | ok a => exact ⟨a, rfl, Except.ok.inj h⟩

theorem length_lt_of_readParam {depth : Nat} {cs rest : List Char} {d : Draft}
    (h : readParam depth cs = .ok (d, rest)) : rest.length < cs.length := by
  fun_induction readParam depth cs generalizing d rest with
  | case1 => cases h
  | case2 => cases h
  | case3 => cases h; assumption
  | case4 => cases h; assumption
  | case5 => exact Nat.lt_trans (length_lt_of_readDefault h) (by assumption)
  | case6 => cases h
  | case7 depth cs t start tail hnext htail _ _ _ _ u tail' hclose hlt ih =>
    obtain ⟨⟨d', r⟩, hread, heq⟩ := exists_of_map_eq_ok h
    cases heq
    change r.length < cs.length
    have := ih hread
    omega
  | case8 depth cs t start tail hnext htail _ _ _ _ ih =>
    obtain ⟨⟨d', r⟩, hread, heq⟩ := exists_of_map_eq_ok h
    cases heq
    change r.length < cs.length
    have := ih hread
    omega

/-- The parameters after the opening parenthesis, up to the closing one. A lone `void` in front of
all parameters declares none; `kept` tells whether there is a parameter already. -/
def readParamList (kept : Bool) (cs : List Char) : Except Failure (List Param × List Char) :=
  match h : readParam 0 cs with
  | .error e => .error e
  | .ok (draft, rest) =>
    have : rest.length < cs.length := length_lt_of_readParam h
    if draft.tokens.isEmpty then
      .error ⟨.emptyParameter, (if draft.last then ')' else ',') :: rest⟩
    else
      let here := if draft.isLoneVoid && !kept then [] else [draft.toParam]
      if draft.last then .ok (here, rest)
      else
        (readParamList (kept || !here.isEmpty) rest).map fun read ↦ (here ++ read.1, read.2)
termination_by cs.length

def readParams (cs : List Char) : Except Failure (List Param × List Char) := do
  let (closed, rest) ← accept (.symbol ')') cs
  if closed then return ([], rest)
  readParamList false cs

def readProtection (cs : List Char) : Except Failure (Option Protection × List Char) := do
  let (isPublic, rest) ← acceptWord "public" cs
  if isPublic then
    let (_, rest) ← accept (.symbol ':') rest
    return (some .publicAccess, rest)
  let (isProtected, rest) ← acceptWord "protected" cs
  if isProtected then
    let (_, rest) ← accept (.symbol ':') rest
    return (some .protectedAccess, rest)
  return (none, cs)

/-- Whether the method is declared pure, with `= 0`. -/
def readPure (cs : List Char) : Except Failure (Bool × List Char) := do
  let (equals, rest) ← accept (.symbol '=') cs
  if !equals then return (false, cs)
  match Token.next rest with
  | .finished => throw ⟨.expectedZero none, []⟩
  | .unexpected c start => throw ⟨.unexpectedCharacter c, start⟩
  | .found t start rest =>
    if t = .ofName "0" then return (true, rest)
    throw ⟨.expectedZero (some t), start⟩

/-- Nothing but a semicolon may be left. -/
def readEnd (cs : List Char) : Except Failure Unit := do
  let (_, rest) ← accept (.symbol ';') cs
  match Token.next rest with
  | .finished => return ()
  | .unexpected c start => throw ⟨.unexpectedCharacter c, start⟩
  | .found t start _ => throw ⟨.leftover t, start⟩

/-- The return type of a method of `className`. -/
def returnTypeOf (className : String) (text : List Char) (head : Head) :
    Except Failure (Option String) :=
  if head.type.isEmpty then
    if !head.isDtor && head.name != className.toList then
      .error ⟨.missingReturnType (String.ofList head.name), text⟩
    else .ok none
  else if head.isDtor then .error ⟨.destructorType, text⟩
  else .ok (some (ParamText.typeOf head.type))

/-- Reads a whole text as a prototype of `className`. -/
def parseChars (className : String) (text : List Char) : Except Failure Prototype := do
  let (protection, rest) ← readProtection text
  let (isVirtual, rest) ← acceptWord "virtual" rest
  let (isStatic, rest) ← if isVirtual then pure (false, rest) else acceptWord "static" rest
  let (placed, rest) ← readHead 0 rest
  let head ← splitHead text placed
  let (params, rest) ← readParams rest
  let (isConst, rest) ← acceptWord "const" rest
  let (isOverride, rest) ← acceptWord "override" rest
  let (isPureVirtual, rest) ← readPure rest
  readEnd rest
  let returnType ← returnTypeOf className text head
  return {
    protection, isVirtual, isStatic, returnType
    name := String.ofList head.name
    isDtor := head.isDtor
    params, isConst, isOverride, isPureVirtual }

/-- Line breaks count as spaces. -/
def breaksToSpaces (text : List Char) : List Char :=
  text.map fun c ↦ if c == '\n' then ' ' else c

/-- The number of bytes in front of a place in a text. -/
def byteOffset (text place : List Char) : Nat :=
  (String.ofList text).utf8ByteSize - (String.ofList place).utf8ByteSize

/-- Whether a text has the parentheses of a method declaration. -/
def isMethodText (text : String) : Bool :=
  match Text.cutAtFirst (· == '(') text.toList with
  | some (_, rest) => rest.contains ')'
  | none => false

/-- The method that a prototype declares in a class. -/
def toMethod (p : Prototype) (className : String) : Method :=
  let blank : Method :=
    if p.isDtor then .dtorOf className
    else if p.returnType.isNone then .ctorOf className
    else (Method.named p.name).inClass className
  { blank with
    info := { blank.info with protection := p.protection.getD blank.info.protection }
    returnType := p.returnType
    params := p.params
    isVirtual := p.isVirtual || p.isPureVirtual
    isPureVirtual := p.isPureVirtual
    isStatic := p.isStatic
    isConst := p.isConst
    isOverride := p.isOverride }

end Prototype

end Bindery
