import Bindery.Json.Basic
import Bindery.Json.Magnitude
import Bindery.Text.Pieces

/-!
Tokens of the data format. Strings and numbers are read to their values here, so that what remains
is the nesting of values. Some strings and numbers are written well and have no value: they stand
only where nothing looks at the value.
-/

set_option autoImplicit false
set_option relaxedAutoImplicit false

namespace Bindery.Json

inductive Token
  | openObject
  | closeObject
  | openArray
  | closeArray
  | colon
  | comma
  | scalar (value : Json)
  /-- A string with half of a surrogate pair. -/
  | halfPair
  /-- A number that is not finite. -/
  | tooLarge

/-- The blanks between tokens, which are fewer than the white space of a text. -/
def isGap (c : Char) : Bool := c == ' ' || c == '\n' || c == '\t' || c == '\r'

def hexValue? (c : Char) : Option Nat :=
  if '0' ≤ c ∧ c ≤ '9' then some (c.toNat - '0'.toNat)
  else if 'a' ≤ c ∧ c ≤ 'f' then some (c.toNat - 'a'.toNat + 10)
  else if 'A' ≤ c ∧ c ≤ 'F' then some (c.toNat - 'A'.toNat + 10)
  else none

def hexUnit? (a b c d : Char) : Option Nat := do
  let a ← hexValue? a
  let b ← hexValue? b
  let c ← hexValue? c
  let d ← hexValue? d
  return ((a * 16 + b) * 16 + c) * 16 + d

def isHighSurrogate (n : Nat) : Bool := 0xD800 ≤ n && n ≤ 0xDBFF

def isLowSurrogate (n : Nat) : Bool := 0xDC00 ≤ n && n ≤ 0xDFFF

def simpleEscape? : Char → Option Char
  | '"' => some '"'
  | '\\' => some '\\'
  | '/' => some '/'
  | 'b' => some '\x08'
  | 'f' => some '\x0c'
  | 'n' => some '\n'
  | 'r' => some '\r'
  | 't' => some '\t'
  | _ => none

/-- Reads a string after its opening quote: its characters and the units of its escapes, and what
follows the closing quote. Controls have to be escaped. -/
def scanString : List Char → Option (List Nat × List Char)
  | [] => none
  | '"' :: rest => some ([], rest)
  | '\\' :: 'u' :: a :: b :: c :: d :: rest =>
    match hexUnit? a b c d with
    | none => none
    | some unit => (scanString rest).map fun read ↦ (unit :: read.1, read.2)
  | '\\' :: e :: rest =>
    match simpleEscape? e with
    | none => none
    | some c => (scanString rest).map fun read ↦ (c.toNat :: read.1, read.2)
  | c :: rest =>
    if c.toNat < 0x20 ∨ c = '\\' then none
    else (scanString rest).map fun read ↦ (c.toNat :: read.1, read.2)

/-- Joins surrogates to characters. They stand only in pairs. -/
def joinUnits? : List Nat → Option (List Char)
  | [] => some []
  | [unit] => if isHighSurrogate unit || isLowSurrogate unit then none else some [Char.ofNat unit]
  | unit :: next :: rest =>
    if isLowSurrogate unit then none
    else if isHighSurrogate unit then
      if isLowSurrogate next then
        let point := 0x10000 + (unit - 0xD800) * 0x400 + (next - 0xDC00)
        (joinUnits? rest).map (Char.ofNat point :: ·)
      else none
    else (joinUnits? (next :: rest)).map (Char.ofNat unit :: ·)

def Token.ofUnits (units : List Nat) : Token :=
  match joinUnits? units with
  | some cs => .scalar (.str (String.ofList cs))
  | none => .halfPair

def isNumberChar (c : Char) : Bool :=
  c.isDigit || c == '-' || c == '+' || c == '.' || c == 'e' || c == 'E'

def natOfDigits (digits : List Char) : Nat := digits.foldl (fun n c ↦ n * 10 + digitValue c) 0

/-- A run of digits without a leading zero, other than zero itself. -/
def isPlainNat : List Char → Bool
  | [] => false
  | ['0'] => true
  | '0' :: _ => false
  | digits => digits.all Char.isDigit

/-- The exponent that follows the digits of a number, zero if nothing does. -/
def exponent? : List Char → Option Int
  | [] => some 0
  | mark :: rest =>
    if mark == 'e' || mark == 'E' then
      match rest with
      | '-' :: digits =>
        if !digits.isEmpty && digits.all Char.isDigit then some (-(natOfDigits digits : Int))
        else none
      | '+' :: digits =>
        if !digits.isEmpty && digits.all Char.isDigit then some (natOfDigits digits) else none
      | digits =>
        if !digits.isEmpty && digits.all Char.isDigit then some (natOfDigits digits) else none
    else none

/-- The digits after the point of a number, and the rest. -/
def fraction? : List Char → Option (List Char × List Char)
  | '.' :: rest =>
    let digits := rest.takeWhile Char.isDigit
    if digits.isEmpty then none else some (digits, rest.dropWhile Char.isDigit)
  | rest => some ([], rest)

/-- An integer of 64 bits, with or without sign. Zero has no sign. -/
def word64? (negative : Bool) (n : Nat) : Option Int :=
  if negative then (if n ≠ 0 ∧ 2 * n ≤ UInt64.size then some (-n) else none)
  else if n < UInt64.size then some n else none

/-- A number token. An integer that does not fit 64 bits, a negative zero and every number with a
fraction or an exponent is a `real`. -/
def Token.ofNumber? (lexeme : List Char) : Option Token := do
  let magnitude := (Text.afterStart? ['-'] lexeme).getD lexeme
  let whole := magnitude.takeWhile Char.isDigit
  let tail := magnitude.dropWhile Char.isDigit
  guard (isPlainNat whole)
  let (fraction, mark) ← fraction? tail
  let exponent ← exponent? mark
  match (if tail.isEmpty then word64? (lexeme.head? == some '-') (natOfDigits whole) else none) with
  | some n => return .scalar (.int n)
  | none =>
    if isFiniteDecimal whole fraction exponent then return .scalar (.real (String.ofList lexeme))
    else return .tooLarge

/-- One token and what follows it. The text must not start with a gap. -/
def scanToken : List Char → Option (Token × List Char)
  | [] => none
  | '\x7b' :: rest => some (.openObject, rest)
  | '\x7d' :: rest => some (.closeObject, rest)
  | '[' :: rest => some (.openArray, rest)
  | ']' :: rest => some (.closeArray, rest)
  | ':' :: rest => some (.colon, rest)
  | ',' :: rest => some (.comma, rest)
  | '"' :: rest => (scanString rest).map fun read ↦ (.ofUnits read.1, read.2)
  | 't' :: 'r' :: 'u' :: 'e' :: rest => some (.scalar (.bool true), rest)
  | 'f' :: 'a' :: 'l' :: 's' :: 'e' :: rest => some (.scalar (.bool false), rest)
  | 'n' :: 'u' :: 'l' :: 'l' :: rest => some (.scalar .null, rest)
  | c :: rest =>
    if isNumberChar c then
      (Token.ofNumber? (c :: rest.takeWhile isNumberChar)).map fun token ↦
        (token, rest.dropWhile isNumberChar)
    else none

theorem length_lt_of_scanString {cs rest : List Char} {units : List Nat}
    (h : scanString cs = some (units, rest)) : rest.length < cs.length := by
  fun_induction scanString cs generalizing units rest <;> simp_all <;> grind

theorem length_lt_of_scanToken {cs rest : List Char} {t : Token}
    (h : scanToken cs = some (t, rest)) : rest.length < cs.length := by
  unfold scanToken at h
  split at h
  all_goals try (simp only [Option.some.injEq, Prod.mk.injEq, reduceCtorEq] at h)
  all_goals try (obtain ⟨_, rfl⟩ := h; simp only [List.length_cons]; omega)
  · obtain ⟨read, hread, heq⟩ := Option.map_eq_some_iff.1 h
    have := length_lt_of_scanString hread
    simp only [Prod.mk.injEq] at heq
    rw [← heq.2, List.length_cons]
    omega
  · split at h
    · obtain ⟨n, _, heq⟩ := Option.map_eq_some_iff.1 h
      simp only [Prod.mk.injEq] at heq
      rw [← heq.2, List.length_cons]
      exact Nat.lt_succ_of_le (List.dropWhile_sublist _).length_le
    · cases h

/-- All tokens of a text, or nothing if some part of it is no token. -/
def tokens? (cs : List Char) : Option (List Token) :=
  match hgap : cs.dropWhile isGap with
  | [] => some []
  | c :: rest =>
    match htoken : scanToken (c :: rest) with
    | none => none
    | some (t, after) =>
      have : after.length < cs.length :=
        Nat.lt_of_lt_of_le (length_lt_of_scanToken htoken)
          (hgap ▸ (List.dropWhile_sublist isGap).length_le)
      (tokens? after).map (t :: ·)
termination_by cs.length
decreasing_by exact this

end Bindery.Json
