/-!
How large numbers may be. The digits of a number are taken into a word of 64 bits for as long as it
holds them, the digits that it does not hold become a power of ten, and the product of the two is
taken in double precision. It has to be finite.
-/

set_option autoImplicit false
set_option relaxedAutoImplicit false

namespace Bindery.Json

def digitValue (c : Char) : Nat := c.toNat - '0'.toNat

/-- Appends digits to a number until the next one would leave 64 bits. Gives the number, and the
digits that are left. -/
def takeDigits (n : Nat) : List Char → Nat × List Char
  | [] => (n, [])
  | c :: rest =>
    let next := n * 10 + digitValue c
    if next < UInt64.size then takeDigits next rest else (n, c :: rest)

/-- The distance of two neighbours in double precision around a number. -/
def doubleUnit (n : Nat) : Nat := Nat.pow 2 (n.log2 + 1 - 53)

/-- A number in double precision. A tie goes to the even neighbour. -/
def roundToDouble (n : Nat) : Nat :=
  let unit := doubleUnit n
  let below := n / unit
  let surplus := 2 * (n % unit)
  if surplus > unit || surplus == unit && below % 2 == 1 then (below + 1) * unit
  else below * unit

/-- From here on a number rounds to infinity in double precision. -/
def doubleLimit : Nat := Nat.pow 2 1024 - Nat.pow 2 970

/-- Whether `word * 10 ^ exponent` is finite, with both factors and the product in double
precision. -/
def isFinite (word : Nat) (exponent : Int) : Bool :=
  word == 0 || exponent < 0 ||
    (exponent ≤ 308 &&
      roundToDouble word * roundToDouble (Nat.pow 10 exponent.toNat) < doubleLimit)

/-- Whether the number of some digits, some digits after the point and an exponent is finite. -/
def isFiniteDecimal (whole fraction : List Char) (exponent : Int) : Bool :=
  let (word, above) := takeDigits 0 whole
  let (word, below) := takeDigits word fraction
  isFinite word (exponent + above.length - (fraction.length - below.length : Nat))

end Bindery.Json
