import Tilework.Number.Decimal

namespace Tilework.Json

structure Exponent where
  negative : Bool
  digits : List Char
  deriving DecidableEq, Repr

structure Numeral where
  negative : Bool
  whole : List Char
  fraction : Option (List Char)
  exponent : Option Exponent
  deriving DecidableEq, Repr

namespace Numeral

def digits? (chars : List Char) : Option (List Char × List Char) :=
  match chars.takeWhile Char.isDigit with
  | [] => none
  | digits => some (digits, chars.dropWhile Char.isDigit)

def whole? (chars : List Char) : Option (List Char × List Char) :=
  match digits? chars with
  | some ('0' :: _ :: _, _) => none
  | found => found

def fraction? : List Char → Option (Option (List Char) × List Char)
  | '.' :: rest => (digits? rest).map fun found => (some found.1, found.2)
  | rest => some (none, rest)

def exponentDigits? (negative : Bool) (chars : List Char) : Option (Option Exponent × List Char) :=
  (digits? chars).map fun found => (some ⟨negative, found.1⟩, found.2)

def exponent? : List Char → Option (Option Exponent × List Char)
  | c :: rest =>
    if c = 'e' ∨ c = 'E' then
      match rest with
      | '+' :: digits => exponentDigits? false digits
      | '-' :: digits => exponentDigits? true digits
      | digits => exponentDigits? false digits
    else some (none, c :: rest)
  | [] => some (none, [])

def unsigned? (negative : Bool) (chars : List Char) : Option (Numeral × List Char) := do
  let (whole, chars) ← whole? chars
  let (fraction, chars) ← fraction? chars
  let (exponent, chars) ← exponent? chars
  return (⟨negative, whole, fraction, exponent⟩, chars)

def read? : List Char → Option (Numeral × List Char)
  | '-' :: rest => unsigned? true rest
  | rest => unsigned? false rest

def ofInt (n : Int) : Numeral := ⟨n < 0, Nat.toDigits 10 n.natAbs, none, none⟩

def chars (n : Numeral) : List Char :=
  (if n.negative then ['-'] else []) ++ n.whole ++
    (match n.fraction with
      | none => []
      | some digits => '.' :: digits) ++
    (match n.exponent with
      | none => []
      | some e => 'e' :: (if e.negative then ['-'] else []) ++ e.digits)

/-- The integer that the literal denotes. Negative zero is not an integer. -/
def integer? (n : Numeral) : Option Int :=
  if n.fraction.isSome || n.exponent.isSome then none
  else
    let value := Decimal.digitsValue n.whole
    if n.negative then if value = 0 then none else some (-value) else some value

def integerIn? (lo hi : Int) (n : Numeral) : Option Int := do
  let value ← n.integer?
  if lo ≤ value ∧ value ≤ hi then some value else none

def throughDouble? (n : Numeral) : Option Single := do
  let (significand, wholeLeft) := Decimal.appendDigits 0 n.whole
  let fraction := n.fraction.getD []
  let (significand, fractionLeft) := Decimal.appendDigits significand fraction
  let point : Int := wholeLeft.length - (fraction.length - fractionLeft.length : Nat)
  let shift : Int :=
    match n.exponent with
    | none => 0
    | some e => if e.negative then -Decimal.digitsValue e.digits else Decimal.digitsValue e.digits
  let double ← Decimal.toDouble? significand (point + shift)
  return Decimal.toSingle n.negative double

/-- The number that the literal denotes. Sixty-four bit integers are rounded directly, all else through
double precision. -/
def single? (n : Numeral) : Option Single :=
  match n.integerIn? (-0x8000000000000000) 0xFFFFFFFFFFFFFFFF with
  | some value => some (Single.ofInt value)
  | none => n.throughDouble?

end Numeral

end Tilework.Json
