import Tilework.Number.Single

namespace Tilework.Decimal

/-- Double-precision magnitudes are counted in units of two to the power -1074. -/
def doubleUnits : Nat := 1 <<< 1074

def double (num den : Nat) : Nat := Rounding.significant 53 num den

def doubleLimit : Nat := 1 <<< 2098

def powerOfTen (k : Nat) : Nat := double (Nat.pow 10 k * doubleUnits) 1

def stepPower : Nat := 308

def scaleDown (f k : Nat) : Nat :=
  if k ≤ stepPower then double (f * doubleUnits) (powerOfTen k)
  else if f = 0 then 0
  else scaleDown (double (f * doubleUnits) (powerOfTen stepPower)) (k - stepPower)
termination_by k
decreasing_by simp only [stepPower] at *; omega

def scaleUp? (f k : Nat) : Option Nat :=
  if k ≤ stepPower then
    let scaled := double (f * powerOfTen k) doubleUnits
    if scaled < doubleLimit then some scaled else none
  else if f = 0 then some 0
  else none

/-- The double-precision magnitude of `significand` times ten to the power `exponent`, if it is finite. It is scaled in
steps, each of which rounds. -/
def toDouble? (significand : Nat) (exponent : Int) : Option Nat :=
  let f := double (significand * doubleUnits) 1
  if 0 ≤ exponent then scaleUp? f exponent.toNat else some (scaleDown f exponent.natAbs)

def toSingle (negative : Bool) (f : Nat) : Single := Single.ofUnits negative f (1 <<< 925)

def significandLimit : Nat := 0xFFFFFFFFFFFFFFFF

def digitValue (c : Char) : Nat := c.toNat - '0'.toNat

def appendDigits (significand : Nat) : List Char → Nat × List Char
  | [] => (significand, [])
  | c :: rest =>
    let next := significand * 10 + digitValue c
    if next ≤ significandLimit then appendDigits next rest else (significand, c :: rest)

def digitsValue (digits : List Char) : Nat := digits.foldl (fun n c => n * 10 + digitValue c) 0

def infiniteFrom : Nat := 1 <<< 1024 - 1 <<< 970

/-- Whether digits, times ten to the power `exponent`, denote a number that rounds to double-precision
infinity. The number of digits decides, unless it is near the limit. -/
def exceedsDouble (digits : List Char) (exponent : Int) : Bool :=
  let digits := digits.dropWhile (· = '0')
  let places : Int := digits.length + exponent
  if digits.isEmpty || places < 309 then false
  else if 309 < places then true
  else infiniteFrom * Nat.pow 10 (-exponent).toNat ≤ digitsValue digits * Nat.pow 10 exponent.toNat

end Tilework.Decimal
