import Tilework.Number.Rounding

namespace Tilework

structure Single where
  bits : UInt32
  deriving DecidableEq, Repr, Inhabited

namespace Single

def isNegative (a : Single) : Bool := 0x80000000 ≤ a.bits.toNat

def magnitude (a : Single) : Nat := a.bits.toNat % 0x80000000

def infiniteMagnitude : Nat := 0x7F800000

def isFinite (a : Single) : Bool := a.magnitude < infiniteMagnitude

def isNaN (a : Single) : Bool := infiniteMagnitude < a.magnitude

/-- The magnitude of a finite number in units of two to the power -149. -/
def units (a : Single) : Nat :=
  let e := a.magnitude >>> 23
  let f := a.magnitude % 0x800000
  if e = 0 then f else (0x800000 + f) <<< (e - 1)

def value (a : Single) : Int := if a.isNegative then -a.units else a.units

def pack (m : Nat) : Nat :=
  if m < 0x800000 then m
  else
    let e := m.log2 - 23
    (e + 1) <<< 23 + (m >>> e - 0x800000)

/-- The number nearest to `num / den` units; from half past the greatest finite one on, infinity. -/
def ofUnits (negative : Bool) (num den : Nat) : Single :=
  let m := Rounding.significant 24 num den
  let body := if m < 1 <<< 277 then pack m else infiniteMagnitude
  ⟨UInt32.ofNat (if negative then 0x80000000 + body else body)⟩

def zero : Single := ⟨0⟩

def negativeZero : Single := ⟨0x80000000⟩

def one : Single := ⟨0x3F800000⟩

def notANumber : Single := ⟨0x7FC00000⟩

def ofInt (n : Int) : Single := ofUnits (n < 0) (n.natAbs <<< 149) 1

def ofDraw (k : Nat) : Single := ofUnits false (k <<< 125) 1

def neg (a : Single) : Single := ⟨a.bits ^^^ 0x80000000⟩

def add (a b : Single) : Single :=
  if a.isFinite && b.isFinite then
    let sum := a.value + b.value
    if sum = 0 then if a.isNegative && b.isNegative then negativeZero else zero
    else ofUnits (sum < 0) sum.natAbs 1
  else if a.isNaN || b.isNaN then notANumber
  else if a.isFinite then b
  else if b.isFinite || a = b then a
  else notANumber

def sub (a b : Single) : Single := add a b.neg

def divNat (a : Single) (n : Nat) : Single :=
  ofUnits a.isNegative a.units (Rounding.significant 24 n 1)

/-- Ascends with the number, and is the same for both zeros. -/
def rank (a : Single) : Int := if a.isNegative then -a.magnitude else a.magnitude

def lt (a b : Single) : Bool := !a.isNaN && !b.isNaN && a.rank < b.rank

def le (a b : Single) : Bool := !a.isNaN && !b.isNaN && a.rank ≤ b.rank

def positivePart (a : Single) : Single := if lt zero a then a else zero

end Single

end Tilework
