namespace Tilework.Rounding

/-- The integer nearest to `num / den`, and of two the even one. -/
def nearest (num den : Nat) : Nat :=
  let q := num / den
  let r := num % den
  if 2 * r < den then q else if den < 2 * r then q + 1 else q + q % 2

def bitLength (n : Nat) : Nat := if n = 0 then 0 else n.log2 + 1

/-- The nearest to `num / den` among the integers with at most `precision` significant binary digits. -/
def significant (precision num den : Nat) : Nat :=
  let step := 1 <<< (bitLength (num / den) - precision)
  nearest num (den * step) * step

end Tilework.Rounding
