import Tilework.Fault

namespace Tilework

def Coord.fit (n : Int) : Checked Int := if Coord.Fits n then .ok n else .error .overflow

theorem Coord.fit_of_fits {n : Int} (h : Coord.Fits n) : Coord.fit n = .ok n := if_pos h

/-- The remainder that is never negative. Of the least coordinate by `-1` it is an overflow. -/
def Coord.remainder (n d : Int) : Checked Int :=
  if d = 0 then .error .divisionByZero
  else if n = Coord.least ∧ d = -1 then .error .overflow
  else .ok (n % d)

namespace Vec

def fit (a : Vec) : Checked Vec := if a.Fits then .ok a else .error .overflow

theorem fit_of_fits {a : Vec} (h : a.Fits) : a.fit = .ok a := if_pos h

theorem fit_eq_ok_iff {a b : Vec} : a.fit = .ok b ↔ a.Fits ∧ a = b := by
  unfold fit
  split <;> simp_all

def product (a : Vec) : Checked Int := Coord.fit (a.x * a.y)

def remainder (a d : Vec) : Checked Vec := do
  let x ← Coord.remainder a.x d.x
  let y ← Coord.remainder a.y d.y
  return ⟨x, y⟩

theorem remainder_of_pos {a d : Vec} (hx : 0 < d.x) (hy : 0 < d.y) :
    a.remainder d = .ok ⟨a.x % d.x, a.y % d.y⟩ := by
  have x0 : d.x ≠ 0 := by omega
  have y0 : d.y ≠ 0 := by omega
  have x1 : ¬(a.x = Coord.least ∧ d.x = -1) := by omega
  have y1 : ¬(a.y = Coord.least ∧ d.y = -1) := by omega
  simp [remainder, Coord.remainder, x0, y0, x1, y1, bind, Except.bind, pure, Except.pure]

end Vec

end Tilework
