import Tilework.Plane.Range

namespace Tilework

structure Rect where
  pos : Vec
  size : Vec
  deriving DecidableEq, Repr, Inhabited

namespace Rect

def fromCorners (a b : Vec) : Checked Rect := do
  let lo := a.min b
  let span ← (a.max b - lo).fit
  let size ← (span + Vec.one).fit
  return ⟨lo, size⟩

def isEmpty (r : Rect) : Bool := r.size.x ≤ 0 || r.size.y ≤ 0

def stop (r : Rect) : Checked Vec := (r.pos + r.size).fit

def contains (r : Rect) (p : Vec) : Checked Bool := do
  let d ← (p - r.pos).fit
  return decide (d.Within r.size)

def expand (r : Rect) (margin : Vec) : Checked Rect := do
  let pos ← (r.pos - margin).fit
  let both ← (margin.scale 2).fit
  let size ← (r.size + both).fit
  return ⟨pos, size⟩

def intersect (r s : Rect) : Checked (Option Rect) := do
  let lo := r.pos.max s.pos
  let rStop ← r.stop
  let sStop ← s.stop
  let size ← (rStop.min sStop - lo).fit
  let common : Rect := ⟨lo, size⟩
  return if common.isEmpty then none else some common

def cells (r : Rect) : List Vec :=
  (List.range r.size.y.toNat).flatMap fun y =>
    (List.range r.size.x.toNat).map fun x => r.pos + ⟨x, y⟩

/-- The cells, if all of them are positions. The last cell decides. -/
def positions (r : Rect) : Checked (List Vec) := do
  if r.isEmpty then
    return []
  let _ ← (r.pos + (r.size - Vec.one)).fit
  return r.cells

def Holds (r : Rect) (p : Vec) : Prop :=
  r.pos.x ≤ p.x ∧ p.x < r.pos.x + r.size.x ∧ r.pos.y ≤ p.y ∧ p.y < r.pos.y + r.size.y

instance (r : Rect) (p : Vec) : Decidable (r.Holds p) :=
  inferInstanceAs (Decidable
    (r.pos.x ≤ p.x ∧ p.x < r.pos.x + r.size.x ∧ r.pos.y ≤ p.y ∧ p.y < r.pos.y + r.size.y))

theorem mem_cells {r : Rect} {p : Vec} : p ∈ r.cells ↔ r.Holds p := by
  simp only [cells, Holds, List.mem_flatMap, List.mem_map, List.mem_range]
  constructor
  · rintro ⟨y, hy, x, hx, rfl⟩
    simp only [Vec.add_x, Vec.add_y]
    omega
  · rintro ⟨x1, x2, y1, y2⟩
    refine ⟨(p.y - r.pos.y).toNat, by omega, (p.x - r.pos.x).toNat, by omega, ?_⟩
    ext <;> simp only [Vec.add_x, Vec.add_y] <;> omega

end Rect

end Tilework
