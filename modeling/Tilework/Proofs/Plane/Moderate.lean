import Tilework.Proofs.Grid.Access
import Tilework.Proofs.Plane.Region
import Tilework.Proofs.Yields

namespace Tilework

namespace Vec

def Bounded (limit : Nat) (a : Vec) : Prop := a.x.natAbs ≤ limit ∧ a.y.natAbs ≤ limit

instance (limit : Nat) (a : Vec) : Decidable (a.Bounded limit) :=
  inferInstanceAs (Decidable (a.x.natAbs ≤ limit ∧ a.y.natAbs ≤ limit))

/-- Both coordinates are at most 2^28 in absolute value. -/
def Moderate (a : Vec) : Prop := a.Bounded 0x10000000

instance (a : Vec) : Decidable a.Moderate := inferInstanceAs (Decidable (a.Bounded 0x10000000))

namespace Bounded

variable {a b : Vec} {m n : Nat}

theorem fits (bounded : a.Bounded n) (small : n ≤ 0x7FFFFFFF) : a.Fits := by
  simp only [Bounded, Fits, Coord.Fits, Coord.least, Coord.greatest] at *
  omega

theorem add (first : a.Bounded m) (second : b.Bounded n) : (a + b).Bounded (m + n) := by
  simp only [Bounded, add_x, add_y] at *
  omega

theorem sub (first : a.Bounded m) (second : b.Bounded n) : (a - b).Bounded (m + n) := by
  simp only [Bounded, sub_x, sub_y] at *
  omega

theorem neg (bounded : a.Bounded n) : (-a).Bounded n := by
  simp only [Bounded, neg_x, neg_y] at *
  omega

theorem twice (bounded : a.Bounded n) : (a.scale 2).Bounded (n + n) := by
  simp only [Bounded, scale] at *
  omega

theorem min (first : a.Bounded n) (second : b.Bounded n) : (a.min b).Bounded n := by
  simp only [Bounded, Vec.min] at *
  omega

theorem max (first : a.Bounded n) (second : b.Bounded n) : (a.max b).Bounded n := by
  simp only [Bounded, Vec.max] at *
  omega

theorem mono (bounded : a.Bounded m) (le : m ≤ n) : a.Bounded n := by
  simp only [Bounded] at *
  omega

theorem zero (n : Nat) : Vec.zero.Bounded n := ⟨Nat.zero_le n, Nat.zero_le n⟩

end Bounded

end Vec

namespace Rect

variable {r s : Rect} {a b margin : Vec} {m n : Nat}

theorem fromCorners_eq (first : a.Moderate) (second : b.Moderate) :
    fromCorners a b = .ok ⟨a.min b, a.max b - a.min b + Vec.one⟩ := by
  have span := (first.max second).sub (first.min second)
  have one : Vec.one.Bounded 1 := by decide
  have extent := span.add one
  simp only [fromCorners, Vec.fit_of_fits (span.fits (by decide)), Vec.fit_of_fits (extent.fits (by decide)), bind,
    Except.bind]
  rfl

theorem expand_eq (pos : r.pos.Moderate) (size : r.size.Moderate) (reach : margin.Moderate) :
    r.expand margin = .ok ⟨r.pos - margin, r.size + margin.scale 2⟩ := by
  have corner := pos.sub reach
  have both := reach.twice
  have extent := size.add both
  simp only [expand, Vec.fit_of_fits (corner.fits (by decide)), Vec.fit_of_fits (both.fits (by decide)),
    Vec.fit_of_fits (extent.fits (by decide)), bind, Except.bind]
  rfl

theorem intersect_eq (pos : r.pos.Bounded m) (size : r.size.Bounded n) (others : s.pos.Bounded m)
    (extent : s.size.Bounded n) (small : m + n + m ≤ 0x7FFFFFFF) :
    r.intersect s = .ok (if (common r s).isEmpty then none else some (common r s)) := by
  have rStop := pos.add size
  have sStop := others.add extent
  have between := (rStop.min sStop).sub (pos.max others)
  exact intersect_of_fits (rStop.fits (by omega)) (sStop.fits (by omega)) (between.fits small)

theorem isEmpty_eq_false : r.isEmpty = false ↔ 1 ≤ r.size.x ∧ 1 ≤ r.size.y := by
  rw [isEmpty, Bool.or_eq_false_iff, decide_eq_false_iff_not, decide_eq_false_iff_not]
  omega

theorem positions_eq (fits : ∀ p, r.Holds p → p.Fits) : r.positions = .ok r.cells := by
  unfold positions
  cases empty : r.isEmpty with
  | true =>
    have none : r.cells = [] := by
      rw [List.eq_nil_iff_forall_not_mem]
      intro p member
      exact not_holds_of_isEmpty empty (mem_cells.mp member)
    rw [none]
    rfl
  | false =>
    have last : (r.pos + (r.size - Vec.one)).Fits := by
      apply fits
      obtain ⟨wide, high⟩ := isEmpty_eq_false.mp empty
      simp only [Holds, Vec.add_x, Vec.add_y, Vec.sub_x, Vec.sub_y, Vec.one]
      omega
    rw [Vec.fit_of_fits last]
    rfl

structure Inside (g : Grid) (r : Rect) : Prop where
  pos_x : 0 ≤ r.pos.x
  pos_y : 0 ≤ r.pos.y
  size_x : 1 ≤ r.size.x
  size_y : 1 ≤ r.size.y
  stop_x : r.pos.x + r.size.x ≤ g.size.x
  stop_y : r.pos.y + r.size.y ≤ g.size.y

namespace Inside

variable {g : Grid} {p : Vec}

theorem contains (inside : r.Inside g) (held : r.Holds p) : g.Contains p := by
  obtain ⟨_, _, _, _, _, _⟩ := inside
  simp only [Holds] at held
  simp only [Grid.Contains, Vec.Within]
  omega

theorem bounded (inside : r.Inside g) (extent : g.size.Bounded n) : r.pos.Bounded n ∧ r.size.Bounded n := by
  obtain ⟨_, _, _, _, _, _⟩ := inside
  simp only [Vec.Bounded] at *
  omega

theorem usableSize (inside : r.Inside g) : UsableSize r.size := by
  obtain ⟨_, _, wide, high, width, height⟩ := inside
  obtain ⟨_, _, limit⟩ := g.usable
  have narrower : r.size.x ≤ g.size.x := by omega
  have lower : r.size.y ≤ g.size.y := by omega
  have area : r.size.x * r.size.y ≤ g.size.x * g.size.y := by nlinarith
  exact ⟨wide, high, by omega⟩

end Inside

end Rect

namespace Grid

variable {g : Grid} {p : Vec} {r : Rect} {m n : Nat}

theorem Contains.bounded (inside : g.Contains p) (extent : g.size.Bounded n) : p.Bounded n := by
  simp only [Contains, Vec.Within, Vec.Bounded] at *
  omega

theorem Contains.fits (inside : g.Contains p) : p.Fits := by
  have extent := g.size_fits
  simp only [Contains, Vec.Within, Vec.Fits, Coord.Fits, Coord.least] at *
  omega

theorem intersect_bounds_yields (pos : r.pos.Bounded m) (size : r.size.Bounded n) (extent : g.size.Bounded n)
    (small : m + n + m ≤ 0x7FFFFFFF) :
    Yields (r.intersect g.bounds) fun common => ∀ area, common = some area → area.Inside g := by
  rw [Rect.intersect_eq pos size (Vec.Bounded.zero m) extent small]
  refine .ok ?_
  intro area found
  split at found
  · cases found
  · rename_i filled
    cases found
    obtain ⟨wide, high⟩ := Rect.isEmpty_eq_false.mp (Bool.not_eq_true _ ▸ filled)
    refine ⟨?_, ?_, wide, high, ?_, ?_⟩ <;>
      simp only [Rect.common, bounds, Vec.min, Vec.max, Vec.sub_x, Vec.sub_y, Vec.add_x, Vec.add_y, Vec.zero] <;>
      omega

end Grid

end Tilework
