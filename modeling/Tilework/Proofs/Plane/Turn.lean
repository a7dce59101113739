import Tilework.Plane.Matrix
import Tilework.Proofs.Grid.Access
import Tilework.Proofs.Plane.Region

namespace Tilework

namespace Matrix

/-- A signed permutation: a rotation or a reflection of the square. -/
inductive Signed : Matrix → Prop where
  | straight {a b : Int} : a.natAbs = 1 → b.natAbs = 1 → Signed ⟨⟨a, 0⟩, ⟨0, b⟩⟩
  | crossed {a b : Int} : a.natAbs = 1 → b.natAbs = 1 → Signed ⟨⟨0, a⟩, ⟨b, 0⟩⟩

def extent (m : Matrix) (size : Vec) : Vec := (m.image size).abs

/-- The least coordinates in the image of a grid of this size, each of which one of two opposite corners has. -/
def corner (m : Matrix) (size : Vec) : Vec := Vec.zero.min (m.image (size - Vec.one))

def send (m : Matrix) (size p : Vec) : Vec := m.image p - m.corner size

def transpose (m : Matrix) : Matrix := ⟨⟨m.x.x, m.y.x⟩, ⟨m.x.y, m.y.y⟩⟩

theorem image_add (m : Matrix) (p d : Vec) : m.image (p + d) = m.image p + m.image d := by
  ext <;> simp only [image, Vec.scale, Vec.add_x, Vec.add_y, Int.mul_add] <;> omega

theorem send_add (m : Matrix) (size p d : Vec) : m.send size (p + d) = m.send size p + m.image d := by
  rw [send, send, image_add]
  ext <;> simp only [Vec.add_x, Vec.add_y, Vec.sub_x, Vec.sub_y] <;> omega

end Matrix

/-- The function numbers the cells of a line of this length from its start, or from its end. -/
def Counts (length : Int) (f : Int → Int) : Prop := (∀ n, f n = n) ∨ ∀ n, f n = length - 1 - n

namespace Counts

variable {length : Int} {f : Int → Int}

theorem of_sign {a : Int} (sign : a.natAbs = 1) (long : 1 ≤ length) :
    Counts length fun n => a * n - min 0 (a * (length - 1)) := by
  rcases Int.natAbs_eq_iff.mp sign with rfl | rfl
  · refine .inl fun n => ?_
    simp only
    omega
  · refine .inr fun n => ?_
    simp only
    omega

theorem inside (counts : Counts length f) (n : Int) : (0 ≤ f n ∧ f n < length) ↔ 0 ≤ n ∧ n < length := by
  rcases counts with start | stop
  · rw [start]
  · rw [stop]
    omega

theorem clamp (counts : Counts length f) (long : 1 ≤ length) (n : Int) :
    min (max (f n) 0) (length - 1) = f (min (max n 0) (length - 1)) := by
  rcases counts with start | stop
  · rw [start, start]
  · rw [stop, stop]
    omega

end Counts

namespace Matrix.Signed

variable {m : Matrix} {size p : Vec}

theorem transpose_image (turn : m.Signed) (p : Vec) : m.transpose.image (m.image p) = p := by
  cases turn with
  | straight first second =>
    rcases Int.natAbs_eq_iff.mp first with rfl | rfl <;> rcases Int.natAbs_eq_iff.mp second with rfl | rfl <;>
    ext <;> simp [transpose, image, Vec.scale]
  | crossed first second =>
    rcases Int.natAbs_eq_iff.mp first with rfl | rfl <;> rcases Int.natAbs_eq_iff.mp second with rfl | rfl <;>
    ext <;> simp [transpose, image, Vec.scale]

/-- The lines of the image are those of the grid, or the two directions change places. In each of them the positions are
counted from one end or the other. -/
theorem lines (turn : m.Signed) (wide : 1 ≤ size.x) (tall : 1 ≤ size.y) :
    ∃ f g, Counts size.x f ∧ Counts size.y g ∧
      ((m.extent size = size ∧ ∀ p, m.send size p = ⟨f p.x, g p.y⟩) ∨
        (m.extent size = ⟨size.y, size.x⟩ ∧ ∀ p, m.send size p = ⟨g p.y, f p.x⟩)) := by
  cases turn with
  | @straight a b first second =>
    refine ⟨_, _, .of_sign first wide, .of_sign second tall, .inl ⟨?_, fun p => ?_⟩⟩
    · ext <;> simp [extent, image, Vec.scale, Vec.abs, Int.natAbs_mul, first, second] <;> omega
    · ext <;> simp [send, corner, image, Vec.scale, Vec.min, Vec.zero, Vec.one]
  | @crossed a b first second =>
    refine ⟨_, _, .of_sign first wide, .of_sign second tall, .inr ⟨?_, fun p => ?_⟩⟩
    · ext <;> simp [extent, image, Vec.scale, Vec.abs, Int.natAbs_mul, first, second] <;> omega
    · ext <;> simp [send, corner, image, Vec.scale, Vec.min, Vec.zero, Vec.one]

theorem within_send (turn : m.Signed) (wide : 1 ≤ size.x) (tall : 1 ≤ size.y) :
    (m.send size p).Within (m.extent size) ↔ p.Within size := by
  obtain ⟨f, g, across, down, lines⟩ := turn.lines wide tall
  have column := across.inside p.x
  have row := down.inside p.y
  rcases lines with ⟨extent, sent⟩ | ⟨extent, sent⟩
  · simp only [extent, sent, Vec.Within]
    omega
  · simp only [extent, sent, Vec.Within]
    omega

theorem clamp_send (turn : m.Signed) (wide : 1 ≤ size.x) (tall : 1 ≤ size.y) :
    (m.send size p).clamp Vec.zero (m.extent size - Vec.one) = m.send size (p.clamp Vec.zero (size - Vec.one)) := by
  obtain ⟨f, g, across, down, lines⟩ := turn.lines wide tall
  have column := across.clamp wide p.x
  have row := down.clamp tall p.y
  rcases lines with ⟨extent, sent⟩ | ⟨extent, sent⟩
  · rw [extent, sent, sent]
    exact Vec.ext column row
  · rw [extent, sent, sent]
    exact Vec.ext row column

theorem usableSize (turn : m.Signed) (usable : UsableSize size) : UsableSize (m.extent size) := by
  obtain ⟨wide, tall, area⟩ := usable
  rcases turn.lines wide tall with ⟨f, g, -, -, ⟨extent, -⟩ | ⟨extent, -⟩⟩
  · rw [extent]
    exact ⟨wide, tall, area⟩
  · rw [extent]
    exact ⟨tall, wide, by rwa [Int.mul_comm]⟩

end Matrix.Signed

namespace Grid

def tabulate (size : Vec) (usable : UsableSize size) (f : Vec → Cell) : Grid :=
  ⟨size, Array.ofFn fun i : Fin (size.x * size.y).toNat => f ⟨i % size.x, i / size.x⟩,
    cellCount?_eq_some_iff.mpr ⟨usable, Array.size_ofFn.symm⟩⟩

theorem cellAt_tabulate {size p : Vec} {usable : UsableSize size} {f : Vec → Cell} (inside : p.Within size) :
    (tabulate size usable f).cellAt p = f p := by
  have contains : (tabulate size usable f).Contains p := inside
  have place := placeOf_lt contains
  obtain ⟨low, -⟩ := row_bounds contains
  obtain ⟨x0, -, xs, -⟩ := inside
  have number : ((p.x + size.x * p.y).toNat : Int) = p.x + size.x * p.y := Int.toNat_of_nonneg (Int.add_nonneg x0 low)
  have column : (p.x + size.x * p.y) % size.x = p.x := by
    rw [Int.add_mul_emod_self_left, Int.emod_eq_of_lt x0 xs]
  have row : (p.x + size.x * p.y) / size.x = p.y := by
    rw [Int.add_mul_ediv_left _ _ (by omega), Int.ediv_eq_zero_of_lt x0 xs, Int.zero_add]
  rw [cellAt, Array.getElem?_eq_getElem place]
  simp only [tabulate, placeOf, Array.getElem_ofFn, number, column, row, Option.getD_some]

/-- The image of the grid under a rotation or reflection. -/
def turned (g : Grid) {m : Matrix} (turn : m.Signed) : Grid :=
  tabulate (m.extent g.size) (turn.usableSize g.usable) fun q => g.cellAt (m.transpose.image (q + m.corner g.size))

variable {g : Grid} {m : Matrix} (turn : m.Signed) {p : Vec}

theorem contains_turned : (g.turned turn).Contains (m.send g.size p) ↔ g.Contains p :=
  turn.within_send g.usable.1 g.usable.2.1

theorem cellAt_turned (inside : g.Contains p) : (g.turned turn).cellAt (m.send g.size p) = g.cellAt p := by
  have within : (m.send g.size p).Within (m.extent g.size) := (contains_turned turn).mpr inside
  rw [turned, cellAt_tabulate within, Matrix.send, Vec.sub_add_cancel, turn.transpose_image]

theorem closest_turned (p : Vec) : (g.turned turn).closest (m.send g.size p) = m.send g.size (g.closest p) :=
  turn.clamp_send g.usable.1 g.usable.2.1

theorem read_turned (p : Vec) :
    (g.turned turn).cellAt ((g.turned turn).closest (m.send g.size p)) = g.cellAt (g.closest p) := by
  rw [closest_turned, cellAt_turned turn (g.closest_contains p)]

end Grid

end Tilework
