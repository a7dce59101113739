import Tilework.Proofs.Grid.Access

namespace Tilework

theorem clamped_between {a m last : Int} (low : 0 ≤ m) (high : m ≤ last) :
    0 ≤ (a - min (max a 0) last) * (min (max a 0) last - m) := by
  rcases lt_or_ge a 0 with before | after
  · exact mul_nonneg_of_nonpos_of_nonpos (by omega) (by omega)
  · rcases lt_or_ge last a with past | within
    · exact mul_nonneg (by omega) (by omega)
    · have here : min (max a 0) last = a := by omega
      rw [here, sub_self, zero_mul]

def Vec.squaredDistance (a b : Vec) : Int := (a.x - b.x) * (a.x - b.x) + (a.y - b.y) * (a.y - b.y)

theorem Vec.squaredDistance_pos {a b : Vec} (apart : a ≠ b) : 0 < a.squaredDistance b := by
  have across := mul_self_nonneg (a.x - b.x)
  have along := mul_self_nonneg (a.y - b.y)
  by_contra close
  have column : a.x - b.x = 0 := mul_self_eq_zero.mp (by unfold squaredDistance at close; omega)
  have row : a.y - b.y = 0 := mul_self_eq_zero.mp (by unfold squaredDistance at close; omega)
  exact apart (Vec.ext (by omega) (by omega))

namespace Grid

variable {g : Grid} {m n p q : Vec}

def Nearest (g : Grid) (q n : Vec) : Prop :=
  g.Contains n ∧ ∀ m, g.Contains m → m ≠ n → q.squaredDistance n < q.squaredDistance m

/-- The triangle has no acute angle at the closest position. -/
theorem squaredDistance_closest_add_le (inside : g.Contains m) (q : Vec) :
    q.squaredDistance (g.closest q) + m.squaredDistance (g.closest q) ≤ q.squaredDistance m := by
  obtain ⟨left, top, right, bottom⟩ := inside
  have across := clamped_between (a := q.x) left (Int.le_sub_one_of_lt right)
  have along := clamped_between (a := q.y) top (Int.le_sub_one_of_lt bottom)
  simp only [Vec.squaredDistance, closest, Vec.clamp, Vec.min, Vec.max, Vec.zero, Vec.one, Vec.sub_x, Vec.sub_y]
  linarith

theorem nearest_closest (g : Grid) (q : Vec) : g.Nearest q (g.closest q) := by
  refine ⟨g.closest_contains q, ?_⟩
  intro m inside apart
  have beyond := squaredDistance_closest_add_le inside q
  have positive := Vec.squaredDistance_pos apart
  omega

theorem nearest_iff : g.Nearest q n ↔ g.closest q = n := by
  constructor
  · rintro ⟨inside, nearer⟩
    by_contra apart
    have closer := (g.nearest_closest q).2 n inside (Ne.symm apart)
    have further := nearer (g.closest q) (g.closest_contains q) apart
    omega
  · rintro rfl
    exact g.nearest_closest q

theorem get_of_nearest (nearest : g.Nearest q n) : g.get q = .ok (g.cellAt n) := by
  rw [get_eq, nearest_iff.mp nearest]

theorem cells_placeOf (inside : g.Contains p) : g.cells[g.placeOf p]? = some (g.cellAt p) :=
  entryAt_eq_ok_iff.mp (entryAt_placeOf inside)

def touch (g : Grid) (p : Vec) (f : Cell → Cell) : Grid := if g.Contains p then g.update p f else g

theorem set_eq_touch (g : Grid) (p : Vec) (cell : Cell) : g.set p cell = .ok (g.touch p fun _ => cell) := by
  unfold set touch
  split
  · exact setStrict_of_contains (by assumption) cell
  · rfl

theorem setLayer_eq_touch (g : Grid) (p : Vec) (layer : Layer) (slot : Option TileId) :
    g.setLayer p layer slot = .ok (g.touch p fun cell => cell.set layer slot) := by
  unfold touch
  split
  · exact setLayer_of_contains (by assumption) layer slot
  · exact setLayer_of_not_contains (by assumption) layer slot

theorem get_touch_of_nearest (nearest : g.Nearest q p) (f : Cell → Cell) :
    (g.touch p f).get q = .ok (f (g.cellAt p)) := by
  have seen : (g.update p f).closest q = p := nearest_iff.mp nearest
  rw [touch, if_pos nearest.1, get_eq, seen, cellAt_update_self nearest.1]

theorem get_touch_of_not_nearest (elsewhere : ¬g.Nearest q p) (f : Cell → Cell) : (g.touch p f).get q = g.get q := by
  unfold touch
  split
  · rename_i inside
    have same : (g.update p f).closest q = g.closest q := rfl
    have apart : g.closest q ≠ p := fun seen => elsewhere (nearest_iff.mpr seen)
    rw [get_eq, get_eq, same, cellAt_update_of_ne inside (g.closest_contains q) f apart]
  · rfl

/-- Every read has an answer, the cell at the nearest position, and every write is taken. It is seen from the places that
have the written position as their nearest one, and all else is read as before. -/
structure Answers (g : Grid) : Prop where
  get : ∀ q, ∃ n cell, g.Nearest q n ∧ g.cells[(n.x + g.size.x * n.y).toNat]? = some cell ∧ g.get q = .ok cell
  set : ∀ p cell, ∃ k, g.set p cell = .ok k ∧ ∀ q,
    (g.Nearest q p → k.get q = .ok cell) ∧ (¬g.Nearest q p → k.get q = g.get q)
  setLayer : ∀ p layer slot, ∃ k, g.setLayer p layer slot = .ok k ∧ ∀ q,
    (g.Nearest q p → k.getLayer q layer = .ok slot ∧
      ∀ other, other ≠ layer → k.getLayer q other = g.getLayer q other) ∧
    (¬g.Nearest q p → k.get q = g.get q)

theorem answers (g : Grid) : g.Answers where
  get q := by
    have nearest := g.nearest_closest q
    exact ⟨g.closest q, g.cellAt (g.closest q), nearest, cells_placeOf nearest.1, get_of_nearest nearest⟩
  set p cell := by
    refine ⟨_, g.set_eq_touch p cell, ?_⟩
    intro q
    exact ⟨fun nearest => get_touch_of_nearest nearest _, fun elsewhere => get_touch_of_not_nearest elsewhere _⟩
  setLayer p layer slot := by
    refine ⟨_, g.setLayer_eq_touch p layer slot, ?_⟩
    intro q
    refine ⟨?_, fun elsewhere => get_touch_of_not_nearest elsewhere _⟩
    intro nearest
    have seen := get_touch_of_nearest nearest fun cell => cell.set layer slot
    constructor
    · rw [getLayer, seen]
      exact congrArg Except.ok (Cell.get_set_self _ layer slot)
    · intro other apart
      rw [getLayer, getLayer, seen, get_of_nearest nearest]
      exact congrArg Except.ok (Cell.get_set_of_ne _ slot apart)

end Grid

end Tilework
