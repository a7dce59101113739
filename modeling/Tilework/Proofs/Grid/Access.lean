import Mathlib.Tactic.Linarith
import Tilework.Grid.Basic
import Tilework.Proofs.Checked

namespace Tilework.Grid

variable {g : Grid} {p q : Vec}

theorem usable (g : Grid) : UsableSize g.size := (cellCount?_eq_some_iff.mp g.count).1

theorem ofCells?_eq_some_iff {size : Vec} {cells : Array Cell} {g : Grid} :
    ofCells? size cells = some g ↔ cellCount? size = some cells.size ∧ g.size = size ∧ g.cells = cells := by
  unfold ofCells?
  constructor
  · intro h
    split at h
    · rename_i count
      cases h
      exact ⟨count, rfl, rfl⟩
    · cases h
  · rintro ⟨count, rfl, rfl⟩
    rw [dif_pos count]

theorem size_cells (g : Grid) : (g.size.x * g.size.y).toNat = g.cells.size :=
  (cellCount?_eq_some_iff.mp g.count).2

theorem size_fits (g : Grid) : g.size.Fits := by
  obtain ⟨wide, high, limit⟩ := g.usable
  have width : g.size.x ≤ g.size.x * g.size.y := by nlinarith
  have height : g.size.y ≤ g.size.x * g.size.y := by nlinarith
  simp only [Vec.Fits, Coord.Fits, Coord.least] at *
  omega

theorem size_cells_le (g : Grid) : (g.cells.size : Int) ≤ Coord.greatest := by
  obtain ⟨⟨-, -, limit⟩, area⟩ := cellCount?_eq_some_iff_area.mp g.count
  omega

def placeOf (g : Grid) (p : Vec) : Nat := (p.x + g.size.x * p.y).toNat

def cellAt (g : Grid) (p : Vec) : Cell := (g.cells[g.placeOf p]?).getD Cell.empty

def update (g : Grid) (p : Vec) (f : Cell → Cell) : Grid :=
  ⟨g.size, g.cells.modify (g.placeOf p) f, by rw [Array.size_modify]; exact g.count⟩

/-- The position of the grid that a read at `p` sees. -/
def closest (g : Grid) (p : Vec) : Vec := p.clamp Vec.zero (g.size - Vec.one)

theorem row_bounds (h : g.Contains p) : 0 ≤ g.size.x * p.y ∧ g.size.x * p.y + g.size.x ≤ g.size.x * g.size.y := by
  obtain ⟨x0, y0, xs, ys⟩ := h
  constructor
  · nlinarith
  · nlinarith

theorem placeOf_lt (h : g.Contains p) : g.placeOf p < g.cells.size := by
  obtain ⟨low, high⟩ := row_bounds h
  obtain ⟨x0, y0, xs, ys⟩ := h
  rw [← g.size_cells, placeOf]
  omega

theorem flatIndex_of_contains (h : g.Contains p) : g.flatIndex p = .ok (g.placeOf p) := by
  obtain ⟨low, high⟩ := row_bounds h
  obtain ⟨_, _, limit⟩ := g.usable
  obtain ⟨x0, y0, xs, ys⟩ := h
  have row : Coord.Fits (g.size.x * p.y) := by
    simp only [Coord.Fits, Coord.least] at *
    omega
  have place : Coord.Fits (p.x + g.size.x * p.y) := by
    simp only [Coord.Fits, Coord.least] at *
    omega
  simp [flatIndex, Coord.fit_of_fits row, Coord.fit_of_fits place, bind, Except.bind, pure, Except.pure, placeOf]

theorem placeOf_injective (hp : g.Contains p) (hq : g.Contains q) (h : g.placeOf p = g.placeOf q) : p = q := by
  obtain ⟨lowP, -⟩ := row_bounds hp
  obtain ⟨lowQ, -⟩ := row_bounds hq
  obtain ⟨px, py, pw, ph⟩ := hp
  obtain ⟨qx, qy, qw, qh⟩ := hq
  have same : p.x + g.size.x * p.y = q.x + g.size.x * q.y := by
    simp only [placeOf] at h
    omega
  have row : p.y = q.y := by
    have left := Int.add_mul_ediv_left p.x p.y (show g.size.x ≠ 0 by omega)
    have right := Int.add_mul_ediv_left q.x q.y (show g.size.x ≠ 0 by omega)
    rw [Int.ediv_eq_zero_of_lt px pw] at left
    rw [Int.ediv_eq_zero_of_lt qx qw] at right
    rw [same] at left
    omega
  have column : p.x = q.x := by
    rw [row] at same
    omega
  exact Vec.ext column row

theorem exists_placeOf {i : Nat} (h : i < g.cells.size) : ∃ p, g.Contains p ∧ g.placeOf p = i := by
  obtain ⟨wide, high, -⟩ := g.usable
  have split := Int.mul_ediv_add_emod (i : Int) g.size.x
  have column := Int.emod_nonneg (i : Int) (show g.size.x ≠ 0 by omega)
  have inRow := Int.emod_lt_of_pos (i : Int) (show 0 < g.size.x by omega)
  have row : 0 ≤ (i : Int) / g.size.x := Int.ediv_nonneg (by omega) (by omega)
  have area : (i : Int) < g.size.x * g.size.y := by
    have := g.size_cells
    omega
  have below : (i : Int) / g.size.x < g.size.y := by
    apply Int.ediv_lt_of_lt_mul (by omega)
    rw [Int.mul_comm]
    exact area
  refine ⟨⟨(i : Int) % g.size.x, (i : Int) / g.size.x⟩, ⟨column, row, inRow, below⟩, ?_⟩
  simp only [placeOf]
  omega

theorem entryAt_placeOf (h : g.Contains p) : entryAt g.cells (g.placeOf p) = .ok (g.cellAt p) := by
  rw [entryAt_eq_ok_iff, cellAt, Array.getElem?_eq_getElem (placeOf_lt h)]
  rfl

theorem getStrict_of_contains (h : g.Contains p) : g.getStrict p = .ok (g.cellAt p) := by
  simp [getStrict, h, flatIndex_of_contains h, entryAt_placeOf h, bind, Except.bind]

theorem getStrict_eq_ok {cell : Cell} : g.getStrict p = .ok cell ↔ g.Contains p ∧ g.cellAt p = cell := by
  by_cases h : g.Contains p
  · simp [getStrict_of_contains h, h]
  · simp [getStrict, h, bind, Except.bind]

theorem closest_contains (g : Grid) (p : Vec) : g.Contains (g.closest p) := by
  obtain ⟨wide, high, -⟩ := g.usable
  simp only [Contains, Vec.Within, closest, Vec.clamp, Vec.min, Vec.max, Vec.zero, Vec.one, Vec.sub_x, Vec.sub_y]
  omega

theorem closest_of_contains (h : g.Contains p) : g.closest p = p := by
  obtain ⟨x0, y0, xs, ys⟩ := h
  ext <;> simp only [closest, Vec.clamp, Vec.min, Vec.max, Vec.zero, Vec.one, Vec.sub_x, Vec.sub_y] <;> omega

theorem nearest_eq (g : Grid) (p : Vec) : g.nearest p = .ok (g.closest p) := by
  obtain ⟨wide, high, -⟩ := g.usable
  have size := g.size_fits
  have fits : (g.size - Vec.one).Fits := by
    simp only [Vec.Fits, Coord.Fits, Coord.least, Vec.sub_x, Vec.sub_y, Vec.one] at *
    omega
  simp [nearest, Vec.fit_of_fits fits, bind, Except.bind, pure, Except.pure, closest]

theorem get_eq (g : Grid) (p : Vec) : g.get p = .ok (g.cellAt (g.closest p)) := by
  have inside := g.closest_contains p
  simp [get, nearest_eq, flatIndex_of_contains inside, entryAt_placeOf inside, bind, Except.bind]

theorem getLayer_of_contains (h : g.Contains p) (layer : Layer) :
    g.getLayer p layer = .ok ((g.cellAt p).get layer) := by
  rw [getLayer, get_eq, closest_of_contains h]
  rfl

theorem modifyAt_placeOf (h : g.Contains p) (f : Cell → Cell) :
    g.modifyAt (g.placeOf p) f = .ok (g.update p f) := by
  simp [modifyAt, placeOf_lt h, update]

theorem setStrict_of_contains (h : g.Contains p) (cell : Cell) :
    g.setStrict p cell = .ok (g.update p fun _ => cell) := by
  simp [setStrict, h, flatIndex_of_contains h, modifyAt_placeOf h, bind, Except.bind]

theorem setStrict_of_not_contains (h : ¬g.Contains p) (cell : Cell) :
    g.setStrict p cell = .error (.cellOutside p g.size) := by
  rw [setStrict, if_pos h]
  rfl

theorem setLayer_of_contains (h : g.Contains p) (layer : Layer) (slot : Option TileId) :
    g.setLayer p layer slot = .ok (g.update p fun cell => cell.set layer slot) := by
  simp [setLayer, h, flatIndex_of_contains h, modifyAt_placeOf h, bind, Except.bind]

theorem setLayer_of_not_contains (h : ¬g.Contains p) (layer : Layer) (slot : Option TileId) :
    g.setLayer p layer slot = .ok g := by
  simp [setLayer, h, pure, Except.pure]

@[simp] theorem update_cells (g : Grid) (p : Vec) (f : Cell → Cell) :
    (g.update p f).cells = g.cells.modify (g.placeOf p) f := rfl

theorem contains_congr {h : Grid} (size : h.size = g.size) : h.Contains p ↔ g.Contains p := by
  simp only [Contains, size]

theorem closest_congr {h : Grid} (size : h.size = g.size) (p : Vec) : h.closest p = g.closest p := by
  simp only [closest, size]

theorem cellAt_update_self (h : g.Contains p) (f : Cell → Cell) : (g.update p f).cellAt p = f (g.cellAt p) := by
  have place := placeOf_lt h
  have same : (g.update p f).placeOf p = g.placeOf p := rfl
  simp [cellAt, same, Array.getElem_modify, place]

theorem cellAt_update_of_ne (hp : g.Contains p) (hq : g.Contains q) (f : Cell → Cell) (ne : q ≠ p) :
    (g.update p f).cellAt q = g.cellAt q := by
  have apart : g.placeOf p ≠ g.placeOf q := fun h => ne (placeOf_injective hp hq h).symm
  have same : (g.update p f).placeOf q = g.placeOf q := rfl
  simp [cellAt, same, Array.getElem?_modify, apart]

theorem ext_cells {h : Grid} (size : g.size = h.size) (cells : g.cells = h.cells) : g = h := by
  cases g
  cases h
  cases size
  cases cells
  rfl

theorem ext_cellAt {h : Grid} (size : g.size = h.size) (cells : ∀ p, g.Contains p → g.cellAt p = h.cellAt p) :
    g = h := by
  have count : g.cells.size = h.cells.size := by rw [← g.size_cells, ← h.size_cells, size]
  apply ext_cells size
  apply Array.ext count
  intro i hg hh
  obtain ⟨p, inside, rfl⟩ := exists_placeOf hg
  have same := cells p inside
  have place : h.placeOf p = g.placeOf p := by simp only [placeOf, size]
  simpa [cellAt, place, hg, hh] using same

theorem update_cellAt (h : g.Contains p) : (g.update p fun _ => g.cellAt p) = g := by
  refine ext_cellAt rfl ?_
  intro q contains
  by_cases here : q = p
  · rw [here, cellAt_update_self h]
  · exact cellAt_update_of_ne h contains _ here

theorem mem_cells {cell : Cell} : cell ∈ g.cells ↔ ∃ p, g.Contains p ∧ g.cellAt p = cell := by
  rw [Array.mem_iff_getElem]
  constructor
  · rintro ⟨i, inside, rfl⟩
    obtain ⟨p, contains, rfl⟩ := exists_placeOf inside
    exact ⟨p, contains, by simp [cellAt, inside]⟩
  · rintro ⟨p, contains, rfl⟩
    exact ⟨g.placeOf p, placeOf_lt contains, by simp [cellAt, placeOf_lt contains]⟩

end Tilework.Grid
