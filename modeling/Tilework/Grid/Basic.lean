import Tilework.Cell
import Tilework.Plane.Rect

namespace Tilework

def cellCount? (size : Vec) : Option Nat :=
  if size.minElement < 1 then none
  else if size.x * size.y ≤ Coord.greatest then some (size.x * size.y).toNat
  else none

def UsableSize (size : Vec) : Prop := 1 ≤ size.x ∧ 1 ≤ size.y ∧ size.x * size.y ≤ Coord.greatest

theorem cellCount?_eq_some_iff {size : Vec} {n : Nat} :
    cellCount? size = some n ↔ UsableSize size ∧ (size.x * size.y).toNat = n := by
  unfold cellCount? UsableSize Vec.minElement
  split
  · simp; omega
  · split
    · simp; omega
    · simp; omega

theorem UsableSize.area_nonneg {size : Vec} (usable : UsableSize size) : 0 ≤ size.x * size.y := by
  obtain ⟨wide, high, -⟩ := usable
  exact Int.mul_nonneg (by omega) (by omega)

theorem cellCount?_eq_some_iff_area {size : Vec} {n : Nat} :
    cellCount? size = some n ↔ UsableSize size ∧ (n : Int) = size.x * size.y := by
  rw [cellCount?_eq_some_iff]
  refine and_congr_right fun usable => ?_
  have area := usable.area_nonneg
  omega

/-- A rectangle of cells, row by row. Reads past the border see the nearest edge cell and writes past it change nothing,
unless the access is strict. -/
structure Grid where
  size : Vec
  cells : Array Cell
  count : cellCount? size = some cells.size

namespace Grid

def ofCells? (size : Vec) (cells : Array Cell) : Option Grid :=
  if h : cellCount? size = some cells.size then some ⟨size, cells, h⟩ else none

def blank? (size : Vec) : Option Grid :=
  match h : cellCount? size with
  | some n => some ⟨size, Array.replicate n Cell.empty, by simpa using h⟩
  | none => none

def blank (size : Vec) : Checked Grid :=
  match blank? size with
  | some grid => .ok grid
  | none => .error (.unusableSize size)

def standard : Grid := ⟨⟨10, 10⟩, Array.replicate 100 Cell.empty, by simp; decide⟩

def bounds (g : Grid) : Rect := ⟨Vec.zero, g.size⟩

def Contains (g : Grid) (p : Vec) : Prop := p.Within g.size

instance (g : Grid) (p : Vec) : Decidable (g.Contains p) := inferInstanceAs (Decidable (p.Within g.size))

def flatIndex (g : Grid) (p : Vec) : Checked Nat := do
  let row ← Coord.fit (g.size.x * p.y)
  let place ← Coord.fit (p.x + row)
  return place.toNat

def nearest (g : Grid) (p : Vec) : Checked Vec := do
  let corner ← (g.size - Vec.one).fit
  return p.clamp Vec.zero corner

def get (g : Grid) (p : Vec) : Checked Cell := do
  let q ← g.nearest p
  let i ← g.flatIndex q
  entryAt g.cells i

def getLayer (g : Grid) (p : Vec) (layer : Layer) : Checked (Option TileId) := do
  let cell ← g.get p
  return cell.get layer

def modifyAt (g : Grid) (i : Nat) (f : Cell → Cell) : Checked Grid :=
  if i < g.cells.size then .ok ⟨g.size, g.cells.modify i f, by rw [Array.size_modify]; exact g.count⟩
  else .error .index

def getStrict (g : Grid) (p : Vec) : Checked Cell := do
  if ¬g.Contains p then
    throw (.cellOutside p g.size)
  let i ← g.flatIndex p
  entryAt g.cells i

def setStrict (g : Grid) (p : Vec) (cell : Cell) : Checked Grid := do
  if ¬g.Contains p then
    throw (.cellOutside p g.size)
  let i ← g.flatIndex p
  g.modifyAt i fun _ => cell

def set (g : Grid) (p : Vec) (cell : Cell) : Checked Grid :=
  if g.Contains p then g.setStrict p cell else .ok g

def setLayer (g : Grid) (p : Vec) (layer : Layer) (slot : Option TileId) : Checked Grid := do
  if g.Contains p then
    let i ← g.flatIndex p
    g.modifyAt i fun cell => cell.set layer slot
  else
    return g

def anyTileAt (g : Grid) (p : Vec) : Checked Bool := do
  let cell ← g.get p
  return !cell.isEmpty

def layerIds (g : Grid) (layer : Layer) : List (Option TileId) := g.cells.toList.map fun cell => cell.get layer

def remap (g : Grid) (f : TileId → Option TileId) : Grid :=
  ⟨g.size, g.cells.map fun cell => cell.mapSlots fun slot => slot.bind f, by rw [Array.size_map]; exact g.count⟩

end Grid

end Tilework
