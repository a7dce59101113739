import Tilework.Grid.Basic

namespace Tilework.Grid

/-- The part of the old grid that stays inside a grid of size `size` after a move by `offset`. -/
def kept (g : Grid) (size offset : Vec) : Checked Rect := do
  let back ← (-offset).fit
  let first := Vec.zero.max back
  let room ← (size - offset).fit
  let last := room.min g.size
  let extent ← (last - first).fit
  return ⟨first, extent⟩

/-- The resized grid, or `none` when nothing would change or the size is not usable. -/
def resize (g : Grid) (size offset : Vec) : Checked (Option Grid) := do
  if size = g.size ∧ offset = Vec.zero then
    return none
  match blank? size with
  | none => return none
  | some fresh =>
    let kept ← g.kept size offset
    let resized ← kept.cells.foldlM (fun next p => do
      let q ← (p + offset).fit
      let cell ← g.getStrict p
      next.setStrict q cell) fresh
    return some resized

end Tilework.Grid
