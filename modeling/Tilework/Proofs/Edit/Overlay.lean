import Tilework.Proofs.Edit.Changes

namespace Tilework

namespace Cell

def stamp (cell : Cell) (slots : List (Layer × TileId)) : Cell :=
  slots.foldl (fun cell slot => cell.set slot.1 (some slot.2)) cell

theorem get_stamp_occupied (cell source : Cell) (layer : Layer) :
    (cell.stamp source.occupied).get layer = (source.get layer).or (cell.get layer) := by
  cases hf : source.front <;> cases hm : source.mid <;> cases hb : source.back <;> cases layer <;>
    simp [stamp, occupied, Layer.all, get, set, hf, hm, hb]

theorem stamp_occupied_twice (cell source : Cell) :
    (cell.stamp source.occupied).stamp source.occupied = cell.stamp source.occupied := by
  ext1 layer
  rw [get_stamp_occupied, get_stamp_occupied, ← Option.or_assoc, Option.or_self]

end Cell

namespace Brush

/-- What the brush holds at a place, which is nothing outside of it. -/
def slotAt (brush : Brush) (p : Vec) (layer : Layer) : Option TileId :=
  if brush.grid.Contains p then (brush.grid.cellAt p).get layer else none

theorem slotAt_eq_some_iff {brush : Brush} {p : Vec} {layer : Layer} {id : TileId} :
    brush.slotAt p layer = some id ↔ brush.grid.Contains p ∧ (brush.grid.cellAt p).get layer = some id := by
  unfold slotAt
  by_cases inside : brush.grid.Contains p
  · rw [if_pos inside]
    exact (and_iff_right inside).symm
  · rw [if_neg inside]
    exact iff_of_false (fun h => nomatch h) fun h => inside h.1

end Brush

namespace Grid

variable {g k : Grid} {p q offset : Vec} {brush : Brush}

section Writes

variable {α : Type} {items : List α} {write : Grid → α → Checked Grid} {x : α} {Q : Cell → Prop}

/-- Where every item writes a cell of its own, the cell of an item is in the end as that item left it. -/
theorem foldlM_cellAt (member : x ∈ items) (size : ∀ b a next, write b a = .ok next → next.size = b.size)
    (own : ∀ b next, b.size = g.size → b.cellAt q = g.cellAt q ∨ Q (b.cellAt q) → write b x = .ok next →
      Q (next.cellAt q))
    (others : ∀ b a next, b.size = g.size → a ≠ x → write b a = .ok next → next.cellAt q = b.cellAt q)
    (h : items.foldlM write g = .ok k) : Q (k.cellAt q) := by
  -- Until its own item has come the cell is as it was.
  apply foldlM_reaches (fun b => b.size = g.size ∧ (b.cellAt q = g.cellAt q ∨ Q (b.cellAt q)))
    (fun b => Q (b.cellAt q)) member ?_ ?_ ?_ ⟨rfl, .inl rfl⟩ h
  · rintro b a next ⟨same, sofar⟩ step
    refine ⟨(size b a next step).trans same, ?_⟩
    by_cases here : a = x
    · subst here
      exact .inr (own b next same sofar step)
    · rw [others b a next same here step]
      exact sofar
  · rintro b next ⟨same, sofar⟩ step
    exact own b next same sofar step
  · rintro b a next ⟨same, -⟩ already step
    by_cases here : a = x
    · subst here
      exact own b next same (.inr already) step
    · rw [others b a next same here step]
      exact already

end Writes

theorem stamp_cellAt {slots : List (Layer × TileId)} (inside : g.Contains p) (h : g.stamp p slots = .ok k) :
    k.cellAt p = (g.cellAt p).stamp slots := by
  induction slots generalizing g with
  | nil =>
    cases h
    rfl
  | cons slot rest ih =>
    obtain ⟨layer, id⟩ := slot
    obtain ⟨next, put, h⟩ := bind_eq_ok.mp h
    change g.setLayer p layer (some id) = .ok next at put
    rw [setLayer_of_contains inside] at put
    cases put
    have contains : (g.update p fun cell => cell.set layer (some id)).Contains p := inside
    rw [ih contains h, cellAt_update_self inside]
    rfl

theorem overlayCell_changedWithin (h : overlayCell brush offset g p = .ok k) :
    ChangedWithin ⟨p + offset, Vec.one⟩ g k :=
  stamp_changedWithin (Rect.holds_one.mpr rfl) (overlayCell_eq_ok h)

theorem overlay_cellAt (inside : brush.grid.Contains p) (target : g.Contains (p + offset))
    (h : g.overlay brush offset = .ok k) :
    k.cellAt (p + offset) = (g.cellAt (p + offset)).stamp (brush.grid.cellAt p).occupied := by
  rw [overlay_eq] at h
  apply foldlM_cellAt (Q := fun cell => cell = (g.cellAt (p + offset)).stamp (brush.grid.cellAt p).occupied)
    (mem_bounds_cells.mpr inside) ?_ ?_ ?_ h
  · intro b a next step
    exact (overlayCell_changedWithin step).1
  · intro b next size sofar step
    have written := stamp_cellAt ((contains_congr size).mpr target) (overlayCell_eq_ok step)
    rcases sofar with before | already
    · rw [written, before]
    · rw [written, already, Cell.stamp_occupied_twice]
  · intro b a next size ne step
    apply (overlayCell_changedWithin step).2 _ ((contains_congr size).mpr target)
    intro held
    exact ne (Vec.add_right_inj.mp (Rect.holds_one.mp held)).symm

theorem overlay_get (contains : g.Contains q) (h : g.overlay brush offset = .ok k) (layer : Layer) :
    (k.cellAt q).get layer = (brush.slotAt (q - offset) layer).or ((g.cellAt q).get layer) := by
  unfold Brush.slotAt
  by_cases within : brush.grid.Contains (q - offset)
  · have place := Vec.sub_add_cancel q offset
    rw [← place] at contains
    have written := overlay_cellAt within contains h
    rw [place] at written
    rw [if_pos within, written, Cell.get_stamp_occupied]
  · have outside : ¬(⟨offset, brush.grid.size⟩ : Rect).Holds q := by
      intro held
      apply within
      simp only [Rect.Holds] at held
      simp only [Contains, Vec.Within, Vec.sub_x, Vec.sub_y]
      omega
    rw [if_neg within, Option.none_or, (overlay_changedWithin h).2 q contains outside]

end Grid

end Tilework
