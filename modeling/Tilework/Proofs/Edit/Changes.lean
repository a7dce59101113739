import Tilework.Edit
import Tilework.Proofs.Grid.Access
import Tilework.Proofs.Plane.Region

namespace Tilework

def Grid.ChangedWithin (area : Rect) (g h : Grid) : Prop :=
  h.size = g.size ∧ ∀ p, g.Contains p → ¬area.Holds p → h.cellAt p = g.cellAt p

namespace Grid

variable {area : Rect} {g h k : Grid} {p offset : Vec} {brush : Brush}

theorem ChangedWithin.refl (area : Rect) (g : Grid) : ChangedWithin area g g := ⟨rfl, fun _ _ _ => rfl⟩

theorem ChangedWithin.trans (first : ChangedWithin area g h) (second : ChangedWithin area h k) :
    ChangedWithin area g k := by
  refine ⟨second.1.trans first.1, ?_⟩
  intro p inside outside
  rw [second.2 p ((contains_congr first.1).mpr inside) outside, first.2 p inside outside]

theorem ChangedWithin.foldlM {α : Type} {items : List α} {write : Grid → α → Checked Grid}
    (each : ∀ g item h, item ∈ items → write g item = .ok h → ChangedWithin area g h)
    (done : items.foldlM write g = .ok h) : ChangedWithin area g h := by
  refine foldlM_invariant (fun k => ChangedWithin area g k) ?_ (ChangedWithin.refl area g) done
  intro k item next member before written
  exact before.trans (each k item next member written)

theorem setLayer_eq_ok {layer : Layer} {slot : Option TileId} (h : g.setLayer p layer slot = .ok k) :
    (g.Contains p ∧ k = g.update p fun cell => cell.set layer slot) ∨ (¬g.Contains p ∧ k = g) := by
  by_cases inside : g.Contains p
  · rw [setLayer_of_contains inside] at h
    cases h
    exact .inl ⟨inside, rfl⟩
  · rw [setLayer_of_not_contains inside] at h
    cases h
    exact .inr ⟨inside, rfl⟩

theorem update_changedWithin (inside : g.Contains p) (held : area.Holds p) (f : Cell → Cell) :
    ChangedWithin area g (g.update p f) := by
  refine ⟨rfl, ?_⟩
  intro q contains outside
  apply cellAt_update_of_ne inside contains
  rintro rfl
  exact outside held

theorem setLayer_changedWithin {layer : Layer} {slot : Option TileId} (held : area.Holds p)
    (h : g.setLayer p layer slot = .ok k) : ChangedWithin area g k := by
  rcases setLayer_eq_ok h with ⟨inside, rfl⟩ | ⟨-, rfl⟩
  · exact update_changedWithin inside held _
  · exact ChangedWithin.refl area _

theorem stamp_changedWithin {slots : List (Layer × TileId)} (held : area.Holds p)
    (h : g.stamp p slots = .ok k) : ChangedWithin area g k := by
  refine ChangedWithin.foldlM ?_ h
  intro g entry next _ written
  exact setLayer_changedWithin held written

theorem clear_changedWithin {filter : Filter} (held : area.Holds p) (h : g.clear p filter = .ok k) :
    ChangedWithin area g k := by
  refine ChangedWithin.foldlM ?_ h
  intro g layer next _ written
  exact setLayer_changedWithin held written

def overlayCell (brush : Brush) (offset : Vec) (g : Grid) (p : Vec) : Checked Grid := do
  let cell ← brush.grid.getStrict p
  match cell.occupied with
  | [] => return g
  | slots =>
    let q ← (p + offset).fit
    g.stamp q slots

theorem overlay_eq (g : Grid) (brush : Brush) (offset : Vec) :
    g.overlay brush offset = brush.grid.bounds.cells.foldlM (overlayCell brush offset) g := rfl

theorem overlayCell_eq_ok (h : overlayCell brush offset g p = .ok k) :
    g.stamp (p + offset) (brush.grid.cellAt p).occupied = .ok k := by
  obtain ⟨cell, read, h⟩ := bind_eq_ok.mp h
  obtain ⟨-, rfl⟩ := getStrict_eq_ok.mp read
  split at h
  · rename_i none
    rw [none]
    exact h
  · obtain ⟨q, moved, h⟩ := bind_eq_ok.mp h
    obtain ⟨-, rfl⟩ := Vec.fit_eq_ok_iff.mp moved
    exact h

theorem overlay_changedWithin (h : g.overlay brush offset = .ok k) :
    ChangedWithin ⟨offset, brush.grid.size⟩ g k := by
  refine ChangedWithin.foldlM ?_ h
  intro g p next member written
  refine stamp_changedWithin ?_ (overlayCell_eq_ok written)
  have held := Rect.mem_cells.mp member
  simp only [Rect.Holds, bounds, Vec.zero, Vec.add_x, Vec.add_y] at held ⊢
  omega

theorem erasure_changedWithin {filter : Filter} (h : area.cells.foldlM (fun g p => g.clear p filter) g = .ok k) :
    ChangedWithin area g k := by
  refine ChangedWithin.foldlM ?_ h
  intro g p next member written
  exact clear_changedWithin (Rect.mem_cells.mp member) written

variable {c : Catalog} {σ : Type} [DrawSource σ] {s t : σ}

theorem place_eq_ok {i : Nat} (h : g.place c p i s = .ok (k, t)) :
    (k = g ∧ t = s) ∨ (g.Contains p ∧ ∃ tile variant, c.tiles[i]? = some tile ∧ c.defaultVariant i = .ok variant ∧
      retileRegion c (g.update p fun cell => cell.set tile.layer (some variant.id)) ⟨p, Vec.one⟩ s = .ok (k, t)) := by
  unfold place at h
  by_cases inside : g.Contains p
  · rw [if_pos inside] at h
    obtain ⟨tile, _, found, h⟩ := Drawing.bind_eq_ok.mp h
    obtain ⟨place, rfl⟩ := Drawing.lift_eq_ok.mp found
    obtain ⟨variant, _, read, h⟩ := Drawing.bind_eq_ok.mp h
    obtain ⟨chosen, rfl⟩ := Drawing.lift_eq_ok.mp read
    rw [setLayer_of_contains inside, Drawing.lift_ok_bind] at h
    exact .inr ⟨inside, tile, variant, entryAt_eq_ok_iff.mp place, chosen, h⟩
  · rw [if_neg inside] at h
    obtain ⟨rfl, rfl⟩ := Drawing.pure_eq_ok.mp h
    exact .inl ⟨rfl, rfl⟩

theorem paste_eq_ok {brush : Brush} {offset : Vec} (h : g.paste c brush offset s = .ok (k, t)) :
    ∃ written, g.overlay brush offset = .ok written ∧
      retileRegion c written ⟨offset, brush.grid.size⟩ s = .ok (k, t) := by
  obtain ⟨written, _, stamped, h⟩ := Drawing.bind_eq_ok.mp h
  obtain ⟨overlaid, rfl⟩ := Drawing.lift_eq_ok.mp stamped
  exact ⟨written, overlaid, h⟩

theorem erase_eq_ok {a b : Vec} {filter : Filter} (h : g.erase c a b filter s = .ok (k, t)) :
    (k = g ∧ t = s) ∨ ∃ area written, area.cells.foldlM (fun g p => g.clear p filter) g = .ok written ∧
      retileRegion c written area s = .ok (k, t) := by
  obtain ⟨corners, _, spanned, h⟩ := Drawing.bind_eq_ok.mp h
  obtain ⟨-, rfl⟩ := Drawing.lift_eq_ok.mp spanned
  obtain ⟨common, _, cut, h⟩ := Drawing.bind_eq_ok.mp h
  obtain ⟨-, rfl⟩ := Drawing.lift_eq_ok.mp cut
  cases common with
  | none =>
    obtain ⟨rfl, rfl⟩ := Drawing.pure_eq_ok.mp h
    exact .inl ⟨rfl, rfl⟩
  | some area =>
    obtain ⟨written, _, cleared, h⟩ := Drawing.bind_eq_ok.mp h
    rw [Drawing.foldlM_lift] at cleared
    obtain ⟨erased, rfl⟩ := Drawing.lift_eq_ok.mp cleared
    exact .inr ⟨area, written, erased, h⟩

end Grid

section Edits

/-- A change of a map that is followed by a run of the autotiler for what it touched. -/
inductive Edit where
  | place (p : Vec) (tile : Nat)
  | paste (brush : Brush) (offset : Vec)
  | erase (a b : Vec) (filter : Filter)
  | retileRegion (region : Rect)

variable {σ : Type} [DrawSource σ]

def Edit.run (c : Catalog) (g : Grid) : Edit → Drawing σ Grid
  | place p tile => g.place c p tile
  | paste brush offset => g.paste c brush offset
  | erase a b filter => g.erase c a b filter
  | retileRegion region => Tilework.retileRegion c g region

def runEdits (c : Catalog) (g : Grid) (edits : List Edit) : Drawing σ Grid := edits.foldlM (Edit.run c) g

/-- An edit either does nothing or writes within a rectangle and then runs the autotiler for it. -/
theorem Edit.run_eq_ok {c : Catalog} {g k : Grid} {e : Edit} {s t : σ} (h : e.run c g s = .ok (k, t)) :
    (k = g ∧ t = s) ∨
      ∃ area written, g.ChangedWithin area written ∧ Tilework.retileRegion c written area s = .ok (k, t) := by
  cases e with
  | place p i =>
    rcases Grid.place_eq_ok h with nothing | ⟨inside, tile, variant, -, -, retiled⟩
    · exact .inl nothing
    · have put := Grid.setLayer_of_contains inside tile.layer (some variant.id)
      exact .inr ⟨_, _, Grid.setLayer_changedWithin (Rect.holds_one.mpr rfl) put, retiled⟩
  | paste brush offset =>
    obtain ⟨written, stamped, retiled⟩ := Grid.paste_eq_ok h
    exact .inr ⟨_, written, Grid.overlay_changedWithin stamped, retiled⟩
  | erase a b filter =>
    rcases Grid.erase_eq_ok h with nothing | ⟨area, written, cleared, retiled⟩
    · exact .inl nothing
    · exact .inr ⟨area, written, Grid.erasure_changedWithin cleared, retiled⟩
  | retileRegion region => exact .inr ⟨region, g, Grid.ChangedWithin.refl region g, h⟩

end Edits

end Tilework
