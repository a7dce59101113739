import Tilework.Proofs.Edit.Readback

namespace Tilework

/-- A brush with the catalog that it was picked up under and the names of the tiles that it was picked up from. -/
structure Picked where
  brush : Brush
  catalog : Catalog
  names : Vec → Layer → Option String

namespace Picked

def ofTile (c : Catalog) (i : Nat) : Checked Picked := do
  let brush ← Brush.ofTile c i
  let tile ← c.tileAt i
  return ⟨brush, c, fun p layer => if p = Vec.zero ∧ layer = tile.layer then some tile.name else none⟩

def ofArea (c : Catalog) (g : Grid) (a b : Vec) (filter : Filter) : Checked (Option Picked) := do
  let found ← g.grab c a b filter
  return found.map fun brush => ⟨brush, c, fun p layer =>
    let q := (a.min b).max Vec.zero + p
    if g.Grabs a b filter q layer then ((g.cellAt q).get layer).bind c.tileName? else none⟩

/-- Under the catalog of the pick-up the brush shows the names. -/
structure Sound (x : Picked) : Prop where
  known : ∀ p layer id, x.brush.slotAt p layer = some id → x.catalog.Knows id
  names : ∀ p layer, (x.brush.slotAt p layer).bind x.catalog.tileName? = x.names p layer

variable {c : Catalog} {x : Picked}

theorem Sound.name (sound : x.Sound) {p : Vec} {layer : Layer} {id : TileId} (held : x.brush.slotAt p layer = some id) :
    ∃ name, x.names p layer = some name ∧ x.catalog.tileName? id = some name := by
  obtain ⟨name, called⟩ := Catalog.knows_iff_tileName?.mp (sound.known p layer id held)
  have recorded := sound.names p layer
  rw [held, Option.bind_some, called] at recorded
  exact ⟨name, recorded.symm, called⟩

theorem ofTile_sound (numbered : c.Numbered) {i : Nat} (h : ofTile c i = .ok x) : x.Sound := by
  obtain ⟨brush, made, h⟩ := bind_eq_ok.mp h
  obtain ⟨tile, found, h⟩ := bind_eq_ok.mp h
  cases h
  obtain ⟨other, variant, place, default, slots⟩ := Brush.ofTile_slotAt made
  rw [entryAt_eq_ok_iff.mp found] at place
  cases place
  have called := numbered.tileName?_of_default (entryAt_eq_ok_iff.mp found) default
  constructor
  · intro p layer id held
    rw [slots] at held
    split at held
    · cases held
      exact Catalog.knows_iff_tileName?.mpr ⟨tile.name, called⟩
    · cases held
  · intro p layer
    show (brush.slotAt p layer).bind c.tileName? = if p = Vec.zero ∧ layer = tile.layer then some tile.name else none
    rw [slots]
    by_cases own : p = Vec.zero ∧ layer = tile.layer
    · rw [if_pos own, if_pos own, Option.bind_some, called]
    · rw [if_neg own, if_neg own, Option.bind_none]

theorem ofArea_sound (numbered : c.Numbered) {g : Grid} {a b : Vec} {filter : Filter}
    (h : ofArea c g a b filter = .ok (some x)) : x.Sound := by
  obtain ⟨found, grabbed, h⟩ := bind_eq_ok.mp h
  cases found with
  | none => cases h
  | some brush =>
    cases h
    have slots := Grid.grab_slotAt grabbed
    constructor
    · intro p layer id held
      have reset := slots p layer
      rw [held] at reset
      split at reset
      · exact numbered.knows_of_resetSlot reset
      · cases reset
    · intro p layer
      have reset := slots p layer
      show (brush.slotAt p layer).bind c.tileName? = if g.Grabs a b filter ((a.min b).max Vec.zero + p) layer then
        ((g.cellAt ((a.min b).max Vec.zero + p)).get layer).bind c.tileName? else none
      by_cases taken : g.Grabs a b filter ((a.min b).max Vec.zero + p) layer
      · rw [if_pos taken] at reset ⊢
        exact numbered.tileName?_of_reset reset
      · rw [if_neg taken] at reset ⊢
        rw [← Except.ok.inj reset, Option.bind_none]

end Picked

end Tilework
