import Tilework.Proofs.Edit.Ownership
import Tilework.Proofs.Edit.Totality

namespace Tilework

namespace Catalog

def tileName? (c : Catalog) (id : TileId) : Option String := (c.info? id).map TileInfo.tileName

variable {c : Catalog} {id other : TileId}

theorem knows_iff_tileName? : c.Knows id ↔ ∃ name, c.tileName? id = some name := by
  unfold Knows tileName?
  cases c.info? id <;> simp

theorem Numbered.tileName?_of_occupant (numbered : c.Numbered) (same : c.occupant id = c.occupant other) :
    c.tileName? id = c.tileName? other := by
  unfold occupant at same
  unfold tileName?
  cases first : c.info? id with
  | none =>
    cases second : c.info? other with
    | none => rfl
    | some info =>
      rw [first, second] at same
      cases same
  | some info =>
    cases second : c.info? other with
    | none =>
      rw [first, second] at same
      cases same
    | some info' =>
      rw [first, second] at same
      injection same with index
      obtain ⟨tile, _, found, -, -, name, -⟩ := numbered.variant_of_info first
      obtain ⟨tile', _, found', -, -, name', -⟩ := numbered.variant_of_info second
      rw [index, found'] at found
      cases found
      rw [Option.map_some, Option.map_some, name, name']

theorem Numbered.bind_tileName?_of_occupant (numbered : c.Numbered) {slot kept : Option TileId}
    (same : slot.map c.occupant = kept.map c.occupant) : slot.bind c.tileName? = kept.bind c.tileName? := by
  cases slot with
  | none => rw [Option.map_eq_none_iff.mp same.symm]
  | some id =>
    obtain ⟨other, rfl, alike⟩ := Option.map_eq_some_iff.mp same.symm
    exact numbered.tileName?_of_occupant alike.symm

theorem Numbered.knows_of_resetSlot (numbered : c.Numbered) {slot : Option TileId} {chosen : TileId}
    (h : resetSlot c slot = .ok (some chosen)) : c.Knows chosen := by
  cases slot with
  | none => cases h
  | some id =>
    rw [resetSlot, resetId] at h
    split at h
    · cases h
    · obtain ⟨variant, default, h⟩ := bind_eq_ok.mp h
      cases h
      obtain ⟨tile, found, place⟩ := defaultVariant_eq_ok default
      exact ⟨_, numbered.info_of_variant found place⟩

theorem Numbered.tileName?_of_default (numbered : c.Numbered) {i : Nat} {tile : Tile} {variant : Variant}
    (found : c.tiles[i]? = some tile) (default : c.defaultVariant i = .ok variant) :
    c.tileName? variant.id = some tile.name := by
  obtain ⟨other, same, place⟩ := defaultVariant_eq_ok default
  rw [found] at same
  cases same
  rw [tileName?, numbered.info_of_variant found place, Option.map_some]

theorem Numbered.tileName?_of_reset (numbered : c.Numbered) {slot kept : Option TileId}
    (h : resetSlot c slot = .ok kept) : kept.bind c.tileName? = slot.bind c.tileName? := by
  cases slot with
  | none =>
    cases h
    rfl
  | some id =>
    rw [resetSlot, resetId] at h
    rw [Option.bind_some]
    cases known : c.info? id with
    | none =>
      rw [known] at h
      cases h
      rw [Option.bind_none, tileName?, known, Option.map_none]
    | some info =>
      rw [known] at h
      obtain ⟨variant, default, h⟩ := bind_eq_ok.mp h
      cases h
      obtain ⟨tile, _, found, -, -, name, -⟩ := numbered.variant_of_info known
      rw [Option.bind_some, numbered.tileName?_of_default found default, tileName?, known, Option.map_some, name]

end Catalog

section Resetting

variable {c : Catalog} {filter : Filter} {source cell : Cell} {layer : Layer}

def resetLayer (c : Catalog) (filter : Filter) (source kept : Cell) (layer : Layer) : Checked Cell := do
  if filter.includes layer then
    let slot ← resetSlot c (source.get layer)
    return kept.set layer slot
  else
    return kept

theorem resetCell_eq (c : Catalog) (filter : Filter) (source : Cell) :
    resetCell c filter source = Layer.all.foldlM (resetLayer c filter source) Cell.empty := rfl

theorem resetLayer_eq_ok {kept next : Cell} (h : resetLayer c filter source kept layer = .ok next) :
    (filter.includes layer = true ∧ ∃ slot, resetSlot c (source.get layer) = .ok slot ∧ next = kept.set layer slot) ∨
      (filter.includes layer = false ∧ next = kept) := by
  unfold resetLayer at h
  split at h
  · rename_i included
    obtain ⟨slot, reset, h⟩ := bind_eq_ok.mp h
    cases h
    exact .inl ⟨included, slot, reset, rfl⟩
  · rename_i excluded
    cases h
    exact .inr ⟨Bool.eq_false_iff.mpr excluded, rfl⟩

theorem resetCell_get (h : resetCell c filter source = .ok cell) (included : filter.includes layer = true) :
    resetSlot c (source.get layer) = .ok (cell.get layer) := by
  rw [resetCell_eq] at h
  have own : ∀ kept next, resetLayer c filter source kept layer = .ok next →
      resetSlot c (source.get layer) = .ok (next.get layer) := by
    intro kept next step
    rcases resetLayer_eq_ok step with ⟨-, slot, reset, rfl⟩ | ⟨excluded, -⟩
    · rw [Cell.get_set_self]
      exact reset
    · rw [included] at excluded
      cases excluded
  apply foldlM_reaches (fun _ => True) (fun kept => resetSlot c (source.get layer) = .ok (kept.get layer))
    (Layer.mem_all layer) (fun _ _ _ _ _ => trivial) ?_ ?_ trivial h
  · intro kept next _ step
    exact own kept next step
  · intro kept other next _ already step
    by_cases here : other = layer
    · subst here
      exact own kept next step
    · rcases resetLayer_eq_ok step with ⟨-, slot, -, rfl⟩ | ⟨-, rfl⟩
      · rw [Cell.get_set_of_ne kept slot (Ne.symm here)]
        exact already
      · exact already

theorem resetCell_get_excluded (h : resetCell c filter source = .ok cell) (excluded : filter.includes layer = false) :
    cell.get layer = none := by
  rw [resetCell_eq] at h
  apply foldlM_invariant (fun kept => kept.get layer = none) ?_ ?_ h
  · intro kept other next _ sofar step
    rcases resetLayer_eq_ok step with ⟨included, slot, -, rfl⟩ | ⟨-, rfl⟩
    · have apart : layer ≠ other := by
        rintro rfl
        rw [included] at excluded
        cases excluded
      rw [Cell.get_set_of_ne kept slot apart]
      exact sofar
    · exact sofar
  · cases layer <;> rfl

end Resetting

namespace Grid

variable {c : Catalog} {g k : Grid} {p q : Vec} {brush : Brush} {filter : Filter}

/-- Apart from their variants, the tiles after a paste are those of the brush and elsewhere those from before. -/
theorem paste_get {σ : Type} [DrawSource σ] {s t : σ} {offset : Vec} (numbered : c.Numbered) (contains : g.Contains q)
    (h : g.paste c brush offset s = .ok (k, t)) (layer : Layer) : ((k.cellAt q).get layer).map c.occupant =
      ((brush.slotAt (q - offset) layer).or ((g.cellAt q).get layer)).map c.occupant := by
  obtain ⟨written, stamped, retiled⟩ := paste_eq_ok h
  have inside := (contains_congr (overlay_changedWithin stamped).1).mpr contains
  rw [← (retileRegion_sameTiles numbered retiled).2 q inside layer, overlay_get contains stamped]

theorem set_changedWithin {cell : Cell} (h : g.set p cell = .ok k) : ChangedWithin ⟨p, Vec.one⟩ g k := by
  rcases set_eq_ok h with ⟨inside, rfl⟩ | ⟨-, rfl⟩
  · exact update_changedWithin inside (Rect.holds_one.mpr rfl) _
  · exact ChangedWithin.refl _ _

def grabCell (c : Catalog) (g : Grid) (filter : Filter) (corner : Vec) (grid : Grid) (p : Vec) : Checked Grid := do
  let source ← g.getStrict p
  let cell ← resetCell c filter source
  let q ← (p - corner).fit
  grid.set q cell

theorem grabCell_eq_ok {corner : Vec} {b next : Grid} (h : grabCell c g filter corner b p = .ok next) :
    ∃ cell, resetCell c filter (g.cellAt p) = .ok cell ∧ b.set (p - corner) cell = .ok next := by
  obtain ⟨source, read, h⟩ := bind_eq_ok.mp h
  obtain ⟨-, rfl⟩ := getStrict_eq_ok.mp read
  obtain ⟨cell, kept, h⟩ := bind_eq_ok.mp h
  obtain ⟨q, moved, h⟩ := bind_eq_ok.mp h
  obtain ⟨-, rfl⟩ := Vec.fit_eq_ok_iff.mp moved
  exact ⟨cell, kept, h⟩

theorem grabCell_size {corner : Vec} {b next : Grid} (h : grabCell c g filter corner b p = .ok next) :
    next.size = b.size := by
  obtain ⟨cell, -, written⟩ := grabCell_eq_ok h
  exact (set_changedWithin written).1

theorem grabCells_size {area : Rect} {blank : Grid}
    (h : area.cells.foldlM (grabCell c g filter area.pos) blank = .ok k) : k.size = blank.size := by
  apply foldlM_invariant (fun b => b.size = blank.size) ?_ rfl h
  intro b q next _ same step
  exact (grabCell_size step).trans same

theorem grabCells_cellAt {area : Rect} {blank : Grid} (size : blank.size = area.size) (inside : k.Contains p)
    (h : area.cells.foldlM (grabCell c g filter area.pos) blank = .ok k) :
    resetCell c filter (g.cellAt (area.pos + p)) = .ok (k.cellAt p) := by
  have extent := grabCells_size h
  have member : area.pos + p ∈ area.cells := by
    rw [Rect.mem_cells]
    simp only [Contains, Vec.Within, extent, size] at inside
    simp only [Rect.Holds, Vec.add_x, Vec.add_y]
    omega
  apply foldlM_cellAt (Q := fun cell => resetCell c filter (g.cellAt (area.pos + p)) = .ok cell) member ?_ ?_ ?_ h
  · intro b q next step
    exact grabCell_size step
  · intro b next same _ step
    obtain ⟨cell, kept, written⟩ := grabCell_eq_ok step
    have contains : b.Contains p := (contains_congr (extent.trans same.symm)).mp inside
    rw [Vec.sub_eq_iff.mpr rfl] at written
    rcases set_eq_ok written with ⟨-, rfl⟩ | ⟨outside, -⟩
    · rw [cellAt_update_self contains]
      exact kept
    · exact absurd contains outside
  · intro b q next same ne step
    obtain ⟨cell, -, written⟩ := grabCell_eq_ok step
    have contains : b.Contains p := (contains_congr (extent.trans same.symm)).mp inside
    apply (set_changedWithin written).2 p contains
    intro held
    exact ne (Vec.sub_eq_iff.mp (Rect.holds_one.mp held).symm)

/-- What is picked up starts at the least corner, or at the border of the map, and covers all that is common to both. -/
theorem grab_eq_ok {a b : Vec} (h : g.grab c a b filter = .ok (some brush)) :
    ∃ area : Rect, area.pos = (a.min b).max Vec.zero ∧ (∀ q, area.Holds q ↔ q.Between a b ∧ g.Contains q) ∧
      brush.grid.size = area.size ∧
      ∀ p, brush.grid.Contains p → resetCell c filter (g.cellAt (area.pos + p)) = .ok (brush.grid.cellAt p) := by
  obtain ⟨corners, spanned, h⟩ := bind_eq_ok.mp h
  obtain ⟨common, cut, h⟩ := bind_eq_ok.mp h
  cases common with
  | none => cases h
  | some area =>
    obtain ⟨blank, made, h⟩ := bind_eq_ok.mp h
    obtain ⟨grid, picked, h⟩ := bind_eq_ok.mp h
    cases h
    have size := blank_size made
    refine ⟨area, ?_, ?_, (grabCells_size picked).trans size, fun p inside => grabCells_cellAt size inside picked⟩
    · rw [Rect.intersect_pos cut, Rect.fromCorners_eq_ok spanned]
      rfl
    · intro q
      rw [← Rect.holds_fromCorners spanned, ← holds_bounds, ← Rect.mem_cellsOf_intersect cut]
      exact Rect.mem_cells.symm

def Grabs (g : Grid) (a b : Vec) (filter : Filter) (q : Vec) (layer : Layer) : Prop :=
  q.Between a b ∧ g.Contains q ∧ filter.includes layer = true

instance (g : Grid) (a b : Vec) (filter : Filter) (q : Vec) (layer : Layer) : Decidable (g.Grabs a b filter q layer) :=
  inferInstanceAs (Decidable (q.Between a b ∧ g.Contains q ∧ filter.includes layer = true))

/-- The brush holds what was taken, at default variants, and nothing else. -/
theorem grab_slotAt {a b : Vec} (h : g.grab c a b filter = .ok (some brush)) (p : Vec) (layer : Layer) :
    (if g.Grabs a b filter ((a.min b).max Vec.zero + p) layer then
      resetSlot c ((g.cellAt ((a.min b).max Vec.zero + p)).get layer)
    else .ok none) = .ok (brush.slotAt p layer) := by
  obtain ⟨area, corner, covers, size, resets⟩ := grab_eq_ok h
  have reach : area.Holds (area.pos + p) ↔ brush.grid.Contains p := by
    simp only [Contains, Vec.Within, size, Rect.Holds, Vec.add_x, Vec.add_y]
    omega
  have grabs : g.Grabs a b filter (area.pos + p) layer ↔ brush.grid.Contains p ∧ filter.includes layer = true := by
    rw [← reach, covers, Grabs, and_assoc]
  rw [← corner, Brush.slotAt]
  by_cases inside : brush.grid.Contains p
  · rw [if_pos inside]
    by_cases included : filter.includes layer = true
    · rw [if_pos (grabs.mpr ⟨inside, included⟩)]
      exact resetCell_get (resets p inside) included
    · rw [if_neg fun taken => included (grabs.mp taken).2,
        resetCell_get_excluded (resets p inside) (Bool.eq_false_iff.mpr included)]
  · rw [if_neg inside, if_neg fun taken => inside (grabs.mp taken).1]

end Grid

theorem Brush.ofTile_slotAt {c : Catalog} {i : Nat} {brush : Brush} (h : Brush.ofTile c i = .ok brush) :
    ∃ tile variant, c.tiles[i]? = some tile ∧ c.defaultVariant i = .ok variant ∧ ∀ p layer,
      brush.slotAt p layer = if p = Vec.zero ∧ layer = tile.layer then some variant.id else none := by
  obtain ⟨tile, found, h⟩ := bind_eq_ok.mp h
  obtain ⟨blank, made, h⟩ := bind_eq_ok.mp h
  obtain ⟨variant, default, h⟩ := bind_eq_ok.mp h
  obtain ⟨grid, written, h⟩ := bind_eq_ok.mp h
  cases h
  have only : ∀ p, blank.Contains p ↔ p = Vec.zero := by
    intro p
    simp only [Grid.Contains, Grid.blank_size made, Vec.Within, Vec.one, Vec.ext_iff, Vec.zero]
    omega
  have origin := (only Vec.zero).mpr rfl
  have empty : (blank.cellAt Vec.zero).Upholds fun _ _ => False := Grid.blank_upholds made Vec.zero origin
  rw [Grid.setLayer_of_contains origin] at written
  cases written
  refine ⟨tile, variant, entryAt_eq_ok_iff.mp found, default, ?_⟩
  intro p layer
  show (if blank.Contains p then ((blank.update Vec.zero _).cellAt p).get layer else none) = _
  by_cases here : p = Vec.zero
  · subst here
    rw [if_pos origin, Grid.cellAt_update_self origin]
    by_cases same : layer = tile.layer
    · rw [if_pos ⟨rfl, same⟩, same, Cell.get_set_self]
    · rw [if_neg fun both => same both.2, Cell.get_set_of_ne _ _ same]
      exact Option.eq_none_iff_forall_ne_some.mpr fun id held => empty layer id held
  · rw [if_neg fun inside => here ((only p).mp inside), if_neg fun both => here both.1]

end Tilework
