import Tilework.Proofs.Autotile.Frame
import Tilework.Proofs.Edit.Ownership
import Tilework.Proofs.Edit.Totality

namespace Tilework

def Grid.occupantAt (c : Catalog) (g : Grid) (p : Vec) (layer : Layer) : Option Occupant :=
  ((g.cellAt p).get layer).map c.occupant

/-- What an edit asks of a slot, if anything: to hold this tile, or to be empty. -/
def Edit.asks (c : Catalog) : Edit → Vec → Layer → Option (Option Occupant)
  | place p i, q, layer =>
    if q = p ∧ (c.tiles[i]?).map Tile.layer = some layer then some (some (.tile i)) else none
  | paste brush offset, q, layer => (brush.slotAt (q - offset) layer).map fun id => some (c.occupant id)
  | erase a b filter, q, layer => if q.Between a b ∧ filter.includes layer = true then some none else none
  | retileRegion _, _, _ => none

/-- Every slot holds what was asked of it, or what it held before where nothing was. -/
structure Grid.Repainted (c : Catalog) (asked : Vec → Layer → Option (Option Occupant)) (g k : Grid) : Prop where
  size : k.size = g.size
  slots : ∀ q layer, g.Contains q → k.occupantAt c q layer = (asked q layer).getD (g.occupantAt c q layer)

namespace Grid

variable {c : Catalog} {g h k : Grid} {p q : Vec} {layer : Layer}

namespace Repainted

variable {asked later : Vec → Layer → Option (Option Occupant)}

theorem of_sameTiles (same : g.SameTiles c k) : g.Repainted c (fun _ _ => none) k :=
  ⟨same.1, fun q layer inside => (same.2 q inside layer).symm⟩

theorem trans (first : g.Repainted c asked h) (second : h.Repainted c later k) :
    g.Repainted c (fun q layer => (later q layer).or (asked q layer)) k := by
  refine ⟨second.size.trans first.size, ?_⟩
  intro q layer inside
  rw [second.slots q layer ((contains_congr first.size).mpr inside), first.slots q layer inside]
  cases later q layer <;> rfl

theorem retiled (written : g.Repainted c asked h) (same : h.SameTiles c k) : g.Repainted c asked k :=
  written.trans (of_sameTiles same)

end Repainted

section Emptying

variable {α : Type} {items : List α} {write : Grid → α → Checked Grid}

theorem foldlM_empties (layer : Layer) (hits : α → Prop) [DecidablePred hits] (inside : g.Contains q)
    (each : ∀ b a next, b.Contains q → write b a = .ok next → next.size = b.size ∧
      (next.cellAt q).get layer = if hits a then none else (b.cellAt q).get layer)
    (h : items.foldlM write g = .ok k) :
    (k.cellAt q).get layer = if ∃ a ∈ items, hits a then none else (g.cellAt q).get layer := by
  induction items generalizing g with
  | nil =>
    cases h
    simp
  | cons a rest ih =>
    obtain ⟨next, step, h⟩ := bind_eq_ok.mp h
    obtain ⟨size, slot⟩ := each g a next inside step
    rw [ih ((contains_congr size).mpr inside) h, slot]
    by_cases hit : hits a
    · simp [hit]
    · simp [hit]

end Emptying

theorem clear_get {filter : Filter} (inside : g.Contains q) (h : g.clear p filter = .ok k) :
    (k.cellAt q).get layer = if q = p ∧ filter.includes layer = true then none else (g.cellAt q).get layer := by
  have emptied := foldlM_empties layer (fun other => q = p ∧ layer = other) inside ?_ h
  · rw [emptied]
    simp [Layer.mem_all, and_comm]
  · intro b other next contains written
    rcases setLayer_eq_ok written with ⟨held, rfl⟩ | ⟨outside, rfl⟩
    · refine ⟨rfl, ?_⟩
      by_cases here : q = p
      · subst here
        rw [cellAt_update_self held]
        by_cases same : layer = other
        · rw [if_pos ⟨rfl, same⟩, same, Cell.get_set_self]
        · rw [if_neg fun both => same both.2, Cell.get_set_of_ne _ none same]
      · rw [if_neg fun both => here both.1, cellAt_update_of_ne held contains _ here]
    · refine ⟨rfl, (if_neg ?_).symm⟩
      rintro ⟨rfl, -⟩
      exact outside contains

theorem erasure_get {positions : List Vec} {filter : Filter} (inside : g.Contains q)
    (h : positions.foldlM (fun g p => g.clear p filter) g = .ok k) : (k.cellAt q).get layer =
      if q ∈ positions ∧ filter.includes layer = true then none else (g.cellAt q).get layer := by
  have emptied := foldlM_empties layer (fun p => q = p ∧ filter.includes layer = true) inside ?_ h
  · rw [emptied]
    simp
  · intro b p next contains written
    have held : (⟨p, Vec.one⟩ : Rect).Holds p := Rect.holds_one.mpr rfl
    exact ⟨(clear_changedWithin held written).1, clear_get contains written⟩

/-- The brush may reach so far that a cell of it has no position. -/
theorem overlay_ends (g : Grid) (brush : Brush) (offset : Vec) :
    Ends (· = .overflow) (g.overlay brush offset) (g.Repainted c ((Edit.paste brush offset).asks c)) := by
  have ends := g.overlay_size_ends fun p (_ : brush.grid.Contains p) => Vec.fit_ends (p + offset)
  refine ends.strengthen ?_
  intro k stamped
  refine ⟨(overlay_changedWithin stamped).1, ?_⟩
  intro q layer inside
  rw [occupantAt, overlay_get inside stamped, Edit.asks]
  cases brush.slotAt (q - offset) layer <;> rfl

theorem erasure_yields (g : Grid) {positions : List Vec} {a b : Vec} (filter : Filter)
    (covered : ∀ p, p ∈ positions ↔ p.Between a b ∧ g.Contains p) :
    Yields (positions.foldlM (fun g p => g.clear p filter) g) (g.Repainted c ((Edit.erase a b filter).asks c)) := by
  obtain ⟨k, erased, size⟩ : Yields (positions.foldlM (fun g p => g.clear p filter) g) fun k => k.size = g.size :=
    foldlM_size_yields fun h p _ => h.clear_yields p filter
  refine ⟨k, erased, size, ?_⟩
  intro q layer inside
  have hit : q ∈ positions ↔ q.Between a b := (covered q).trans (and_iff_left inside)
  rw [occupantAt, erasure_get inside erased, Edit.asks]
  simp only [hit]
  split <;> rfl

theorem update_repainted {i : Nat} {tile : Tile} {id : TileId} (inside : g.Contains p) (found : c.tiles[i]? = some tile)
    (own : c.occupant id = .tile i) :
    g.Repainted c ((Edit.place p i).asks c) (g.update p fun cell => cell.set tile.layer (some id)) := by
  refine ⟨rfl, ?_⟩
  intro q layer contains
  rw [occupantAt, Edit.asks, found]
  simp only [Option.map_some, Option.some_inj]
  by_cases here : q = p
  · subst here
    rw [cellAt_update_self inside]
    by_cases same : tile.layer = layer
    · rw [if_pos ⟨rfl, same⟩, ← same, Cell.get_set_self, Option.map_some, own]
      rfl
    · rw [if_neg fun both => same both.2, Cell.get_set_of_ne _ _ (Ne.symm same)]
      rfl
  · rw [if_neg fun both => here both.1, cellAt_update_of_ne inside contains _ here]
    rfl

end Grid

section Edits

variable {c : Catalog} {σ : Type} [DrawSource σ]

theorem retileRegion_ends (intact : c.Intact) (numbered : c.Numbered) (g : Grid) (region : Rect) :
    (retileRegion c g region : Drawing σ Grid).Ends (· = .overflow) (g.SameTiles c) := by
  rw [retileRegion_eq]
  refine .lift_bind (visited_ends c g region) fun positions _ => ?_
  exact (retileCells_ends intact numbered g positions).mono fun k revaried => revaried.sameTiles

theorem Grid.paste_repaints (intact : c.Intact) (numbered : c.Numbered) (g : Grid) (brush : Brush) (offset : Vec) :
    (g.paste c brush offset : Drawing σ Grid).Ends (· = .overflow)
      (g.Repainted c ((Edit.paste brush offset).asks c)) := by
  refine .lift_bind (g.overlay_ends (c := c) brush offset) fun written painted => ?_
  exact (retileRegion_ends intact numbered written _).mono fun k => painted.retiled

theorem Grid.erase_repaints (intact : c.Intact) (numbered : c.Numbered) (g : Grid) (a b : Vec) (filter : Filter) :
    (g.erase c a b filter : Drawing σ Grid).Ends (· = .overflow)
      (g.Repainted c ((Edit.erase a b filter).asks c)) := by
  have spans : Ends (· = .overflow) (Rect.fromCorners a b) fun _ => True :=
    (Vec.fit_ends _).bind fun _ _ => (Vec.fit_ends _).bind fun _ _ => .ok trivial
  refine .lift_bind (spans.strengthen fun corners spanned => spanned) fun corners spanned => ?_
  refine .lift_bind (corners.intersect_ends g.bounds) fun common cut => ?_
  have covered : ∀ p, p ∈ Rect.cellsOf common ↔ p.Between a b ∧ g.Contains p := by
    intro p
    rw [Rect.mem_cellsOf_intersect cut, Rect.holds_fromCorners spanned, Grid.holds_bounds]
  cases common with
  | none =>
    -- Without common cells the fold is over none, and so it is the grid itself that meets the condition.
    obtain ⟨k, done, painted⟩ := g.erasure_yields (c := c) filter covered
    cases done
    exact .pure painted
  | some area =>
    simp only [Drawing.foldlM_lift]
    refine .lift_bind (.inr (g.erasure_yields (c := c) filter covered)) fun written painted => ?_
    exact (retileRegion_ends intact numbered written _).mono fun k => painted.retiled

theorem Grid.place_repaints (intact : c.Intact) (numbered : c.Numbered) (g : Grid) (p : Vec) {i : Nat}
    (listed : i < c.tiles.size) :
    (g.place c p i : Drawing σ Grid).Ends (· = .overflow) (g.Repainted c ((Edit.place p i).asks c)) := by
  unfold Grid.place
  by_cases inside : g.Contains p
  · rw [if_pos inside]
    obtain ⟨tile, tabled, found⟩ := entryAt_yields listed
    obtain ⟨variant, chosen, place⟩ := entryAt_yields (intact.default found)
    have default : c.defaultVariant i = .ok variant := bind_eq_ok.mpr ⟨tile, tabled, chosen⟩
    have own := Catalog.occupant_of_info (numbered.info_of_variant found place)
    rw [Catalog.tileAt, tabled, Drawing.lift_ok_bind, default, Drawing.lift_ok_bind,
      Grid.setLayer_of_contains inside, Drawing.lift_ok_bind]
    have painted := Grid.update_repainted inside found own
    exact (retileRegion_ends intact numbered _ _).mono fun k => painted.retiled
  · rw [if_neg inside]
    refine .pure ⟨rfl, ?_⟩
    intro q layer contains
    rw [Edit.asks, if_neg]
    · rfl
    · rintro ⟨rfl, -⟩
      exact inside contains

end Edits

section Slots

variable {c : Catalog} {g k : Grid} {asked : Vec → Layer → Option (Option Occupant)} {q : Vec} {layer : Layer}

theorem Grid.Repainted.slotsAlike (painted : g.Repainted c asked k) (inside : g.Contains q) {wanted : Option TileId}
    (same : (asked q layer).getD (g.occupantAt c q layer) = wanted.map c.occupant) :
    SlotsAlike c wanted ((k.cellAt q).get layer) := by
  rw [slotsAlike_iff, ← same]
  exact (painted.slots q layer inside).symm

theorem Catalog.Numbered.variant_of_occupant (numbered : c.Numbered) {i : Nat} {tile : Tile} {id : TileId}
    (found : c.tiles[i]? = some tile) (own : c.occupant id = .tile i) : ∃ v ∈ tile.variants, v.id = id := by
  unfold occupant at own
  split at own
  · rename_i info known
    cases own
    obtain ⟨other, v, place, entry, same, -⟩ := numbered.variant_of_info known
    cases found.symm.trans place
    exact ⟨v, Array.mem_of_getElem? entry, same⟩
  · cases own

end Slots

/-- Whatever the autotiler makes of the variants, each slot ends up with the tile that was asked of it. What a slot of a
brush holds comes before what the map held there, whether the catalog knows the id or not. -/
theorem edits_exact {config : Config} {c : Catalog} (compiled : config.compile = .ok c)
    (few : c.infos.size < 0x100000000) (g : Grid) {σ : Type} [DrawSource σ] :
    (∀ brush offset, (g.paste c brush offset : Drawing σ Grid).Ends (· = .overflow) fun k => k.size = g.size ∧
      ∀ q layer, g.Contains q →
        SlotsAlike c ((brush.slotAt (q - offset) layer).or ((g.cellAt q).get layer)) ((k.cellAt q).get layer)) ∧
    (∀ a b filter, (g.erase c a b filter : Drawing σ Grid).Ends (· = .overflow) fun k => k.size = g.size ∧
      ∀ q layer, g.Contains q →
        SlotsAlike c (if q.Between a b ∧ filter.includes layer = true then none else (g.cellAt q).get layer)
          ((k.cellAt q).get layer)) ∧
    (∀ p i tile, c.tiles[i]? = some tile →
      (g.place c p i : Drawing σ Grid).Ends (· = .overflow) fun k => k.size = g.size ∧
        ∀ q layer, g.Contains q →
          if q = p ∧ layer = tile.layer then ∃ v ∈ tile.variants, (k.cellAt q).get layer = some v.id
          else SlotsAlike c ((g.cellAt q).get layer) ((k.cellAt q).get layer)) := by
  obtain ⟨stages⟩ := compile_eq_ok compiled
  have numbered := stages.numbered few
  refine ⟨?paste, ?erase, ?place⟩
  case paste =>
    intro brush offset
    refine (g.paste_repaints stages.intact numbered brush offset).mono fun k painted => ⟨painted.size, ?_⟩
    intro q layer inside
    apply painted.slotsAlike inside
    rw [Edit.asks, Grid.occupantAt]
    cases brush.slotAt (q - offset) layer <;> rfl
  case erase =>
    intro a b filter
    refine (g.erase_repaints stages.intact numbered a b filter).mono fun k painted => ⟨painted.size, ?_⟩
    intro q layer inside
    apply painted.slotsAlike inside
    rw [Edit.asks, Grid.occupantAt]
    split <;> rfl
  case place =>
    intro p i tile found
    have listed := (Array.getElem?_eq_some_iff.mp found).1
    refine (g.place_repaints stages.intact numbered p listed).mono fun k painted => ⟨painted.size, ?_⟩
    intro q layer inside
    by_cases asked : q = p ∧ layer = tile.layer
    · rw [if_pos asked]
      have own := painted.slots q layer inside
      rw [Edit.asks, if_pos ⟨asked.1, by rw [found, asked.2]; rfl⟩] at own
      obtain ⟨id, held, own⟩ := Option.map_eq_some_iff.mp own
      obtain ⟨v, member, rfl⟩ := numbered.variant_of_occupant found own
      exact ⟨v, member, held⟩
    · rw [if_neg asked]
      apply painted.slotsAlike inside
      rw [Edit.asks, if_neg]
      · rfl
      · rintro ⟨here, same⟩
        rw [found] at same
        exact asked ⟨here, (Option.some.inj same).symm⟩

/-- The brush sticks out on the left and brings an unknown id, the corners are the wrong way round and reach beyond the
map, and below the second fence a third id is left alone. All of it changes the variants of other fences. -/
theorem edits_exact_fenceGrid :
    fenceConfig.compile = .ok fenceCatalog ∧ fenceCatalog.infos.size < 0x100000000 ∧
    (∃ k t, fenceGrid.paste fenceCatalog ⟨fenceGrid⟩ ⟨-1, -1⟩ (Scripted.mk #[⟨0x3F400000⟩] 0) = .ok (k, t) ∧
      k.cellAt ⟨0, 0⟩ = { mid := some ⟨0⟩, back := some ⟨7⟩ } ∧ k.size = fenceGrid.size ∧
      ∀ q layer, fenceGrid.Contains q → SlotsAlike fenceCatalog
        (((Brush.mk fenceGrid).slotAt (q - ⟨-1, -1⟩) layer).or ((fenceGrid.cellAt q).get layer))
        ((k.cellAt q).get layer)) ∧
    (∃ k t, fenceGrid.erase fenceCatalog ⟨5, 3⟩ ⟨2, -2⟩ (.only .mid) (Scripted.mk #[⟨0x3F400000⟩] 0) = .ok (k, t) ∧
      k.cellAt ⟨2, 0⟩ = {} ∧ k.size = fenceGrid.size ∧
      ∀ q layer, fenceGrid.Contains q → SlotsAlike fenceCatalog
        (if q.Between ⟨5, 3⟩ ⟨2, -2⟩ ∧ (Filter.only .mid).includes layer = true then none
          else (fenceGrid.cellAt q).get layer)
        ((k.cellAt q).get layer)) ∧
    ∃ tile k t, fenceCatalog.tiles[0]? = some tile ∧
      fenceGrid.place fenceCatalog ⟨1, 1⟩ 0 (Scripted.mk #[⟨0x3F400000⟩] 0) = .ok (k, t) ∧
      k.cellAt ⟨1, 1⟩ = { mid := some ⟨1⟩, back := some ⟨7⟩ } ∧ k.size = fenceGrid.size ∧
      ∀ q layer, fenceGrid.Contains q →
        if q = ⟨1, 1⟩ ∧ layer = tile.layer then ∃ v ∈ tile.variants, (k.cellAt q).get layer = some v.id
        else SlotsAlike fenceCatalog ((fenceGrid.cellAt q).get layer) ((k.cellAt q).get layer) := by
  obtain ⟨pasted, erased, placed⟩ := edits_exact (σ := Scripted) fenceConfig_compile (by decide) fenceGrid
  refine ⟨fenceConfig_compile, by decide, ?_, ?_, ?_⟩
  · obtain ⟨k, t, done, slot⟩ : ∃ k t, fenceGrid.paste fenceCatalog ⟨fenceGrid⟩ ⟨-1, -1⟩
        (Scripted.mk #[⟨0x3F400000⟩] 0) = .ok (k, t) ∧ k.cellAt ⟨0, 0⟩ = { mid := some ⟨0⟩, back := some ⟨7⟩ } :=
      ⟨_, _, rfl, rfl⟩
    exact ⟨k, t, done, slot, (pasted _ _).of_eq_ok done⟩
  · obtain ⟨k, t, done, slot⟩ : ∃ k t, fenceGrid.erase fenceCatalog ⟨5, 3⟩ ⟨2, -2⟩ (.only .mid)
        (Scripted.mk #[⟨0x3F400000⟩] 0) = .ok (k, t) ∧ k.cellAt ⟨2, 0⟩ = {} := ⟨_, _, rfl, rfl⟩
    exact ⟨k, t, done, slot, (erased _ _ _).of_eq_ok done⟩
  · obtain ⟨k, t, done, slot⟩ : ∃ k t, fenceGrid.place fenceCatalog ⟨1, 1⟩ 0 (Scripted.mk #[⟨0x3F400000⟩] 0) =
        .ok (k, t) ∧ k.cellAt ⟨1, 1⟩ = { mid := some ⟨1⟩, back := some ⟨7⟩ } := ⟨_, _, rfl, rfl⟩
    exact ⟨_, k, t, rfl, done, slot, (placed _ _ _ rfl).of_eq_ok done⟩

end Tilework
