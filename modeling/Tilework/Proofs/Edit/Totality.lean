import Tilework.Proofs.Autotile.Totality
import Tilework.Proofs.Edit.Resize
import Tilework.Proofs.Snapshot.Places

namespace Tilework

namespace Grid

variable {g : Grid} {p size offset : Vec}

theorem setLayer_yields (g : Grid) (p : Vec) (layer : Layer) (slot : Option TileId) :
    Yields (g.setLayer p layer slot) fun h => h.size = g.size := by
  by_cases inside : g.Contains p
  · rw [setLayer_of_contains inside]
    exact .ok rfl
  · rw [setLayer_of_not_contains inside]
    exact .ok rfl

theorem set_yields (g : Grid) (p : Vec) (cell : Cell) : Yields (g.set p cell) fun h => h.size = g.size := by
  unfold set
  split
  · rename_i inside
    rw [setStrict_of_contains inside]
    exact .ok rfl
  · exact .ok rfl

theorem blank_size {size : Vec} (h : blank size = .ok g) : g.size = size := by
  unfold blank at h
  split at h
  · cases h
    exact blank?_size (by assumption)
  · cases h

theorem blank_yields (usable : UsableSize size) : Yields (blank size) fun g => g.size = size := by
  unfold blank
  cases made : blank? size with
  | some grid => exact .ok (blank?_size made)
  | none => exact absurd usable (blank?_eq_none_iff.mp made)

theorem foldlM_size_ends {faults : Fault → Prop} {α : Type} {items : List α} {write : Grid → α → Checked Grid}
    (each : ∀ h item, item ∈ items → Ends faults (write h item) fun k => k.size = h.size) :
    Ends faults (items.foldlM write g) fun k => k.size = g.size := by
  refine .foldlM rfl ?_
  intro h item member same
  exact (each h item member).mono fun k kept => kept.trans same

theorem foldlM_size_yields {α : Type} {items : List α} {write : Grid → α → Checked Grid}
    (each : ∀ h item, item ∈ items → Yields (write h item) fun k => k.size = h.size) :
    Yields (items.foldlM write g) fun k => k.size = g.size :=
  (foldlM_size_ends fun h item member => .inr (each h item member)).yields

theorem stamp_yields (g : Grid) (p : Vec) (slots : List (Layer × TileId)) :
    Yields (g.stamp p slots) fun h => h.size = g.size := by
  refine foldlM_size_yields ?_
  rintro h ⟨layer, id⟩ -
  exact h.setLayer_yields p layer (some id)

theorem clear_yields (g : Grid) (p : Vec) (filter : Filter) : Yields (g.clear p filter) fun h => h.size = g.size := by
  refine foldlM_size_yields ?_
  intro h layer _
  exact h.setLayer_yields p layer none

/-- An overlay can fail at nothing but the positions that the cells of the brush come to. -/
theorem overlay_size_ends {faults : Fault → Prop} (g : Grid) {brush : Brush}
    (landing : ∀ p, brush.grid.Contains p → Ends faults (p + offset).fit fun _ => True) :
    Ends faults (g.overlay brush offset) fun h => h.size = g.size := by
  refine foldlM_size_ends ?_
  intro h p member
  have inside := mem_bounds_cells.mp member
  refine .bind_ok (getStrict_of_contains inside) ?_
  split
  · exact .ok rfl
  · exact (landing p inside).bind fun q _ => .inr (h.stamp_yields q _)

theorem overlay_yields (g : Grid) {brush : Brush} (extent : brush.grid.size.Moderate) (moved : offset.Moderate) :
    Yields (g.overlay brush offset) fun h => h.size = g.size := by
  refine (g.overlay_size_ends fun p inside => ?_).yields
  have target := (inside.bounded extent).add moved
  rw [Vec.fit_of_fits (target.fits (by decide))]
  exact .ok trivial

theorem kept_eq (extent : g.size.Moderate) (resized : size.Moderate) (moved : offset.Moderate) :
    g.kept size offset = .ok (g.staying size offset) := by
  have back := moved.neg
  have first := (Vec.Bounded.zero _).max back
  have room := resized.sub moved
  have last := room.min (extent.mono (by decide))
  have between := last.sub first
  simp only [kept, Vec.fit_of_fits (back.fits (by decide)), Vec.fit_of_fits (room.fits (by decide)),
    Vec.fit_of_fits (between.fits (by decide)), bind, Except.bind]
  rfl

theorem resize_yields (resized : size.Moderate) (moved : offset.Moderate) :
    Yields (g.resize size offset) fun found => ∀ k, found = some k → k.size = size := by
  have back := moved.neg.fits (by decide)
  have room := (resized.sub moved).fits (by decide)
  by_cases nothing : ¬UsableSize size ∨ size = g.size ∧ offset = Vec.zero
  · exact ⟨none, resize_eq_none_iff.mpr nothing, fun k none => by cases none⟩
  · obtain ⟨usable, changes⟩ := not_or.mp nothing
    obtain ⟨k, done⟩ := exists_resize (not_not.mp usable) changes back room
    refine ⟨some k, done, ?_⟩
    rintro _ ⟨⟩
    exact (resize_eq_ok done).size

end Grid

section Catalog

variable {c : Catalog} {g : Grid} {p : Vec}

theorem Catalog.Sound.resetCell_yields (sound : c.Sound) (filter : Filter) (cell : Cell) :
    Yields (resetCell c filter cell) fun _ => True := by
  refine .foldlM trivial ?_
  intro kept layer _ _
  split
  · cases cell.get layer with
    | none => exact .ok trivial
    | some id =>
      have reset : Yields (resetId c id) fun _ => True := by
        unfold resetId
        cases known : c.info? id with
        | none => exact .ok trivial
        | some info =>
          exact (sound.defaultVariant_yields (sound.intact.tile_of_info known)).bind fun variant _ => .ok trivial
      exact reset.bind fun slot _ => .ok trivial
  · exact .ok trivial

theorem Catalog.Sound.ofTile_yields (sound : c.Sound) {i : Nat} (inside : i < c.tiles.size) :
    Yields (Brush.ofTile c i) fun brush => brush.grid.size = Vec.one := by
  refine (sound.tileAt_yields inside).bind fun tile _ => ?_
  refine (Grid.blank_yields ⟨by decide, by decide, by decide⟩).bind fun blank size => ?_
  refine (sound.defaultVariant_yields inside).bind fun variant _ => ?_
  exact (blank.setLayer_yields _ _ _).bind fun filled same => .ok (same.trans size)

theorem Grid.corners_yields (extent : g.size.Moderate) {a b : Vec} (first : a.Moderate) (second : b.Moderate) :
    Yields (Rect.fromCorners a b >>= fun corners => corners.intersect g.bounds) fun common =>
      ∀ area, common = some area → area.Inside g := by
  have one : Vec.one.Bounded 1 := by decide
  have span := ((first.max second).sub (first.min second)).add one
  refine .bind_ok (Rect.fromCorners_eq first second) ?_
  exact Grid.intersect_bounds_yields (first.min second) span (extent.mono (by decide)) (by decide)

theorem Catalog.Sound.grab_yields (sound : c.Sound) (extent : g.size.Moderate) {a b : Vec} (first : a.Moderate)
    (second : b.Moderate) (filter : Filter) :
    Yields (g.grab c a b filter) fun found => ∀ brush, found = some brush → brush.grid.size.Moderate := by
  have cut := Grid.corners_yields extent first second
  unfold Grid.grab
  rw [← bind_assoc]
  refine cut.bind fun common inside => ?_
  cases common with
  | none => exact .ok fun brush none => by cases none
  | some area =>
    have within := inside area rfl
    have bounded := within.bounded extent
    refine (Grid.blank_yields within.usableSize).bind fun blank size => ?_
    refine Yields.bind (P := fun grid => grid.size = area.size) (.foldlM size ?_) ?_
    · intro grid p member same
      have held := within.contains (Rect.mem_cells.mp member)
      have shifted := (held.bounded extent).sub bounded.1
      refine .bind_ok (Grid.getStrict_of_contains held) ?_
      refine (sound.resetCell_yields filter _).bind fun cell _ => ?_
      refine .bind_ok (Vec.fit_of_fits (shifted.fits (by decide))) ?_
      exact (grid.set_yields _ cell).mono fun k size => size.trans same
    · intro grid same
      refine .ok ?_
      rintro brush ⟨⟩
      exact same ▸ bounded.2

variable {σ : Type} [DrawSource σ]

theorem Catalog.Sound.place_yields (sound : c.Sound) (extent : g.size.Moderate) (p : Vec) {i : Nat}
    (listed : i < c.tiles.size) : Drawing.Yields (g.place c p i : Drawing σ Grid) fun h => h.size = g.size := by
  unfold Grid.place
  split
  · rename_i inside
    refine .lift_bind (sound.tileAt_yields listed) fun tile _ => ?_
    refine .lift_bind (sound.defaultVariant_yields listed) fun variant _ => ?_
    refine .lift_bind (g.setLayer_yields p tile.layer _) fun written same => ?_
    have near := inside.bounded extent
    have one : Vec.one.Moderate := by decide
    rw [← same] at extent ⊢
    exact sound.retileRegion_yields extent near one
  · exact .pure rfl

theorem Catalog.Sound.paste_yields (sound : c.Sound) (extent : g.size.Moderate) {brush : Brush}
    (small : brush.grid.size.Moderate) {offset : Vec} (moved : offset.Moderate) :
    Drawing.Yields (g.paste c brush offset : Drawing σ Grid) fun h => h.size = g.size := by
  refine .lift_bind (g.overlay_yields small moved) fun written same => ?_
  rw [← same] at extent ⊢
  exact sound.retileRegion_yields extent moved small

theorem Catalog.Sound.erase_yields (sound : c.Sound) (extent : g.size.Moderate) {a b : Vec} (first : a.Moderate)
    (second : b.Moderate) (filter : Filter) :
    Drawing.Yields (g.erase c a b filter : Drawing σ Grid) fun h => h.size = g.size := by
  obtain ⟨common, cut, inside⟩ := Grid.corners_yields extent first second
  obtain ⟨corners, spanned, cut⟩ := bind_eq_ok.mp cut
  unfold Grid.erase
  rw [spanned, Drawing.lift_ok_bind, cut, Drawing.lift_ok_bind]
  cases common with
  | none => exact .pure rfl
  | some area =>
    have bounded := (inside area rfl).bounded extent
    refine Drawing.Yields.bind (P := fun h => h.size = g.size) (.foldlM_size ?_) ?_
    · intro h p _ _
      exact .lift (h.clear_yields p filter)
    · intro written same
      rw [← same] at extent ⊢
      exact sound.retileRegion_yields extent bounded.1 bounded.2

theorem Catalog.Sound.rebind_yields (sound : c.Sound) (old : Catalog) {s : Store} (extent : s.grid.size.Moderate) :
    Drawing.Yields (s.rebind old c : Drawing σ Store) fun t => t.grid.size = s.grid.size := by
  have carried : (s.grid.rename old c).size.Moderate := extent
  exact (sound.retile_yields carried).bind fun g same => .pure same

/-- What an edit is given is moderate, and a tile that it places is one of the catalog. -/
def Edit.Moderate (c : Catalog) : Edit → Prop
  | place _ tile => tile < c.tiles.size
  | paste brush offset => brush.grid.size.Moderate ∧ offset.Moderate
  | erase a b _ => a.Moderate ∧ b.Moderate
  | retileRegion region => region.pos.Moderate ∧ region.size.Moderate

theorem Catalog.Sound.run_yields (sound : c.Sound) (extent : g.size.Moderate) {e : Edit} (moderate : e.Moderate c) :
    Drawing.Yields (e.run c g : Drawing σ Grid) fun h => h.size = g.size := by
  cases e with
  | place p tile => exact sound.place_yields extent p moderate
  | paste brush offset => exact sound.paste_yields extent moderate.1 moderate.2
  | erase a b filter => exact sound.erase_yields extent moderate.1 moderate.2 filter
  | retileRegion region => exact sound.retileRegion_yields extent moderate.1 moderate.2

theorem Catalog.Sound.runEdits_yields (sound : c.Sound) (extent : g.size.Moderate) {edits : List Edit}
    (moderate : ∀ e ∈ edits, e.Moderate c) :
    Drawing.Yields (runEdits c g edits : Drawing σ Grid) fun h => h.size = g.size := by
  -- The invariant is the size, so that the next edit finds a grid of moderate size again.
  refine .foldlM_size ?_
  intro h e member same
  have kept : h.size.Moderate := same ▸ extent
  exact sound.run_yields kept (moderate e member)

end Catalog

section Areas

variable {g : Grid}

theorem Grid.bounds_positions (g : Grid) : g.bounds.positions = .ok g.bounds.cells :=
  Rect.positions_eq fun _ held => (Grid.holds_bounds.mp held).fits

theorem Grid.intersect_positions {r area : Rect} (cut : r.intersect g.bounds = .ok (some area)) :
    area.positions = .ok area.cells := by
  apply Rect.positions_eq
  intro p held
  have both := (Rect.mem_cellsOf_intersect cut).mp (Rect.mem_cells.mpr held)
  exact (Grid.holds_bounds.mp both.2).fits

theorem Grid.staying_positions (g : Grid) (size offset : Vec) :
    (g.staying size offset).positions = .ok (g.staying size offset).cells :=
  Rect.positions_eq fun _ held => (Grid.holds_staying.mp held).1.fits

end Areas

/-- Nothing that is done with the grid under the catalog ends in a fault, be it overflow, division by zero, an index out
of a table, a cell outside the grid, a size that no grid has or a rule without results. The last three fields are about
the cells that are gone through, all of which are positions. -/
structure Grid.FaultFree (c : Catalog) (g : Grid) {σ : Type} [DrawSource σ] (s : σ) : Prop where
  evaluate : ∀ p, p.Moderate → ∃ cell t, Tilework.evaluate c g p s = .ok (cell, t)
  retileCell : ∀ p, p.Moderate → ∃ h t, Tilework.retileCell c g p s = .ok (h, t) ∧ h.size = g.size
  retileRegion : ∀ region : Rect, region.pos.Moderate → region.size.Moderate →
    ∃ h t, Tilework.retileRegion c g region s = .ok (h, t) ∧ h.size = g.size
  retile : ∃ h t, Tilework.retile c g s = .ok (h, t) ∧ h.size = g.size
  place : ∀ p i, i < c.tiles.size → ∃ h t, g.place c p i s = .ok (h, t) ∧ h.size = g.size
  ofTile : ∀ i, i < c.tiles.size → ∃ brush, Brush.ofTile c i = .ok brush ∧ brush.grid.size = Vec.one
  grab : ∀ a b filter, a.Moderate → b.Moderate →
    ∃ found, g.grab c a b filter = .ok found ∧ ∀ brush, found = some brush → brush.grid.size.Moderate
  paste : ∀ brush offset, brush.grid.size.Moderate → offset.Moderate →
    ∃ h t, g.paste c brush offset s = .ok (h, t) ∧ h.size = g.size
  erase : ∀ a b filter, a.Moderate → b.Moderate → ∃ h t, g.erase c a b filter s = .ok (h, t) ∧ h.size = g.size
  edits : ∀ edits : List Edit, (∀ e ∈ edits, e.Moderate c) →
    ∃ h t, runEdits c g edits s = .ok (h, t) ∧ h.size = g.size
  resize : ∀ size offset : Vec, size.Moderate → offset.Moderate →
    ∃ found, g.resize size offset = .ok found ∧ ∀ h, found = some h → h.size = size
  rebind : ∀ (old : Catalog) (store : Store), store.grid = g →
    ∃ after t, store.rebind old c s = .ok (after, t) ∧ after.grid.size = g.size
  capture : ∀ old : Catalog, (Snapshot.capture g old).restore c = .ok (g.rename old c)
  /-- The loop that reads the layers at each place comes to what is restored, or to the same complaint. -/
  restore : ∀ snapshot : Snapshot, snapshot.restoreByPlace c = .ok ((snapshot.restore c).map some) ∧
    ∀ h, snapshot.restore c = .ok h → h.size = snapshot.size
  whole : ∀ h : Grid, h.bounds.positions = .ok h.bounds.cells
  common : ∀ r area : Rect, r.intersect g.bounds = .ok (some area) → area.positions = .ok area.cells
  kept : ∀ size offset : Vec, size.Moderate → offset.Moderate →
    ∃ area, g.kept size offset = .ok area ∧ area.positions = .ok area.cells

/-- The ids in the grid are of no account: what the catalog does not know is left alone. -/
theorem compiled_faultFree {config : Config} {c : Catalog} (compiled : config.compile = .ok c)
    (range : c.range.Moderate) (g : Grid) (extent : g.size.Moderate) {σ : Type} [DrawSource σ] (s : σ) :
    g.FaultFree c s := by
  obtain ⟨stages⟩ := compile_eq_ok compiled
  have sound := stages.sound range
  constructor
  · intro p near
    obtain ⟨cell, t, done, -⟩ := (sound.evaluate_yields near).exists_ok s
    exact ⟨cell, t, done⟩
  · intro p near
    exact (sound.retileCell_yields near).exists_ok s
  · intro region pos size
    exact (sound.retileRegion_yields extent pos size).exists_ok s
  · exact (sound.retile_yields extent).exists_ok s
  · intro p i listed
    exact (sound.place_yields extent p listed).exists_ok s
  · intro i listed
    exact sound.ofTile_yields listed
  · intro a b filter first second
    exact sound.grab_yields extent first second filter
  · intro brush offset small moved
    exact (sound.paste_yields extent small moved).exists_ok s
  · intro a b filter first second
    exact (sound.erase_yields extent first second filter).exists_ok s
  · intro edits moderate
    exact (sound.runEdits_yields extent moderate).exists_ok s
  · intro size offset resized moved
    exact Grid.resize_yields resized moved
  · rintro old store rfl
    exact (sound.rebind_yields old extent).exists_ok s
  · intro old
    exact Snapshot.restore_capture g old c
  · intro snapshot
    exact ⟨snapshot.restoreByPlace_eq c, fun h restored => Snapshot.size_of_restore restored⟩
  · exact Grid.bounds_positions
  · intro r area cut
    exact Grid.intersect_positions cut
  · intro size offset resized moved
    exact ⟨_, Grid.kept_eq extent resized moved, g.staying_positions size offset⟩

theorem compiled_faultFree_fenceGrid :
    fenceConfig.compile = .ok fenceCatalog ∧ fenceCatalog.range.Moderate ∧ fenceGrid.size.Moderate ∧
    (∃ h t, fenceGrid.paste fenceCatalog ⟨fenceGrid⟩ ⟨-0x10000000, 0x10000000⟩ (Scripted.mk #[⟨0x3F400000⟩] 0) =
      .ok (h, t) ∧ h.size = ⟨3, 2⟩) ∧
    (∃ h t, fenceGrid.erase fenceCatalog ⟨0x10000000, -0x10000000⟩ ⟨-0x10000000, 0x10000000⟩ .all
      (Scripted.mk #[⟨0x3F400000⟩] 0) = .ok (h, t) ∧ h.size = ⟨3, 2⟩) ∧
    ∃ found, fenceGrid.resize ⟨4, 1⟩ ⟨0x10000000, -0x10000000⟩ = .ok found ∧ ∀ h, found = some h → h.size = ⟨4, 1⟩ := by
  have safe := compiled_faultFree fenceConfig_compile (by decide) fenceGrid (by decide)
    (Scripted.mk #[⟨0x3F400000⟩] 0)
  refine ⟨fenceConfig_compile, by decide, by decide, ?_, ?_, ?_⟩
  · exact safe.paste _ _ (by decide) (by decide)
  · exact safe.erase _ _ _ (by decide) (by decide)
  · exact safe.resize _ _ (by decide) (by decide)

end Tilework
