import Tilework.Proofs.Edit.Totality
import Tilework.Proofs.Store.Open

namespace Tilework

/-- Under `new` there still are a tile and a variant of the names of the id, but on another layer than under `old`. -/
def Catalog.Moves (old new : Catalog) (id : TileId) : Prop :=
  ∃ (info : TileInfo) (s t : Tile) (v : Variant), old.info? id = some info ∧
    s ∈ old.tiles ∧ s.name = info.tileName ∧ t ∈ new.tiles ∧ t.name = info.tileName ∧
    v ∈ t.variants ∧ v.name = info.variantName ∧ t.layer ≠ s.layer

def Grid.KeepsLayers (old new : Catalog) (g : Grid) : Prop :=
  ∀ cell ∈ g.cells, ∀ layer id, cell.get layer = some id → ¬old.Moves new id

variable {oldConfig newConfig : Config} {old new : Catalog}

theorem Catalog.Owns.moves_iff (oldStages : Compilation oldConfig old) (newStages : Compilation newConfig new)
    (few : new.infos.size < 0x100000000) {layer : Layer} {id : TileId} (owned : old.Owns layer id) :
    old.Moves new id ↔ ∃ info other, old.info? id = some info ∧
      new.id? info.tileName info.variantName = some other ∧ ¬new.Owns layer other := by
  have numbered := newStages.numbered few
  obtain ⟨info, tile, known, whose, on⟩ := owns_iff.mp owned
  obtain ⟨_, _, place, -, -, called, -⟩ := oldStages.variant_of_info known
  rw [whose] at place
  cases place
  constructor
  · rintro ⟨_, s, t, v, known', among, named, listed, name, chosen, variant, apart⟩
    rw [known] at known'
    cases known'
    obtain ⟨k, place⟩ := Array.getElem?_of_mem among
    have same := oldStages.tilesDistinct place whose (named.trans called)
    subst same
    rw [whose] at place
    cases place
    obtain ⟨i, found⟩ := Array.getElem?_of_mem listed
    obtain ⟨j, inside⟩ := Array.getElem?_of_mem chosen
    have lists : new.Lists info.tileName info.variantName v.id := ⟨i, j, t, v, found, name, inside, variant, rfl⟩
    refine ⟨info, v.id, known, newStages.ordered.id?_eq_some_iff.mpr lists, ?_⟩
    intro owns
    obtain ⟨entry, other, entered, there, layers⟩ := owns_iff.mp owns
    rw [numbered.info_of_variant found inside] at entered
    cases entered
    rw [found] at there
    cases there
    exact apart (layers.trans on.symm)
  · rintro ⟨_, other, known', found, foreign⟩
    rw [known] at known'
    cases known'
    obtain ⟨i, j, t, v, listed, name, chosen, variant, rfl⟩ := newStages.ordered.id?_eq_some_iff.mp found
    refine ⟨info, tile, t, v, known, Array.mem_of_getElem? whose, called.symm, Array.mem_of_getElem? listed, name,
      Array.mem_of_getElem? chosen, variant, ?_⟩
    intro same
    apply foreign
    exact owns_iff.mpr ⟨_, t, numbered.info_of_variant listed chosen, listed, same.trans on⟩

namespace Grid

variable {g h : Grid}

theorem rename_proper_iff (oldStages : Compilation oldConfig old) (newStages : Compilation newConfig new)
    (few : new.infos.size < 0x100000000) (proper : g.Proper old) :
    (g.rename old new).Proper new ↔ g.KeepsLayers old new := by
  rw [proper_iff]
  rw [proper_iff] at proper
  constructor
  · intro kept cell member layer id slot moved
    obtain ⟨p, inside, rfl⟩ := mem_cells.mp member
    have owned := proper p inside layer id slot
    obtain ⟨info, other, known, found, foreign⟩ := (owned.moves_iff oldStages newStages few).mp moved
    apply foreign
    apply kept p inside layer other
    rw [rename_slot inside, slot, Option.bind_some, known, Option.bind_some, found]
  · intro keeps p inside layer other slot
    have inside : g.Contains p := inside
    rw [rename_slot inside] at slot
    obtain ⟨id, before, slot⟩ := Option.bind_eq_some_iff.mp slot
    obtain ⟨info, known, found⟩ := Option.bind_eq_some_iff.mp slot
    have owned := proper p inside layer id before
    by_contra foreign
    apply keeps _ (mem_cells.mpr ⟨p, inside, rfl⟩) layer id before
    exact (owned.moves_iff oldStages newStages few).mpr ⟨info, other, known, found, foreign⟩

theorem SameTiles.proper_iff {c : Catalog} (numbered : c.Numbered) (same : SameTiles c g h) :
    h.Proper c ↔ g.Proper c := by
  rw [Grid.proper_iff, Grid.proper_iff]
  constructor
  · intro upheld
    exact same.symm.upholds (Catalog.respects_owns numbered) upheld
  · intro upheld
    exact same.upholds (Catalog.respects_owns numbered) upheld

end Grid

namespace Format

variable {f : Format} {g k : Grid} {compress : Bool}

theorem gridIn_capture (storable : f = .compact → Archive.Storable (Snapshot.capture g old) compress) :
    f.gridIn new (some (f.encode compress (Snapshot.capture g old))) = .ok (.ok (g.rename old new)) := by
  cases f with
  | compact => exact gridIn_compact new (storable rfl)
  | text => exact gridIn_text old new g compress

theorem eq_of_gridIn_capture
    (h : f.gridIn new (some (f.encode compress (Snapshot.capture g old))) = .ok (.ok k)) : k = g.rename old new := by
  by_cases storable : f = .compact → Archive.Storable (Snapshot.capture g old) compress
  · rw [gridIn_capture storable] at h
    cases h
    rfl
  · obtain ⟨rfl, unfit⟩ := Classical.not_imp.mp storable
    obtain ⟨_, snapshot, ⟨⟩, decoded, -⟩ := gridIn_eq_ok h
    exact absurd decoded (Archive.decode_of_not_storable unfit)

end Format

/-- A map that is carried over stays proper unless a tile that it shows has moved to another layer. Only those tiles
count, and only as long as their names are still there. -/
theorem carried_proper_iff (oldCompiled : oldConfig.compile = .ok old) (newCompiled : newConfig.compile = .ok new)
    (few : new.infos.size < 0x100000000) {g : Grid} (proper : g.Proper old) :
    (∀ {σ : Type} [DrawSource σ] (s after : Store) (draws rest : σ), s.grid = g →
      s.rebind old new draws = .ok (after, rest) → (after.grid.Proper new ↔ g.KeepsLayers old new)) ∧
    (∃ k, (Snapshot.capture g old).restore new = .ok k ∧ (k.Proper new ↔ g.KeepsLayers old new)) ∧
    ∀ (f : Format) (compress : Bool),
      ((f = .compact → Archive.Storable (Snapshot.capture g old) compress) →
        ∃ k, f.gridIn new (some (f.encode compress (Snapshot.capture g old))) = .ok (.ok k)) ∧
      ∀ k, f.gridIn new (some (f.encode compress (Snapshot.capture g old))) = .ok (.ok k) →
        (k.Proper new ↔ g.KeepsLayers old new) := by
  obtain ⟨oldStages⟩ := compile_eq_ok oldCompiled
  obtain ⟨newStages⟩ := compile_eq_ok newCompiled
  have renamed := Grid.rename_proper_iff oldStages newStages few proper
  refine ⟨?_, ⟨g.rename old new, Snapshot.restore_capture g old new, renamed⟩, ?_⟩
  · rintro σ _ s after draws rest rfl rebound
    obtain ⟨k, _, retiled, same⟩ := Drawing.bind_eq_ok.mp rebound
    obtain ⟨rfl, rfl⟩ := Drawing.pure_eq_ok.mp same
    exact ((retile_sameTiles (newStages.numbered few) retiled).proper_iff (newStages.numbered few)).trans renamed
  · intro f compress
    constructor
    · intro storable
      exact ⟨_, Format.gridIn_capture storable⟩
    · intro k read
      rw [Format.eq_of_gridIn_capture read]
      exact renamed

theorem carried_proper_iff_fenceRow :
    (∃ after rest, (Store.rebind (Store.ofGrid fenceRow "yard") fenceCatalog gardenCatalog : Drawing Scripted Store)
      (Scripted.mk #[] 0) = .ok (after, rest) ∧ after.grid.Proper gardenCatalog) ∧
    ∃ k, Format.compact.gridIn gardenCatalog
      (some (Format.compact.encode false (Snapshot.capture fenceRow fenceCatalog))) = .ok (.ok k) ∧
        k.Proper gardenCatalog := by
  have proper : fenceRow.Proper fenceCatalog := by decide +kernel
  have keeps : fenceRow.KeepsLayers fenceCatalog gardenCatalog := by
    rintro - - - - - ⟨info, s, t, v, -, among, named, listed, name, -, -, apart⟩
    have layers : ∀ s ∈ fenceCatalog.tiles, ∀ t ∈ gardenCatalog.tiles, s.name = t.name → t.layer = s.layer := by
      decide +kernel
    exact apart (layers s among t listed (named.trans name.symm))
  have storable : Archive.Storable (Snapshot.capture fenceRow fenceCatalog) false :=
    ⟨by decide +kernel, fun impossible => nomatch impossible⟩
  obtain ⟨rebound, -, stored⟩ := carried_proper_iff fenceConfig_compile gardenConfig_compile (by decide) proper
  obtain ⟨reads, kept⟩ := stored .compact false
  obtain ⟨k, read⟩ := reads fun _ => storable
  obtain ⟨stages⟩ := compile_eq_ok gardenConfig_compile
  have extent : (Store.ofGrid fenceRow "yard").grid.size.Moderate := by decide
  obtain ⟨after, rest, moved, -⟩ := ((stages.sound (by decide)).rebind_yields fenceCatalog extent).exists_ok
    (Scripted.mk #[] 0)
  exact ⟨⟨after, rest, moved, (rebound _ _ _ _ rfl moved).mpr keeps⟩, k, read, (kept k read).mpr keeps⟩

def stoneConfig (layer : Layer) : Config := {
  tiles := [{
    name := "stone"
    layer := layer.name
    defaultVariant := "a"
    displayVariant := "a"
    variants := [{ name := "a", texture := ⟨0, 0⟩ }] }] }

def stoneCatalog (layer : Layer) : Catalog := {
  flags := #[]
  groups := #[]
  tiles := #[{
    name := "stone"
    layer := layer
    flags := []
    authoredIndex := 0
    variants := #[⟨"a", ⟨0, 0⟩, ⟨1, 1⟩, ⟨0, 0⟩, ⟨0, 0⟩, ⟨0, 512⟩, ⟨12, 12⟩, ⟨0, 0⟩, ⟨0⟩⟩]
    rules := #[]
    flagBits := #[]
    defaultVariant := 0
    displayVariant := 0 }]
  infos := #[⟨0, 0, "stone", "a"⟩]
  range := ⟨0, 0⟩
  footprintLow := ⟨0, 0⟩
  footprintHigh := ⟨0, 0⟩ }

def stoneGrid : Grid := ⟨⟨1, 1⟩, #[{ mid := some ⟨0⟩ }], by decide⟩

/-- The stone stays where it is when its tile is moved from one layer to another. -/
theorem stoneGrid_strays :
    (stoneConfig .mid).compile = .ok (stoneCatalog .mid) ∧ (stoneConfig .back).compile = .ok (stoneCatalog .back) ∧
    stoneGrid.Proper (stoneCatalog .mid) ∧ ¬stoneGrid.Proper (stoneCatalog .back) ∧
    (Store.rebind (Store.ofGrid stoneGrid "map") (stoneCatalog .mid) (stoneCatalog .back) : Drawing Scripted Store)
      (Scripted.mk #[] 0) = .ok (Store.ofGrid stoneGrid "map", Scripted.mk #[] 0) ∧
    (Snapshot.capture stoneGrid (stoneCatalog .mid)).restore (stoneCatalog .back) = .ok stoneGrid ∧
    Format.text.gridIn (stoneCatalog .back)
      (some (Format.text.encode false (Snapshot.capture stoneGrid (stoneCatalog .mid)))) = .ok (.ok stoneGrid) ∧
    Format.compact.gridIn (stoneCatalog .back)
      (some (Format.compact.encode false (Snapshot.capture stoneGrid (stoneCatalog .mid)))) = .ok (.ok stoneGrid) := by
  have storable : Archive.Storable (Snapshot.capture stoneGrid (stoneCatalog .mid)) false :=
    ⟨by decide +kernel, fun impossible => nomatch impossible⟩
  have renamed : stoneGrid.rename (stoneCatalog .mid) (stoneCatalog .back) = stoneGrid :=
    Grid.ext_cells rfl (by decide +kernel)
  refine ⟨by decide +kernel, by decide +kernel, by decide +kernel, by decide +kernel, ?_, ?_, ?_, ?_⟩
  · rw [Store.rebind, Store.ofGrid, Store.edit, renamed]
    rfl
  · rw [Snapshot.restore_capture, renamed]
  · rw [Format.gridIn_text, renamed]
  · rw [Format.gridIn_compact _ storable, renamed]

end Tilework
