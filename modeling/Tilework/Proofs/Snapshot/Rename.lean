import Tilework.Proofs.Edit.Ownership
import Tilework.Proofs.Snapshot.Restore

namespace Tilework

namespace Grid

variable {g : Grid} {p : Vec}

theorem cellAt_remap (inside : g.Contains p) (f : TileId → Option TileId) :
    (g.remap f).cellAt p = (g.cellAt p).mapSlots fun slot => slot.bind f := by
  have written : (g.remap f).cells[g.placeOf p]? = some ((g.cellAt p).mapSlots fun slot => slot.bind f) := by
    simp [remap, cellAt, placeOf_lt inside]
  show ((g.remap f).cells[g.placeOf p]?).getD Cell.empty = _
  rw [written, Option.getD_some]

theorem rename_slot (inside : g.Contains p) (old new : Catalog) (layer : Layer) :
    ((g.rename old new).cellAt p).get layer = ((g.cellAt p).get layer).bind fun id =>
      (old.info? id).bind fun info => new.id? info.tileName info.variantName := by
  rw [rename, cellAt_remap inside, Cell.get_mapSlots]

theorem rename_slot_iff {old new : Catalog} (ordered : new.Ordered) (inside : g.Contains p) {layer : Layer}
    {id : TileId} : ((g.rename old new).cellAt p).get layer = some id ↔
      ∃ before info, (g.cellAt p).get layer = some before ∧ old.info? before = some info ∧
        new.Lists info.tileName info.variantName id := by
  rw [rename_slot inside]
  constructor
  · intro slot
    obtain ⟨before, found, slot⟩ := Option.bind_eq_some_iff.mp slot
    obtain ⟨info, known, slot⟩ := Option.bind_eq_some_iff.mp slot
    exact ⟨before, info, found, known, ordered.id?_eq_some_iff.mp slot⟩
  · rintro ⟨before, info, found, known, listed⟩
    rw [found, Option.bind_some, known, Option.bind_some]
    exact ordered.id?_eq_some_iff.mpr listed

theorem rename_self {c : Catalog} (ordered : c.Ordered) (numbered : c.Numbered) (known : g.Known c) :
    g.rename c c = g := by
  have size : (g.rename c c).size = g.size := rfl
  apply ext_cellAt size
  intro p contains
  have inside : g.Contains p := contains
  ext1 layer
  rw [rename_slot inside]
  cases slot : (g.cellAt p).get layer with
  | none => rfl
  | some id =>
    obtain ⟨info, found⟩ := known p inside layer id slot
    rw [Option.bind_some, found, Option.bind_some, ordered.id?_of_info numbered found]

end Grid

theorem Snapshot.restore_known {s : Snapshot} {c : Catalog} {g : Grid} (ordered : c.Ordered) (numbered : c.Numbered)
    (restored : s.restore c = .ok g) : g.Known c := by
  intro p inside layer id slot
  obtain ⟨tile, variant, found⟩ := id?_of_restore restored inside slot
  obtain ⟨i, j, t, v, among, -, chosen, -, rfl⟩ := ordered.id?_eq_some_iff.mp found
  exact ⟨_, numbered.info_of_variant among chosen⟩

theorem Grid.rename_known {g : Grid} (old : Catalog) {new : Catalog} (ordered : new.Ordered)
    (numbered : new.Numbered) : (g.rename old new).Known new :=
  Snapshot.restore_known ordered numbered (Snapshot.restore_capture g old new)

/-- The way through a snapshot is the first step of rebinding, which is then followed by a run of the autotiler. -/
theorem restore_capture_rebinds {oldConfig newConfig : Config} {old new : Catalog}
    (oldCompiled : oldConfig.compile = .ok old) (newCompiled : newConfig.compile = .ok new)
    (few : old.infos.size < 0x100000000) (g : Grid) :
    (Snapshot.capture g old).restore new = .ok (g.rename old new) ∧
    (∀ {σ : Type} [DrawSource σ] (s : Store), s.grid = g →
      (s.rebind old new : Drawing σ Store) = Store.edit { s with grid := g.rename old new } (retile new)) ∧
    (g.rename old new).size = g.size ∧
    (∀ p layer id, g.Contains p → (((g.rename old new).cellAt p).get layer = some id ↔
      ∃ before info, (g.cellAt p).get layer = some before ∧ old.info? before = some info ∧
        new.Lists info.tileName info.variantName id)) ∧
    (g.Known old → (Snapshot.capture g old).restore old = .ok g ∧ g.rename old old = g) := by
  obtain ⟨oldStages⟩ := compile_eq_ok oldCompiled
  obtain ⟨newStages⟩ := compile_eq_ok newCompiled
  refine ⟨Snapshot.restore_capture g old new, ?_, rfl, ?_, ?_⟩
  · rintro σ _ s rfl
    rfl
  · intro p layer id inside
    exact Grid.rename_slot_iff newStages.ordered inside
  · intro known
    have same := Grid.rename_self oldStages.ordered (oldStages.numbered few) known
    refine ⟨?_, same⟩
    rw [Snapshot.restore_capture, same]

/-- Fences again, without gates, and numbered after the variants of another tile. -/
def gardenConfig : Config := {
  tiles := [
    { name := "fence", layer := "mid", defaultVariant := "post", displayVariant := "post"
      variants := [{ name := "post", texture := ⟨0, 0⟩ }, { name := "rail", texture := ⟨2, 0⟩ }], rules := [] },
    { name := "arch", layer := "back", defaultVariant := "left", displayVariant := "left"
      variants := [{ name := "left", texture := ⟨0, 1⟩ }, { name := "right", texture := ⟨1, 1⟩ }], rules := [] }] }

def gardenCatalog : Catalog := {
  flags := #[]
  groups := #[]
  tiles := #[
    { name := "arch", layer := .back, flags := [], authoredIndex := 1
      variants := #[
        ⟨"left", ⟨0, 1⟩, ⟨1, 1⟩, ⟨0, 0⟩, ⟨0, 0⟩, ⟨0, 524⟩, ⟨12, 12⟩, ⟨0, 0⟩, ⟨0⟩⟩,
        ⟨"right", ⟨1, 1⟩, ⟨1, 1⟩, ⟨0, 0⟩, ⟨0, 0⟩, ⟨12, 524⟩, ⟨12, 12⟩, ⟨0, 0⟩, ⟨1⟩⟩]
      rules := #[], flagBits := #[], defaultVariant := 0, displayVariant := 0 },
    { name := "fence", layer := .mid, flags := [], authoredIndex := 0
      variants := #[
        ⟨"post", ⟨0, 0⟩, ⟨1, 1⟩, ⟨0, 0⟩, ⟨0, 0⟩, ⟨0, 512⟩, ⟨12, 12⟩, ⟨0, 0⟩, ⟨2⟩⟩,
        ⟨"rail", ⟨2, 0⟩, ⟨1, 1⟩, ⟨0, 0⟩, ⟨0, 0⟩, ⟨24, 512⟩, ⟨12, 12⟩, ⟨0, 0⟩, ⟨3⟩⟩]
      rules := #[], flagBits := #[], defaultVariant := 0, displayVariant := 0 }]
  infos := #[⟨0, 0, "arch", "left"⟩, ⟨0, 1, "arch", "right"⟩, ⟨1, 0, "fence", "post"⟩, ⟨1, 1, "fence", "rail"⟩]
  range := ⟨0, 0⟩
  footprintLow := ⟨0, 0⟩
  footprintHigh := ⟨0, 0⟩ }

theorem gardenConfig_compile : gardenConfig.compile = .ok gardenCatalog := by decide +kernel

/-- The posts get new ids. The gate and the id that was unknown before are dropped. -/
def gardenGrid : Grid :=
  ⟨⟨3, 2⟩, #[{ mid := some ⟨2⟩ }, { mid := some ⟨2⟩ }, {}, {}, {}, {}], by decide⟩

theorem restore_capture_rebinds_fenceGrid :
    (Snapshot.capture fenceGrid fenceCatalog).restore gardenCatalog = .ok gardenGrid ∧
    (Snapshot.capture gardenGrid gardenCatalog).restore gardenCatalog = .ok gardenGrid := by
  obtain ⟨renamed, -⟩ := restore_capture_rebinds fenceConfig_compile gardenConfig_compile (by decide) fenceGrid
  obtain ⟨-, -, -, -, unchanged⟩ :=
    restore_capture_rebinds gardenConfig_compile gardenConfig_compile (by decide) gardenGrid
  have garden : fenceGrid.rename fenceCatalog gardenCatalog = gardenGrid := Grid.ext_cells rfl (by decide +kernel)
  have known : gardenGrid.Known gardenCatalog := by decide +kernel
  exact ⟨by rw [renamed, garden], (unchanged known).1⟩

end Tilework
