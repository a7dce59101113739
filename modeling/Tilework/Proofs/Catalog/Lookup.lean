import Tilework.Proofs.Catalog.Origin

namespace Tilework

namespace Catalog

def TilesDistinct (c : Catalog) : Prop :=
  ∀ ⦃i j : Nat⦄ ⦃s t : Tile⦄, c.tiles[i]? = some s → c.tiles[j]? = some t → s.name = t.name → i = j

theorem id?_eq_some {c : Catalog} {tile variant : String} {id : TileId} (h : c.id? tile variant = some id) :
    ∃ (i j : Nat) (t : Tile) (v : Variant), c.tiles[i]? = some t ∧ t.name = tile ∧ t.variants[j]? = some v ∧
      v.name = variant ∧ v.id = id := by
  obtain ⟨i, place, h⟩ := Option.bind_eq_some_iff.mp h
  obtain ⟨t, found, h⟩ := Option.bind_eq_some_iff.mp h
  obtain ⟨v, chosen, h⟩ := Option.bind_eq_some_iff.mp h
  cases h
  obtain ⟨j, among, chosen⟩ := Option.bind_eq_some_iff.mp chosen
  obtain ⟨u, named, name⟩ := Names.index?_eq_some place
  obtain ⟨w, inside, called⟩ := Names.index?_eq_some among
  rw [found] at named
  rw [chosen] at inside
  cases named
  cases inside
  exact ⟨i, j, t, v, found, name, chosen, called, rfl⟩

/-- Both levels of the table of variants ascend by name. -/
structure Ordered (c : Catalog) : Prop where
  tiles : Names.Ascending c.tiles
  variants : ∀ {i : Nat} {t : Tile}, c.tiles[i]? = some t → Names.Ascending t.variants

/-- The catalog has a tile and a variant of these names, with this id. -/
def Lists (c : Catalog) (tile variant : String) (id : TileId) : Prop :=
  ∃ (i j : Nat) (t : Tile) (v : Variant), c.tiles[i]? = some t ∧ t.name = tile ∧ t.variants[j]? = some v ∧
    v.name = variant ∧ v.id = id

theorem Ordered.id?_eq_some_iff {c : Catalog} (ordered : c.Ordered) {tile variant : String} {id : TileId} :
    c.id? tile variant = some id ↔ c.Lists tile variant id := by
  constructor
  · exact id?_eq_some
  · rintro ⟨i, j, t, v, found, rfl, chosen, rfl, rfl⟩
    have place : c.tileIndex? t.name = some i := ordered.tiles.index?_eq found
    have inside : t.variantIndex? v.name = some j := (ordered.variants found).index?_eq chosen
    simp [id?, place, found, Tile.variant?, inside, chosen]

theorem Ordered.id?_of_info {c : Catalog} (ordered : c.Ordered) (numbered : c.Numbered) {id : TileId} {info : TileInfo}
    (known : c.info? id = some info) : c.id? info.tileName info.variantName = some id := by
  obtain ⟨t, v, found, chosen, same, tile, variant⟩ := numbered.variant_of_info known
  exact ordered.id?_eq_some_iff.mpr ⟨_, _, t, v, found, tile.symm, chosen, variant.symm, same⟩

end Catalog

namespace Compilation

variable {config : Config} {c : Catalog}

theorem ordered (stages : Compilation config c) : c.Ordered := by
  refine ⟨stages.tiles_tabulates.ascending, ?_⟩
  intro i u found
  obtain ⟨t, _, _, first, _, _, -, -, compiled, -, rfl, -⟩ := stages.origin found
  exact (compiled.tabulates.congr Tile.numbered_names).ascending

theorem tilesDistinct (stages : Compilation config c) : c.TilesDistinct :=
  fun _ _ _ _ first second same => Names.place_of_nodup stages.ordered.tiles.nodup first second same

end Compilation

end Tilework
