import Tilework.Proofs.Autotile.Pass
import Tilework.Proofs.Catalog.Lookup
import Tilework.Proofs.Edit.Slots
import Tilework.Store

namespace Tilework

namespace Catalog

/-- The catalog gave out the id, for a tile of this layer. -/
def Owns (c : Catalog) (layer : Layer) (id : TileId) : Prop :=
  id.index < c.infos.size ∧ ∃ tile, c.tileOf id = .ok tile ∧ tile.layer = layer

/-- The id is that of the default variant of a tile of this layer. -/
def Provides (c : Catalog) (layer : Layer) (id : TileId) : Prop :=
  ∃ i tile variant, c.tiles[i]? = some tile ∧ tile.layer = layer ∧ c.defaultVariant i = .ok variant ∧ variant.id = id

def Knows (c : Catalog) (id : TileId) : Prop := ∃ info, c.info? id = some info

/-- The condition does not tell variants of a tile apart, and default variants on the layers of their tiles meet it. -/
structure Respects (c : Catalog) (P : Layer → TileId → Prop) : Prop where
  of_occupant : ∀ {layer : Layer} {id other : TileId}, P layer id → c.occupant other = c.occupant id → P layer other
  of_provides : ∀ {layer : Layer} {id : TileId}, c.Provides layer id → P layer id

variable {c : Catalog} {layer : Layer} {id : TileId}

theorem owns_iff : c.Owns layer id ↔
    ∃ info tile, c.info? id = some info ∧ c.tiles[info.tile]? = some tile ∧ tile.layer = layer := by
  unfold Owns tileOf info
  constructor
  · rintro ⟨inside, tile, found, rfl⟩
    obtain ⟨info, known, found⟩ := bind_eq_ok.mp found
    split at known
    · rename_i same
      cases known
      exact ⟨_, tile, same, entryAt_eq_ok_iff.mp found, rfl⟩
    · cases known
  · rintro ⟨info, tile, known, found, rfl⟩
    rw [known]
    exact ⟨(Array.getElem?_eq_some_iff.mp known).1, tile, entryAt_eq_ok_iff.mpr found, rfl⟩

instance (c : Catalog) (layer : Layer) (id : TileId) : Decidable (c.Owns layer id) :=
  decidable_of_iff (((c.info? id).bind fun info => c.tiles[info.tile]?).any fun tile => tile.layer = layer) (by
    simp only [owns_iff, Option.any_eq_true, Option.bind_eq_some_iff, decide_eq_true_eq]
    constructor
    · rintro ⟨tile, ⟨info, known, found⟩, on⟩
      exact ⟨info, tile, known, found, on⟩
    · rintro ⟨info, tile, known, found, on⟩
      exact ⟨tile, ⟨info, known, found⟩, on⟩)

theorem defaultVariant_eq_ok {i : Nat} {variant : Variant} (h : c.defaultVariant i = .ok variant) :
    ∃ tile, c.tiles[i]? = some tile ∧ tile.variants[tile.defaultVariant]? = some variant := by
  obtain ⟨tile, found, h⟩ := bind_eq_ok.mp h
  exact ⟨tile, entryAt_eq_ok_iff.mp found, entryAt_eq_ok_iff.mp h⟩

theorem Provides.owns (numbered : c.Numbered) (provided : c.Provides layer id) : c.Owns layer id := by
  obtain ⟨i, tile, variant, found, same, default, rfl⟩ := provided
  obtain ⟨other, place, chosen⟩ := defaultVariant_eq_ok default
  rw [found] at place
  cases place
  exact owns_iff.mpr ⟨_, tile, numbered.info_of_variant found chosen, found, same⟩

theorem Owns.provides_of_reset (owned : c.Owns layer id) {chosen : TileId} (h : resetId c id = .ok (some chosen)) :
    c.Provides layer chosen := by
  obtain ⟨info, tile, known, found, same⟩ := owns_iff.mp owned
  rw [resetId, known] at h
  obtain ⟨variant, default, h⟩ := bind_eq_ok.mp h
  cases h
  exact ⟨info.tile, tile, variant, found, same, default, rfl⟩

theorem Owns.of_occupant (owned : c.Owns layer id) {other : TileId} (same : c.occupant other = c.occupant id) :
    c.Owns layer other := by
  obtain ⟨info, tile, known, found, on⟩ := owns_iff.mp owned
  rw [occupant_of_info known] at same
  unfold occupant at same
  split at same
  · rename_i info' known'
    injection same with index
    rw [← index] at found
    exact owns_iff.mpr ⟨info', tile, known', found, on⟩
  · cases same

theorem respects_owns (numbered : c.Numbered) : c.Respects c.Owns :=
  ⟨fun owned same => owned.of_occupant same, fun provided => provided.owns numbered⟩

theorem respects_knows (numbered : c.Numbered) : c.Respects fun _ id => c.Knows id := by
  constructor
  · rintro layer id other ⟨info, known⟩ same
    rw [occupant_of_info known] at same
    unfold occupant at same
    split at same
    · exact ⟨_, by assumption⟩
    · cases same
  · intro layer id provided
    obtain ⟨info, -, known, -, -⟩ := owns_iff.mp (provided.owns numbered)
    exact ⟨info, known⟩

theorem Owns.id?_owns (numbered : c.Numbered) (distinct : c.TilesDistinct) (owned : c.Owns layer id)
    {other : TileId}
    (found : ((c.info? id).bind fun info => c.id? info.tileName info.variantName) = some other) :
    c.Owns layer other := by
  obtain ⟨info, tile, known, place, on⟩ := owns_iff.mp owned
  rw [known, Option.bind_some] at found
  obtain ⟨i, j, t, v, among, named, chosen, -, rfl⟩ := id?_eq_some found
  obtain ⟨s, w, whose, -, -, called, -⟩ := numbered.variant_of_info known
  rw [place] at whose
  cases whose
  have same := distinct among place (named.trans called)
  subst same
  rw [place] at among
  cases among
  exact owns_iff.mpr ⟨_, tile, numbered.info_of_variant place chosen, place, on⟩

end Catalog

namespace Grid

variable {c : Catalog} {g h k : Grid}

/-- Every id in the grid was given out by the catalog, and for a tile of the layer that it stands on. -/
def Proper (c : Catalog) (g : Grid) : Prop := ∀ cell ∈ g.cells, cell.Upholds c.Owns

theorem proper_iff : g.Proper c ↔ g.Upholds c.Owns := upholds_iff_mem.symm

instance (c : Catalog) (g : Grid) : Decidable (g.Proper c) :=
  decidable_of_iff (∀ cell ∈ g.cells, ∀ slot ∈ cell.occupied, c.Owns slot.1 slot.2)
    (forall₂_congr fun _ _ => Cell.upholds_iff_occupied.symm)

def Known (c : Catalog) (g : Grid) : Prop := g.Upholds fun _ id => c.Knows id

theorem known_iff : g.Known c ↔ ∀ cell ∈ g.cells, ∀ slot ∈ cell.occupied, (c.info? slot.2).isSome = true := by
  simp only [Known, upholds_iff_mem, Cell.upholds_iff_occupied, Catalog.Knows, Option.isSome_iff_exists]

instance (c : Catalog) (g : Grid) : Decidable (g.Known c) := decidable_of_iff _ known_iff.symm

theorem rename_proper (numbered : c.Numbered) (distinct : c.TilesDistinct) (proper : g.Upholds c.Owns) :
    (g.rename c c).Upholds c.Owns :=
  proper.remap fun _ _ _ owned found => owned.id?_owns numbered distinct found

section Respected

variable {P : Layer → TileId → Prop} {σ : Type} [DrawSource σ] {s t : σ}

theorem SameTiles.upholds (respected : c.Respects P) (same : SameTiles c g h) (upheld : g.Upholds P) : h.Upholds P := by
  intro p inside layer id slot
  obtain ⟨old, before, occupant⟩ := same.symm.slot inside slot
  exact respected.of_occupant (upheld p ((contains_congr same.1).mp inside) layer old before) occupant.symm

theorem retile_upholds (numbered : c.Numbered) (respected : c.Respects P) (upheld : g.Upholds P)
    (h : retile c g s = .ok (k, t)) : k.Upholds P :=
  (retile_sameTiles numbered h).upholds respected upheld

theorem retileRegion_upholds (numbered : c.Numbered) (respected : c.Respects P) (upheld : g.Upholds P) {region : Rect}
    (h : retileRegion c g region s = .ok (k, t)) : k.Upholds P :=
  (retileRegion_sameTiles numbered h).upholds respected upheld

theorem place_upholds (numbered : c.Numbered) (respected : c.Respects P) (upheld : g.Upholds P) {p : Vec} {i : Nat}
    (h : g.place c p i s = .ok (k, t)) : k.Upholds P := by
  rcases place_eq_ok h with ⟨rfl, -⟩ | ⟨inside, tile, variant, found, default, retiled⟩
  · exact upheld
  · refine retileRegion_upholds numbered respected (upheld.update inside ?_) retiled
    refine (upheld p inside).set ?_
    rintro _ ⟨⟩
    exact respected.of_provides ⟨i, tile, variant, found, rfl, default, rfl⟩

theorem paste_upholds (numbered : c.Numbered) (respected : c.Respects P) (upheld : g.Upholds P) {brush : Brush}
    {offset : Vec} (landing : ∀ q layer id, g.Contains q → brush.slotAt (q - offset) layer = some id → P layer id)
    (h : g.paste c brush offset s = .ok (k, t)) : k.Upholds P := by
  obtain ⟨written, stamped, retiled⟩ := paste_eq_ok h
  exact retileRegion_upholds numbered respected (upheld.overlay landing stamped) retiled

theorem erase_upholds (numbered : c.Numbered) (respected : c.Respects P) (upheld : g.Upholds P) {a b : Vec}
    {filter : Filter} (h : g.erase c a b filter s = .ok (k, t)) : k.Upholds P := by
  rcases erase_eq_ok h with ⟨rfl, -⟩ | ⟨area, written, cleared, retiled⟩
  · exact upheld
  · exact retileRegion_upholds numbered respected (upheld.erasure cleared) retiled

end Respected

theorem grab_provides (proper : g.Upholds c.Owns) {a b : Vec} {filter : Filter} {brush : Brush}
    (h : g.grab c a b filter = .ok (some brush)) : brush.grid.Upholds c.Provides :=
  proper.grab (fun _ _ _ owned chosen => owned.provides_of_reset chosen) h

end Grid

theorem Brush.ofTile_provides {c : Catalog} {i : Nat} {brush : Brush} (h : Brush.ofTile c i = .ok brush) :
    brush.grid.Upholds c.Provides := by
  obtain ⟨tile, found, h⟩ := bind_eq_ok.mp h
  obtain ⟨blank, made, h⟩ := bind_eq_ok.mp h
  obtain ⟨variant, default, h⟩ := bind_eq_ok.mp h
  obtain ⟨grid, written, h⟩ := bind_eq_ok.mp h
  cases h
  refine (Grid.blank_upholds made).setLayer ?_ written
  rintro _ ⟨⟩
  exact ⟨i, tile, variant, entryAt_eq_ok_iff.mp found, rfl, default, rfl⟩

end Tilework
