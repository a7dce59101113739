import Tilework.Proofs.Catalog.Lookup
import Tilework.Proofs.Catalog.WellFormed

namespace Tilework

def TileInfo.entry (info : TileInfo) : String × String := (info.tileName, info.variantName)

def Tile.entries (t : Tile) : List (String × String) := t.variants.toList.map fun v => (t.name, v.name)

namespace Config

def Tile.entries (t : Tile) : List (String × String) := t.variantNames.map (Prod.mk t.name)

def entries (config : Config) : List (String × String) := config.tiles.flatMap Tile.entries

end Config

/-- The ids from zero to the count of infos are those of the authored entries, in the order of their names. -/
structure Catalog.Identifies (config : Config) (c : Catalog) : Prop where
  count : c.infos.size = config.entries.length
  has_id_iff : ∀ {tile variant : String}, (∃ id, c.id? tile variant = some id) ↔ (tile, variant) ∈ config.entries
  info_of_id : ∀ {tile variant : String} {id : TileId}, c.id? tile variant = some id →
    ∃ info t v, c.info id = .ok info ∧ info.tileName = tile ∧ info.variantName = variant ∧
      c.tiles[info.tile]? = some t ∧ t.name = tile ∧ t.variants[info.variant]? = some v ∧ v.name = variant ∧
      c.variantOf id = .ok v ∧ v.id = id
  one_entry : ∀ {id : TileId}, id.index < c.infos.size → ∃! entry : String × String, c.id? entry.1 entry.2 = some id
  index_lt_iff : ∀ {tile variant tile' variant' : String} {a b : TileId}, c.id? tile variant = some a →
    c.id? tile' variant' = some b →
      (a.index < b.index ↔ Prod.Lex (· < ·) (· < ·) (tile, variant) (tile', variant'))

theorem tileInfosFrom_entries (i : Nat) (tiles : List Tile) :
    (tileInfosFrom i tiles).map TileInfo.entry = tiles.flatMap Tile.entries := by
  induction tiles generalizing i with
  | nil => rfl
  | cons t rest ih =>
    rw [tileInfosFrom_cons, List.map_append, ih, List.flatMap_cons, List.map_map]
    exact congrArg (· ++ rest.flatMap Tile.entries) (map_zipIdx (fun v : Variant => (t.name, v.name)) _)

theorem Tile.numbered_entries (t : Tile) (first : Nat) : (t.numbered first).entries = t.entries :=
  numbered_map (f := fun v => (t.name, v.name)) fun _ _ => rfl

theorem Tile.Compiled.entries {place : Nat} {source : Config.Tile} {t : Tile} (compiled : t.Compiled place source) :
    t.entries.Perm source.entries := by
  have names := compiled.tabulates.names_perm.map (Prod.mk t.name)
  rw [List.map_map, compiled.name] at names
  rw [Tile.entries, compiled.name]
  exact names

theorem Tile.entries_pairwise {t : Tile} (ascending : Names.Ascending t.variants) :
    t.entries.Pairwise (Prod.Lex (· < ·) (· < ·)) := by
  rw [entries, List.pairwise_map]
  exact (List.pairwise_map.mp (Names.ascending_iff.mp ascending)).imp fun less => .right _ less

theorem entries_asymm {a b : String × String} (less : Prod.Lex (· < ·) (· < ·) a b) :
    ¬Prod.Lex (· < ·) (· < ·) b a := by
  rw [Prod.lex_def] at less ⊢
  rcases less with tile | ⟨same, variant⟩
  · rintro (back | ⟨same, -⟩)
    · exact String.lt_asymm tile back
    · exact Std.ne_of_lt tile same.symm
  · rintro (back | ⟨-, back⟩)
    · exact Std.ne_of_lt back same.symm
    · exact String.lt_asymm variant back

namespace Compilation

variable {config : Config} {c : Catalog} (stages : Compilation config c)

include stages

theorem infos_entries : c.infos.toList.map TileInfo.entry = stages.tiles.flatMap Tile.entries := by
  rw [stages.infos_eq, List.toList_toArray]
  refine (tileInfosFrom_entries 0 _).trans ?_
  rw [List.flatMap_def, List.flatMap_def, numberTiles_map Tile.numbered_entries,
    resolveFlags_map stages.flags_found fun _ _ => rfl]

theorem entries_perm : (c.infos.toList.map TileInfo.entry).Perm config.entries := by
  rw [stages.infos_entries]
  exact compileTiles_flatMap stages.tiles_compiled fun _ _ _ own => own.entries

theorem entries_pairwise : (c.infos.toList.map TileInfo.entry).Pairwise (Prod.Lex (· < ·) (· < ·)) := by
  rw [stages.infos_entries, List.pairwise_flatMap]
  constructor
  · intro t member
    obtain ⟨place, source, -, compiled⟩ := compileTiles_source stages.tiles_compiled member
    exact Tile.entries_pairwise compiled.tabulates.ascending
  · have names := Names.ascending_iff.mp (compileTiles_tabulates stages.tiles_compiled).ascending
    refine (List.pairwise_map.mp names).imp ?_
    intro t u less x first y second
    obtain ⟨v, -, rfl⟩ := List.mem_map.mp first
    obtain ⟨w, -, rfl⟩ := List.mem_map.mp second
    exact .left _ _ less

variable {a b : TileId} {former latter : TileInfo}

theorem entry_lt_of_index_lt (first : c.info? a = some former) (second : c.info? b = some latter)
    (less : a.index < b.index) : Prod.Lex (· < ·) (· < ·) former.entry latter.entry := by
  have pairs := List.pairwise_iff_getElem.mp (List.pairwise_map.mp stages.entries_pairwise)
  obtain ⟨inside, rfl⟩ := Array.getElem?_eq_some_iff.mp first
  obtain ⟨further, rfl⟩ := Array.getElem?_eq_some_iff.mp second
  exact pairs a.index b.index inside further less

theorem index_lt_iff (first : c.info? a = some former) (second : c.info? b = some latter) :
    a.index < b.index ↔ Prod.Lex (· < ·) (· < ·) former.entry latter.entry := by
  refine ⟨stages.entry_lt_of_index_lt first second, ?_⟩
  intro less
  rcases Nat.lt_trichotomy a.index b.index with before | same | after
  · exact before
  · have equal : c.info? a = c.info? b := congrArg (c.infos[·]?) same
    rw [first, second] at equal
    cases equal
    exact absurd less (entries_asymm less)
  · exact absurd less (entries_asymm (stages.entry_lt_of_index_lt second first after))

end Compilation

namespace Catalog

variable {c : Catalog} {tile variant : String} {id : TileId}

theorem Numbered.id?_eq_some_iff (numbered : c.Numbered) (ordered : c.Ordered) :
    c.id? tile variant = some id ↔ ∃ info, c.info? id = some info ∧ info.entry = (tile, variant) := by
  constructor
  · intro named
    obtain ⟨i, j, t, v, found, rfl, chosen, rfl, rfl⟩ := ordered.id?_eq_some_iff.mp named
    exact ⟨_, numbered.info_of_variant found chosen, rfl⟩
  · rintro ⟨info, known, names⟩
    cases names
    exact ordered.id?_of_info numbered known

/-- No info stands where the 32 bits of an id do not reach. -/
theorem mem_infos_iff (few : c.infos.size < 0x100000000) {info : TileInfo} :
    info ∈ c.infos ↔ ∃ id, c.info? id = some info := by
  constructor
  · intro member
    obtain ⟨k, place⟩ := Array.mem_iff_getElem?.mp member
    have inside := (Array.getElem?_eq_some_iff.mp place).1
    have index : TileId.index ⟨UInt32.ofNat k⟩ = k := by
      rw [TileId.index, UInt32.toNat_ofNat']
      omega
    refine ⟨⟨UInt32.ofNat k⟩, ?_⟩
    rw [info?, index]
    exact place
  · rintro ⟨id, known⟩
    exact Array.mem_of_getElem? known

end Catalog

theorem entries_identified {config : Config} {c : Catalog} (compiled : config.compile = .ok c)
    (few : config.entries.length < 0x100000000) : c.Identifies config := by
  obtain ⟨stages⟩ := compile_eq_ok compiled
  have count : c.infos.size = config.entries.length := by
    rw [← stages.entries_perm.length_eq, List.length_map, Array.length_toList]
  have numbered := stages.numbered (count.trans_lt few)
  have identity : ∀ {tile variant id}, c.id? tile variant = some id ↔ _ := numbered.id?_eq_some_iff stages.ordered
  constructor
  · exact count
  · intro tile variant
    rw [← stages.entries_perm.mem_iff, List.mem_map]
    simp only [identity, Array.mem_toList_iff, Catalog.mem_infos_iff (count.trans_lt few)]
    constructor
    · rintro ⟨id, info, known, names⟩
      exact ⟨info, ⟨id, known⟩, names⟩
    · rintro ⟨info, ⟨id, known⟩, names⟩
      exact ⟨id, info, known, names⟩
  · intro tile variant id named
    obtain ⟨info, known, names⟩ := identity.mp named
    obtain ⟨t, v, found, chosen, same, tileName, variantName⟩ := numbered.variant_of_info known
    cases names
    have answered : c.info id = .ok info := by rw [Catalog.info, known]
    have selected : c.variantOf id = .ok v :=
      bind_eq_ok.mpr ⟨info, answered, bind_eq_ok.mpr ⟨t, entryAt_eq_ok_iff.mpr found, entryAt_eq_ok_iff.mpr chosen⟩⟩
    exact ⟨info, t, v, answered, rfl, rfl, found, tileName.symm, chosen, variantName.symm, selected, same⟩
  · intro id inside
    have known : c.info? id = some c.infos[id.index] := Array.getElem?_eq_getElem inside
    refine ⟨c.infos[id.index].entry, identity.mpr ⟨_, known, rfl⟩, ?_⟩
    intro entry named
    obtain ⟨info, other, names⟩ := identity.mp named
    rw [known] at other
    cases other
    exact names.symm
  · intro tile variant tile' variant' a b first second
    obtain ⟨former, known, names⟩ := identity.mp first
    obtain ⟨latter, known', names'⟩ := identity.mp second
    rw [← names, ← names']
    exact stages.index_lt_iff known known'

theorem entries_identified_orchard :
    orchardConfig.compile = .ok orchardCatalog ∧ orchardConfig.entries.length < 0x100000000 ∧
      orchardCatalog.Identifies orchardConfig := by
  have few : orchardConfig.entries.length < 0x100000000 := by decide
  exact ⟨orchardConfig_compile, few, entries_identified orchardConfig_compile few⟩

end Tilework
