import Tilework.Proofs.Catalog.References

namespace Tilework

theorem Sorted.search?_isSome_iff {items : Array Nat} (sorted : items.toList.Pairwise (· ≤ ·)) {n : Nat} :
    (search? (fun k => compare k n) items).isSome = true ↔ n ∈ items := by
  rw [Option.isSome_iff_exists]
  constructor
  · rintro ⟨i, found⟩
    obtain ⟨k, read, equal⟩ := searchIn_eq_some found
    rw [← Nat.compare_eq_eq.mp equal]
    exact Array.mem_of_getElem? read
  · intro member
    refine exists_search? sorted member (Nat.compare_eq_eq.mpr rfl) ?_ ?_
    · intro k less
      rw [Ne, Nat.compare_eq_gt]
      exact Nat.not_lt.mpr less
    · intro k greater
      rw [Ne, Nat.compare_eq_lt]
      exact Nat.not_lt.mpr greater

structure Group.Gathers (c : Catalog) (source : Config.Group) (g : Group) : Prop where
  name : g.name = source.name
  containsName_iff : ∀ {key : String}, g.containsName key = true ↔ key ∈ source.tiles
  containsIndex_iff : ∀ {i : Nat}, g.containsIndex i = true ↔ ∃ t, c.tiles[i]? = some t ∧ t.name ∈ source.tiles

structure Tile.Flagged (c : Catalog) (source : Config.Tile) (t : Tile) : Prop where
  name : t.name = source.name
  hasFlag_iff : ∀ {flag : String} {i : Nat}, c.flagIndex? flag = some i → (t.hasFlag i = true ↔ flag ∈ source.flags)
  hasFlag_past : ∀ {i : Nat}, c.flags.size ≤ i → t.hasFlag i = false

/-- Flags, groups and tiles are found by the authored names and by no other ones. What is found has the authored members
and flags. -/
structure Catalog.Memberships (config : Config) (c : Catalog) : Prop where
  flag_found_iff : ∀ {key : String}, (∃ i, c.flagIndex? key = some i) ↔ key ∈ config.flags
  group_found_iff : ∀ {key : String}, (∃ j, c.groupIndex? key = some j) ↔ key ∈ config.groupNames
  tile_found_iff : ∀ {key : String}, (∃ i, c.tileIndex? key = some i) ↔ key ∈ config.tileNames
  group_of_authored : ∀ {source : Config.Group}, source ∈ config.groups →
    ∃ j g, c.groupIndex? source.name = some j ∧ c.groups[j]? = some g ∧ g.Gathers c source
  group_authored : ∀ {j : Nat} {g : Group}, c.groups[j]? = some g →
    ∃ source ∈ config.groups, c.groupIndex? source.name = some j ∧ g.Gathers c source
  tile_of_authored : ∀ {source : Config.Tile}, source ∈ config.tiles →
    ∃ i t, c.tileIndex? source.name = some i ∧ c.tiles[i]? = some t ∧ t.Flagged c source
  tile_authored : ∀ {i : Nat} {t : Tile}, c.tiles[i]? = some t →
    ∃ source ∈ config.tiles, c.tileIndex? source.name = some i ∧ t.Flagged c source

namespace Compilation

variable {config : Config} {c : Catalog} (stages : Compilation config c)

include stages

theorem indices_sorted {j : Nat} {g : Group} (found : c.groups[j]? = some g) : g.indices.toList.Pairwise (· ≤ ·) := by
  rw [stages.groups_eq, List.getElem?_toArray] at found
  obtain ⟨before, -, looked⟩ := exists_left_of_forall₂ (mapM_eq_ok.mp stages.members_found) found
  obtain ⟨indices, -, rfl⟩ := Group.resolveMembers_eq_ok looked
  exact Sorted.sort_key_pairwise id indices

theorem group_gathers (sound : config.WellFormed) {j : Nat} {g : Group} (found : c.groups[j]? = some g) :
    ∃ source ∈ config.groups, g.name = source.name ∧ g.Gathers c source := by
  obtain ⟨source, among, refers⟩ := stages.group_refers sound found
  refine ⟨source, among, refers.name, refers.name, refers.tiles.contains_iff, ?_⟩
  intro i
  exact (Sorted.search?_isSome_iff (stages.indices_sorted found)).trans refers.mem_indices

theorem tile_flagged {i : Nat} {t : Tile} (found : c.tiles[i]? = some t) :
    ∃ source ∈ config.tiles, t.name = source.name ∧ t.Flagged c source := by
  obtain ⟨source, listed, refers⟩ := stages.tile_refers found
  refine ⟨source, List.mem_of_getElem? listed, refers.name, refers.name, ?_, ?_⟩
  · intro flag k known
    obtain ⟨_, stands, rfl⟩ := Names.index?_eq_some known
    rw [refers.hasFlag_iff]
    constructor
    · rintro ⟨other, member, same⟩
      rw [stands] at same
      cases same
      exact member
    · intro member
      exact ⟨_, member, stands⟩
  · intro k past
    rw [← Bool.not_eq_true, refers.hasFlag_iff]
    rintro ⟨flag, -, stands⟩
    have := (Array.getElem?_eq_some_iff.mp stands).1
    omega

end Compilation

theorem memberships_authored {config : Config} {c : Catalog} (compiled : config.compile = .ok c) :
    c.Memberships config := by
  obtain ⟨stages⟩ := compile_eq_ok compiled
  have sound := config.compile_screens.result compiled
  constructor
  · exact stages.flags_tabulates.exists_index?_iff
  · exact stages.groups_tabulates.exists_index?_iff
  · exact stages.tiles_tabulates.exists_index?_iff
  · exact stages.groups_tabulates.exists_of_source (stages.group_gathers sound)
  · intro j g found
    obtain ⟨source, among, called, gathers⟩ := stages.group_gathers sound found
    refine ⟨source, among, ?_, gathers⟩
    rw [← called]
    exact stages.groups_tabulates.ascending.index?_eq found
  · exact stages.tiles_tabulates.exists_of_source stages.tile_flagged
  · intro i t found
    obtain ⟨source, among, called, flagged⟩ := stages.tile_flagged found
    refine ⟨source, among, ?_, flagged⟩
    rw [← called]
    exact stages.tiles_tabulates.ascending.index?_eq found

theorem memberships_authored_orchard :
    orchardConfig.compile = .ok orchardCatalog ∧ orchardCatalog.Memberships orchardConfig :=
  ⟨orchardConfig_compile, memberships_authored orchardConfig_compile⟩

end Tilework
