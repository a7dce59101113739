import Tilework.Proofs.Catalog.WellFormed

namespace Tilework

def Tile.Selects (t : Tile) (i : Nat) (key : String) : Prop := ∃ v, t.variants[i]? = some v ∧ v.name = key

/-- What the requirement aims at goes by its name, or is anything if it has none. -/
structure Requirement.Aims (c : Catalog) (r : Requirement) : Prop where
  any_iff : r.target = .any ↔ r.name = ""
  tile : ∀ {i : Nat}, r.target = .tile i → ∃ t, c.tiles[i]? = some t ∧ t.name = r.name
  group : ∀ {j : Nat}, r.target = .group j → ∃ g, c.groups[j]? = some g ∧ g.name = r.name

def Requirement.Aimed (c : Catalog) (authored : List Config.Requirement) (requirements : List Requirement) : Prop :=
  List.Forall₂ (fun a r => r.name = a.name ∧ r.offset = a.offset ∧ r.Aims c) authored requirements

structure Rule.Refers (c : Catalog) (t : Tile) (source : Config.Rule) (rule : Rule) : Prop where
  results : List.Forall₂ (fun a o => o.name = a.name ∧ t.Selects o.variant a.name) source.results rule.results
  reqVariants_ascend : rule.reqVariants.toList.Pairwise (· < ·)
  mem_reqVariants : ∀ {i : Nat}, i ∈ rule.reqVariants ↔ ∃ key ∈ source.reqVariants, t.Selects i key
  requires : Requirement.Aimed c (Config.spread source.matrices source.requires) rule.requires
  requiresNot : Requirement.Aimed c (Config.spread source.matrices source.requiresNot) rule.requiresNot

structure Tile.Refers (c : Catalog) (source : Config.Tile) (t : Tile) : Prop where
  name : t.name = source.name
  variants : Names.Tabulates t.variants source.variantNames
  default : t.Selects t.defaultVariant source.defaultVariant
  display : t.Selects t.displayVariant source.displayVariant
  hasFlag_iff : ∀ {i : Nat}, t.hasFlag i = true ↔ ∃ flag ∈ source.flags, c.flags[i]? = some flag
  rules : List.Forall₂ (fun x rule => rule.authoredIndex = x.1 ∧ rule.Refers c t x.2) (Config.expanded source.rules)
    t.rules.toList

structure Group.Refers (c : Catalog) (source : Config.Group) (g : Group) : Prop where
  name : g.name = source.name
  tiles : Names.Tabulates g.tiles source.tiles
  mem_indices : ∀ {i : Nat}, i ∈ g.indices ↔ ∃ t, c.tiles[i]? = some t ∧ t.name ∈ source.tiles

/-- The tables have an entry for each authored name and ascend by name, and every reference is to what was named. -/
structure Catalog.Refers (config : Config) (c : Catalog) : Prop where
  flags : Names.Tabulates c.flags config.flags
  groups : Names.Tabulates c.groups config.groupNames
  tiles : Names.Tabulates c.tiles config.tileNames
  group : ∀ {j : Nat} {g : Group}, c.groups[j]? = some g → ∃ source ∈ config.groups, g.Refers c source
  tile : ∀ {i : Nat} {t : Tile}, c.tiles[i]? = some t →
    ∃ source, config.tiles[t.authoredIndex]? = some source ∧ t.Refers c source

namespace Tile

variable {t : Tile} {i first : Nat} {key : String}

theorem selects_of_index? (found : Names.index? t.variants key = some i) : t.Selects i key := Names.index?_eq_some found

theorem numbered_selects : (t.numbered first).Selects i key ↔ t.Selects i key := by
  constructor
  · rintro ⟨v, found, rfl⟩
    obtain ⟨w, inside, rfl⟩ := numbered_variant found
    exact ⟨w, inside, rfl⟩
  · rintro ⟨v, found, rfl⟩
    refine ⟨{ v with id := ⟨UInt32.ofNat (first + i)⟩ }, ?_, rfl⟩
    rw [numbered, Array.getElem?_mapIdx, found]
    rfl

end Tile

namespace Rule.Compiled

variable {t : Tile} {place i first : Nat} {source : Config.Rule} {rule : Rule}

theorem reqVariants_ascend {variants : Array Variant} (compiled : rule.Compiled variants place source) :
    rule.reqVariants.toList.Pairwise (· < ·) := by
  obtain ⟨indices, -, same⟩ := compiled.reqVariants
  have sorted := Sorted.sort_key_pairwise id indices
  rw [same]
  exact (Sorted.dedup_pairwise (fun _ _ => Nat.le_antisymm) sorted).imp fun apart => Nat.lt_of_le_of_ne apart.1 apart.2

theorem mem_reqVariants (compiled : rule.Compiled t.variants place source) (ascending : Names.Ascending t.variants) :
    i ∈ rule.reqVariants ↔ ∃ key ∈ source.reqVariants, t.Selects i key := by
  obtain ⟨indices, found, same⟩ := compiled.reqVariants
  rw [same, List.mem_toArray, Sorted.mem_dedup, Sorted.mem_sort, mem_iff_of_forall₂ found]
  simp only [ascending.index?_eq_some_iff]
  rfl

end Rule.Compiled

namespace Compilation

variable {config : Config} {c : Catalog} (stages : Compilation config c)

include stages

/-- The tables in which the stages look things up are not finished, but their names are those of the finished ones. -/
theorem flagged_index? (key : String) : Names.index? stages.flagged.toArray key = c.tileIndex? key := by
  apply Names.index?_congr
  rw [stages.tiles_map (fun _ _ => rfl) (fun _ _ => rfl) fun _ _ => rfl]
  exact resolveFlags_map stages.flags_found fun _ _ => rfl

theorem numbered_index? (key : String) :
    Names.index? (numberTiles 0 stages.flagged).toArray key = c.tileIndex? key := by
  rw [← stages.flagged_index?]
  exact Names.index?_congr (numberTiles_map (fun _ _ => rfl) 0 stages.flagged) key

theorem members_index? (key : String) : Names.index? stages.members.toArray key = c.groupIndex? key := by
  rw [Catalog.groupIndex?, stages.groups_eq]

theorem tile_named {i : Nat} {u : Tile} (found : c.tiles[i]? = some u) : u.name ≠ "" := by
  obtain ⟨t, _, source, _, _, _, -, -, compiled, -, rfl, -⟩ := stages.origin found
  have named := compiled.named
  rw [← compiled.name] at named
  exact named

theorem aims {tile : String} {r s : Requirement}
    (looked : r.resolve (numberTiles 0 stages.flagged).toArray stages.members.toArray tile = .ok s) :
    s.name = r.name ∧ s.offset = r.offset ∧ s.Aims c := by
  obtain ⟨target, rfl, found⟩ := Requirement.resolve_eq_ok looked
  refine ⟨rfl, rfl, ?_⟩
  cases found with
  | any _ empty => exact ⟨iff_of_true rfl empty, nofun, nofun⟩
  | tile listed =>
    rw [stages.numbered_index?] at listed
    obtain ⟨t, place, called⟩ := Names.index?_eq_some listed
    have named : r.name ≠ "" := fun empty => stages.tile_named place (called.trans empty)
    refine ⟨iff_of_false nofun named, ?_, nofun⟩
    rintro _ ⟨⟩
    exact ⟨t, place, called⟩
  | group _ filled grouped =>
    rw [stages.members_index?] at grouped
    obtain ⟨g, place, called⟩ := Names.index?_eq_some grouped
    refine ⟨iff_of_false nofun filled, nofun, ?_⟩
    rintro _ ⟨⟩
    exact ⟨g, place, called⟩

theorem aimed {tile : String} {authored : List Config.Requirement} {before after : List Requirement}
    (spread : before = authored.map fun r => ⟨r.name, r.offset, .any⟩)
    (looked : List.Forall₂
      (fun a b => a.resolve (numberTiles 0 stages.flagged).toArray stages.members.toArray tile = .ok b) before after) :
    Requirement.Aimed c authored after := by
  rw [spread, List.forall₂_map_left_iff] at looked
  exact looked.imp fun _ _ => stages.aims

theorem rule_refers {tile : String} {place : Nat} {source : Config.Rule} {t u : Tile} {before after : Rule}
    (compiled : before.Compiled t.variants place source) (ascending : Names.Ascending t.variants)
    (selects : ∀ {i key}, u.Selects i key ↔ t.Selects i key)
    (looked : before.resolve (numberTiles 0 stages.flagged).toArray stages.members.toArray tile = .ok after) :
    after.authoredIndex = place ∧ after.Refers c u source := by
  obtain ⟨requires, requiresNot, rfl, wanted, unwanted⟩ := Rule.resolve_eq_ok looked
  refine ⟨compiled.authoredIndex, ?_⟩
  constructor
  · refine compiled.results.imp ?_
    rintro a _ ⟨v, found, rfl⟩
    exact ⟨rfl, selects.mpr (Tile.selects_of_index? found)⟩
  · exact compiled.reqVariants_ascend
  · intro i
    simp only [selects]
    exact compiled.mem_reqVariants ascending
  · exact stages.aimed compiled.requires wanted
  · exact stages.aimed compiled.requiresNot unwanted

theorem hasFlag_iff {t : Tile} {bits : Array Bool} {i : Nat}
    (resolved : t.resolveFlags c.flags = .ok { t with flagBits := bits }) :
    bits[i]?.getD false = true ↔ ∃ flag ∈ t.flags, c.flags[i]? = some flag := by
  obtain ⟨indices, found, same⟩ := Tile.resolveFlags_eq_ok resolved
  obtain rfl : bits = Array.ofFn fun i : Fin c.flags.size => indices.contains i.val := congrArg Tile.flagBits same
  have known : ∀ {flag}, Names.index? c.flags flag = some i ↔ c.flags[i]? = some flag := by
    intro flag
    rw [stages.flags_tabulates.ascending.index?_eq_some_iff]
    constructor
    · rintro ⟨_, place, rfl⟩
      exact place
    · exact fun place => ⟨flag, place, rfl⟩
  simp only [← known, ← mem_iff_of_forall₂ found]
  rw [Array.getElem?_ofFn]
  constructor
  · intro bit
    split at bit
    · simpa using bit
    · cases bit
  · intro member
    obtain ⟨flag, _, place⟩ := (mem_iff_of_forall₂ found).mp member
    obtain ⟨inside, -⟩ := Array.getElem?_eq_some_iff.mp (known.mp place)
    simpa [inside] using member

theorem tile_refers {i : Nat} {u : Tile} (found : c.tiles[i]? = some u) :
    ∃ source, config.tiles[u.authoredIndex]? = some source ∧ u.Refers c source := by
  obtain ⟨t, place, source, first, bits, rules, -, listed, compiled, flags, rfl, looked⟩ := stages.origin found
  have ascending := compiled.tabulates.ascending
  refine ⟨source, ?_, ?_⟩
  · rw [← compiled.authoredIndex] at listed
    exact listed
  constructor
  · exact compiled.name
  · exact compiled.tabulates.congr Tile.numbered_names
  · exact Tile.numbered_selects.mpr (Tile.selects_of_index? compiled.default)
  · exact Tile.numbered_selects.mpr (Tile.selects_of_index? compiled.display)
  · intro i
    refine (stages.hasFlag_iff flags).trans ?_
    simp only [compiled.flags, Sorted.mem_dedup, Names.sort, Sorted.mem_sort]
  · apply forall₂_comp _ compiled.rules looked
    intro x before after from_source resolved
    exact stages.rule_refers (Rule.compile_eq_ok from_source) ascending Tile.numbered_selects resolved

theorem group_refers (sound : config.WellFormed) {j : Nat} {g : Group} (found : c.groups[j]? = some g) :
    ∃ source ∈ config.groups, g.Refers c source := by
  rw [stages.groups_eq, List.getElem?_toArray] at found
  obtain ⟨before, listed, looked⟩ := exists_left_of_forall₂ (mapM_eq_ok.mp stages.members_found) found
  obtain ⟨-, sorted⟩ := compileGroups_eq_ok stages.groups_compiled
  rw [sorted] at listed
  obtain ⟨source, among, rfl⟩ := List.mem_map.mp (Sorted.mem_sort.mp (List.mem_of_getElem? listed))
  obtain ⟨indices, members, rfl⟩ := Group.resolveMembers_eq_ok looked
  refine ⟨source, among, rfl, ?_, ?_⟩
  · have apart := (sound.groups source among).distinct
    rw [← List.map_id source.tiles] at apart
    exact (List.map_id source.tiles).subst (Names.tabulates_sort apart)
  · intro i
    rw [List.mem_toArray, Sorted.mem_sort, mem_iff_of_forall₂ members]
    have member : ∀ {key}, key ∈ (Names.sort source.tiles).toArray.toList ↔ key ∈ source.tiles := Sorted.mem_sort
    simp only [stages.flagged_index?, Catalog.tileIndex?, stages.tiles_tabulates.ascending.index?_eq_some_iff]
    constructor
    · rintro ⟨_, named, t, place, rfl⟩
      exact ⟨t, place, member.mp named⟩
    · rintro ⟨t, place, named⟩
      exact ⟨t.name, member.mpr named, t, place, rfl⟩

end Compilation

/-- Every reference of a compiled catalog is to what bears the authored name. -/
theorem compiled_refers {config : Config} {c : Catalog} (compiled : config.compile = .ok c) : c.Refers config := by
  obtain ⟨stages⟩ := compile_eq_ok compiled
  constructor
  · exact stages.flags_tabulates
  · exact stages.groups_tabulates
  · exact stages.tiles_tabulates
  · exact stages.group_refers (config.compile_screens.result compiled)
  · exact stages.tile_refers

theorem compiled_refers_orchard : orchardConfig.compile = .ok orchardCatalog ∧ orchardCatalog.Refers orchardConfig :=
  ⟨orchardConfig_compile, compiled_refers orchardConfig_compile⟩

end Tilework
