import Tilework.Proofs.Catalog.Origin
import Tilework.Proofs.Catalog.Reach

namespace Tilework

def Target.Exists (c : Catalog) : Target → Prop
  | any => True
  | tile i => i < c.tiles.size
  | group i => i < c.groups.size

/-- The rule can be tried for a tile of `variants` variants. -/
structure Rule.Intact (c : Catalog) (variants : Nat) (rule : Rule) : Prop where
  results : rule.results ≠ []
  outcome : ∀ outcome ∈ rule.results, outcome.variant < variants
  period_x : 1 ≤ rule.period.size.x
  period_y : 1 ≤ rule.period.size.y
  target : ∀ r ∈ rule.requirements, r.target.Exists c

structure Catalog.Intact (c : Catalog) : Prop where
  tile_of_info : ∀ {id : TileId} {info : TileInfo}, c.info? id = some info → info.tile < c.tiles.size
  default : ∀ {i : Nat} {tile : Tile}, c.tiles[i]? = some tile → tile.defaultVariant < tile.variants.size
  rule : ∀ {i : Nat} {tile : Tile} {rule : Rule}, c.tiles[i]? = some tile → rule ∈ tile.rules →
    rule.Intact c tile.variants.size

namespace Rule.Compiled

variable {variants : Array Variant} {place : Nat} {source : Config.Rule} {rule : Rule}

theorem some_outcome (compiled : rule.Compiled variants place source) : rule.results ≠ [] := by
  intro none
  have results := compiled.results
  rw [none] at results
  cases authored : source.results with
  | nil => exact compiled.some_result authored
  | cons a rest =>
    rw [authored] at results
    cases results

theorem outcome_inside (compiled : rule.Compiled variants place source) {outcome : Outcome}
    (member : outcome ∈ rule.results) : outcome.variant < variants.size := by
  obtain ⟨k, place⟩ := List.mem_iff_getElem?.mp member
  obtain ⟨a, -, variant, found, rfl⟩ := exists_left_of_forall₂ compiled.results place
  obtain ⟨v, inside, -⟩ := Names.index?_eq_some found
  exact (Array.getElem?_eq_some_iff.mp inside).1

theorem period_positive (compiled : rule.Compiled variants place source) :
    1 ≤ rule.period.size.x ∧ 1 ≤ rule.period.size.y := by
  rw [compiled.period]
  exact Int.le_min.mp compiled.positive

end Rule.Compiled

theorem Requirement.target_of_resolve {c : Catalog} {tiles : Array Tile} {tile : String} {r s : Requirement}
    (count : tiles.size = c.tiles.size) (h : r.resolve tiles c.groups tile = .ok s) : s.target.Exists c := by
  obtain ⟨target, rfl, found⟩ := Requirement.resolve_eq_ok h
  cases found with
  | any => trivial
  | tile listed =>
    obtain ⟨t, place, -⟩ := Names.index?_eq_some listed
    have inside := (Array.getElem?_eq_some_iff.mp place).1
    rw [count] at inside
    exact inside
  | group _ _ grouped =>
    obtain ⟨g, place, -⟩ := Names.index?_eq_some grouped
    exact (Array.getElem?_eq_some_iff.mp place).1

theorem Rule.target_of_resolve {c : Catalog} {tiles : Array Tile} {tile : String} {rule resolved : Rule}
    (count : tiles.size = c.tiles.size) (h : rule.resolve tiles c.groups tile = .ok resolved) :
    resolved.results = rule.results ∧ resolved.period = rule.period ∧
      ∀ r ∈ resolved.requirements, r.target.Exists c := by
  have looked := Rule.requirements_of_resolve h
  obtain ⟨requires, requiresNot, rfl, -, -⟩ := Rule.resolve_eq_ok h
  refine ⟨rfl, rfl, ?_⟩
  intro r member
  obtain ⟨k, place⟩ := List.mem_iff_getElem?.mp member
  obtain ⟨source, -, found⟩ := exists_left_of_forall₂ looked place
  exact Requirement.target_of_resolve count found

namespace Compilation

variable {config : Config} {c : Catalog}

theorem numbered_count (stages : Compilation config c) :
    (numberTiles 0 stages.flagged).toArray.size = c.tiles.size := by
  rw [List.size_toArray, stages.tiles_eq, List.size_toArray]
  exact stages.resolves.length_eq

theorem intact (stages : Compilation config c) : c.Intact := by
  constructor
  · intro id info known
    rw [stages.info?_eq] at known
    obtain ⟨i, tile, v, same, place, -, -⟩ := numbered_of_info known
    have inside := (List.getElem?_eq_some_iff.mp place).1
    rw [same, ← stages.numbered_count, List.size_toArray, Nat.zero_add]
    exact inside
  · intro i u found
    obtain ⟨t, _, _, first, _, _, -, -, compiled, -, rfl, -⟩ := stages.origin found
    have count : (t.numbered first).variants.size = t.variants.size := Tile.numbered_size
    obtain ⟨v, inside, -⟩ := Names.index?_eq_some compiled.default
    have listed := (Array.getElem?_eq_some_iff.mp inside).1
    rw [← count] at listed
    exact listed
  · intro i u rule found member
    obtain ⟨t, _, _, first, _, rules, -, -, compiled, -, rfl, resolved⟩ := stages.origin found
    obtain ⟨k, place⟩ := List.mem_iff_getElem?.mp (List.mem_toArray.mp member)
    obtain ⟨before, earlier, looked⟩ := exists_left_of_forall₂ resolved place
    obtain ⟨authored, -, from_authored⟩ := exists_left_of_forall₂ compiled.rules earlier
    have own := Rule.compile_eq_ok from_authored
    rw [← stages.groups_eq] at looked
    have count : (t.numbered first).variants.size = t.variants.size := Tile.numbered_size
    obtain ⟨sameResults, samePeriod, targets⟩ := Rule.target_of_resolve stages.numbered_count looked
    constructor
    · rw [sameResults]
      exact own.some_outcome
    · rw [sameResults]
      intro outcome chosen
      have inside := own.outcome_inside chosen
      rw [← count] at inside
      exact inside
    · rw [samePeriod]
      exact own.period_positive.1
    · rw [samePeriod]
      exact own.period_positive.2
    · exact targets

end Compilation

end Tilework
