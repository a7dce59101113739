import Tilework.Catalog.Compile
import Tilework.Proofs.Checked

namespace Tilework

namespace Compiling

variable {α : Type}

theorem lift_eq_ok {x : Checked α} {a : α} : (liftM x : Compiling α) = .ok a ↔ x = .ok a := by
  cases x with
  | error cause => exact iff_of_false (fun h => nomatch h) (fun h => nomatch h)
  | ok b => exact ⟨fun h => congrArg Except.ok (Except.ok.inj h), fun h => congrArg Except.ok (Except.ok.inj h)⟩

theorem ensure_eq_ok {condition : Bool} {reason : Invalid} {u : Unit} :
    ensure condition reason = .ok u ↔ condition = true := by
  cases condition <;> simp [ensure, refuse]

theorem found_eq_ok {reason : Invalid} {x : Option α} {a : α} : found reason x = .ok a ↔ x = some a := by
  cases x <;> simp [found, refuse]

theorem distinct_eq_ok {reason : α → Invalid} {x : Option α} {u : Unit} :
    distinct reason x = .ok u ↔ x = none := by
  cases x <;> simp [distinct, refuse]

end Compiling

/-- What the stages of a compilation come to. -/
structure Compilation (config : Config) (c : Catalog) where
  groups : List Group
  tiles : List Tile
  flagged : List Tile
  members : List Group
  resolved : List Tile
  flags_distinct : Names.duplicate? (Names.sort config.flags) = none
  groups_compiled : compileGroups config.groups = .ok groups
  tiles_compiled : compileTiles groups config.tiles = .ok tiles
  flags_found : tiles.mapM (Tile.resolveFlags c.flags) = .ok flagged
  members_found : groups.mapM (Group.resolveMembers flagged.toArray) = .ok members
  footprint_eq : footprint (numberTiles 0 flagged) = .ok (c.footprintLow, c.footprintHigh)
  range_eq : lookRange (numberTiles 0 flagged) = .ok c.range
  targets_found :
    (numberTiles 0 flagged).mapM (Tile.resolve (numberTiles 0 flagged).toArray members.toArray) = .ok resolved
  flags_eq : c.flags = (Names.sort config.flags).toArray
  groups_eq : c.groups = members.toArray
  tiles_eq : c.tiles = resolved.toArray
  infos_eq : c.infos = (tileInfos (numberTiles 0 flagged)).toArray

theorem compile_eq_ok {config : Config} {c : Catalog} (h : config.compile = .ok c) :
    Nonempty (Compilation config c) := by
  unfold Config.compile at h
  obtain ⟨_, flagsDistinct, h⟩ := bind_eq_ok.mp h
  obtain ⟨groups, groupsCompiled, h⟩ := bind_eq_ok.mp h
  obtain ⟨tiles, tilesCompiled, h⟩ := bind_eq_ok.mp h
  obtain ⟨flagged, flagsFound, h⟩ := bind_eq_ok.mp h
  obtain ⟨members, membersFound, h⟩ := bind_eq_ok.mp h
  obtain ⟨⟨low, high⟩, corners, h⟩ := bind_eq_ok.mp h
  obtain ⟨range, looked, h⟩ := bind_eq_ok.mp h
  obtain ⟨resolved, targetsFound, h⟩ := bind_eq_ok.mp h
  cases h
  exact ⟨{
    groups := groups
    tiles := tiles
    flagged := flagged
    members := members
    resolved := resolved
    flags_distinct := Compiling.distinct_eq_ok.mp flagsDistinct
    groups_compiled := groupsCompiled
    tiles_compiled := tilesCompiled
    flags_found := flagsFound
    members_found := membersFound
    footprint_eq := Compiling.lift_eq_ok.mp corners
    range_eq := Compiling.lift_eq_ok.mp looked
    targets_found := targetsFound
    flags_eq := rfl
    groups_eq := rfl
    tiles_eq := rfl
    infos_eq := rfl }⟩

inductive Target.Found (tiles : Array Tile) (groups : Array Group) (key : String) : Target → Prop where
  | tile {i : Nat} : Names.index? tiles key = some i → Found tiles groups key (.tile i)
  | any : Names.index? tiles key = none → key = "" → Found tiles groups key .any
  | group {i : Nat} : Names.index? tiles key = none → key ≠ "" → Names.index? groups key = some i →
    Found tiles groups key (.group i)

theorem Requirement.resolve_eq_ok {tiles : Array Tile} {groups : Array Group} {tile : String}
    {r s : Requirement} (h : r.resolve tiles groups tile = .ok s) :
    ∃ target, s = { r with target := target } ∧ target.Found tiles groups r.name := by
  unfold resolve at h
  split at h
  · rename_i i listed
    cases h
    exact ⟨_, rfl, .tile listed⟩
  · rename_i missing
    split at h
    · rename_i empty
      cases h
      exact ⟨_, rfl, .any missing (String.isEmpty_iff.mp empty)⟩
    · rename_i filled
      obtain ⟨i, grouped, h⟩ := bind_eq_ok.mp h
      cases h
      exact ⟨_, rfl, .group missing (fun empty => filled (String.isEmpty_iff.mpr empty)) (Compiling.found_eq_ok.mp grouped)⟩

theorem Requirement.resolve_of_found {tiles : Array Tile} {groups : Array Group} {tile : String} {r : Requirement}
    {target : Target} (found : target.Found tiles groups r.name) :
    r.resolve tiles groups tile = .ok { r with target := target } := by
  unfold resolve
  cases found with
  | tile listed =>
    rw [listed]
    rfl
  | any missing empty =>
    rw [missing, empty]
    rfl
  | group missing filled grouped =>
    rw [missing, grouped]
    simp only [if_neg (mt String.isEmpty_iff.mp filled)]
    rfl

theorem Rule.resolve_eq_ok {tiles : Array Tile} {groups : Array Group} {tile : String} {r s : Rule}
    (h : r.resolve tiles groups tile = .ok s) :
    ∃ requires requiresNot, s = { r with requires := requires, requiresNot := requiresNot } ∧
      List.Forall₂ (fun a b => a.resolve tiles groups tile = .ok b) r.requires requires ∧
      List.Forall₂ (fun a b => a.resolve tiles groups tile = .ok b) r.requiresNot requiresNot := by
  unfold resolve at h
  obtain ⟨requires, wanted, h⟩ := bind_eq_ok.mp h
  obtain ⟨requiresNot, unwanted, h⟩ := bind_eq_ok.mp h
  cases h
  exact ⟨requires, requiresNot, rfl, mapM_eq_ok.mp wanted, mapM_eq_ok.mp unwanted⟩

theorem Rule.requirements_of_resolve {tiles : Array Tile} {groups : Array Group} {tile : String} {rule resolved : Rule}
    (h : rule.resolve tiles groups tile = .ok resolved) :
    List.Forall₂ (fun a b => a.resolve tiles groups tile = .ok b) rule.requirements resolved.requirements := by
  obtain ⟨requires, requiresNot, rfl, wanted, unwanted⟩ := Rule.resolve_eq_ok h
  exact List.rel_append wanted unwanted

theorem Tile.resolve_eq_ok {tiles : Array Tile} {groups : Array Group} {t u : Tile}
    (h : t.resolve tiles groups = .ok u) :
    ∃ rules, u = { t with rules := rules.toArray } ∧
      List.Forall₂ (fun a b => a.resolve tiles groups t.name = .ok b) t.rules.toList rules := by
  unfold resolve at h
  obtain ⟨rules, found, h⟩ := bind_eq_ok.mp h
  cases h
  exact ⟨rules, rfl, mapM_eq_ok.mp found⟩

theorem Tile.resolveFlags_eq_ok {flags : Array String} {t u : Tile} (h : t.resolveFlags flags = .ok u) :
    ∃ indices, List.Forall₂ (fun flag i => Names.index? flags flag = some i) t.flags indices ∧
      u = { t with flagBits := Array.ofFn fun i : Fin flags.size => indices.contains i.val } := by
  unfold resolveFlags at h
  obtain ⟨indices, found, h⟩ := bind_eq_ok.mp h
  cases h
  exact ⟨indices, (mapM_eq_ok.mp found).imp fun _ _ => Compiling.found_eq_ok.mp, rfl⟩

theorem Group.resolveMembers_eq_ok {tiles : Array Tile} {g h : Group} (found : g.resolveMembers tiles = .ok h) :
    ∃ indices, List.Forall₂ (fun member i => Names.index? tiles member = some i) g.tiles.toList indices ∧
      h = { g with indices := (Sorted.sort (fun a b => a ≤ b) indices).toArray } := by
  obtain ⟨indices, looked, found⟩ := bind_eq_ok.mp found
  cases found
  exact ⟨indices, (mapM_eq_ok.mp looked).imp fun _ _ => Compiling.found_eq_ok.mp, rfl⟩

/-- One tile, which looks to its right for another of its kind. -/
def fenceConfig : Config := {
  tiles := [{
    name := "fence"
    layer := "mid"
    defaultVariant := "post"
    displayVariant := "post"
    variants := [{ name := "post", texture := ⟨0, 0⟩ }, { name := "gate", texture := ⟨1, 0⟩ },
      { name := "rail", texture := ⟨2, 0⟩ }]
    rules := [{
      results := [{ name := "rail" }, { name := "gate" }]
      requires := [{ name := "fence", offset := ⟨1, 0⟩ }]
      requiresNot := [{ name := "", offset := ⟨0, 1⟩ }] }] }] }

def fenceCatalog : Catalog := {
  flags := #[]
  groups := #[]
  tiles := #[{
    name := "fence"
    layer := .mid
    flags := []
    authoredIndex := 0
    variants := #[
      ⟨"gate", ⟨1, 0⟩, ⟨1, 1⟩, ⟨0, 0⟩, ⟨0, 0⟩, ⟨12, 512⟩, ⟨12, 12⟩, ⟨0, 0⟩, ⟨0⟩⟩,
      ⟨"post", ⟨0, 0⟩, ⟨1, 1⟩, ⟨0, 0⟩, ⟨0, 0⟩, ⟨0, 512⟩, ⟨12, 12⟩, ⟨0, 0⟩, ⟨1⟩⟩,
      ⟨"rail", ⟨2, 0⟩, ⟨1, 1⟩, ⟨0, 0⟩, ⟨0, 0⟩, ⟨24, 512⟩, ⟨12, 12⟩, ⟨0, 0⟩, ⟨2⟩⟩]
    rules := #[{
      authoredIndex := 0
      results := [⟨"rail", ⟨0x3F000000⟩, 2⟩, ⟨"gate", ⟨0x3F000000⟩, 0⟩]
      requires := [⟨"fence", ⟨1, 0⟩, .tile 0⟩]
      requiresNot := [⟨"", ⟨0, 1⟩, .any⟩]
      reqVariants := #[]
      period := ⟨⟨1, 1⟩, []⟩ }]
    flagBits := #[]
    defaultVariant := 1
    displayVariant := 1 }]
  infos := #[⟨0, 0, "fence", "gate"⟩, ⟨0, 1, "fence", "post"⟩, ⟨0, 2, "fence", "rail"⟩]
  range := ⟨1, 1⟩
  footprintLow := ⟨0, 0⟩
  footprintHigh := ⟨0, 0⟩ }

theorem fenceConfig_compile : fenceConfig.compile = .ok fenceCatalog := by decide +kernel

end Tilework
