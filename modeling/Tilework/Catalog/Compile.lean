import Tilework.Catalog.Rules

namespace Tilework

open Compiling (ensure found distinct)

/-- The tile at place `i` of the catalog file, with its flags, ids and targets not yet looked up. -/
def Tile.compile (i : Nat) (t : Config.Tile) : Compiling Tile := do
  ensure (!t.name.isEmpty) .unnamedTile
  let layer ← found (.unknownLayer t.layer t.name) (Layer.ofName? t.layer)
  let variants ← compileVariants t.name t.variants
  let default ← found (.unknownDefault t.defaultVariant t.name) (Names.index? variants t.defaultVariant)
  let display ← found (.unknownDisplay t.displayVariant t.name) (Names.index? variants t.displayVariant)
  let expanded ← expandRules t.rules
  let rules ← expanded.mapM fun (i, rule) => Rule.compile t.name variants i rule
  return {
    name := t.name
    layer := layer
    flags := Sorted.dedup (Names.sort t.flags)
    authoredIndex := i
    variants := variants
    rules := rules.toArray
    flagBits := #[]
    defaultVariant := default
    displayVariant := display }

/-- The tiles, sorted by name, none of which may be named like a group. -/
def compileTiles (groups : List Group) (tiles : List Config.Tile) : Compiling (List Tile) := do
  let compiled ← tiles.zipIdx.mapM fun (t, i) => Tile.compile i t
  let sorted := Names.sort compiled
  distinct (fun t => .duplicateTile t.name) (Names.duplicate? sorted)
  distinct (fun t => .nameCollision t.name) (sorted.find? fun t => Names.contains groups.toArray t.name)
  return sorted

def Tile.resolveFlags (flags : Array String) (t : Tile) : Compiling Tile := do
  let indices ← t.flags.mapM fun flag => found (.unknownFlag flag t.name) (Names.index? flags flag)
  return { t with flagBits := Array.ofFn fun i : Fin flags.size => indices.contains i.val }

def Group.resolveMembers (tiles : Array Tile) (g : Group) : Compiling Group := do
  let indices ← g.tiles.toList.mapM fun member => found (.unknownMember member g.name) (Names.index? tiles member)
  return { g with indices := (Sorted.sort (fun a b => a ≤ b) indices).toArray }

def numberTiles (next : Nat) : List Tile → List Tile
  | [] => []
  | t :: rest =>
    { t with variants := t.variants.mapIdx fun i v => { v with id := ⟨UInt32.ofNat (next + i)⟩ } } ::
      numberTiles (next + t.variants.size) rest

def tileInfos (tiles : List Tile) : List TileInfo :=
  tiles.zipIdx.flatMap fun (t, i) => t.variants.toList.zipIdx.map fun (v, j) => ⟨i, j, t.name, v.name⟩

def Variant.extent (v : Variant) : Checked (Vec × Vec) := do
  let stop ← (v.offset + v.size).fit
  let last ← (stop - Vec.one).fit
  return (v.offset, last)

def footprint (tiles : List Tile) : Checked (Vec × Vec) := do
  let extents ← (tiles.flatMap fun t => t.variants.toList).mapM Variant.extent
  match extents with
  | [] => return (Vec.zero, Vec.zero)
  | first :: rest => return rest.foldl (fun (lo, hi) (a, b) => (lo.min a, hi.max b)) first

def lookRange (tiles : List Tile) : Checked Vec :=
  let requirements := tiles.flatMap fun t => t.rules.toList.flatMap Rule.requirements
  requirements.foldlM (fun range r => do
    let distance ← r.offset.abs.fit
    return range.max distance) Vec.zero

/-- Looks up what a requirement names: a tile first, then anything if the name is empty, then a group. -/
def Requirement.resolve (tiles : Array Tile) (groups : Array Group) (tile : String) (r : Requirement) :
    Compiling Requirement :=
  match Names.index? tiles r.name with
  | some i => return { r with target := .tile i }
  | none =>
    if r.name.isEmpty then return { r with target := .any }
    else do
      let i ← found (.unknownReference tile r.name) (Names.index? groups r.name)
      return { r with target := .group i }

def Rule.resolve (tiles : Array Tile) (groups : Array Group) (tile : String) (r : Rule) : Compiling Rule := do
  let requires ← r.requires.mapM (Requirement.resolve tiles groups tile)
  let requiresNot ← r.requiresNot.mapM (Requirement.resolve tiles groups tile)
  return { r with requires := requires, requiresNot := requiresNot }

def Tile.resolve (tiles : Array Tile) (groups : Array Group) (t : Tile) : Compiling Tile := do
  let rules ← t.rules.toList.mapM (Rule.resolve tiles groups t.name)
  return { t with rules := rules.toArray }

/-- The first check that fails decides the outcome: flags, then groups, then tiles in file order, then what refers
across them. -/
def Config.compile (config : Config) : Compiling Catalog := do
  let flags := Names.sort config.flags
  distinct (fun flag => .duplicateFlag flag) (Names.duplicate? flags)
  let groups ← compileGroups config.groups
  let tiles ← compileTiles groups config.tiles
  let tiles ← tiles.mapM (Tile.resolveFlags flags.toArray)
  let groups ← groups.mapM (Group.resolveMembers tiles.toArray)
  let tiles := numberTiles 0 tiles
  let (low, high) ← footprint tiles
  let range ← lookRange tiles
  let resolved ← tiles.mapM (Tile.resolve tiles.toArray groups.toArray)
  return {
    flags := flags.toArray
    groups := groups.toArray
    tiles := resolved.toArray
    infos := (tileInfos tiles).toArray
    range := range
    footprintLow := low
    footprintHigh := high }

end Tilework
