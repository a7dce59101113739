import Tilework.Cell
import Tilework.Names
import Tilework.Number.Single
import Tilework.Plane.Range

namespace Tilework

structure Group where
  name : String
  tiles : Array String
  indices : Array Nat
  deriving DecidableEq, Repr

namespace Group

instance : Named Group := ⟨Group.name⟩

def containsName (g : Group) (key : String) : Bool := Names.contains g.tiles key

def containsIndex (g : Group) (i : Nat) : Bool := (Sorted.search? (fun j => compare j i) g.indices).isSome

end Group

structure Variant where
  name : String
  texture : Vec
  size : Vec
  offset : Vec
  texOffset : Vec
  pixelPos : Vec
  pixelSize : Vec
  pixelOffset : Vec
  id : TileId
  deriving DecidableEq, Repr, Inhabited

namespace Variant

instance : Named Variant := ⟨Variant.name⟩

def small (v : Variant) : Bool := v.size = Vec.one

end Variant

structure Outcome where
  name : String
  chance : Single
  variant : Nat
  deriving DecidableEq, Repr, Inhabited

inductive Target where
  | any
  /-- This tile, on its own layer. -/
  | tile (index : Nat)
  /-- A member of this group, on any layer. -/
  | group (index : Nat)
  deriving DecidableEq, Repr, Inhabited

structure Requirement where
  name : String
  offset : Vec
  target : Target
  deriving DecidableEq, Repr, Inhabited

/-- A filter by position: the remainder modulo `size` must be among `offsets`. -/
structure Period where
  size : Vec
  offsets : List Vec
  deriving DecidableEq, Repr, Inhabited

namespace Period

def active (m : Period) : Bool := m.size ≠ Vec.one

def admits (m : Period) (p : Vec) : Checked Bool := do
  if m.active then
    let r ← p.remainder m.size
    return decide (r ∈ m.offsets)
  else
    return true

end Period

structure Rule where
  /-- Place of the authored rule; copies share it. -/
  authoredIndex : Nat
  results : List Outcome
  requires : List Requirement
  requiresNot : List Requirement
  /-- Indices of variants, ascending. None means that every variant will do. -/
  reqVariants : Array Nat
  period : Period
  deriving DecidableEq, Repr

namespace Rule

def appliesTo (r : Rule) (variant : Nat) : Bool :=
  r.reqVariants.isEmpty || (Sorted.search? (fun i => compare i variant) r.reqVariants).isSome

def requirements (r : Rule) : List Requirement := r.requires ++ r.requiresNot

end Rule

structure Tile where
  name : String
  layer : Layer
  flags : List String
  authoredIndex : Nat
  variants : Array Variant
  rules : Array Rule
  flagBits : Array Bool
  defaultVariant : Nat
  displayVariant : Nat
  deriving DecidableEq, Repr

namespace Tile

instance : Named Tile := ⟨Tile.name⟩

def hasFlag (t : Tile) (flag : Nat) : Bool := t.flagBits[flag]?.getD false

def variantIndex? (t : Tile) (key : String) : Option Nat := Names.index? t.variants key

def variant? (t : Tile) (key : String) : Option Variant := (t.variantIndex? key).bind fun i => t.variants[i]?

end Tile

structure TileInfo where
  tile : Nat
  variant : Nat
  tileName : String
  variantName : String
  deriving DecidableEq, Repr, Inhabited

/-- Tables of flags, groups and tiles sorted by name, and what the ids stand for. All variants of all tiles are numbered
without gaps, in the order of tile name and variant name. -/
structure Catalog where
  flags : Array String
  groups : Array Group
  tiles : Array Tile
  infos : Array TileInfo
  /-- The greatest distance at which any rule looks, in each direction. -/
  range : Vec
  footprintLow : Vec
  footprintHigh : Vec
  deriving DecidableEq, Repr

namespace Catalog

def flagIndex? (c : Catalog) (key : String) : Option Nat := Names.index? c.flags key

def tileIndex? (c : Catalog) (key : String) : Option Nat := Names.index? c.tiles key

def groupIndex? (c : Catalog) (key : String) : Option Nat := Names.index? c.groups key

def tileAt (c : Catalog) (i : Nat) : Checked Tile := entryAt c.tiles i

def groupAt (c : Catalog) (i : Nat) : Checked Group := entryAt c.groups i

def defaultVariant (c : Catalog) (i : Nat) : Checked Variant := do
  let tile ← c.tileAt i
  entryAt tile.variants tile.defaultVariant

def displayVariant (c : Catalog) (i : Nat) : Checked Variant := do
  let tile ← c.tileAt i
  entryAt tile.variants tile.displayVariant

def id? (c : Catalog) (tile variant : String) : Option TileId := do
  let i ← c.tileIndex? tile
  let t ← c.tiles[i]?
  let v ← t.variant? variant
  return v.id

def info? (c : Catalog) (id : TileId) : Option TileInfo := c.infos[id.index]?

def info (c : Catalog) (id : TileId) : Checked TileInfo :=
  match c.info? id with
  | some info => .ok info
  | none => .error (.unknownId id.number)

def tileOf (c : Catalog) (id : TileId) : Checked Tile := do
  let info ← c.info id
  c.tileAt info.tile

def variantOf (c : Catalog) (id : TileId) : Checked Variant := do
  let info ← c.info id
  let tile ← c.tileAt info.tile
  entryAt tile.variants info.variant

def tilesOn (c : Catalog) (layer : Layer) : List Nat :=
  let places := c.tiles.toList.zipIdx.filter fun (tile, _) => tile.layer = layer
  (Sorted.sort (fun a b => a.1.authoredIndex ≤ b.1.authoredIndex) places).map fun (_, i) => i

end Catalog

end Tilework
