import Tilework.Autotile

namespace Tilework

inductive Filter where
  | all
  | only (layer : Layer)
  deriving DecidableEq, Repr, Inhabited

namespace Filter

def includes : Filter → Layer → Bool
  | all, _ => true
  | only one, layer => one = layer

end Filter

structure Brush where
  grid : Grid

namespace Brush

def isEmpty (b : Brush) : Bool := b.grid.cells.all Cell.isEmpty

end Brush

def resetId (c : Catalog) (id : TileId) : Checked (Option TileId) :=
  match c.info? id with
  | none => return none
  | some info => do
    let variant ← c.defaultVariant info.tile
    return some variant.id

/-- The default variant of what a slot holds. What the catalog does not know is dropped. -/
def resetSlot (c : Catalog) : Option TileId → Checked (Option TileId)
  | none => return none
  | some id => resetId c id

def resetCell (c : Catalog) (filter : Filter) (cell : Cell) : Checked Cell :=
  Layer.all.foldlM (fun kept layer => do
    if filter.includes layer then
      let slot ← resetSlot c (cell.get layer)
      return kept.set layer slot
    else
      return kept) Cell.empty

def Brush.ofTile (c : Catalog) (tile : Nat) : Checked Brush := do
  let t ← c.tileAt tile
  let grid ← Grid.blank Vec.one
  let variant ← c.defaultVariant tile
  let grid ← grid.setLayer Vec.zero t.layer (some variant.id)
  return ⟨grid⟩

def Grid.grab (c : Catalog) (g : Grid) (a b : Vec) (filter : Filter) : Checked (Option Brush) := do
  let corners ← Rect.fromCorners a b
  match ← corners.intersect g.bounds with
  | none => return none
  | some area =>
    let blank ← Grid.blank area.size
    let grid ← area.cells.foldlM (fun grid p => do
      let source ← g.getStrict p
      let cell ← resetCell c filter source
      let q ← (p - area.pos).fit
      grid.set q cell) blank
    return some ⟨grid⟩

def Grid.stamp (g : Grid) (p : Vec) (slots : List (Layer × TileId)) : Checked Grid :=
  slots.foldlM (fun g (layer, id) => g.setLayer p layer (some id)) g

def Grid.clear (g : Grid) (p : Vec) (filter : Filter) : Checked Grid :=
  (Layer.all.filter filter.includes).foldlM (fun g layer => g.setLayer p layer none) g

def Grid.overlay (g : Grid) (brush : Brush) (offset : Vec) : Checked Grid :=
  brush.grid.bounds.cells.foldlM (fun g p => do
    let cell ← brush.grid.getStrict p
    match cell.occupied with
    | [] => return g
    | slots =>
      let q ← (p + offset).fit
      g.stamp q slots) g

section Drawing

variable {σ : Type} [DrawSource σ]

def Grid.place (c : Catalog) (g : Grid) (p : Vec) (tile : Nat) : Drawing σ Grid := do
  if g.Contains p then
    let t ← c.tileAt tile
    let variant ← c.defaultVariant tile
    let g ← g.setLayer p t.layer (some variant.id)
    retileRegion c g ⟨p, Vec.one⟩
  else
    return g

/-- Stamps the brush with its first cell at `offset`. What falls outside the grid is dropped. -/
def Grid.paste (c : Catalog) (g : Grid) (brush : Brush) (offset : Vec) : Drawing σ Grid := do
  let g ← g.overlay brush offset
  retileRegion c g ⟨offset, brush.grid.size⟩

def Grid.erase (c : Catalog) (g : Grid) (a b : Vec) (filter : Filter) : Drawing σ Grid := do
  let corners ← Rect.fromCorners a b
  match ← corners.intersect g.bounds with
  | none => return g
  | some area =>
    let g ← area.cells.foldlM (fun g p => g.clear p filter) g
    retileRegion c g area

end Drawing

def Catalog.available (c : Catalog) : Filter → List Nat
  | .all => List.range c.tiles.size
  | .only layer => c.tilesOn layer

end Tilework
