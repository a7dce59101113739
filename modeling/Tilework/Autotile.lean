import Tilework.Catalog.Basic
import Tilework.Draws.Basic
import Tilework.Grid.Basic

namespace Tilework

def Requirement.holds (c : Catalog) (g : Grid) (p : Vec) (r : Requirement) : Checked Bool := do
  let q ← (p + r.offset).fit
  let cell ← g.get q
  match r.target with
  | .any => return !cell.isEmpty
  | .tile i =>
    let tile ← c.tileAt i
    return ((cell.get tile.layer).bind c.info?).any fun info => info.tile == i
  | .group i =>
    let group ← c.groupAt i
    return cell.occupied.any fun (_, id) => (c.info? id).any fun info => group.containsIndex info.tile

def allHold (c : Catalog) (g : Grid) (p : Vec) : List Requirement → Checked Bool
  | [] => return true
  | r :: rest => do
    let held ← r.holds c g p
    if held then allHold c g p rest else return false

def anyHolds (c : Catalog) (g : Grid) (p : Vec) : List Requirement → Checked Bool
  | [] => return false
  | r :: rest => do
    let held ← r.holds c g p
    if held then return true else anyHolds c g p rest

def Rule.fires (c : Catalog) (g : Grid) (p : Vec) (rule : Rule) (candidate : Nat) : Checked Bool := do
  if !rule.appliesTo candidate then
    return false
  let admitted ← rule.period.admits p
  if !admitted then
    return false
  let held ← allHold c g p rule.requires
  if !held then
    return false
  let refused ← anyHolds c g p rule.requiresNot
  return !refused

/-- The outcome that a draw picks: the first whose chance is not below what is left of the draw, else the
last one. -/
def pickOutcome (pick : Single) : List Outcome → Checked Outcome
  | [] => .error .noResults
  | [last] => .ok last
  | first :: rest => if pick.le first.chance then .ok first else pickOutcome (pick.sub first.chance) rest

section Drawing

variable {σ : Type} [DrawSource σ]

def chooseOutcome : List Outcome → Drawing σ Outcome
  | [] => throw .noResults
  | [only] => return only
  | outcomes => do
    let pick ← nextDraw
    pickOutcome pick outcomes

def refineVariant (c : Catalog) (g : Grid) (p : Vec) : List Rule → Nat → Drawing σ Nat
  | [], candidate => return candidate
  | rule :: rest, candidate => do
    let fires ← rule.fires c g p candidate
    if fires then
      let outcome ← chooseOutcome rule.results
      refineVariant c g p rest outcome.variant
    else
      refineVariant c g p rest candidate

/-- A tile starts from its default variant and lets its rules, in order, choose another. The variant that was there
before plays no part. An id that the catalog does not know stays. -/
def evaluateId (c : Catalog) (g : Grid) (p : Vec) (id : TileId) : Drawing σ TileId := do
  match c.info? id with
  | none => return id
  | some info =>
    let tile ← c.tileAt info.tile
    let chosen ← refineVariant c g p tile.rules.toList tile.defaultVariant
    let variant ← entryAt tile.variants chosen
    return variant.id

def evaluateSlot (c : Catalog) (g : Grid) (p : Vec) : Option TileId → Drawing σ (Option TileId)
  | none => return none
  | some id => do
    let chosen ← evaluateId c g p id
    return some chosen

def evaluate (c : Catalog) (g : Grid) (p : Vec) : Drawing σ Cell := do
  let cell ← g.get p
  let front ← evaluateSlot c g p cell.front
  let mid ← evaluateSlot c g p cell.mid
  let back ← evaluateSlot c g p cell.back
  return ⟨front, mid, back⟩

def retileCell (c : Catalog) (g : Grid) (p : Vec) : Drawing σ Grid := do
  if g.Contains p then
    let cell ← evaluate c g p
    g.setStrict p cell
  else
    return g

/-- Evaluates cells one after the other. Each sees what was written before it. -/
def retileCells (c : Catalog) (g : Grid) (positions : List Vec) : Drawing σ Grid :=
  positions.foldlM (retileCell c) g

/-- Evaluates the region, grown by as far as any rule looks. -/
def retileRegion (c : Catalog) (g : Grid) (region : Rect) : Drawing σ Grid := do
  let grown ← region.expand c.range
  match ← grown.intersect g.bounds with
  | none => return g
  | some area => retileCells c g area.cells

def retile (c : Catalog) (g : Grid) : Drawing σ Grid := retileCells c g g.bounds.cells

end Drawing

end Tilework
