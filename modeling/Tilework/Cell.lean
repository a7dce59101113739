namespace Tilework

inductive Layer where
  | front
  | mid
  | back
  deriving DecidableEq, Repr, Inhabited

namespace Layer

def all : List Layer := [front, mid, back]

def index : Layer → Nat
  | front => 0
  | mid => 1
  | back => 2

def name : Layer → String
  | front => "front"
  | mid => "mid"
  | back => "back"

def ofName? (text : String) : Option Layer := all.find? fun layer => layer.name == text

instance : ToString Layer := ⟨name⟩

theorem mem_all (layer : Layer) : layer ∈ all := by cases layer <;> decide

theorem ofName?_name (layer : Layer) : ofName? layer.name = some layer := by cases layer <;> decide

end Layer

/-- The number of one variant of one tile in the catalog that gave it out. -/
structure TileId where
  number : UInt32
  deriving DecidableEq, Repr, Inhabited

namespace TileId

def index (id : TileId) : Nat := id.number.toNat

instance : ToString TileId := ⟨fun id => "#" ++ toString id.number⟩

end TileId

structure Cell where
  front : Option TileId := none
  mid : Option TileId := none
  back : Option TileId := none
  deriving DecidableEq, Repr, Inhabited

namespace Cell

def empty : Cell := {}

def get (cell : Cell) : Layer → Option TileId
  | .front => cell.front
  | .mid => cell.mid
  | .back => cell.back

def set (cell : Cell) (layer : Layer) (slot : Option TileId) : Cell :=
  match layer with
  | .front => { cell with front := slot }
  | .mid => { cell with mid := slot }
  | .back => { cell with back := slot }

def occupied (cell : Cell) : List (Layer × TileId) :=
  Layer.all.filterMap fun layer => (cell.get layer).map fun id => (layer, id)

def isEmpty (cell : Cell) : Bool := cell.occupied.isEmpty

def mapSlots (f : Option TileId → Option TileId) (cell : Cell) : Cell :=
  ⟨f cell.front, f cell.mid, f cell.back⟩

@[simp] theorem get_set_self (cell : Cell) (layer : Layer) (slot : Option TileId) :
    (cell.set layer slot).get layer = slot := by cases layer <;> rfl

theorem get_set_of_ne (cell : Cell) {layer other : Layer} (slot : Option TileId) (h : other ≠ layer) :
    (cell.set layer slot).get other = cell.get other := by
  cases layer <;> cases other <;> first | rfl | exact absurd rfl h

@[simp] theorem get_mapSlots (f : Option TileId → Option TileId) (cell : Cell) (layer : Layer) :
    (cell.mapSlots f).get layer = f (cell.get layer) := by cases layer <;> rfl

@[ext] theorem ext_get {a b : Cell} (h : ∀ layer, a.get layer = b.get layer) : a = b := by
  have hf := h .front
  have hm := h .mid
  have hb := h .back
  cases a; cases b
  simp_all [get]

theorem mem_occupied {cell : Cell} {layer : Layer} {id : TileId} :
    (layer, id) ∈ cell.occupied ↔ cell.get layer = some id := by
  cases layer <;> cases hf : cell.front <;> cases hm : cell.mid <;> cases hb : cell.back <;>
    simp [occupied, Layer.all, get, hf, hm, hb, eq_comm]

end Cell

end Tilework
