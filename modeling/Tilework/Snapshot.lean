import Tilework.Catalog.Basic
import Tilework.Grid.Basic

namespace Tilework

/-- A map whose ids are places in a table of tile and variant names, so that it can be read back under another catalog.
-/
structure Snapshot where
  size : Vec
  tileNames : List String
  variantNames : List String
  front : List (Option UInt32)
  mid : List (Option UInt32)
  back : List (Option UInt32)
  deriving DecidableEq, Repr

namespace Snapshot

def layer (s : Snapshot) : Layer → List (Option UInt32)
  | .front => s.front
  | .mid => s.mid
  | .back => s.back

/-- The snapshot of a grid. The table lists every id of the catalog. -/
def capture (g : Grid) (c : Catalog) : Snapshot :=
  let slots (layer : Layer) := (g.layerIds layer).map fun slot => slot.map TileId.number
  { size := g.size
    tileNames := c.infos.toList.map TileInfo.tileName
    variantNames := c.infos.toList.map TileInfo.variantName
    front := slots .front
    mid := slots .mid
    back := slots .back }

inductive Inconsistency where
  | names (tiles variants : Nat)
  | size (extent : Vec)
  | layer (on : Layer) (count expected : Nat)
  | inflated (limit : Nat)
  deriving DecidableEq, Repr

def Inconsistency.message : Inconsistency → String
  | names tiles variants => toString tiles ++ " tile names but " ++ toString variants ++ " variant names"
  | size extent => "map size " ++ toString extent
  | layer on count expected =>
    toString on ++ " layer has " ++ toString count ++ " cells, expected " ++ toString expected
  | inflated limit => "compressed payload inflates past " ++ toString limit ++ " bytes"

def table (s : Snapshot) (c : Catalog) : Array (Option TileId) :=
  (List.zipWith c.id? s.tileNames s.variantNames).toArray

/-- The id for a stored place. Past the end of the table there is none. -/
def lookup (table : Array (Option TileId)) (stored : Option UInt32) : Option TileId :=
  stored.bind fun place => (table[place.toNat]?).join

def zipCells : List (Option TileId) → List (Option TileId) → List (Option TileId) → List Cell
  | f :: front, m :: mid, b :: back => ⟨f, m, b⟩ :: zipCells front mid back
  | _, _, _ => []

theorem length_zipCells {front mid back : List (Option TileId)} {n : Nat} (hf : front.length = n)
    (hm : mid.length = n) (hb : back.length = n) : (zipCells front mid back).length = n := by
  induction front generalizing mid back n with
  | nil => simp_all [zipCells]
  | cons f front ih =>
    match mid, back, n with
    | m :: mid, b :: back, n + 1 =>
      simp only [List.length_cons, Nat.add_right_cancel_iff] at hf hm hb
      simp [zipCells, ih hf hm hb]
    | [], _, _ => simp only [List.length_cons, List.length_nil] at hf hm; omega
    | _ :: _, [], _ => simp only [List.length_cons, List.length_nil] at hf hb; omega
    | _ :: _, _ :: _, 0 => simp at hf

/-- The grid of the snapshot under a catalog. Names that the catalog lacks become empty slots. -/
def restore (s : Snapshot) (c : Catalog) : Except Inconsistency Grid :=
  if s.tileNames.length ≠ s.variantNames.length then
    .error (.names s.tileNames.length s.variantNames.length)
  else
    match hc : cellCount? s.size with
    | none => .error (.size s.size)
    | some n =>
      if hf : s.front.length ≠ n then .error (.layer .front s.front.length n)
      else if hm : s.mid.length ≠ n then .error (.layer .mid s.mid.length n)
      else if hb : s.back.length ≠ n then .error (.layer .back s.back.length n)
      else
        let found := lookup (s.table c)
        let cells := zipCells (s.front.map found) (s.mid.map found) (s.back.map found)
        have count : cells.length = n := by
          apply length_zipCells
          · rw [List.length_map]; omega
          · rw [List.length_map]; omega
          · rw [List.length_map]; omega
        .ok ⟨s.size, cells.toArray, by rw [List.size_toArray, count, hc]⟩

end Snapshot

end Tilework
