import Tilework.Json.Record
import Tilework.Json.Write
import Tilework.Snapshot

namespace Tilework.Snapshot

open Json (fields? required? list? string? vec? word? nullable? ofString ofVec ofWord ofOption)

def toJson (s : Snapshot) : Json :=
  let layer (ids : List (Option UInt32)) := Json.array (ids.map (ofOption ofWord))
  .object [
    (some "size", ofVec s.size),
    (some "tile_names", .array (s.tileNames.map ofString)),
    (some "variant_names", .array (s.variantNames.map ofString)),
    (some "layers", .array [layer s.front, layer s.mid, layer s.back])]

def layers? (value : Json) :
    Option (List (Option UInt32) × List (Option UInt32) × List (Option UInt32)) :=
  match value.list? (list? (nullable? word?)) with
  | some [front, mid, back] => some (front, mid, back)
  | _ => none

def ofJson? (value : Json) : Option Snapshot := do
  match ← fields? .skip ["size", "tile_names", "variant_names", "layers"] value with
  | [size, tileNames, variantNames, layers] =>
    let size ← required? vec? size
    let tileNames ← required? (list? string?) tileNames
    let variantNames ← required? (list? string?) variantNames
    let (front, mid, back) ← required? layers? layers
    return ⟨size, tileNames, variantNames, front, mid, back⟩
  | _ => none

def encodeText (s : Snapshot) : String := s.toJson.pretty

def decodeText? (text : String) : Option Snapshot := (Json.parse? text).bind ofJson?

end Tilework.Snapshot
