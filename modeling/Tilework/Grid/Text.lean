import Tilework.Grid.Basic
import Tilework.Json.Record
import Tilework.Json.Write

namespace Tilework

open Json (fields? required? list? vec? word? nullable? ofVec ofWord ofOption)

namespace Cell

def toJson (cell : Cell) : Json :=
  let slot (layer : Layer) := (some layer.name, ofOption (fun id : TileId => ofWord id.number) (cell.get layer))
  .object [slot .front, slot .mid, slot .back]

def slot? (value : Json) : Option (Option TileId) := (nullable? word? value).map fun slot => slot.map TileId.mk

def slotField? (value : Json) (field : Option Json) : Option (Option TileId) :=
  match value, field with
  | .object _, none => some none
  | _, field => required? slot? field

def ofJson? (value : Json) : Option Cell := do
  match ← fields? .skip ["front", "mid", "back"] value with
  | [front, mid, back] =>
    return ⟨← slotField? value front, ← slotField? value mid, ← slotField? value back⟩
  | _ => none

end Cell

namespace Grid

def toJson (g : Grid) : Json :=
  .object [(some "size", ofVec g.size), (some "cells", .array (g.cells.toList.map Cell.toJson))]

def ofJson? (value : Json) : Option Grid := do
  match ← fields? .skip ["size", "cells"] value with
  | [size, cells] =>
    let size ← required? vec? size
    let cells ← required? (list? Cell.ofJson?) cells
    ofCells? size cells.toArray
  | _ => none

def encodeText (g : Grid) : String := g.toJson.compact

def decodeText? (text : String) : Option Grid := (Json.parse? text).bind ofJson?

end Grid

end Tilework
