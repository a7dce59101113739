import Tilework.Grid.Text
import Tilework.Proofs.Grid.Access
import Tilework.Proofs.Snapshot.Text

namespace Tilework

open Json (fields? required? list? vec? word? nullable? ofVec ofWord ofOption)

namespace Cell

theorem toJson_legible (cell : Cell) : cell.toJson.Legible := by
  have slot : ∀ slot : Option TileId, (ofOption (fun id : TileId => ofWord id.number) slot).Legible := by
    intro slot
    cases slot with
    | none => trivial
    | some id => exact Json.Numeral.ofInt_legible id.number.toNat
  exact ⟨rfl, slot _, rfl, slot _, rfl, slot _, trivial⟩

theorem slot?_ofOption (slot : Option TileId) : slot? (ofOption (fun id : TileId => ofWord id.number) slot) = some slot := by
  cases slot with
  | none => rfl
  | some id =>
    have read := Json.nullable?_ofOption Json.word?_ofWord (fun _ none => nomatch none) (some id.number)
    simp only [ofOption] at read
    rw [slot?, ofOption, read]
    rfl

theorem ofJson?_toJson (cell : Cell) : ofJson? cell.toJson = some cell := by
  have fields : cell.toJson.fields? .skip ["front", "mid", "back"] =
      some [some (ofOption (fun id : TileId => ofWord id.number) cell.front),
        some (ofOption (fun id : TileId => ofWord id.number) cell.mid),
        some (ofOption (fun id : TileId => ofWord id.number) cell.back)] := rfl
  have field : ∀ slot : Option TileId,
      slotField? cell.toJson (some (ofOption (fun id : TileId => ofWord id.number) slot)) = some slot :=
    fun slot => slot?_ofOption slot
  simp only [ofJson?, fields, field, Option.bind_eq_bind, Option.bind_some, Option.pure_def]

end Cell

namespace Grid

theorem toJson_legible (g : Grid) : g.toJson.Legible := by
  refine ⟨rfl, ?_, rfl, Json.itemsLegible_map Cell.toJson_legible g.cells.toList, trivial⟩
  exact ⟨Json.Numeral.ofInt_legible _, Json.Numeral.ofInt_legible _, trivial⟩

def parts? (value : Json) : Option (Vec × List Cell) := do
  match ← fields? .skip ["size", "cells"] value with
  | [size, cells] =>
    let size ← required? vec? size
    let cells ← required? (list? Cell.ofJson?) cells
    return (size, cells)
  | _ => none

theorem ofJson?_eq (value : Json) :
    ofJson? value = (parts? value).bind fun parts => ofCells? parts.1 parts.2.toArray := by
  unfold ofJson? parts?
  cases fields? .skip ["size", "cells"] value with
  | none => rfl
  | some found =>
    match found with
    | [] => rfl
    | [_] => rfl
    | [size, cells] => simp only [Option.bind_eq_bind, Option.bind_some, Option.bind_assoc, Option.pure_def]
    | _ :: _ :: _ :: _ => rfl

theorem parts?_toJson (g : Grid) : parts? g.toJson = some (g.size, g.cells.toList) := by
  have fields : g.toJson.fields? .skip ["size", "cells"] =
      some [some (ofVec g.size), some (.array (g.cells.toList.map Cell.toJson))] := rfl
  have size := Json.vec?_ofVec g.size_fits
  have cells := Json.list?_map Cell.ofJson?_toJson g.cells.toList
  simp [parts?, fields, required?, size, cells]

theorem decodeText?_eq_some_iff {text : String} {g : Grid} :
    decodeText? text = some g ↔ ∃ value size cells, Json.parse? text = some value ∧ parts? value = some (size, cells) ∧
      UsableSize size ∧ (cells.length : Int) = size.x * size.y ∧ g.size = size ∧ g.cells.toList = cells := by
  rw [decodeText?, Option.bind_eq_some_iff]
  constructor
  · rintro ⟨value, parsed, read⟩
    rw [ofJson?_eq] at read
    obtain ⟨⟨size, cells⟩, parts, formed⟩ := Option.bind_eq_some_iff.mp read
    obtain ⟨count, extent, content⟩ := ofCells?_eq_some_iff.mp formed
    rw [List.size_toArray] at count
    obtain ⟨usable, area⟩ := cellCount?_eq_some_iff_area.mp count
    exact ⟨value, size, cells, parsed, parts, usable, area, extent, by rw [content]⟩
  · rintro ⟨value, size, cells, parsed, parts, usable, area, extent, content⟩
    refine ⟨value, parsed, ?_⟩
    rw [ofJson?_eq, parts, Option.bind_some]
    refine ofCells?_eq_some_iff.mpr ⟨?_, extent, ?_⟩
    · rw [List.size_toArray]
      exact cellCount?_eq_some_iff_area.mpr ⟨usable, area⟩
    · rw [← content, Array.toArray_toList]

theorem ofJson?_toJson (g : Grid) : ofJson? g.toJson = some g := by
  rw [ofJson?_eq, parts?_toJson, Option.bind_some]
  exact ofCells?_eq_some_iff.mpr ⟨g.count, rfl, rfl⟩

theorem decodeText?_encodeText (g : Grid) : decodeText? g.encodeText = some g := by
  rw [decodeText?, encodeText, Json.parse?_compact g.toJson_legible, Option.bind_some, ofJson?_toJson]

theorem decodeText?_pretty (g : Grid) : decodeText? g.toJson.pretty = some g := by
  rw [decodeText?, Json.parse?_pretty g.toJson_legible, Option.bind_some, ofJson?_toJson]

end Grid

/-- The texts of snapshots and of grids are read back as these. What a grid is read from need not be what would have
been written, but it has to be complete. -/
theorem texts_lossless :
    (∀ s : Snapshot, s.size.Fits → Snapshot.decodeText? s.encodeText = some s) ∧
    (∀ g : Grid, Grid.decodeText? g.encodeText = some g ∧ Grid.decodeText? g.toJson.pretty = some g) ∧
    (∀ (text : String) (g : Grid), Grid.decodeText? text = some g ↔
      ∃ value size cells, Json.parse? text = some value ∧ Grid.parts? value = some (size, cells) ∧
        UsableSize size ∧ (cells.length : Int) = size.x * size.y ∧ g.size = size ∧ g.cells.toList = cells) ∧
    ∀ (text : String) (g : Grid), Grid.decodeText? text = some g →
      1 ≤ g.size.x ∧ 1 ≤ g.size.y ∧ (g.cells.size : Int) = g.size.x * g.size.y := by
  refine ⟨?_, ?_, ?_, ?_⟩
  · intro s fits
    exact Snapshot.decodeText?_encodeText fits
  · intro g
    exact ⟨g.decodeText?_encodeText, g.decodeText?_pretty⟩
  · intro text g
    exact Grid.decodeText?_eq_some_iff
  · intro text g read
    obtain ⟨value, size, cells, -, -, ⟨wide, high, -⟩, area, rfl, rfl⟩ := Grid.decodeText?_eq_some_iff.mp read
    rw [Array.length_toList] at area
    exact ⟨wide, high, area⟩

/-- Extreme numbers, and a name of characters that are not written as they are. -/
def bannerSnapshot : Snapshot :=
  ⟨⟨-2147483648, 2147483647⟩, ["a\"b\\c\u0001é"], [], [none, some 4294967295], [], [some 0]⟩

def bannerGrid : Grid := ⟨⟨1, 2⟩, #[{ front := some ⟨4294967295⟩, back := some ⟨0⟩ }, {}], by decide⟩

theorem texts_lossless_banner :
    bannerSnapshot.size.Fits ∧ Snapshot.decodeText? bannerSnapshot.encodeText = some bannerSnapshot ∧
    Grid.decodeText? bannerGrid.encodeText = some bannerGrid ∧
    1 ≤ bannerGrid.size.x ∧ 1 ≤ bannerGrid.size.y ∧
    (bannerGrid.cells.size : Int) = bannerGrid.size.x * bannerGrid.size.y := by
  have fits : bannerSnapshot.size.Fits := by decide
  obtain ⟨snapshots, grids, -, complete⟩ := texts_lossless
  have read := (grids bannerGrid).1
  exact ⟨fits, snapshots bannerSnapshot fits, read, complete _ _ read⟩

end Tilework
