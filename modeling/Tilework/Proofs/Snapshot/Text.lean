import Tilework.Proofs.Json.Reading
import Tilework.Snapshot.Text

namespace Tilework

namespace Json

theorem coordinate?_ofInt {n : Int} (fits : Coord.Fits n) : (ofInt n).coordinate? = some n :=
  Numeral.integerIn?_ofInt fits.1 fits.2

theorem vec?_ofVec {v : Vec} (fits : v.Fits) : (ofVec v).vec? = some v := by
  have x := coordinate?_ofInt fits.1
  have y := coordinate?_ofInt fits.2
  simp [vec?, ofVec, list?, x, y]

theorem word?_ofWord (n : UInt32) : (ofWord n).word? = some n := by
  have small := n.toNat_lt
  have read : (ofWord n).integerIn? 0 0xFFFFFFFF = some (n.toNat : Int) :=
    Numeral.integerIn?_ofInt (by omega) (by omega)
  simp [word?, read]

theorem list?_map {α : Type} {read : Json → Option α} {write : α → Json} (each : ∀ a, read (write a) = some a)
    (items : List α) : (array (items.map write)).list? read = some items := by
  induction items with
  | nil => rfl
  | cons a items ih =>
    simp only [list?, List.map_cons, List.mapM_cons, each] at ih ⊢
    simp [ih]

theorem nullable?_ofOption {α : Type} {read : Json → Option α} {write : α → Json}
    (each : ∀ a, read (write a) = some a) (value : ∀ a, write a ≠ null) (slot : Option α) :
    (ofOption write slot).nullable? read = some slot := by
  cases slot with
  | none => rfl
  | some a =>
    unfold nullable?
    split
    · rename_i none
      exact absurd none (value a)
    · rw [ofOption, each, Option.map_some]

theorem itemsLegible_map {α : Type} {write : α → Json} (each : ∀ a, (write a).Legible) (items : List α) :
    ItemsLegible (items.map write) := by
  induction items with
  | nil => trivial
  | cons a items ih => exact ⟨each a, ih⟩

end Json

namespace Snapshot

open Json

theorem slots_legible (slots : List (Option UInt32)) : (Json.array (slots.map (ofOption ofWord))).Legible := by
  refine itemsLegible_map ?_ slots
  intro slot
  cases slot with
  | none => trivial
  | some n => exact Numeral.ofInt_legible n.toNat

theorem toJson_legible (s : Snapshot) : s.toJson.Legible := by
  have names : ∀ items : List String, (Json.array (items.map ofString)).Legible := itemsLegible_map fun _ => rfl
  refine ⟨rfl, ?_, rfl, names _, rfl, names _, rfl, ?_, trivial⟩
  · exact ⟨Numeral.ofInt_legible _, Numeral.ofInt_legible _, trivial⟩
  · exact ⟨slots_legible _, slots_legible _, slots_legible _, trivial⟩

theorem ofJson?_toJson {s : Snapshot} (fits : s.size.Fits) : ofJson? s.toJson = some s := by
  have names : ∀ items : List String, (Json.array (items.map ofString)).list? string? = some items :=
    list?_map fun _ => rfl
  have slots : ∀ items : List (Option UInt32),
      (Json.array (items.map (ofOption ofWord))).list? (nullable? word?) = some items :=
    list?_map fun slot => nullable?_ofOption word?_ofWord (fun _ none => nomatch none) slot
  have size := vec?_ofVec fits
  have fields : s.toJson.fields? .skip ["size", "tile_names", "variant_names", "layers"] =
      some [some (ofVec s.size), some (.array (s.tileNames.map ofString)), some (.array (s.variantNames.map ofString)),
        some (.array [.array (s.front.map (ofOption ofWord)), .array (s.mid.map (ofOption ofWord)),
          .array (s.back.map (ofOption ofWord))])] := rfl
  have layers : layers? (.array [.array (s.front.map (ofOption ofWord)), .array (s.mid.map (ofOption ofWord)),
      .array (s.back.map (ofOption ofWord))]) = some (s.front, s.mid, s.back) := by
    simp [layers?, list?] at slots ⊢
    simp [slots]
  simp [ofJson?, fields, required?, size, names, layers]

theorem decodeText?_encodeText {s : Snapshot} (fits : s.size.Fits) : decodeText? s.encodeText = some s := by
  rw [decodeText?, encodeText, parse?_pretty s.toJson_legible, Option.bind_some, ofJson?_toJson fits]

end Snapshot

end Tilework
