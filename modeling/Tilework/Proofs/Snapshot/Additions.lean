import Tilework.Format
import Tilework.Proofs.Bytes
import Tilework.Proofs.Json.Fields
import Tilework.Proofs.Json.Layout
import Tilework.Proofs.Snapshot.Text

namespace Tilework

open Json (Fielded Laid memberFields?_eq_some_iff valuesOf)

namespace Snapshot

def fieldNames : List String := ["size", "tile_names", "variant_names", "layers"]

theorem fieldNames_nodup : fieldNames.Nodup := by decide

theorem ofJson?_additions {s : Snapshot} (fits : s.size.Fits) {members : List (Option String × Json)}
    {extras : List (String × Json)} (foreign : ∀ x ∈ extras, x.1 ∉ fieldNames)
    (order : members.Perm (s.toJson.members ++ extras.map fun x => (some x.1, x.2))) :
    ofJson? (.object members) = some s := by
  have own : s.toJson.fields? .skip fieldNames = some _ := rfl
  have all := Json.fields?_additions fieldNames_nodup own foreign order
  have same : ofJson? (.object members) = ofJson? s.toJson := by
    unfold ofJson?
    rw [← fieldNames, all, own]
  rw [same, ofJson?_toJson fits]

theorem isSome_of_required? {α : Type} {read : Json → Option α} {field : Option Json} {a : α}
    (found : Json.required? read field = some a) : field.isSome = true := by
  obtain ⟨value, rfl, -⟩ := Option.bind_eq_some_iff.mp found
  rfl

theorem fielded_of_ofJson? {members : List (Option String × Json)} {s : Snapshot}
    (read : ofJson? (.object members) = some s) :
    ∃ found, Fielded fieldNames members found ∧ ∀ slot ∈ found, slot.isSome = true := by
  unfold ofJson? at read
  obtain ⟨found, fields, read⟩ := Option.bind_eq_some_iff.mp read
  refine ⟨found, (memberFields?_eq_some_iff fieldNames_nodup).mp fields, ?_⟩
  split at read
  · obtain ⟨_, size, read⟩ := Option.bind_eq_some_iff.mp read
    obtain ⟨_, tileNames, read⟩ := Option.bind_eq_some_iff.mp read
    obtain ⟨_, variantNames, read⟩ := Option.bind_eq_some_iff.mp read
    obtain ⟨_, layers, -⟩ := Option.bind_eq_some_iff.mp read
    simp [isSome_of_required? size, isSome_of_required? tileNames, isSome_of_required? variantNames,
      isSome_of_required? layers]
  · cases read

theorem count_of_ofJson? {members : List (Option String × Json)} {s : Snapshot}
    (read : ofJson? (.object members) = some s) {field : String} (declared : field ∈ fieldNames) :
    (members.map Prod.fst).count (some field) = 1 := by
  obtain ⟨found, fielded, full⟩ := fielded_of_ofJson? read
  have short := fielded.once field declared
  have present : (valuesOf members field).head?.isSome = true := by
    apply full
    rw [fielded.found_eq]
    exact List.mem_map_of_mem declared
  have positive := List.length_pos_iff.mpr (List.isSome_head?.mp present)
  rw [← Json.length_valuesOf]
  omega

end Snapshot

/-- A text whose object has the fields of a snapshot once each is read as the snapshot, whatever other members it has,
in whatever order they stand and however they are laid out. A text in which a field is missing or repeated is refused.
-/
theorem additions_skipped {members : List (Option String × Json)} {text : String}
    (laid : Laid (Json.object members).tokens text.toList) :
    (∀ (s : Snapshot) (extras : List (String × Json)), s.size.Fits → (∀ x ∈ extras, x.1 ∉ Snapshot.fieldNames) →
      members.Perm (s.toJson.members ++ extras.map fun x => (some x.1, x.2)) →
      Snapshot.decodeText? text = some s ∧ Format.decodeText (Bytes.ofText text) = .ok s) ∧
    (∀ field ∈ Snapshot.fieldNames, (members.map Prod.fst).count (some field) ≠ 1 →
      Snapshot.decodeText? text = none ∧ Format.decodeText (Bytes.ofText text) = .error .text) := by
  have decoded : Snapshot.decodeText? text = Snapshot.ofJson? (.object members) := by
    rw [Snapshot.decodeText?, laid.parse?_eq, Option.bind_some]
  constructor
  · intro s extras fits foreign order
    have read : Snapshot.decodeText? text = some s := by rw [decoded, Snapshot.ofJson?_additions fits foreign order]
    exact ⟨read, by simp [Format.decodeText, Bytes.text?_ofText, read]⟩
  · intro field declared count
    have refused : Snapshot.decodeText? text = none := by
      rw [decoded, Option.eq_none_iff_forall_ne_some]
      intro s read
      exact count (Snapshot.count_of_ofJson? read declared)
    exact ⟨refused, by simp [Format.decodeText, Bytes.text?_ofText, refused]⟩

section Noted

open Json (Numeral Quoted.Piece Quoted.Written Quoted.write_written Quoted.writeChars_written ofVec)
open Json.Numeral (ofInt_written)

/-- One cell, to whose text a later version adds a note. -/
def notedSnapshot : Snapshot := ⟨⟨1, 1⟩, ["oak"], [], [], [none], [some 0]⟩

def note : Json := .array [.array [.number ⟨true, ['1'], some ['5'], some ⟨false, ['3']⟩⟩], .text none]

def notedMembers : List (Option String × Json) := (some "note", note) :: notedSnapshot.toJson.members.reverse

def notedText : String :=
  "\x7b\"note\":[[-1.5E+3],\"\\ud800\"],\"layers\":[[],[null],[0]],\"variant_names\":[],\"tile_names\":[\"oak\"],\n\"\\u0073ize\" : [1, 1]\x7d"

theorem notedText_laid : Laid (Json.object notedMembers).tokens notedText.toList := by
  have digit {c : Char} (is : c.isDigit = true) : Numeral.Digits [c] :=
    ⟨List.cons_ne_nil c [], List.forall_mem_singleton.mpr is⟩
  have whole : Numeral.Whole ['1'] := ⟨digit rfl, fun _ _ => nofun⟩
  have number : Numeral.Written ⟨true, ['1'], some ['5'], some ⟨false, ['3']⟩⟩ ['-', '1', '.', '5', 'E', '+', '3'] :=
    .mk whole (.some (digit rfl)) (.some (.inr rfl) .plus (digit rfl))
  have half : (Quoted.Piece.ofUnit 0xD800).Written ['\\', 'u', 'd', '8', '0', '0'] := .unit (by decide)
  have letter : (Quoted.Piece.ofUnit 0x73).Written ['\\', 'u', '0', '0', '7', '3'] := .unit (by decide)
  have unpaired := Quoted.Written.mk (.cons half .nil)
  have size := Quoted.Written.mk (.cons letter (Quoted.writeChars_written ['i', 'z', 'e']))
  simp only [notedText, String.reduceToList]
  show Laid (.openObject :: _) _
  refine .token .openObject <| .token (.text (Quoted.write_written "note")) <| .token .colon ?_
  refine .token .openArray <| .token .openArray <| .token (.number number) <| .token .closeArray ?_
  refine .token .comma <| .token (.text unpaired) <| .token .closeArray <| .token .comma ?_
  refine .token (.text (Quoted.write_written "layers")) <| .token .colon <| .token .openArray ?_
  refine .token .openArray <| .token .closeArray <| .token .comma ?_
  refine .token .openArray <| .token .null <| .token .closeArray <| .token .comma ?_
  refine .token .openArray <| .token (.number (ofInt_written 0)) <| .token .closeArray ?_
  refine .token .closeArray <| .token .comma ?_
  refine .token (.text (Quoted.write_written "variant_names")) <| .token .colon <| .token .openArray ?_
  refine .token .closeArray <| .token .comma ?_
  refine .token (.text (Quoted.write_written "tile_names")) <| .token .colon <| .token .openArray ?_
  refine .token (.text (Quoted.write_written "oak")) <| .token .closeArray <| .token .comma <| .blank rfl ?_
  refine .token (.text size) <| .blank rfl <| .token .colon <| .blank rfl <| .token .openArray ?_
  refine .token (.number (ofInt_written 1)) <| .token .comma <| .blank rfl <| .token (.number (ofInt_written 1)) ?_
  exact .token .closeArray <| .token .closeObject .nil

def repeatedMembers : List (Option String × Json) := [(some "size", ofVec ⟨1, 1⟩), (some "size", ofVec ⟨1, 1⟩)]

def repeatedText : String := "\x7b\"size\":[1,1],\"size\":[1,1]\x7d"

theorem repeatedText_laid : Laid (Json.object repeatedMembers).tokens repeatedText.toList := by
  simp only [repeatedText, String.reduceToList]
  show Laid (.openObject :: _) _
  refine .token .openObject ?_
  refine .token (.text (Quoted.write_written "size")) <| .token .colon <| .token .openArray ?_
  refine .token (.number (ofInt_written 1)) <| .token .comma <| .token (.number (ofInt_written 1)) ?_
  refine .token .closeArray <| .token .comma ?_
  refine .token (.text (Quoted.write_written "size")) <| .token .colon <| .token .openArray ?_
  refine .token (.number (ofInt_written 1)) <| .token .comma <| .token (.number (ofInt_written 1)) ?_
  exact .token .closeArray <| .token .closeObject .nil

theorem additions_skipped_noted :
    Laid (Json.object notedMembers).tokens notedText.toList ∧
    notedSnapshot.size.Fits ∧ "note" ∉ Snapshot.fieldNames ∧
    notedMembers.Perm (notedSnapshot.toJson.members ++ [("note", note)].map fun x => (some x.1, x.2)) ∧
    Snapshot.decodeText? notedText = some notedSnapshot ∧
    Format.decodeText (Bytes.ofText notedText) = .ok notedSnapshot ∧
    Laid (Json.object repeatedMembers).tokens repeatedText.toList ∧
    "size" ∈ Snapshot.fieldNames ∧ (repeatedMembers.map Prod.fst).count (some "size") = 2 ∧
    Snapshot.decodeText? repeatedText = none ∧
    Format.decodeText (Bytes.ofText repeatedText) = .error .text := by
  have fits : notedSnapshot.size.Fits := by decide
  have foreign : "note" ∉ Snapshot.fieldNames := by decide
  have field : "size" ∈ Snapshot.fieldNames := by decide
  have twice : (repeatedMembers.map Prod.fst).count (some "size") = 2 := by decide
  have order : notedMembers.Perm (notedSnapshot.toJson.members ++ [("note", note)].map fun x => (some x.1, x.2)) :=
    (List.perm_append_singleton _ _).symm.trans ((List.reverse_perm _).append_right _)
  have read := (additions_skipped notedText_laid).1 notedSnapshot [("note", note)] fits
    (List.forall_mem_singleton.mpr foreign) order
  have refused := (additions_skipped repeatedText_laid).2 "size" field (by omega)
  exact ⟨notedText_laid, fits, foreign, order, read.1, read.2, repeatedText_laid, field, twice, refused⟩

end Noted

end Tilework
