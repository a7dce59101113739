import Tilework.Proofs.Grid.Access
import Tilework.Store

namespace Tilework

namespace Snapshot

/-- There are as many tile names as variant names, a map can have the size, and each layer has that many entries. -/
structure Consistent (s : Snapshot) : Prop where
  names : s.tileNames.length = s.variantNames.length
  size : UsableSize s.size
  layer : ∀ layer, ((s.layer layer).length : Int) = s.size.x * s.size.y

def cellsIn (c : Catalog) (s : Snapshot) : List Cell :=
  let found := lookup (s.table c)
  zipCells (s.front.map found) (s.mid.map found) (s.back.map found)

section zipCells

variable {front mid back : List (Option TileId)} {i : Nat} {cell : Cell}

theorem getElem?_zipCells : (zipCells front mid back)[i]? = some cell ↔
    front[i]? = some cell.front ∧ mid[i]? = some cell.mid ∧ back[i]? = some cell.back := by
  induction front generalizing mid back i with
  | nil => simp [zipCells]
  | cons f front ih =>
    cases mid with
    | nil => simp [zipCells]
    | cons m mid =>
      cases back with
      | nil => simp [zipCells]
      | cons b back =>
        cases i with
        | zero =>
          cases cell
          simp [zipCells]
        | succ i => simpa only [zipCells, List.getElem?_cons_succ] using ih

theorem zipCells_map (cells : List Cell) (front mid back : Cell → Option TileId) :
    zipCells (cells.map front) (cells.map mid) (cells.map back) =
      cells.map fun cell => ⟨front cell, mid cell, back cell⟩ := by
  induction cells with
  | nil => rfl
  | cons cell rest ih => simp only [List.map_cons, zipCells, ih]

end zipCells

variable {s : Snapshot} {c : Catalog} {g : Grid} {p : Vec} {layer : Layer}

theorem getElem?_cellsIn {i : Nat} {cell : Cell} : (s.cellsIn c)[i]? = some cell ↔
    ∀ layer, ∃ stored, (s.layer layer)[i]? = some stored ∧ lookup (s.table c) stored = cell.get layer := by
  simp only [cellsIn, getElem?_zipCells, List.getElem?_map, Option.map_eq_some_iff]
  constructor
  · rintro ⟨front, mid, back⟩ (_ | _ | _)
    · exact front
    · exact mid
    · exact back
  · intro each
    exact ⟨each .front, each .mid, each .back⟩

theorem Consistent.count (consistent : s.Consistent) (layer : Layer) :
    cellCount? s.size = some (s.layer layer).length :=
  cellCount?_eq_some_iff_area.mpr ⟨consistent.size, consistent.layer layer⟩

theorem restore_eq_ok_iff : s.restore c = .ok g ↔
    s.Consistent ∧ g.size = s.size ∧ g.cells.toList = s.cellsIn c := by
  constructor
  · intro h
    unfold restore at h
    split at h
    · cases h
    split at h
    · cases h
    split at h
    · cases h
    split at h
    · cases h
    split at h
    · cases h
    rename_i names n count front mid back
    cases h
    obtain ⟨usable, area⟩ := cellCount?_eq_some_iff_area.mp count
    refine ⟨⟨not_not.mp names, usable, ?_⟩, rfl, rfl⟩
    intro layer
    rw [← area, Int.natCast_inj]
    cases layer with
    | front => exact not_not.mp front
    | mid => exact not_not.mp mid
    | back => exact not_not.mp back
  · rintro ⟨consistent, size, cells⟩
    unfold restore
    rw [if_neg (not_not.mpr consistent.names)]
    split
    · rename_i none
      rw [consistent.count .front] at none
      cases none
    · rename_i n count
      have length : ∀ layer, (s.layer layer).length = n := by
        intro layer
        exact Option.some.inj ((consistent.count layer).symm.trans count)
      have front : s.front.length = n := length .front
      have mid : s.mid.length = n := length .mid
      have back : s.back.length = n := length .back
      rw [dif_neg (not_not.mpr front), dif_neg (not_not.mpr mid), dif_neg (not_not.mpr back), Except.ok.injEq]
      cases g
      cases size
      congr 1
      exact Array.toList_inj.mp cells.symm

theorem Consistent.count_cellsIn (consistent : s.Consistent) (c : Catalog) :
    cellCount? s.size = some (s.cellsIn c).length := by
  have count := consistent.count .front
  have length : ∀ layer, ((s.layer layer).map (lookup (s.table c))).length = (s.layer .front).length := by
    intro layer
    rw [List.length_map]
    exact Option.some.inj ((consistent.count layer).symm.trans count)
  have zipped : (s.cellsIn c).length = (s.layer .front).length :=
    length_zipCells (length .front) (length .mid) (length .back)
  rw [count, zipped]

theorem restorable_iff : (∃ g, s.restore c = .ok g) ↔ s.Consistent := by
  constructor
  · rintro ⟨g, restored⟩
    exact (restore_eq_ok_iff.mp restored).1
  · intro consistent
    exact ⟨⟨s.size, (s.cellsIn c).toArray, consistent.count_cellsIn c⟩, restore_eq_ok_iff.mpr ⟨consistent, rfl, rfl⟩⟩

theorem size_of_restore (h : s.restore c = .ok g) : g.size = s.size := (restore_eq_ok_iff.mp h).2.1

theorem slot_of_restore (h : s.restore c = .ok g) (inside : g.Contains p) (layer : Layer) :
    ∃ stored, (s.layer layer)[g.placeOf p]? = some stored ∧
      lookup (s.table c) stored = (g.cellAt p).get layer := by
  obtain ⟨-, -, cells⟩ := restore_eq_ok_iff.mp h
  have read : (s.cellsIn c)[g.placeOf p]? = some (g.cellAt p) := by
    rw [← cells, Array.getElem?_toList]
    exact entryAt_eq_ok_iff.mp (Grid.entryAt_placeOf inside)
  exact getElem?_cellsIn.mp read layer

theorem lookup_eq_some_iff {stored : Option UInt32} {id : TileId} : lookup (s.table c) stored = some id ↔
    ∃ place tile variant, stored = some place ∧ s.tileNames[place.toNat]? = some tile ∧
      s.variantNames[place.toNat]? = some variant ∧ c.id? tile variant = some id := by
  simp only [lookup, table, Option.bind_eq_some_iff, Option.join_eq_some_iff, List.getElem?_toArray,
    List.getElem?_zipWith_eq_some]
  constructor
  · rintro ⟨place, rfl, tile, variant, named, called, found⟩
    exact ⟨place, tile, variant, rfl, named, called, found⟩
  · rintro ⟨place, tile, variant, rfl, named, called, found⟩
    exact ⟨place, rfl, tile, variant, named, called, found⟩

theorem id?_of_restore (h : s.restore c = .ok g) (inside : g.Contains p) {id : TileId}
    (slot : (g.cellAt p).get layer = some id) : ∃ tile variant, c.id? tile variant = some id := by
  obtain ⟨stored, -, found⟩ := slot_of_restore h inside layer
  obtain ⟨-, tile, variant, -, -, -, listed⟩ := lookup_eq_some_iff.mp (found.trans slot)
  exact ⟨tile, variant, listed⟩

theorem table_capture (g : Grid) (old new : Catalog) (place : Nat) :
    (((capture g old).table new)[place]?).join = (old.infos[place]?).bind fun info =>
      new.id? info.tileName info.variantName := by
  simp only [table, capture, List.zipWith_map, List.zipWith_self, List.getElem?_toArray, List.getElem?_map,
    Array.getElem?_toList]
  cases old.infos[place]? <;> rfl

theorem lookup_capture (g : Grid) (old new : Catalog) (slot : Option TileId) :
    lookup ((capture g old).table new) (slot.map TileId.number) =
      slot.bind fun id => (old.info? id).bind fun info => new.id? info.tileName info.variantName := by
  cases slot with
  | none => rfl
  | some id => exact table_capture g old new id.number.toNat

theorem layer_capture (g : Grid) (c : Catalog) (layer : Layer) :
    (capture g c).layer layer = g.cells.toList.map fun cell => (cell.get layer).map TileId.number := by
  cases layer <;> exact List.map_map

theorem capture_consistent (g : Grid) (c : Catalog) : (capture g c).Consistent := by
  refine ⟨?_, g.usable, ?_⟩
  · simp [capture]
  · intro layer
    rw [layer_capture, List.length_map, Array.length_toList]
    exact (cellCount?_eq_some_iff_area.mp g.count).2

theorem restore_capture (g : Grid) (old new : Catalog) : (capture g old).restore new = .ok (g.rename old new) := by
  refine restore_eq_ok_iff.mpr ⟨capture_consistent g old, rfl, ?_⟩
  have found : ∀ layer, ((capture g old).layer layer).map (lookup ((capture g old).table new)) =
      g.cells.toList.map fun cell => (cell.get layer).bind fun id =>
        (old.info? id).bind fun info => new.id? info.tileName info.variantName := by
    intro layer
    rw [layer_capture, List.map_map]
    apply List.map_congr_left
    intro cell _
    exact lookup_capture g old new (cell.get layer)
  have front := found .front
  have mid := found .mid
  have back := found .back
  simp only [layer] at front mid back
  rw [cellsIn, front, mid, back, zipCells_map, Grid.rename, Grid.remap, Array.toList_map]
  rfl

end Snapshot

end Tilework
