import Tilework.Proofs.Snapshot.Rename

namespace Tilework

namespace Snapshot

def readCell (c : Catalog) (s : Snapshot) (i : Nat) : Checked Cell :=
  Layer.all.foldlM (fun cell layer => do
    let stored ← entryAt (s.layer layer).toArray i
    return cell.set layer (lookup (s.table c) stored)) Cell.empty

/-- The restoration as a loop over the places. It comes to no grid if the cells turn out not to fit the size. -/
def restoreByPlace (c : Catalog) (s : Snapshot) : Checked (Except Inconsistency (Option Grid)) := do
  if s.tileNames.length ≠ s.variantNames.length then
    return .error (.names s.tileNames.length s.variantNames.length)
  match cellCount? s.size with
  | none => return .error (.size s.size)
  | some n =>
    match Layer.all.find? fun layer => (s.layer layer).length ≠ n with
    | some layer => return .error (.layer layer (s.layer layer).length n)
    | none =>
      let cells ← (List.range n).mapM (s.readCell c)
      return .ok (Grid.ofCells? s.size cells.toArray)

/-- What a stored place stands for: a place of the table stands for the id that the catalog has for the names there. -/
inductive Stands (c : Catalog) (s : Snapshot) : Option UInt32 → Option TileId → Prop where
  | empty : Stands c s none none
  | past {place : UInt32} : s.tileNames.length ≤ place.toNat → Stands c s (some place) none
  | lacking {place : UInt32} {tile variant : String} : s.tileNames[place.toNat]? = some tile →
    s.variantNames[place.toNat]? = some variant → (∀ id, ¬c.Lists tile variant id) → Stands c s (some place) none
  | listed {place : UInt32} {tile variant : String} {id : TileId} : s.tileNames[place.toNat]? = some tile →
    s.variantNames[place.toNat]? = some variant → c.Lists tile variant id → Stands c s (some place) (some id)

variable {config : Config} {c : Catalog} {s : Snapshot} {g : Grid}

theorem readCell_of_getElem? {i : Nat} {cell : Cell} (read : (s.cellsIn c)[i]? = some cell) :
    s.readCell c i = .ok cell := by
  have each := getElem?_cellsIn.mp read
  obtain ⟨front, atFront, inFront⟩ := each .front
  obtain ⟨mid, atMid, inMid⟩ := each .mid
  obtain ⟨back, atBack, inBack⟩ := each .back
  simp only [readCell, Layer.all, List.foldlM_cons, List.foldlM_nil, entryAt, List.getElem?_toArray, atFront, atMid,
    atBack, bind, Except.bind, pure, Except.pure, inFront, inMid, inBack]
  rfl

theorem mapM_readCell (c : Catalog) (s : Snapshot) :
    (List.range (s.cellsIn c).length).mapM (s.readCell c) = .ok (s.cellsIn c) := by
  refine mapM_eq_ok.mpr (List.forall₂_iff_get.mpr ⟨List.length_range, ?_⟩)
  intro i inRange inside
  rw [List.get_eq_getElem, List.get_eq_getElem, List.getElem_range]
  exact readCell_of_getElem? (List.getElem?_eq_getElem inside)

theorem restoreByPlace_eq (c : Catalog) (s : Snapshot) : s.restoreByPlace c = .ok ((s.restore c).map some) := by
  cases restored : s.restore c with
  | ok g =>
    obtain ⟨consistent, size, cells⟩ := restore_eq_ok_iff.mp restored
    have count := g.count
    have array : (s.cellsIn c).toArray = g.cells := by rw [← cells, Array.toArray_toList]
    have read := mapM_readCell c s
    rw [← cells, Array.length_toList, cells] at read
    rw [size] at count
    have formed : Grid.ofCells? s.size (s.cellsIn c).toArray = some g :=
      Grid.ofCells?_eq_some_iff.mpr ⟨by rw [array]; exact count, size, array.symm⟩
    have length : ∀ layer, (s.layer layer).length = g.cells.size := by
      intro layer
      exact Option.some.inj ((consistent.count layer).symm.trans count)
    have even : (Layer.all.find? fun layer => (s.layer layer).length ≠ g.cells.size) = none := by
      simp [length]
    rw [restoreByPlace, if_neg (not_not.mpr consistent.names), count]
    simp only [even, read]
    exact congrArg (fun made => Except.ok (Except.ok made)) formed
  | error cause =>
    unfold restore at restored
    split at restored
    · rename_i names
      cases restored
      rw [restoreByPlace, if_pos names]
      rfl
    split at restored
    · rename_i names none
      cases restored
      rw [restoreByPlace, if_neg names, none]
      rfl
    rename_i names n count
    rw [restoreByPlace, if_neg names, count]
    split at restored
    · rename_i front
      cases restored
      have uneven : (Layer.all.find? fun layer => (s.layer layer).length ≠ n) = some .front := by
        simp [Layer.all, layer, front]
      simp only [uneven]
      rfl
    split at restored
    · rename_i front mid
      cases restored
      have uneven : (Layer.all.find? fun layer => (s.layer layer).length ≠ n) = some .mid := by
        simp [Layer.all, layer, front, mid]
      simp only [uneven]
      rfl
    split at restored
    · rename_i front mid back
      cases restored
      have uneven : (Layer.all.find? fun layer => (s.layer layer).length ≠ n) = some .back := by
        simp [Layer.all, layer, front, mid, back]
      simp only [uneven]
      rfl
    · cases restored

theorem stands_iff (ordered : c.Ordered) (names : s.tileNames.length = s.variantNames.length)
    {stored : Option UInt32} {slot : Option TileId} : s.Stands c stored slot ↔ lookup (s.table c) stored = slot := by
  constructor
  · intro stands
    cases stands with
    | empty => rfl
    | past beyond =>
      apply Option.eq_none_iff_forall_ne_some.mpr
      intro id found
      obtain ⟨place, tile, variant, same, named, -, -⟩ := lookup_eq_some_iff.mp found
      cases same
      have inside := (List.getElem?_eq_some_iff.mp named).1
      omega
    | lacking named called unlisted =>
      apply Option.eq_none_iff_forall_ne_some.mpr
      intro id found
      obtain ⟨place, tile, variant, same, named', called', listed⟩ := lookup_eq_some_iff.mp found
      cases same
      rw [named] at named'
      rw [called] at called'
      cases named'
      cases called'
      exact unlisted id (ordered.id?_eq_some_iff.mp listed)
    | listed named called listed =>
      exact lookup_eq_some_iff.mpr ⟨_, _, _, rfl, named, called, ordered.id?_eq_some_iff.mpr listed⟩
  · rintro rfl
    cases found : lookup (s.table c) stored with
    | some id =>
      obtain ⟨place, tile, variant, rfl, named, called, listed⟩ := lookup_eq_some_iff.mp found
      exact .listed named called (ordered.id?_eq_some_iff.mp listed)
    | none =>
      cases stored with
      | none => exact .empty
      | some place =>
        by_cases inside : place.toNat < s.tileNames.length
        · have named := List.getElem?_eq_getElem inside
          have called := List.getElem?_eq_getElem (names ▸ inside)
          refine .lacking named called ?_
          intro id listed
          have looked := lookup_eq_some_iff.mpr ⟨place, _, _, rfl, named, called, ordered.id?_eq_some_iff.mpr listed⟩
          rw [found] at looked
          cases looked
        · exact .past (Nat.le_of_not_lt inside)

end Snapshot

/-- Numbers that were given out twice stand for the first variant that has them, and so they are known, too. -/
theorem Compilation.knows_of_lists {config : Config} {c : Catalog} (stages : Compilation config c)
    {tile variant : String} {id : TileId} (listed : c.Lists tile variant id) : c.Knows id := by
  obtain ⟨i, j, t, v, found, -, chosen, -, rfl⟩ := listed
  obtain ⟨k, number, entry⟩ := stages.number_of_variant found chosen
  have inside := (Array.getElem?_eq_some_iff.mp entry).1
  have index : v.id.index < c.infos.size := by
    rw [number, TileId.index, UInt32.toNat_ofNat']
    have wrapped := Nat.mod_le k 4294967296
    omega
  exact ⟨_, Array.getElem?_eq_getElem index⟩

/-- No snapshot is trusted: names may repeat or be unknown, places may lie anywhere, and the lengths need not fit. -/
theorem restore_exact {config : Config} {c : Catalog} (compiled : config.compile = .ok c) (s : Snapshot) :
    s.restoreByPlace c = .ok ((s.restore c).map some) ∧
    ((∃ g, s.restore c = .ok g) ↔ s.Consistent) ∧
    ∀ g, s.restore c = .ok g → g.size = s.size ∧ g.Known c ∧
      ∀ p layer, g.Contains p → ∃ stored slot,
        (s.layer layer)[(p.x + s.size.x * p.y).toNat]? = some stored ∧ g.getLayer p layer = .ok slot ∧
        ∀ other, s.Stands c stored other ↔ other = slot := by
  obtain ⟨stages⟩ := compile_eq_ok compiled
  refine ⟨Snapshot.restoreByPlace_eq c s, Snapshot.restorable_iff, ?_⟩
  intro g restored
  obtain ⟨⟨names, -, -⟩, size, -⟩ := Snapshot.restore_eq_ok_iff.mp restored
  refine ⟨size, ?_, ?_⟩
  · intro p inside layer id slot
    obtain ⟨tile, variant, found⟩ := Snapshot.id?_of_restore restored inside slot
    exact stages.knows_of_lists (stages.ordered.id?_eq_some_iff.mp found)
  · intro p layer inside
    obtain ⟨stored, read, found⟩ := Snapshot.slot_of_restore restored inside layer
    rw [Grid.placeOf, size] at read
    refine ⟨stored, _, read, Grid.getLayer_of_contains inside layer, ?_⟩
    intro other
    rw [Snapshot.stands_iff stages.ordered names, found]
    exact eq_comm

/-- Names that repeat or are unknown, and a place far past the table. -/
def forgedSnapshot : Snapshot :=
  ⟨⟨2, 1⟩, ["fence", "moat", "fence"], ["rail", "rail", "rail"], [some 2, none], [some 1, some 4294967295], [none, some 0]⟩

/-- The area would be 65536 if it were taken modulo 2^32. -/
def wrappedSnapshot : Snapshot := ⟨⟨65536, 65537⟩, [], [], [], [], []⟩

theorem restore_exact_forged :
    fenceConfig.compile = .ok fenceCatalog ∧ forgedSnapshot.Consistent ∧
    (∃ g, forgedSnapshot.restore fenceCatalog = .ok g ∧ g.Known fenceCatalog ∧
      g.getLayer ⟨0, 0⟩ .front = .ok (some ⟨2⟩) ∧ g.getLayer ⟨0, 0⟩ .mid = .ok none ∧
      g.getLayer ⟨1, 0⟩ .mid = .ok none) ∧
    ¬∃ g, wrappedSnapshot.restore fenceCatalog = .ok g := by
  have consistent : forgedSnapshot.Consistent := by
    refine ⟨rfl, ⟨by decide, by decide, by decide⟩, ?_⟩
    rintro (_ | _ | _) <;> rfl
  obtain ⟨-, restorable, exact⟩ := restore_exact fenceConfig_compile forgedSnapshot
  obtain ⟨g, restored⟩ := restorable.mpr consistent
  obtain ⟨size, known, slots⟩ := exact g restored
  have inside : ∀ p : Vec, p.Within ⟨2, 1⟩ → g.Contains p := by
    intro p within
    rw [Grid.Contains, size]
    exact within
  have lists : fenceCatalog.Lists "fence" "rail" ⟨2⟩ := ⟨0, 2, _, _, rfl, rfl, rfl, rfl, rfl⟩
  have lacks : ∀ id, ¬fenceCatalog.Lists "moat" "rail" id := by
    rintro - ⟨i, -, t, -, found, named, -, -, -⟩
    have names : ∀ t ∈ fenceCatalog.tiles, t.name ≠ "moat" := by decide +kernel
    exact names t (Array.mem_of_getElem? found) named
  obtain ⟨_, _, ⟨⟩, front, stands⟩ := slots ⟨0, 0⟩ .front (inside _ (by decide))
  have rail := (stands (some ⟨2⟩)).mp (.listed rfl rfl lists)
  obtain ⟨_, _, ⟨⟩, mid, stands⟩ := slots ⟨0, 0⟩ .mid (inside _ (by decide))
  have lost := (stands none).mp (.lacking rfl rfl lacks)
  obtain ⟨_, _, ⟨⟩, far, stands⟩ := slots ⟨1, 0⟩ .mid (inside _ (by decide))
  have past := (stands none).mp (.past (by decide))
  refine ⟨fenceConfig_compile, consistent, ⟨g, restored, known, ?_, ?_, ?_⟩, ?_⟩
  · rw [front, rail]
  · rw [mid, lost]
  · rw [far, past]
  · obtain ⟨-, restorable, -⟩ := restore_exact fenceConfig_compile wrappedSnapshot
    rw [restorable]
    rintro ⟨-, ⟨-, -, area⟩, -⟩
    exact absurd area (by decide)

end Tilework
