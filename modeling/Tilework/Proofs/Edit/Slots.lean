import Tilework.Proofs.Edit.Overlay

namespace Tilework

variable {P Q : Layer → TileId → Prop}

def Cell.Upholds (P : Layer → TileId → Prop) (cell : Cell) : Prop := ∀ layer id, cell.get layer = some id → P layer id

namespace Cell

variable {cell : Cell}

theorem upholds_empty : empty.Upholds P := by
  intro layer id slot
  cases layer <;> cases slot

theorem Upholds.set (upheld : cell.Upholds P) {layer : Layer} {slot : Option TileId}
    (written : ∀ id, slot = some id → P layer id) : (cell.set layer slot).Upholds P := by
  intro other id found
  by_cases same : other = layer
  · subst same
    rw [get_set_self] at found
    exact written id found
  · rw [get_set_of_ne cell slot same] at found
    exact upheld other id found

theorem upholds_iff_occupied : cell.Upholds P ↔ ∀ slot ∈ cell.occupied, P slot.1 slot.2 := by
  constructor
  · rintro upheld ⟨layer, id⟩ member
    exact upheld layer id (mem_occupied.mp member)
  · intro upheld layer id slot
    exact upheld (layer, id) (mem_occupied.mpr slot)

end Cell

def Grid.Upholds (P : Layer → TileId → Prop) (g : Grid) : Prop := ∀ p, g.Contains p → (g.cellAt p).Upholds P

namespace Grid

variable {g h k : Grid} {p : Vec}

theorem upholds_iff_mem : g.Upholds P ↔ ∀ cell ∈ g.cells, cell.Upholds P := by
  constructor
  · intro upheld cell member
    obtain ⟨p, inside, rfl⟩ := mem_cells.mp member
    exact upheld p inside
  · intro upheld p inside
    exact upheld _ (mem_cells.mpr ⟨p, inside, rfl⟩)

theorem Upholds.update (upheld : g.Upholds P) (inside : g.Contains p) {f : Cell → Cell}
    (written : (f (g.cellAt p)).Upholds P) : (g.update p f).Upholds P := by
  intro q contains
  by_cases here : q = p
  · subst here
    rw [cellAt_update_self inside]
    exact written
  · rw [cellAt_update_of_ne inside contains f here]
    exact upheld q contains

theorem Upholds.setLayer (upheld : g.Upholds P) {layer : Layer} {slot : Option TileId}
    (written : ∀ id, slot = some id → P layer id) (h : g.setLayer p layer slot = .ok k) : k.Upholds P := by
  rcases setLayer_eq_ok h with ⟨inside, rfl⟩ | ⟨-, rfl⟩
  · exact upheld.update inside ((upheld p inside).set written)
  · exact upheld

theorem setStrict_eq_ok {cell : Cell} (h : g.setStrict p cell = .ok k) :
    g.Contains p ∧ k = g.update p fun _ => cell := by
  by_cases inside : g.Contains p
  · rw [setStrict_of_contains inside] at h
    exact ⟨inside, (Except.ok.inj h).symm⟩
  · rw [setStrict_of_not_contains inside] at h
    cases h

theorem set_eq_ok {cell : Cell} (h : g.set p cell = .ok k) :
    (g.Contains p ∧ k = g.update p fun _ => cell) ∨ (¬g.Contains p ∧ k = g) := by
  unfold set at h
  split at h
  · exact .inl (setStrict_eq_ok h)
  · cases h
    exact .inr ⟨by assumption, rfl⟩

theorem Upholds.set (upheld : g.Upholds P) {cell : Cell} (written : cell.Upholds P) (h : g.set p cell = .ok k) :
    k.Upholds P := by
  rcases set_eq_ok h with ⟨inside, rfl⟩ | ⟨-, rfl⟩
  · exact upheld.update inside written
  · exact upheld

theorem blank?_upholds {size : Vec} (h : blank? size = some g) : g.Upholds P := by
  unfold blank? at h
  split at h
  · cases h
    rw [upholds_iff_mem]
    intro cell member
    rw [(Array.mem_replicate.mp member).2]
    exact Cell.upholds_empty
  · cases h

theorem blank_upholds {size : Vec} (h : blank size = .ok g) : g.Upholds P := by
  unfold blank at h
  split at h
  · rename_i grid made
    cases h
    exact blank?_upholds made
  · cases h

theorem Upholds.overlay (upheld : g.Upholds P) {brush : Brush} {offset : Vec}
    (landing : ∀ q layer id, g.Contains q → brush.slotAt (q - offset) layer = some id → P layer id)
    (h : g.overlay brush offset = .ok k) : k.Upholds P := by
  intro q inside layer id slot
  have contains := (contains_congr (overlay_changedWithin h).1).mp inside
  rw [overlay_get contains h] at slot
  rcases Option.or_eq_some_iff.mp slot with stamped | ⟨-, before⟩
  · exact landing q layer id contains stamped
  · exact upheld q contains layer id before

theorem Upholds.clear (upheld : g.Upholds P) {filter : Filter} (h : g.clear p filter = .ok k) : k.Upholds P := by
  refine foldlM_invariant (fun k => k.Upholds P) ?_ upheld h
  intro g layer next _ upheld written
  exact upheld.setLayer (fun id none => by cases none) written

theorem Upholds.erasure (upheld : g.Upholds P) {positions : List Vec} {filter : Filter}
    (h : positions.foldlM (fun g p => g.clear p filter) g = .ok k) : k.Upholds P := by
  refine foldlM_invariant (fun k => k.Upholds P) ?_ upheld h
  intro g p next _ upheld written
  exact upheld.clear written

theorem Upholds.grab (upheld : g.Upholds P) {c : Catalog} {filter : Filter}
    (reset : ∀ layer id chosen, P layer id → resetId c id = .ok (some chosen) → Q layer chosen) {a b : Vec}
    {brush : Brush} (h : g.grab c a b filter = .ok (some brush)) : brush.grid.Upholds Q := by
  have resetCell_upholds : ∀ source cell, Cell.Upholds P source → resetCell c filter source = .ok cell →
      cell.Upholds Q := by
    intro source cell upheld kept
    refine foldlM_invariant (fun cell => Cell.Upholds Q cell) ?_ Cell.upholds_empty kept
    intro before layer after _ sofar step
    split at step
    · obtain ⟨slot, chosen, step⟩ := bind_eq_ok.mp step
      cases step
      refine sofar.set ?_
      rintro id rfl
      cases found : source.get layer with
      | none =>
        rw [found] at chosen
        cases chosen
      | some old =>
        rw [found] at chosen
        exact reset layer old id (upheld layer old found) chosen
    · cases step
      exact sofar
  obtain ⟨corners, -, h⟩ := bind_eq_ok.mp h
  obtain ⟨common, -, h⟩ := bind_eq_ok.mp h
  cases common with
  | none => cases h
  | some area =>
    obtain ⟨blank, made, h⟩ := bind_eq_ok.mp h
    obtain ⟨grid, picked, h⟩ := bind_eq_ok.mp h
    cases h
    refine foldlM_invariant (fun k => k.Upholds Q) ?_ (blank_upholds made) picked
    intro grid p next _ filled written
    obtain ⟨source, read, written⟩ := bind_eq_ok.mp written
    obtain ⟨inside, rfl⟩ := getStrict_eq_ok.mp read
    obtain ⟨cell, kept, written⟩ := bind_eq_ok.mp written
    obtain ⟨q, -, written⟩ := bind_eq_ok.mp written
    exact filled.set (resetCell_upholds _ cell (upheld p inside) kept) written

theorem Upholds.remap (upheld : g.Upholds P) {f : TileId → Option TileId}
    (passed : ∀ layer id other, P layer id → f id = some other → Q layer other) : (g.remap f).Upholds Q := by
  rw [upholds_iff_mem] at upheld ⊢
  intro cell member
  obtain ⟨source, among, rfl⟩ := Array.mem_map.mp member
  intro layer other slot
  rw [Cell.get_mapSlots] at slot
  obtain ⟨id, found, sent⟩ := Option.bind_eq_some_iff.mp slot
  exact passed layer id other (upheld source among layer id found) sent

end Grid

end Tilework
