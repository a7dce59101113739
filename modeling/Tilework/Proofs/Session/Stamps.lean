import Tilework.Proofs.Session.Desk

namespace Tilework.Desk

variable {σ δ : Type}

def nameAt (w : Desk σ δ) (q : Vec) (layer : Layer) : Option String :=
  ((w.session.store.grid.cellAt q).get layer).bind w.session.catalog.tileName?

/-- The slot shows a tile of this name, or it is empty and the catalog has no such tile. -/
def Shows (w : Desk σ δ) (q : Vec) (layer : Layer) (name : String) : Prop :=
  w.nameAt q layer = some name ∨
    ((w.session.store.grid.cellAt q).get layer = none ∧ ∀ tile ∈ w.session.catalog.tiles, tile.name ≠ name)

/-- After a paste the map shows what was picked up where something was picked up, and elsewhere what it showed before. -/
def Stamps (w : Desk σ δ) (a : Action δ) (v : Desk σ δ) : Prop :=
  ∀ i offset x q layer, a = .paste i offset → w.picked[i]? = some x → w.session.store.grid.Contains q →
    (∀ name, x.names (q - offset) layer = some name → v.Shows q layer name) ∧
    (x.names (q - offset) layer = none → v.nameAt q layer = w.nameAt q layer)

variable [DrawSource σ] [Files (StateM δ)] {w v : Desk σ δ} {a : Action δ}

theorem paste_slots (numbered : w.session.catalog.Numbered) {i : Nat} {offset : Vec} {x : Picked}
    (found : w.picked[i]? = some x) (h : w.step (.paste i offset) = .ok v) :
    v.session.catalog = w.session.catalog ∧ ∀ q layer, w.session.store.grid.Contains q →
      ((v.session.store.grid.cellAt q).get layer).map w.session.catalog.occupant =
        ((x.brush.slotAt (q - offset) layer).or ((w.session.store.grid.cellAt q).get layer)).map
          w.session.catalog.occupant := by
  simp only [Desk.step, found] at h
  obtain ⟨s, edited, h⟩ := bind_eq_ok.mp h
  cases h
  obtain ⟨k, t, pasted, rfl⟩ := Session.edit_eq_ok edited
  exact ⟨rfl, fun q layer contains => Grid.paste_get numbered contains pasted layer⟩

/-- A paste leaves the names that were picked up if and only if the ids that it writes are still theirs. -/
theorem Sound.stamps_iff (sound : w.Sound) (few : w.Few) (h : w.step a = .ok v) : w.Stamps a v ↔ w.Fresh a := by
  have numbered := sound.numbered few
  constructor
  · rintro stamps i offset x q layer id rfl found contains held
    obtain ⟨same, slots⟩ := paste_slots numbered found h
    obtain ⟨name, recorded, before⟩ := (sound.picked x (List.mem_of_getElem? found)).name held
    have slot := slots q layer contains
    rw [held, Option.some_or] at slot
    have called := numbered.bind_tileName?_of_occupant slot
    rw [Option.bind_some] at called
    rcases (stamps i offset x q layer rfl found contains).1 name recorded with shown | ⟨nothing, -⟩
    · rw [nameAt, same, called] at shown
      rw [shown, before]
    · rw [nothing] at slot
      cases slot
  · rintro fresh i offset x q layer rfl found contains
    obtain ⟨same, slots⟩ := paste_slots numbered found h
    have called := numbered.bind_tileName?_of_occupant (slots q layer contains)
    have pick := sound.picked x (List.mem_of_getElem? found)
    cases held : x.brush.slotAt (q - offset) layer with
    | none =>
      have names := pick.names (q - offset) layer
      rw [held, Option.bind_none] at names
      have kept : v.nameAt q layer = w.nameAt q layer := by
        rw [nameAt, same, called, held, Option.none_or]
        rfl
      rw [← names]
      exact ⟨nofun, fun _ => kept⟩
    | some id =>
      obtain ⟨name, recorded, before⟩ := pick.name held
      have shown : v.nameAt q layer = some name := by
        rw [nameAt, same, called, held, Option.some_or, Option.bind_some,
          fresh i offset x q layer id rfl found contains held, before]
      rw [recorded]
      refine ⟨?_, nofun⟩
      intro other equal
      cases equal
      exact .inl shown

theorem Sound.throughout_iff (sound : w.Sound) (resolved : w.Resolved) {actions : List (Action δ)}
    (few : w.Throughout (fun w _ v => w.Few ∧ v.Few) actions) :
    w.Throughout (fun w a v => v.Resolved ∧ w.Stamps a v) actions ↔ w.Throughout (fun w a _ => w.Fresh a) actions := by
  induction actions generalizing w with
  | nil => exact Iff.rfl
  | cons a rest ih =>
    apply forall₂_congr
    intro v taken
    obtain ⟨⟨before, after⟩, later⟩ := few v taken
    have keeps := sound.step before after taken
    have here := sound.stamps_iff before taken
    constructor
    · rintro ⟨⟨known, stamps⟩, good⟩
      exact ⟨here.mp stamps, (ih keeps.sound known later).mp good⟩
    · rintro ⟨fresh, good⟩
      have known := keeps.resolved resolved fresh
      exact ⟨⟨known, here.mpr fresh⟩, (ih keeps.sound known later).mpr good⟩

end Tilework.Desk
