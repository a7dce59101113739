import Tilework.Autotile
import Tilework.Proofs.Catalog.Reach
import Tilework.Proofs.Grid.Access

namespace Tilework

/-- What an id comes to where variants do not matter. -/
inductive Occupant where
  | tile (index : Nat)
  | unknown (id : TileId)
  deriving DecidableEq, Repr

def Catalog.occupant (c : Catalog) (id : TileId) : Occupant :=
  match c.info? id with
  | some info => .tile info.tile
  | none => .unknown id

theorem Catalog.occupant_of_info {c : Catalog} {id : TileId} {info : TileInfo} (h : c.info? id = some info) :
    c.occupant id = .tile info.tile := by
  simp [occupant, h]

theorem Catalog.occupant_of_unknown {c : Catalog} {id : TileId} (h : c.info? id = none) :
    c.occupant id = .unknown id := by
  simp [occupant, h]

theorem Catalog.occupant_eq_iff {c : Catalog} {a b : TileId} : c.occupant a = c.occupant b ↔
    (∃ info other, c.info? a = some info ∧ c.info? b = some other ∧ info.tile = other.tile) ∨
      c.info? a = none ∧ a = b := by
  constructor
  · intro same
    cases first : c.info? a with
    | some info =>
      cases second : c.info? b with
      | some other =>
        rw [occupant_of_info first, occupant_of_info second] at same
        exact .inl ⟨info, other, rfl, rfl, Occupant.tile.inj same⟩
      | none =>
        rw [occupant_of_info first, occupant_of_unknown second] at same
        cases same
    | none =>
      cases second : c.info? b with
      | some other =>
        rw [occupant_of_unknown first, occupant_of_info second] at same
        cases same
      | none =>
        rw [occupant_of_unknown first, occupant_of_unknown second] at same
        exact .inr ⟨rfl, Occupant.unknown.inj same⟩
  · rintro (⟨info, other, first, second, same⟩ | ⟨-, rfl⟩)
    · rw [occupant_of_info first, occupant_of_info second, same]
    · rfl

namespace Cell

/-- The cells have the same tiles, and the same ids where the catalog does not know them. -/
def Alike (c : Catalog) (a b : Cell) : Prop := ∀ layer, (a.get layer).map c.occupant = (b.get layer).map c.occupant

variable {c : Catalog} {a b d : Cell}

theorem Alike.refl (c : Catalog) (a : Cell) : Alike c a a := fun _ => rfl

theorem Alike.symm (h : Alike c a b) : Alike c b a := fun layer => (h layer).symm

theorem Alike.trans (h : Alike c a b) (k : Alike c b d) : Alike c a d := fun layer => (h layer).trans (k layer)

theorem Alike.any_eq (h : Alike c a b) (layer : Layer) {test : TileId → Bool} (seen : Occupant → Bool)
    (factors : ∀ id, test id = seen (c.occupant id)) : (a.get layer).any test = (b.get layer).any test := by
  have through : ∀ slot : Option TileId, slot.any test = (slot.map c.occupant).any seen := by
    intro slot
    cases slot with
    | none => rfl
    | some id => exact factors id
  rw [through, through, h layer]

theorem any_occupied (cell : Cell) (test : TileId → Bool) :
    cell.occupied.any (fun entry => test entry.2) = Layer.all.any fun layer => (cell.get layer).any test := by
  cases hf : cell.front <;> cases hm : cell.mid <;> cases hb : cell.back <;>
    simp [occupied, Layer.all, get, hf, hm, hb]

theorem not_isEmpty (cell : Cell) : (!cell.isEmpty) = Layer.all.any fun layer => (cell.get layer).any fun _ => true := by
  rw [← any_occupied, isEmpty]
  cases cell.occupied <;> rfl

theorem Alike.any_occupied_eq (h : Alike c a b) {test : TileId → Bool} (seen : Occupant → Bool)
    (factors : ∀ id, test id = seen (c.occupant id)) :
    a.occupied.any (fun entry => test entry.2) = b.occupied.any (fun entry => test entry.2) := by
  rw [any_occupied, any_occupied]
  congr 1
  funext layer
  exact h.any_eq layer seen factors

end Cell

def Requirement.metBy (c : Catalog) (r : Requirement) (cell : Cell) : Checked Bool :=
  match r.target with
  | .any => return !cell.isEmpty
  | .tile i => do
    let tile ← c.tileAt i
    return ((cell.get tile.layer).bind c.info?).any fun info => info.tile == i
  | .group i => do
    let group ← c.groupAt i
    return cell.occupied.any fun (_, id) => (c.info? id).any fun info => group.containsIndex info.tile

theorem Requirement.holds_eq (c : Catalog) (g : Grid) (p : Vec) (r : Requirement) :
    r.holds c g p = (p + r.offset).fit >>= fun q => r.metBy c (g.cellAt (g.closest q)) := by
  unfold holds metBy
  congr 1
  funext q
  rw [Grid.get_eq]
  cases r.target <;> rfl

def Occupant.isTile (test : Nat → Bool) : Occupant → Bool
  | tile i => test i
  | unknown _ => false

theorem Catalog.info?_any (c : Catalog) (id : TileId) (test : Nat → Bool) :
    ((c.info? id).any fun info => test info.tile) = (c.occupant id).isTile test := by
  unfold occupant
  cases c.info? id <;> rfl

theorem Requirement.metBy_congr {c : Catalog} {a b : Cell} (h : Cell.Alike c a b) (r : Requirement) :
    r.metBy c a = r.metBy c b := by
  unfold metBy
  cases r.target with
  | any =>
    have same : (!a.isEmpty) = !b.isEmpty := by
      rw [Cell.not_isEmpty, Cell.not_isEmpty]
      congr 1
      funext layer
      exact h.any_eq layer (fun _ => true) fun _ => rfl
    rw [same]
  | tile i =>
    simp only
    congr 1
    funext tile
    have same := h.any_eq tile.layer (Occupant.isTile (· == i)) fun id => c.info?_any id (· == i)
    rw [Option.any_bind, Option.any_bind]
    exact congrArg pure same
  | group i =>
    simp only
    congr 1
    funext group
    have same := h.any_occupied_eq (Occupant.isTile group.containsIndex) fun id => c.info?_any id group.containsIndex
    exact congrArg pure same

end Tilework
