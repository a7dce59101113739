import Tilework.Proofs.Autotile.Settled
import Tilework.Proofs.Autotile.Translation

namespace Tilework

section Noticing

variable (c : Catalog) (g : Grid) (size offset p : Vec)

/-- A rule that is tried at `p`, and after the move at `p + offset`, does not have to come to the same. -/
def Rule.Notices (rule : Rule) : Prop :=
  ¬rule.period.Divides offset ∨
    ∃ r ∈ rule.requirements, ¬(g.Contains (p + r.offset) ∧ (p + offset + r.offset).Within size)

def Noticed : Prop :=
  ∃ layer id tile rule, (g.cellAt p).get layer = some id ∧ c.tileOf id = .ok tile ∧ rule ∈ tile.rules ∧
    rule.Notices g size offset p

end Noticing

section Rules

variable {c : Catalog} {g h k : Grid} {p q size offset : Vec} {σ : Type} [DrawSource σ]

theorem evaluateId_eq_of_rules {id : TileId}
    (same : ∀ tile rule, c.tileOf id = .ok tile → rule ∈ tile.rules →
      ∀ candidate, rule.fires c g p candidate = rule.fires c h q candidate) :
    (evaluateId c g p id : Drawing σ TileId) = evaluateId c h q id := by
  unfold evaluateId
  cases known : c.info? id with
  | none => rfl
  | some info =>
    cases found : c.tileAt info.tile with
    | error cause => simp only [found, Drawing.lift_error_bind]
    | ok tile =>
      have owner : c.tileOf id = .ok tile := by
        rw [Catalog.tileOf, Catalog.info, known]
        exact found
      have chosen := refineVariant_congr (σ := σ)
        (fun rule member => same tile rule owner (Array.mem_toList_iff.mp member)) tile.defaultVariant
      simp only [found, Drawing.lift_ok_bind, chosen]

theorem evaluate_eq_of_rules (here : h.cellAt (h.closest q) = g.cellAt (g.closest p))
    (same : ∀ layer id tile rule, (g.cellAt (g.closest p)).get layer = some id → c.tileOf id = .ok tile →
      rule ∈ tile.rules → ∀ candidate, rule.fires c g p candidate = rule.fires c h q candidate) :
    (evaluate c g p : Drawing σ Cell) = evaluate c h q := by
  have slots : ∀ layer, (evaluateSlot c g p ((g.cellAt (g.closest p)).get layer) : Drawing σ (Option TileId)) =
      evaluateSlot c h q ((g.cellAt (g.closest p)).get layer) := by
    intro layer
    cases slot : (g.cellAt (g.closest p)).get layer with
    | none => rfl
    | some id =>
      have equal := evaluateId_eq_of_rules (σ := σ) fun tile rule => same layer id tile rule slot
      rw [evaluateSlot, equal]
      rfl
  have front := slots .front
  have mid := slots .mid
  have back := slots .back
  simp only [Cell.get] at front mid back
  simp only [evaluate, Grid.get_eq, here, Drawing.lift_ok_bind, front, mid, back]

theorem Rule.Intact.fires_of_unnoticed {rule : Rule} {variants : Nat} (intact : rule.Intact c variants)
    (moved : g.Moved size offset k) (unnoticed : ¬rule.Notices g size offset p) (candidate : Nat) :
    rule.fires c g p candidate = rule.fires c k (p + offset) candidate := by
  obtain ⟨whole, inner⟩ := not_or.mp unnoticed
  refine Rule.fires_congr ?_ ?_ candidate
  · exact ((not_not.mp whole).admits_add intact.period_x intact.period_y p).symm
  · intro r required
    obtain ⟨before, after⟩ : g.Contains (p + r.offset) ∧ (p + offset + r.offset).Within size := by
      by_contra outer
      exact inner ⟨r, required, outer⟩
    have target : k.Contains (p + offset + r.offset) := by rwa [Grid.Contains, moved.size]
    have place := Vec.add_right_comm p offset r.offset
    rw [Requirement.holds_of_contains before, Requirement.holds_of_contains target, place,
      moved.cellAt_add before (place ▸ after)]

theorem evaluate_of_unnoticed (intact : c.Intact) (moved : g.Moved size offset k) (inside : g.Contains p)
    (within : (p + offset).Within size) (unnoticed : ¬Noticed c g size offset p) :
    (evaluate c g p : Drawing σ Cell) = evaluate c k (p + offset) := by
  have target : k.Contains (p + offset) := by rwa [Grid.Contains, moved.size]
  apply evaluate_eq_of_rules
  · rw [Grid.closest_of_contains inside, Grid.closest_of_contains target, moved.cellAt_add inside within]
  · intro layer id tile rule slot owner member candidate
    rw [Grid.closest_of_contains inside] at slot
    obtain ⟨info, -, found⟩ := bind_eq_ok.mp owner
    have tried := intact.rule (entryAt_eq_ok_iff.mp found) member
    refine tried.fires_of_unnoticed moved ?_ candidate
    exact fun notices => unnoticed ⟨layer, id, tile, rule, slot, owner, member, notices⟩

end Rules

theorem Store.resize_eq_ok {store after : Store} {size offset : Vec}
    (h : store.resize size offset = .ok (some after)) : store.grid.Moved size offset after.grid := by
  obtain ⟨found, resized, h⟩ := bind_eq_ok.mp h
  cases found with
  | none => cases h
  | some k =>
    cases h
    exact Grid.resize_eq_ok resized

/-- Where no rule has a choice, a resize keeps an autotiled map autotiled if and only if the tiles with a rule that notices
the move would be given the variants that they have. -/
theorem resized_settled_iff {config : Config} {c : Catalog} (compiled : config.compile = .ok c)
    (determined : c.Determined) {store after : Store} {size offset : Vec} {σ τ : Type} [DrawSource σ] [DrawSource τ]
    {s t : σ} (fixed : retile c store.grid s = .ok (store.grid, t))
    (resized : store.resize size offset = .ok (some after)) (u : τ) :
    retile c after.grid u = .ok (after.grid, u) ↔
      ∀ p, store.grid.Contains p → (p + offset).Within size → Noticed c store.grid size offset p →
        evaluate c after.grid (p + offset) u = .ok (store.grid.cellAt p, u) := by
  obtain ⟨stages⟩ := compile_eq_ok compiled
  have moved := Store.resize_eq_ok resized
  obtain ⟨-, before⟩ := (retile_fixed_iff determined).mp fixed
  rw [retile_fixed_iff determined]
  constructor
  · rintro ⟨-, cells⟩ p inside within -
    have target : after.grid.Contains (p + offset) := by rwa [Grid.Contains, moved.size]
    rw [cells (p + offset) target, moved.cellAt_add inside within]
  · intro noticing
    refine ⟨rfl, ?_⟩
    intro q contains
    have within : q.Within size := by rwa [Grid.Contains, moved.size] at contains
    by_cases inside : store.grid.Contains (q - offset)
    · have place := Vec.sub_add_cancel q offset
      rw [← place] at within
      have carried := moved.cellAt_add inside within
      by_cases noticed : Noticed c store.grid size offset (q - offset)
      · have right := noticing (q - offset) inside within noticed
        rwa [← carried, place] at right
      · have same := determined.evaluate_eq (before (q - offset) inside) u
        rwa [evaluate_of_unnoticed stages.intact moved inside within noticed, ← carried, place] at same
    · -- A cell that has come anew holds nothing that could be evaluated.
      refine evaluate_of_unknown contains ?_ u
      intro layer id slot
      rw [moved.cells q within, if_neg inside] at slot
      cases layer <;> cases slot

/-- The wall on the right is at the border, where it sees itself. -/
def wallStore : Store := Store.ofGrid (wallRow (some ⟨0⟩) none (some ⟨1⟩)) "yard"

/-- After the move the right wall is at the border again, and the left one still has nothing beside it. -/
theorem resized_settled_iff_wallStore :
    wallConfig.compile = .ok wallCatalog ∧ wallCatalog.Determined ∧
    retile wallCatalog wallStore.grid (Scripted.mk #[] 0) = .ok (wallStore.grid, Scripted.mk #[] 0) ∧
    ∃ after, wallStore.resize ⟨4, 1⟩ ⟨1, 0⟩ = .ok (some after) ∧
      after.grid.cellAt ⟨3, 0⟩ = { back := some ⟨1⟩ } ∧
      retile wallCatalog after.grid (Scripted.mk #[] 0) = .ok (after.grid, Scripted.mk #[] 0) := by
  have fixed : retile wallCatalog wallStore.grid (Scripted.mk #[] 0) = .ok (wallStore.grid, Scripted.mk #[] 0) := rfl
  have resized : wallStore.resize ⟨4, 1⟩ ⟨1, 0⟩ =
      .ok (some (Store.ofGrid ⟨⟨4, 1⟩, #[{}, { back := some ⟨0⟩ }, {}, { back := some ⟨1⟩ }], rfl⟩ "yard")) := rfl
  refine ⟨wallConfig_compile, wallCatalog_determined, fixed, _, resized, rfl, ?_⟩
  rw [resized_settled_iff wallConfig_compile wallCatalog_determined fixed resized]
  intro p inside _ _
  have cases : p = ⟨0, 0⟩ ∨ p = ⟨1, 0⟩ ∨ p = ⟨2, 0⟩ := by
    obtain ⟨left, low, right, high⟩ : 0 ≤ p.x ∧ 0 ≤ p.y ∧ p.x < 3 ∧ p.y < 1 := inside
    simp only [Vec.ext_iff]
    omega
  rcases cases with rfl | rfl | rfl <;> rfl

/-- The map grows to the right, and the wall that was at the border stays joined to what is no longer there. -/
theorem joinedWall_strays :
    wallConfig.compile = .ok wallCatalog ∧ wallCatalog.Determined ∧
    retile wallCatalog wallStore.grid (Scripted.mk #[] 0) = .ok (wallStore.grid, Scripted.mk #[] 0) ∧
    ∃ after, wallStore.resize ⟨4, 1⟩ ⟨0, 0⟩ = .ok (some after) ∧ after.grid.cellAt ⟨2, 0⟩ = { back := some ⟨1⟩ } ∧
      ∃ k, retile wallCatalog after.grid (Scripted.mk #[] 0) = .ok (k, Scripted.mk #[] 0) ∧
        k.cellAt ⟨2, 0⟩ = { back := some ⟨0⟩ } :=
  ⟨wallConfig_compile, wallCatalog_determined, rfl, _, rfl, rfl, _, rfl, rfl⟩

end Tilework
