import Tilework.Proofs.Autotile.Alike

namespace Tilework

/-- The cell at `p` and every cell that some rule looks at from `p` are alike in both grids. -/
structure AgreeAt (c : Catalog) (g h : Grid) (p : Vec) : Prop where
  here : Cell.Alike c (g.cellAt (g.closest p)) (h.cellAt (h.closest p))
  around : ∀ {t : Nat} {tile : Tile} {rule : Rule} {r : Requirement}, c.tiles[t]? = some tile → rule ∈ tile.rules →
    r ∈ rule.requirements →
    Cell.Alike c (g.cellAt (g.closest (p + r.offset))) (h.cellAt (h.closest (p + r.offset)))

section Congruence

variable {c : Catalog} {g h : Grid} {p q : Vec}

theorem Requirement.holds_congr {r : Requirement}
    (alike : Cell.Alike c (g.cellAt (g.closest (p + r.offset))) (h.cellAt (h.closest (p + r.offset)))) :
    r.holds c g p = r.holds c h p := by
  rw [holds_eq, holds_eq]
  cases fits : (p + r.offset).fit with
  | error cause => rfl
  | ok q =>
    obtain ⟨-, rfl⟩ := Vec.fit_eq_ok_iff.mp fits
    exact r.metBy_congr alike

theorem allHold_congr {d : Catalog} {requirements : List Requirement}
    (same : ∀ r ∈ requirements, r.holds c g p = r.holds d h q) :
    allHold c g p requirements = allHold d h q requirements := by
  induction requirements with
  | nil => rfl
  | cons r rest ih =>
    have first := same r (by simp)
    have others := ih fun s member => same s (by simp [member])
    simp only [allHold, first, others]

theorem anyHolds_congr {d : Catalog} {requirements : List Requirement}
    (same : ∀ r ∈ requirements, r.holds c g p = r.holds d h q) :
    anyHolds c g p requirements = anyHolds d h q requirements := by
  induction requirements with
  | nil => rfl
  | cons r rest ih =>
    have first := same r (by simp)
    have others := ih fun s member => same s (by simp [member])
    simp only [anyHolds, first, others]

theorem Rule.fires_congr {rule : Rule} (admits : rule.period.admits p = rule.period.admits q)
    (same : ∀ r ∈ rule.requirements, r.holds c g p = r.holds c h q) (candidate : Nat) :
    rule.fires c g p candidate = rule.fires c h q candidate := by
  have wanted := allHold_congr fun r member => same r (List.mem_append_left _ member)
  have unwanted := anyHolds_congr fun r member => same r (List.mem_append_right _ member)
  simp only [fires, admits, wanted, unwanted]

def FiresAlike (c : Catalog) (g : Grid) (p : Vec) (h : Grid) (q : Vec) : Prop :=
  ∀ ⦃t : Nat⦄ ⦃tile : Tile⦄ ⦃rule : Rule⦄, c.tiles[t]? = some tile → rule ∈ tile.rules → ∀ candidate,
    rule.fires c g p candidate = rule.fires c h q candidate

theorem AgreeAt.firesAlike (agree : AgreeAt c g h p) : FiresAlike c g p h p := by
  intro t tile rule found member candidate
  exact Rule.fires_congr rfl (fun _ required => Requirement.holds_congr (agree.around found member required)) candidate

variable {σ : Type} [DrawSource σ]

theorem refineVariant_congr {rules : List Rule}
    (same : ∀ rule ∈ rules, ∀ candidate, rule.fires c g p candidate = rule.fires c h q candidate) (candidate : Nat) :
    (refineVariant c g p rules candidate : Drawing σ Nat) = refineVariant c h q rules candidate := by
  induction rules generalizing candidate with
  | nil => rfl
  | cons rule rest ih =>
    have first := same rule (by simp) candidate
    have others := ih fun r member => same r (by simp [member])
    simp only [refineVariant, first, others]

theorem evaluateId_congr (fires : FiresAlike c g p h q) {a b : TileId} (alike : c.occupant a = c.occupant b) :
    (evaluateId c g p a : Drawing σ TileId) = evaluateId c h q b := by
  unfold evaluateId
  rcases Catalog.occupant_eq_iff.mp alike with ⟨info, other, first, second, same⟩ | ⟨missing, rfl⟩
  · simp only [first, second, same]
    cases ht : c.tileAt other.tile with
    | error cause => simp only [Drawing.lift_error_bind]
    | ok tile =>
      have found := entryAt_eq_ok_iff.mp ht
      have chosen := refineVariant_congr (σ := σ)
        (fun rule member => fires found (Array.mem_toList_iff.mp member)) tile.defaultVariant
      simp only [Drawing.lift_ok_bind, chosen]
  · simp only [missing]

theorem evaluateSlot_congr (fires : FiresAlike c g p h q) {a b : Option TileId}
    (alike : a.map c.occupant = b.map c.occupant) :
    (evaluateSlot c g p a : Drawing σ (Option TileId)) = evaluateSlot c h q b := by
  cases a with
  | none =>
    cases b with
    | none => rfl
    | some id => simp at alike
  | some id =>
    cases b with
    | none => simp at alike
    | some other =>
      simp only [Option.map_some, Option.some.injEq] at alike
      simp only [evaluateSlot, evaluateId_congr fires alike]

/-- The positions may be different ones, as long as the same tiles stand there and the rules fire alike. -/
theorem evaluate_eq_of_firesAlike (here : Cell.Alike c (g.cellAt (g.closest p)) (h.cellAt (h.closest q)))
    (fires : FiresAlike c g p h q) : (evaluate c g p : Drawing σ Cell) = evaluate c h q := by
  have front := evaluateSlot_congr (σ := σ) fires (here .front)
  have mid := evaluateSlot_congr (σ := σ) fires (here .mid)
  have back := evaluateSlot_congr (σ := σ) fires (here .back)
  simp only [Cell.get] at front mid back
  simp only [evaluate, Grid.get_eq, Drawing.lift_ok_bind, front, mid, back]

theorem evaluate_congr (agree : AgreeAt c g h p) : (evaluate c g p : Drawing σ Cell) = evaluate c h p :=
  evaluate_eq_of_firesAlike agree.here agree.firesAlike

end Congruence

section Preservation

variable {c : Catalog} {g : Grid} {p : Vec} {σ : Type} [DrawSource σ] {s t : σ}

theorem evaluateId_occupant (numbered : c.Numbered) {id chosen : TileId}
    (h : evaluateId c g p id s = .ok (chosen, t)) : c.occupant chosen = c.occupant id := by
  unfold evaluateId at h
  cases known : c.info? id with
  | none =>
    rw [known] at h
    obtain ⟨rfl, -⟩ := Drawing.pure_eq_ok.mp h
    rfl
  | some info =>
    simp only [known] at h
    obtain ⟨tile, _, found, h⟩ := Drawing.bind_eq_ok.mp h
    obtain ⟨variant, _, -, h⟩ := Drawing.bind_eq_ok.mp h
    obtain ⟨v, _, entry, h⟩ := Drawing.bind_eq_ok.mp h
    obtain ⟨rfl, -⟩ := Drawing.pure_eq_ok.mp h
    have place := entryAt_eq_ok_iff.mp (Drawing.lift_eq_ok.mp found).1
    have choice := entryAt_eq_ok_iff.mp (Drawing.lift_eq_ok.mp entry).1
    rw [Catalog.occupant_of_info known, Catalog.occupant_of_info (numbered.info_of_variant place choice)]

theorem evaluateSlot_occupant (numbered : c.Numbered) {slot chosen : Option TileId}
    (h : evaluateSlot c g p slot s = .ok (chosen, t)) : chosen.map c.occupant = slot.map c.occupant := by
  cases slot with
  | none =>
    obtain ⟨rfl, -⟩ := Drawing.pure_eq_ok.mp h
    rfl
  | some id =>
    obtain ⟨other, _, evaluated, h⟩ := Drawing.bind_eq_ok.mp h
    obtain ⟨rfl, -⟩ := Drawing.pure_eq_ok.mp h
    simp only [Option.map_some, evaluateId_occupant numbered evaluated]

theorem evaluate_eq_ok {cell : Cell} :
    evaluate c g p s = .ok (cell, t) ↔ ∃ u v,
      evaluateSlot c g p (g.cellAt (g.closest p)).front s = .ok (cell.front, u) ∧
      evaluateSlot c g p (g.cellAt (g.closest p)).mid u = .ok (cell.mid, v) ∧
      evaluateSlot c g p (g.cellAt (g.closest p)).back v = .ok (cell.back, t) := by
  unfold evaluate
  rw [Grid.get_eq, Drawing.bind_eq_ok]
  constructor
  · rintro ⟨_, _, read, h⟩
    obtain ⟨same, rfl⟩ := Drawing.lift_eq_ok.mp read
    cases same
    obtain ⟨front, u, first, h⟩ := Drawing.bind_eq_ok.mp h
    obtain ⟨mid, v, second, h⟩ := Drawing.bind_eq_ok.mp h
    obtain ⟨back, w, third, h⟩ := Drawing.bind_eq_ok.mp h
    obtain ⟨rfl, rfl⟩ := Drawing.pure_eq_ok.mp h
    exact ⟨u, v, first, second, third⟩
  · rintro ⟨u, v, first, second, third⟩
    refine ⟨_, s, Drawing.lift_eq_ok.mpr ⟨rfl, rfl⟩, ?_⟩
    refine Drawing.bind_eq_ok.mpr ⟨_, u, first, ?_⟩
    refine Drawing.bind_eq_ok.mpr ⟨_, v, second, ?_⟩
    refine Drawing.bind_eq_ok.mpr ⟨_, t, third, ?_⟩
    exact Drawing.pure_eq_ok.mpr ⟨rfl, rfl⟩

/-- Evaluation keeps each tile, whichever variant it chooses. -/
theorem evaluate_alike (numbered : c.Numbered) {cell : Cell} (h : evaluate c g p s = .ok (cell, t)) :
    Cell.Alike c cell (g.cellAt (g.closest p)) := by
  obtain ⟨u, v, front, mid, back⟩ := evaluate_eq_ok.mp h
  intro layer
  cases layer with
  | front => exact evaluateSlot_occupant numbered front
  | mid => exact evaluateSlot_occupant numbered mid
  | back => exact evaluateSlot_occupant numbered back

end Preservation

end Tilework
