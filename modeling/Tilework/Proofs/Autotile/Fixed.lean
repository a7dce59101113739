import Tilework.Proofs.Autotile.Pass
import Tilework.Proofs.Autotile.Simulation

namespace Tilework

variable {c : Catalog} {g k : Grid} {p q : Vec} {positions : List Vec} {σ : Type} [DrawSource σ] {s t : σ}

theorem retileCell_cellAt (ne : q ≠ p) (inside : g.Contains q) (h : retileCell c g p s = .ok (k, t)) :
    k.Contains q ∧ k.cellAt q = g.cellAt q := by
  by_cases here : g.Contains p
  · rw [retileCell_eq here] at h
    obtain ⟨cell, _, -, h⟩ := Drawing.bind_eq_ok.mp h
    obtain ⟨rfl, -⟩ := Drawing.pure_eq_ok.mp h
    exact ⟨inside, Grid.cellAt_update_of_ne here inside _ ne⟩
  · rw [retileCell, if_neg here] at h
    obtain ⟨rfl, -⟩ := Drawing.pure_eq_ok.mp h
    exact ⟨inside, rfl⟩

theorem retileCells_cellAt (unvisited : q ∉ positions) (inside : g.Contains q)
    (h : retileCells c g positions s = .ok (k, t)) : k.cellAt q = g.cellAt q := by
  induction positions generalizing g s with
  | nil =>
    obtain ⟨rfl, -⟩ := Drawing.pure_eq_ok.mp h
    rfl
  | cons p rest ih =>
    rw [retileCells, List.foldlM_cons] at h
    obtain ⟨next, u, first, h⟩ := Drawing.bind_eq_ok.mp h
    rw [List.mem_cons, not_or] at unvisited
    obtain ⟨contains, same⟩ := retileCell_cellAt unvisited.1 inside first
    rw [ih unvisited.2 contains h, same]

theorem retileCells_of_fixed (inside : ∀ p ∈ positions, g.Contains p)
    (fixed : ∀ p ∈ positions, evaluate c g p s = .ok (g.cellAt p, s)) : retileCells c g positions s = .ok (g, s) := by
  induction positions with
  | nil => rfl
  | cons p rest ih =>
    have contains := inside p (by simp)
    rw [retileCells, List.foldlM_cons, retileCell_eq contains, bind_assoc]
    refine Drawing.bind_eq_ok.mpr ⟨g.cellAt p, s, fixed p (by simp), ?_⟩
    rw [pure_bind, Grid.update_cellAt contains]
    exact ih (fun q member => inside q (by simp [member])) fun q member => fixed q (by simp [member])

theorem fixed_of_retileCells (determined : c.Determined) (once : positions.Nodup)
    (inside : ∀ p ∈ positions, g.Contains p) (h : retileCells c g positions s = .ok (g, t)) :
    s = t ∧ ∀ p ∈ positions, evaluate c g p s = .ok (g.cellAt p, s) := by
  induction positions with
  | nil =>
    obtain ⟨-, rfl⟩ := Drawing.pure_eq_ok.mp h
    exact ⟨rfl, by simp⟩
  | cons p rest ih =>
    have contains := inside p (by simp)
    obtain ⟨fresh, once⟩ := List.nodup_cons.mp once
    rw [retileCells, List.foldlM_cons, retileCell_eq contains, bind_assoc] at h
    obtain ⟨cell, u, evaluated, h⟩ := Drawing.bind_eq_ok.mp h
    rw [pure_bind] at h
    -- The rest of the pass leaves the cell alone, so it was the same before it was written.
    have kept := retileCells_cellAt (g := g.update p fun _ => cell) fresh contains h
    rw [Grid.cellAt_update_self contains] at kept
    subst kept
    rw [Grid.update_cellAt contains] at h
    have still := determined.evaluate_eq evaluated s
    cases evaluated.symm.trans still
    obtain ⟨same, others⟩ := ih once (fun q member => inside q (by simp [member])) h
    exact ⟨same, List.forall_mem_cons.mpr ⟨still, others⟩⟩

theorem retile_fixed_iff (determined : c.Determined) :
    retile c g s = .ok (g, t) ↔ s = t ∧ ∀ p, g.Contains p → evaluate c g p s = .ok (g.cellAt p, s) := by
  have inside : ∀ p ∈ g.bounds.cells, g.Contains p := fun p member => Grid.mem_bounds_cells.mp member
  constructor
  · intro same
    obtain ⟨rfl, fixed⟩ := fixed_of_retileCells determined g.bounds.nodup_cells inside same
    exact ⟨rfl, fun p contains => fixed p (Grid.mem_bounds_cells.mpr contains)⟩
  · rintro ⟨rfl, fixed⟩
    exact retileCells_of_fixed inside fun p member => fixed p (inside p member)

end Tilework
