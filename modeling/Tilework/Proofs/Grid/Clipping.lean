import Tilework.Proofs.Edit.Totality

namespace Tilework

theorem Grid.bounds_stop_fits (g : Grid) : (g.bounds.pos + g.bounds.size).Fits := by
  have extent := g.size_fits
  simp only [Grid.bounds, Vec.Fits, Vec.add_x, Vec.add_y, Vec.zero, Int.zero_add] at *
  exact extent

namespace Rect

variable {r : Rect} {g : Grid}

theorem isEmpty_iff : r.isEmpty = true ↔ ∀ p, ¬r.Holds p := by
  constructor
  · intro empty p
    exact not_holds_of_isEmpty empty
  · intro nothing
    by_contra filled
    obtain ⟨wide, high⟩ := isEmpty_eq_false.mp (Bool.not_eq_true _ ▸ filled)
    apply nothing r.pos
    simp only [Holds]
    omega

theorem common_bounds_isEmpty : (common r g.bounds).isEmpty = true ↔ ∀ p, g.Contains p → ¬r.Holds p := by
  rw [isEmpty_iff]
  refine forall_congr' fun p => ?_
  rw [holds_common, Grid.holds_bounds, not_and']

theorem common_bounds_fits (pos : r.pos.Fits) (size : r.size.Fits) (stop : (r.pos + r.size).Fits) :
    (common r g.bounds).size.Fits := by
  have extent := g.size_fits
  obtain ⟨wide, high, -⟩ := g.usable
  -- In each direction either the rectangle begins in the grid, and no more than its extent is left of it, or it begins
  -- before zero, and no more than its end is.
  simp only [common, Grid.bounds, Vec.Fits, Coord.Fits, Coord.least, Coord.greatest, Vec.min, Vec.max, Vec.zero,
    Vec.sub_x, Vec.sub_y, Vec.add_x, Vec.add_y] at *
  omega

end Rect

/-- As long as the rectangle ends in range, its part in the grid is found without an overflow, and the way through its
cells leaves none of them out and enters none twice. The rectangle may also be turned inside out. -/
theorem Rect.clipped_cells (r : Rect) (g : Grid) (pos : r.pos.Fits) (size : r.size.Fits)
    (stop : (r.pos + r.size).Fits) :
    ∃ found, r.intersect g.bounds = .ok found ∧
      (found = none ↔ ∀ p, g.Contains p → ¬r.Holds p) ∧
      ∀ area, found = some area →
        area.positions = .ok area.cells ∧
        (∀ p, p ∈ area.cells ↔ g.Contains p ∧ r.Holds p) ∧
        area.cells.Nodup ∧ area.cells.Pairwise Vec.Before := by
  have cut := intersect_of_fits stop g.bounds_stop_fits (common_bounds_fits pos size stop)
  refine ⟨_, cut, ?_, ?_⟩
  · rw [← common_bounds_isEmpty]
    split
    · exact iff_of_true rfl (by assumption)
    · exact iff_of_false (fun none => nomatch none) (by assumption)
  · intro area found
    rw [found] at cut
    refine ⟨Grid.intersect_positions cut, ?_, area.nodup_cells, area.pairwise_cells⟩
    intro p
    rw [← Grid.holds_bounds, and_comm]
    exact mem_cellsOf_intersect cut

/-- It ends one cell before the greatest coordinate in one direction, and at it in the other. -/
def farRect : Rect := ⟨⟨-1, 1⟩, ⟨2147483647, 2147483646⟩⟩

def invertedRect : Rect := ⟨⟨2147483647, 0⟩, ⟨-2147483648, 1⟩⟩

theorem Rect.clipped_cells_numberedGrid :
    farRect.pos.Fits ∧ farRect.size.Fits ∧ (farRect.pos + farRect.size).Fits ∧
    (∃ area, farRect.intersect Grid.numberedGrid.bounds = .ok (some area) ∧ area.positions = .ok area.cells ∧
      ⟨2, 1⟩ ∈ area.cells ∧ ⟨2, 0⟩ ∉ area.cells ∧ area.cells.Nodup) ∧
    invertedRect.pos.Fits ∧ invertedRect.size.Fits ∧ (invertedRect.pos + invertedRect.size).Fits ∧
    invertedRect.intersect Grid.numberedGrid.bounds = .ok none := by
  obtain ⟨found, cut, nothing, visits⟩ :=
    clipped_cells farRect Grid.numberedGrid (by decide) (by decide) (by decide)
  obtain ⟨other, missed, none, -⟩ :=
    clipped_cells invertedRect Grid.numberedGrid (by decide) (by decide) (by decide)
  refine ⟨by decide, by decide, by decide, ?_, by decide, by decide, by decide, ?_⟩
  · cases found with
    | none => exact absurd (by decide : farRect.Holds ⟨2, 1⟩) (nothing.mp rfl ⟨2, 1⟩ (by decide))
    | some area =>
      obtain ⟨positions, visited, once, -⟩ := visits area rfl
      have outside : ⟨2, 0⟩ ∉ area.cells := fun entered => absurd ((visited _).mp entered) (by decide)
      exact ⟨area, cut, positions, (visited _).mpr (by decide), outside, once⟩
  · have apart : ∀ p, Grid.numberedGrid.Contains p → ¬invertedRect.Holds p := by
      intro p _ held
      simp only [invertedRect, Holds] at held
      omega
    rw [missed, none.mpr apart]

end Tilework
