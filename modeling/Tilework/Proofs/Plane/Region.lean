import Tilework.Grid.Basic
import Tilework.Proofs.Checked

namespace Tilework

namespace Vec

variable {a b c : Vec}

theorem fit_of_not_fits (great : ¬a.Fits) : a.fit = .error .overflow := if_neg great

theorem sub_eq_iff : a - b = c ↔ a = b + c := by
  simp only [Vec.ext_iff, add_x, add_y, sub_x, sub_y]
  omega

theorem eq_sub_iff : a = b - c ↔ a + c = b := by
  simp only [Vec.ext_iff, add_x, add_y, sub_x, sub_y]
  omega

theorem add_right_inj : a + c = b + c ↔ a = b := by
  simp only [Vec.ext_iff, add_x, add_y]
  omega

def Between (p a b : Vec) : Prop :=
  (a.min b).x ≤ p.x ∧ p.x ≤ (a.max b).x ∧ (a.min b).y ≤ p.y ∧ p.y ≤ (a.max b).y

instance (p a b : Vec) : Decidable (p.Between a b) :=
  inferInstanceAs (Decidable ((a.min b).x ≤ p.x ∧ p.x ≤ (a.max b).x ∧ (a.min b).y ≤ p.y ∧ p.y ≤ (a.max b).y))

def Before (p q : Vec) : Prop := p.y < q.y ∨ p.y = q.y ∧ p.x < q.x

theorem Before.ne {p q : Vec} (before : p.Before q) : p ≠ q := by
  rintro rfl
  simp only [Before] at before
  omega

theorem sub_add_cancel (a b : Vec) : a - b + b = a := by
  simp only [Vec.ext_iff, add_x, add_y, sub_x, sub_y]
  omega

theorem add_sub_cancel (a b : Vec) : b + (a - b) = a := by
  simp only [Vec.ext_iff, add_x, add_y, sub_x, sub_y]
  omega

theorem add_right_comm (a b c : Vec) : a + b + c = a + c + b := by
  simp only [Vec.ext_iff, add_x, add_y]
  omega

end Vec

namespace Rect

variable {r s : Rect} {p : Vec}

def cellsOf (common : Option Rect) : List Vec := (common.map cells).getD []

theorem expand_eq_ok {margin : Vec} {grown : Rect} (h : r.expand margin = .ok grown) :
    grown = ⟨r.pos - margin, r.size + margin.scale 2⟩ := by
  unfold expand at h
  obtain ⟨pos, first, h⟩ := bind_eq_ok.mp h
  obtain ⟨both, second, h⟩ := bind_eq_ok.mp h
  obtain ⟨size, third, h⟩ := bind_eq_ok.mp h
  obtain ⟨-, rfl⟩ := Vec.fit_eq_ok_iff.mp first
  obtain ⟨-, rfl⟩ := Vec.fit_eq_ok_iff.mp second
  obtain ⟨-, rfl⟩ := Vec.fit_eq_ok_iff.mp third
  cases h
  rfl

theorem holds_expand {margin : Vec} {grown : Rect} (h : r.expand margin = .ok grown) :
    grown.Holds p ↔ r.pos.x - margin.x ≤ p.x ∧ p.x < r.pos.x + r.size.x + margin.x ∧
      r.pos.y - margin.y ≤ p.y ∧ p.y < r.pos.y + r.size.y + margin.y := by
  rw [expand_eq_ok h]
  simp only [Holds, Vec.sub_x, Vec.sub_y, Vec.add_x, Vec.add_y, Vec.scale]
  omega

theorem Holds.expand {margin : Vec} {grown : Rect} (held : r.Holds p) (wide : 0 ≤ margin.x) (high : 0 ≤ margin.y)
    (h : r.expand margin = .ok grown) : grown.Holds p := by
  rw [holds_expand h]
  simp only [Holds] at held
  omega

theorem not_holds_of_isEmpty (empty : r.isEmpty = true) : ¬r.Holds p := by
  simp only [isEmpty, Bool.or_eq_true, decide_eq_true_eq] at empty
  simp only [Holds]
  omega

/-- The cells of both, by exact arithmetic. It may be empty. -/
def common (r s : Rect) : Rect :=
  ⟨r.pos.max s.pos, (r.pos + r.size).min (s.pos + s.size) - r.pos.max s.pos⟩

theorem holds_common : (common r s).Holds p ↔ r.Holds p ∧ s.Holds p := by
  simp only [common, Holds, Vec.min, Vec.max, Vec.sub_x, Vec.sub_y, Vec.add_x, Vec.add_y]
  omega

theorem intersect_eq_ok {found : Option Rect} (h : r.intersect s = .ok found) :
    found = if (common r s).isEmpty then none else some (common r s) := by
  obtain ⟨rStop, first, h⟩ := bind_eq_ok.mp h
  obtain ⟨sStop, second, h⟩ := bind_eq_ok.mp h
  obtain ⟨size, third, h⟩ := bind_eq_ok.mp h
  obtain ⟨-, rfl⟩ := Vec.fit_eq_ok_iff.mp first
  obtain ⟨-, rfl⟩ := Vec.fit_eq_ok_iff.mp second
  obtain ⟨-, rfl⟩ := Vec.fit_eq_ok_iff.mp third
  exact (Except.ok.inj h).symm

theorem intersect_of_fits (first : (r.pos + r.size).Fits) (second : (s.pos + s.size).Fits)
    (extent : (common r s).size.Fits) :
    r.intersect s = .ok (if (common r s).isEmpty then none else some (common r s)) := by
  unfold common at extent
  simp only [intersect, stop, Vec.fit_of_fits first, Vec.fit_of_fits second, Vec.fit_of_fits extent, bind, Except.bind]
  rfl

theorem mem_cellsOf_intersect {found : Option Rect} (h : r.intersect s = .ok found) :
    p ∈ cellsOf found ↔ r.Holds p ∧ s.Holds p := by
  rw [← holds_common, intersect_eq_ok h]
  split
  · rename_i empty
    simp [cellsOf, not_holds_of_isEmpty empty]
  · simp [cellsOf, mem_cells]

theorem holds_one {p q : Vec} : (⟨p, Vec.one⟩ : Rect).Holds q ↔ q = p := by
  simp only [Holds, Vec.one, Vec.ext_iff]
  omega

theorem fromCorners_eq_ok {a b : Vec} (h : fromCorners a b = .ok r) : r = ⟨a.min b, a.max b - a.min b + Vec.one⟩ := by
  obtain ⟨span, first, h⟩ := bind_eq_ok.mp h
  obtain ⟨size, second, h⟩ := bind_eq_ok.mp h
  obtain ⟨-, rfl⟩ := Vec.fit_eq_ok_iff.mp first
  obtain ⟨-, rfl⟩ := Vec.fit_eq_ok_iff.mp second
  cases h
  rfl

theorem holds_fromCorners {a b : Vec} (h : fromCorners a b = .ok r) : r.Holds p ↔ p.Between a b := by
  rw [fromCorners_eq_ok h]
  simp only [Holds, Vec.Between, Vec.min, Vec.max, Vec.one, Vec.sub_x, Vec.sub_y, Vec.add_x, Vec.add_y]
  omega

theorem intersect_pos {r s area : Rect} (h : r.intersect s = .ok (some area)) : area.pos = r.pos.max s.pos := by
  have found := intersect_eq_ok h
  split at found
  · cases found
  · cases found
    rfl

theorem pairwise_cells (r : Rect) : r.cells.Pairwise Vec.Before := by
  rw [cells, List.pairwise_flatMap]
  constructor
  · intro y _
    rw [List.pairwise_map]
    refine List.pairwise_lt_range.imp ?_
    intro a b left
    refine .inr ⟨rfl, ?_⟩
    simp only [Vec.add_x]
    omega
  · refine List.pairwise_lt_range.imp ?_
    intro a b above p first q second
    obtain ⟨x, -, rfl⟩ := List.mem_map.mp first
    obtain ⟨w, -, rfl⟩ := List.mem_map.mp second
    refine .inl ?_
    simp only [Vec.add_y]
    omega

theorem nodup_cells (r : Rect) : r.cells.Nodup := r.pairwise_cells.imp Vec.Before.ne

end Rect

section Bounds

variable {g : Grid} {p : Vec}

theorem Grid.holds_bounds : g.bounds.Holds p ↔ g.Contains p := by
  simp only [Rect.Holds, bounds, Contains, Vec.Within, Vec.zero]
  omega

theorem Grid.mem_bounds_cells : p ∈ g.bounds.cells ↔ g.Contains p := Rect.mem_cells.trans holds_bounds

end Bounds

end Tilework
