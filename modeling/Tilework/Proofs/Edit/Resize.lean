import Tilework.Grid.Resize
import Tilework.Proofs.Edit.Slots
import Tilework.Proofs.Plane.Moderate

namespace Tilework

theorem cellCount?_eq_none_iff {size : Vec} : cellCount? size = none ↔ ¬UsableSize size := by
  rw [Option.eq_none_iff_forall_ne_some]
  constructor
  · intro uncounted usable
    exact uncounted _ (cellCount?_eq_some_iff.mpr ⟨usable, rfl⟩)
  · intro unusable n counted
    exact unusable (cellCount?_eq_some_iff.mp counted).1

namespace Grid

variable {g h k : Grid} {p q size offset : Vec}

theorem blank?_size (made : blank? size = some g) : g.size = size := by
  unfold blank? at made
  split at made
  · cases made
    rfl
  · cases made

theorem blank?_cellAt (made : blank? size = some g) (inside : g.Contains p) : g.cellAt p = Cell.empty := by
  have nothing : (g.cellAt p).Upholds fun _ _ => False := blank?_upholds made p inside
  ext1 layer
  have none : (g.cellAt p).get layer = none :=
    Option.eq_none_iff_forall_ne_some.mpr fun id slot => nothing layer id slot
  rw [none]
  cases layer <;> rfl

theorem blank?_eq_none_iff : blank? size = none ↔ ¬UsableSize size := by
  rw [← cellCount?_eq_none_iff]
  unfold blank?
  split
  · rename_i n count
    exact iff_of_false (fun made => nomatch made) fun uncounted => nomatch count.symm.trans uncounted
  · rename_i count
    exact iff_of_true rfl count

def staying (g : Grid) (size offset : Vec) : Rect :=
  ⟨Vec.zero.max (-offset), (size - offset).min g.size - Vec.zero.max (-offset)⟩

theorem holds_staying : (g.staying size offset).Holds p ↔ g.Contains p ∧ (p + offset).Within size := by
  simp only [staying, Rect.Holds, Contains, Vec.Within, Vec.min, Vec.max, Vec.zero, Vec.sub_x, Vec.sub_y, Vec.neg_x,
    Vec.neg_y, Vec.add_x, Vec.add_y]
  omega

theorem kept_eq_ok {area : Rect} (h : g.kept size offset = .ok area) : area = g.staying size offset := by
  obtain ⟨back, first, h⟩ := bind_eq_ok.mp h
  obtain ⟨room, second, h⟩ := bind_eq_ok.mp h
  obtain ⟨extent, third, h⟩ := bind_eq_ok.mp h
  obtain ⟨-, rfl⟩ := Vec.fit_eq_ok_iff.mp first
  obtain ⟨-, rfl⟩ := Vec.fit_eq_ok_iff.mp second
  obtain ⟨-, rfl⟩ := Vec.fit_eq_ok_iff.mp third
  cases h
  rfl

theorem kept_of_fits (usable : UsableSize size) (back : (-offset).Fits) (room : (size - offset).Fits) :
    g.kept size offset = .ok (g.staying size offset) := by
  obtain ⟨wide, high, -⟩ := usable
  -- In each direction what stays begins at zero, or else it ends past zero. Either way the difference is in range.
  have extent : ((size - offset).min g.size - Vec.zero.max (-offset)).Fits := by
    have old := g.size_fits
    obtain ⟨oldWide, oldHigh, -⟩ := g.usable
    simp only [Vec.Fits, Coord.Fits, Coord.least, Coord.greatest, Vec.min, Vec.max, Vec.zero, Vec.sub_x, Vec.sub_y,
      Vec.neg_x, Vec.neg_y] at *
    omega
  simp only [kept, Vec.fit_of_fits back, Vec.fit_of_fits room, Vec.fit_of_fits extent, bind, Except.bind]
  rfl

theorem kept_of_not_fits (unfit : ¬((-offset).Fits ∧ (size - offset).Fits)) :
    g.kept size offset = .error .overflow := by
  by_cases back : (-offset).Fits
  · have room : ¬(size - offset).Fits := fun fits => unfit ⟨back, fits⟩
    simp only [kept, Vec.fit_of_fits back, Vec.fit_of_not_fits room, bind, Except.bind]
  · simp only [kept, Vec.fit_of_not_fits back, bind, Except.bind]

def carryCell (g : Grid) (offset : Vec) (next : Grid) (p : Vec) : Checked Grid := do
  let q ← (p + offset).fit
  let cell ← g.getStrict p
  next.setStrict q cell

theorem carryCell_eq_ok (carried : g.carryCell offset h p = .ok k) :
    g.Contains p ∧ h.Contains (p + offset) ∧ k = h.update (p + offset) fun _ => g.cellAt p := by
  obtain ⟨q, moved, carried⟩ := bind_eq_ok.mp carried
  obtain ⟨-, rfl⟩ := Vec.fit_eq_ok_iff.mp moved
  obtain ⟨cell, read, carried⟩ := bind_eq_ok.mp carried
  obtain ⟨inside, rfl⟩ := getStrict_eq_ok.mp read
  obtain ⟨target, rfl⟩ := setStrict_eq_ok carried
  exact ⟨inside, target, rfl⟩

theorem carryCell_changedWithin (carried : g.carryCell offset h p = .ok k) :
    ChangedWithin ⟨p + offset, Vec.one⟩ h k := by
  obtain ⟨-, target, rfl⟩ := carryCell_eq_ok carried
  exact update_changedWithin target (Rect.holds_one.mpr rfl) _

theorem carryCell_yields (held : (g.staying size offset).Holds p) (same : h.size = size) :
    Yields (g.carryCell offset h p) fun k => k.size = size := by
  obtain ⟨inside, within⟩ := holds_staying.mp held
  have target : h.Contains (p + offset) := by
    rw [Contains, same]
    exact within
  refine .bind_ok (Vec.fit_of_fits target.fits) ?_
  refine .bind_ok (getStrict_of_contains inside) ?_
  rw [setStrict_of_contains target]
  exact .ok same

theorem resize_eq {fresh : Grid} (changes : ¬(size = g.size ∧ offset = Vec.zero)) (made : blank? size = some fresh) :
    g.resize size offset = do
      let area ← g.kept size offset
      let k ← area.cells.foldlM (g.carryCell offset) fresh
      return some k := by
  rw [resize, if_neg changes, made]
  rfl

theorem resize_of_unusable (unusable : ¬UsableSize size) : g.resize size offset = .ok none := by
  unfold resize
  split
  · rfl
  · rw [blank?_eq_none_iff.mpr unusable]
    rfl

theorem resize_of_same : g.resize g.size Vec.zero = .ok none := by
  rw [resize, if_pos ⟨rfl, rfl⟩]
  rfl

/-- The grid of this size with each cell of `g` moved by the offset, as far as there is room for it, and nothing else. -/
structure Moved (g : Grid) (extent offset : Vec) (k : Grid) : Prop where
  size : k.size = extent
  cells : ∀ q, q.Within extent → k.cellAt q = if g.Contains (q - offset) then g.cellAt (q - offset) else Cell.empty

theorem Moved.cellAt_add (moved : g.Moved size offset k) (inside : g.Contains p) (within : (p + offset).Within size) :
    k.cellAt (p + offset) = g.cellAt p := by
  have origin : p + offset - offset = p := (Vec.eq_sub_iff.mpr rfl).symm
  rw [moved.cells _ within, origin, if_pos inside]

theorem moved_of_carried {fresh : Grid} (made : blank? size = some fresh)
    (carried : (g.staying size offset).cells.foldlM (g.carryCell offset) fresh = .ok k) : g.Moved size offset k := by
  have start := blank?_size made
  have fits : ∀ b a next, g.carryCell offset b a = .ok next → next.size = b.size :=
    fun b a next step => (carryCell_changedWithin step).1
  have same : k.size = size := by
    refine foldlM_invariant (fun b => b.size = size) ?_ start carried
    intro b a next _ before step
    exact (fits b a next step).trans before
  refine ⟨same, ?_⟩
  intro q within
  have target : ∀ b : Grid, b.size = fresh.size → b.Contains q := by
    intro b kept
    rw [Contains, kept, start]
    exact within
  have place : q - offset + offset = q := Vec.sub_add_cancel q offset
  by_cases inside : g.Contains (q - offset)
  · rw [if_pos inside]
    have member : q - offset ∈ (g.staying size offset).cells :=
      Rect.mem_cells.mpr (holds_staying.mpr ⟨inside, place.symm ▸ within⟩)
    apply foldlM_cellAt (q := q) (Q := fun cell => cell = g.cellAt (q - offset)) member fits ?_ ?_ carried
    · intro b next kept _ step
      obtain ⟨-, contained, rfl⟩ := carryCell_eq_ok step
      rw [place] at contained ⊢
      exact cellAt_update_self contained _
    · intro b a next kept ne step
      refine (carryCell_changedWithin step).2 q (target b kept) ?_
      intro held
      exact ne (Vec.eq_sub_iff.mpr (Rect.holds_one.mp held).symm)
  · rw [if_neg inside]
    have nothing : k.size = fresh.size ∧ k.cellAt q = Cell.empty := by
      refine foldlM_invariant (fun b => b.size = fresh.size ∧ b.cellAt q = Cell.empty) ?_
        ⟨rfl, blank?_cellAt made (target fresh rfl)⟩ carried
      rintro b a next - ⟨kept, empty⟩ step
      refine ⟨(fits b a next step).trans kept, ?_⟩
      rw [(carryCell_changedWithin step).2 q (target b kept), empty]
      intro held
      have origin : a = q - offset := Vec.eq_sub_iff.mpr (Rect.holds_one.mp held).symm
      exact inside (origin ▸ (carryCell_eq_ok step).1)
    exact nothing.2

theorem resize_eq_ok (h : g.resize size offset = .ok (some k)) : g.Moved size offset k := by
  by_cases changes : size = g.size ∧ offset = Vec.zero
  · obtain ⟨rfl, rfl⟩ := changes
    rw [resize_of_same] at h
    cases h
  cases made : blank? size with
  | none =>
    rw [resize_of_unusable (blank?_eq_none_iff.mp made)] at h
    cases h
  | some fresh =>
    rw [resize_eq changes made] at h
    obtain ⟨area, kept, h⟩ := bind_eq_ok.mp h
    obtain rfl := kept_eq_ok kept
    obtain ⟨grown, carried, h⟩ := bind_eq_ok.mp h
    cases h
    exact moved_of_carried made carried

theorem exists_resize (usable : UsableSize size) (changes : ¬(size = g.size ∧ offset = Vec.zero))
    (back : (-offset).Fits) (room : (size - offset).Fits) : ∃ k, g.resize size offset = .ok (some k) := by
  cases made : blank? size with
  | none => exact absurd usable (blank?_eq_none_iff.mp made)
  | some fresh =>
    have carried : Yields ((g.staying size offset).cells.foldlM (g.carryCell offset) fresh) fun k => k.size = size := by
      refine .foldlM (blank?_size made) ?_
      intro b p member same
      exact carryCell_yields (Rect.mem_cells.mp member) same
    obtain ⟨k, done, -⟩ := carried
    refine ⟨k, ?_⟩
    rw [resize_eq changes made]
    exact bind_eq_ok.mpr ⟨_, kept_of_fits usable back room, bind_eq_ok.mpr ⟨k, done, rfl⟩⟩

theorem resize_eq_none_iff : g.resize size offset = .ok none ↔ ¬UsableSize size ∨ size = g.size ∧ offset = Vec.zero := by
  constructor
  · intro none
    by_cases changes : size = g.size ∧ offset = Vec.zero
    · exact .inr changes
    cases made : blank? size with
    | none => exact .inl (blank?_eq_none_iff.mp made)
    | some fresh =>
      rw [resize_eq changes made] at none
      obtain ⟨area, -, none⟩ := bind_eq_ok.mp none
      obtain ⟨k, -, none⟩ := bind_eq_ok.mp none
      cases none
  · rintro (unusable | ⟨rfl, rfl⟩)
    · exact resize_of_unusable unusable
    · exact resize_of_same

theorem Upholds.resize {P : Layer → TileId → Prop} (upheld : g.Upholds P) (h : g.resize size offset = .ok (some k)) :
    k.Upholds P := by
  obtain ⟨same, cells⟩ := resize_eq_ok h
  intro q inside
  rw [cells q (same ▸ inside)]
  split
  · exact upheld _ (by assumption)
  · exact Cell.upholds_empty

section ThereAndBack

theorem moved_self (g : Grid) : g.Moved g.size Vec.zero g := by
  refine ⟨rfl, ?_⟩
  intro q within
  have inside : g.Contains q := within
  have still : q - Vec.zero = q := Vec.ext (Int.sub_zero _) (Int.sub_zero _)
  rw [still, if_pos inside]

theorem Moved.back (away : g.Moved size offset h) (home : h.Moved g.size (-offset) k) :
    k.size = g.size ∧
      ∀ p, g.Contains p → k.cellAt p = if (p + offset).Within size then g.cellAt p else Cell.empty := by
  refine ⟨home.size, ?_⟩
  intro p inside
  have opposite : p - -offset = p + offset := Vec.ext (Int.sub_neg _ _) (Int.sub_neg _ _)
  rw [home.cells p inside, opposite]
  by_cases within : (p + offset).Within size
  · have target : h.Contains (p + offset) := by rwa [Contains, away.size]
    rw [if_pos target, if_pos within, away.cellAt_add inside within]
  · have missing : ¬h.Contains (p + offset) := by rwa [Contains, away.size]
    rw [if_neg missing, if_neg within]

def resizeOrKeep (g : Grid) (size offset : Vec) : Checked Grid := do
  let found ← g.resize size offset
  return found.getD g

theorem exists_resizeOrKeep (usable : UsableSize size) (back : (-offset).Fits) (room : (size - offset).Fits) :
    ∃ k, g.resizeOrKeep size offset = .ok k ∧ g.Moved size offset k := by
  by_cases changes : size = g.size ∧ offset = Vec.zero
  · obtain ⟨rfl, rfl⟩ := changes
    exact ⟨g, bind_eq_ok.mpr ⟨none, resize_of_same, rfl⟩, g.moved_self⟩
  · obtain ⟨k, done⟩ := exists_resize usable changes back room
    exact ⟨k, bind_eq_ok.mpr ⟨some k, done, rfl⟩, resize_eq_ok done⟩

end ThereAndBack

/-- Each cell that finds room is moved by the offset, and nothing else is there. A size that no grid has changes
nothing, and so there is a way back from the other sizes only. -/
theorem resize_moves (g : Grid) (size offset : Vec) (back : (-offset).Fits) (room : (size - offset).Fits) :
    (g.resize size offset = .ok none ↔ ¬UsableSize size ∨ size = g.size ∧ offset = Vec.zero) ∧
    (UsableSize size → ¬(size = g.size ∧ offset = Vec.zero) →
      ∃ k, g.resize size offset = .ok (some k) ∧ k.size = size ∧
        ∀ q, q.Within size → k.cellAt q = if g.Contains (q - offset) then g.cellAt (q - offset) else Cell.empty) ∧
    (UsableSize size → offset.Fits → (g.size + offset).Fits →
      ∃ h k, g.resizeOrKeep size offset = .ok h ∧ h.resizeOrKeep g.size (-offset) = .ok k ∧ k.size = g.size ∧
        (∀ p, g.Contains p → k.cellAt p = if (p + offset).Within size then g.cellAt p else Cell.empty) ∧
        ((∀ p, g.Contains p → (p + offset).Within size) → k = g)) := by
  refine ⟨resize_eq_none_iff, ?_, ?_⟩
  · intro usable changes
    obtain ⟨k, done⟩ := exists_resize usable changes back room
    have moved := resize_eq_ok done
    exact ⟨k, done, moved.size, moved.cells⟩
  · intro usable forth old
    have opposite : - -offset = offset := Vec.ext (Int.neg_neg _) (Int.neg_neg _)
    have space : g.size - -offset = g.size + offset := Vec.ext (Int.sub_neg _ _) (Int.sub_neg _ _)
    obtain ⟨h, there, away⟩ := exists_resizeOrKeep (g := g) usable back room
    obtain ⟨k, again, home⟩ :=
      exists_resizeOrKeep (g := h) g.usable (opposite.symm ▸ forth) (space.symm ▸ old)
    obtain ⟨same, cells⟩ := away.back home
    refine ⟨h, k, there, again, same, cells, ?_⟩
    intro room
    refine ext_cellAt same ?_
    intro p inside
    have contains := (contains_congr same).mp inside
    rw [cells p contains, if_pos (room p contains)]

/-- Two rows of three cells that are numbered on the middle layer. -/
def numberedGrid : Grid :=
  ⟨⟨3, 2⟩, #[{ mid := some ⟨0⟩ }, { mid := some ⟨1⟩ }, { mid := some ⟨2⟩ }, { mid := some ⟨3⟩ }, { mid := some ⟨4⟩ },
    { mid := some ⟨5⟩ }], by decide⟩

/-- On the way the first column is lost. -/
theorem resize_moves_numberedGrid :
    (-(⟨-1, 1⟩ : Vec)).Fits ∧ ((⟨2, 3⟩ : Vec) - ⟨-1, 1⟩).Fits ∧
    (∃ k, numberedGrid.resize ⟨2, 3⟩ ⟨-1, 1⟩ = .ok (some k) ∧ k.size = ⟨2, 3⟩ ∧ k.cellAt ⟨1, 2⟩ = { mid := some ⟨5⟩ } ∧
      k.cellAt ⟨1, 0⟩ = Cell.empty) ∧
    ∃ h k, numberedGrid.resizeOrKeep ⟨2, 3⟩ ⟨-1, 1⟩ = .ok h ∧ h.resizeOrKeep ⟨3, 2⟩ (-⟨-1, 1⟩) = .ok k ∧
      k.cellAt ⟨2, 1⟩ = { mid := some ⟨5⟩ } ∧ k.cellAt ⟨0, 1⟩ = Cell.empty := by
  have usable : UsableSize ⟨2, 3⟩ := ⟨by decide, by decide, by decide⟩
  obtain ⟨-, changed, twice⟩ := numberedGrid.resize_moves ⟨2, 3⟩ ⟨-1, 1⟩ (by decide) (by decide)
  obtain ⟨k, done, size, cells⟩ := changed usable (by decide)
  obtain ⟨h, l, there, again, -, kept, -⟩ := twice usable (by decide) (by decide)
  refine ⟨by decide, by decide, ⟨k, done, size, ?_, ?_⟩, h, l, there, again, ?_, ?_⟩
  · exact (cells ⟨1, 2⟩ (by decide)).trans (by decide)
  · exact (cells ⟨1, 0⟩ (by decide)).trans (by decide)
  · exact (kept ⟨2, 1⟩ (by decide)).trans (by decide)
  · exact (kept ⟨0, 1⟩ (by decide)).trans (by decide)

end Grid

end Tilework
