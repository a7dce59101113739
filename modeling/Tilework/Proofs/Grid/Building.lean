import Tilework.Proofs.Edit.Totality
import Tilework.Proofs.Grid.Nearest
import Tilework.Proofs.Grid.Text

namespace Tilework

instance (size : Vec) : Decidable (UsableSize size) :=
  inferInstanceAs (Decidable (1 ≤ size.x ∧ 1 ≤ size.y ∧ size.x * size.y ≤ Coord.greatest))

section Remapping

variable {σ : Type}

def Cell.remapM (f : TileId → StateM σ (Option TileId)) (cell : Cell) : StateM σ Cell := do
  let pass : Option TileId → StateM σ (Option TileId)
    | none => return none
    | some id => f id
  return ⟨← pass cell.front, ← pass cell.mid, ← pass cell.back⟩

/-- Passes every id through `f`, row by row. What becomes of an id may depend on those before it. -/
def Grid.remapM (f : TileId → StateM σ (Option TileId)) (g : Grid) : StateM σ Grid := do
  let cells ← g.cells.toVector.mapM (Cell.remapM f)
  return ⟨g.size, cells.toArray, by rw [cells.size_toArray]; exact g.count⟩

theorem Cell.remapM_pure (f : TileId → Option TileId) (cell : Cell) :
    (cell.remapM fun id => (pure (f id) : StateM σ (Option TileId))) =
      pure (cell.mapSlots fun slot => slot.bind f) := by
  cases hf : cell.front <;> cases hm : cell.mid <;> cases hb : cell.back <;> simp [remapM, mapSlots, hf, hm, hb]

theorem Grid.remapM_pure (f : TileId → Option TileId) (g : Grid) :
    (g.remapM fun id => (pure (f id) : StateM σ (Option TileId))) = pure (g.remap f) := by
  unfold remapM
  simp only [funext (Cell.remapM_pure f), Vector.mapM_pure, pure_bind]
  rfl

end Remapping

namespace Grid

inductive Start where
  | blank (size : Vec)
  | cells (size : Vec) (content : Array Cell)
  | read (text : String)

inductive Change : Type 1 where
  | set (p : Vec) (cell : Cell)
  | setLayer (p : Vec) (layer : Layer) (slot : Option TileId)
  | setStrict (p : Vec) (cell : Cell)
  | remap {σ : Type} (f : TileId → StateM σ (Option TileId)) (s : σ)
  | resize (size offset : Vec)

namespace Start

def grid? : Start → Checked (Option Grid)
  | blank size => return some (← Grid.blank size)
  | cells size content => return ofCells? size content
  | read text => return decodeText? text

inductive Refused : Start → Fault → Prop
  | size {size : Vec} (unusable : ¬UsableSize size) : Refused (.blank size) (.unusableSize size)

inductive Formless : Start → Prop
  | cells {size : Vec} {content : Array Cell}
    (misfit : ¬(UsableSize size ∧ (content.size : Int) = size.x * size.y)) : Formless (.cells size content)
  | read {text : String} (unwritten : ∀ g : Grid, text ≠ g.encodeText) : Formless (.read text)

theorem grid?_ends (start : Start) : Ends start.Refused start.grid? fun _ => True := by
  cases start with
  | blank size =>
    by_cases usable : UsableSize size
    · obtain ⟨g, made, -⟩ := blank_yields usable
      exact .inr ⟨some g, by rw [grid?, made]; rfl, trivial⟩
    · refine .inl ⟨_, .size usable, ?_⟩
      rw [grid?, Grid.blank, blank?_eq_none_iff.mpr usable]
      rfl
  | cells size content => exact .inr ⟨_, rfl, trivial⟩
  | read text => exact .inr ⟨_, rfl, trivial⟩

theorem formless_of_none {start : Start} (none : start.grid? = .ok none) : start.Formless := by
  cases start with
  | blank size =>
    obtain ⟨g, -, impossible⟩ := bind_eq_ok.mp none
    cases impossible
  | cells size content =>
    refine .cells ?_
    rintro ⟨usable, area⟩
    have count := cellCount?_eq_some_iff_area.mpr ⟨usable, area⟩
    have formed : ofCells? size content = some ⟨size, content, count⟩ := ofCells?_eq_some_iff.mpr ⟨count, rfl, rfl⟩
    cases (Except.ok.inj none).symm.trans formed
  | read text =>
    refine .read ?_
    rintro g rfl
    cases (Except.ok.inj none).symm.trans g.decodeText?_encodeText

end Start

namespace Change

def apply (g : Grid) : Change → Checked Grid
  | set p cell => g.set p cell
  | setLayer p layer slot => g.setLayer p layer slot
  | setStrict p cell => g.setStrict p cell
  | remap f s => return (g.remapM f s).1
  | resize size offset => g.resizeOrKeep size offset

def extent (before : Vec) : Change → Vec
  | resize size _ => if UsableSize size then size else before
  | _ => before

/-- The change asks of a grid of this size for what ends in the fault. -/
inductive Refused (extent : Vec) : Change → Fault → Prop
  | outside {p : Vec} {cell : Cell} (outside : ¬p.Within extent) :
    Refused extent (.setStrict p cell) (.cellOutside p extent)
  | range {size offset : Vec} (unfit : ¬((-offset).Fits ∧ (size - offset).Fits)) :
    Refused extent (.resize size offset) .overflow

theorem resizeOrKeep_ends (g : Grid) (size offset : Vec) :
    Ends (Refused g.size (.resize size offset)) (g.resizeOrKeep size offset)
      fun k => k.size = if UsableSize size then size else g.size := by
  by_cases usable : UsableSize size
  · rw [if_pos usable]
    by_cases fits : (-offset).Fits ∧ (size - offset).Fits
    · obtain ⟨k, done, moved⟩ := exists_resizeOrKeep (g := g) usable fits.1 fits.2
      exact .inr ⟨k, done, moved.size⟩
    · by_cases changes : size = g.size ∧ offset = Vec.zero
      · obtain ⟨rfl, rfl⟩ := changes
        rw [resizeOrKeep, resize_of_same]
        exact .ok rfl
      · refine .inl ⟨_, .range fits, ?_⟩
        cases made : blank? size with
        | none => exact absurd usable (blank?_eq_none_iff.mp made)
        | some fresh =>
          rw [resizeOrKeep, resize_eq changes made, kept_of_not_fits fits]
          rfl
  · rw [if_neg usable, resizeOrKeep, resize_of_unusable usable]
    exact .ok rfl

theorem apply_ends (change : Change) (g : Grid) :
    Ends (change.Refused g.size) (change.apply g) fun k => k.size = change.extent g.size := by
  cases change with
  | set p cell => exact .inr (g.set_yields p cell)
  | setLayer p layer slot => exact .inr (g.setLayer_yields p layer slot)
  | setStrict p cell =>
    by_cases inside : g.Contains p
    · rw [apply, setStrict_of_contains inside]
      exact .ok rfl
    · exact .inl ⟨_, .outside inside, setStrict_of_not_contains inside cell⟩
  | remap f s => exact .ok rfl
  | resize size offset => exact resizeOrKeep_ends g size offset

theorem applyAll_ends (changes : List Change) (g : Grid) :
    Ends (fun cause => ∃ change ∈ changes, ∃ before, change.Refused before cause) (changes.foldlM apply g)
      fun k => k.size = changes.foldl extent g.size := by
  -- Each change takes up the size that those before it have left, so the grid it finds is not fixed.
  induction changes generalizing g with
  | nil => exact .ok rfl
  | cons change rest ih =>
    rw [List.foldlM_cons]
    have first := (change.apply_ends g).widen fun cause refused =>
      (⟨change, by simp, g.size, refused⟩ : ∃ c ∈ change :: rest, ∃ before, c.Refused before cause)
    refine first.bind fun next size => ?_
    rw [List.foldl_cons, ← size]
    refine (ih next).widen ?_
    rintro cause ⟨other, member, refused⟩
    exact ⟨other, by simp [member], refused⟩

end Change

/-- The grid that a history comes to, unless nothing could be made to begin with. -/
def build (start : Start) (changes : List Change) : Checked (Option Grid) := do
  match ← start.grid? with
  | none => return none
  | some first =>
    let g ← changes.foldlM Change.apply first
    return some g

/-- No place of the plane is out of the question for a read or a write, and in particular no table is read past its end. -/
theorem built_answers (start : Start) (changes : List Change) :
    Ends (fun cause => start.Refused cause ∨ ∃ change ∈ changes, ∃ before, change.Refused before cause)
      (build start changes) fun found => (found = none → start.Formless) ∧ ∀ g, found = some g →
        (∃ first, start.grid? = .ok (some first) ∧ g.size = changes.foldl Change.extent first.size) ∧
        1 ≤ g.size.x ∧ 1 ≤ g.size.y ∧ Coord.Fits (g.size.x * g.size.y) ∧
        (g.cells.size : Int) = g.size.x * g.size.y ∧ g.Answers := by
  have made := start.grid?_ends.strengthen fun found done => done
  refine (made.widen fun cause refused => .inl refused).bind fun found done => ?_
  cases found with
  | none => exact .ok ⟨fun _ => Start.formless_of_none done, fun g none => nomatch none⟩
  | some first =>
    have changed := Change.applyAll_ends changes first
    refine (changed.widen fun cause refused => .inr refused).bind fun g size => .ok ⟨?_, ?_⟩
    · intro none
      cases none
    · rintro _ ⟨⟩
      obtain ⟨usable, area⟩ := cellCount?_eq_some_iff_area.mp g.count
      have nonneg := usable.area_nonneg
      obtain ⟨wide, high, limit⟩ := usable
      have fits : Coord.Fits (g.size.x * g.size.y) := by
        simp only [Coord.Fits, Coord.least]
        omega
      exact ⟨⟨first, done, size⟩, wide, high, fits, area, g.answers⟩

/-- Far to the right and far above, the last cell of the first row is seen. -/
example : numberedGrid.get ⟨2147483647, -2147483648⟩ = .ok { mid := some ⟨2⟩ } := rfl

end Grid

end Tilework
