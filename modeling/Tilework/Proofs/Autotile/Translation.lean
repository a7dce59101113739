import Tilework.Proofs.Autotile.Blind
import Tilework.Proofs.Edit.Resize

namespace Tilework

def Vec.AtMost (d range : Vec) : Prop := (d.x.natAbs : Int) ≤ range.x ∧ (d.y.natAbs : Int) ≤ range.y

/-- Positions that are `v` apart are the same to the filter. -/
def Period.Divides (m : Period) (v : Vec) : Prop := m.active = true → m.size.x ∣ v.x ∧ m.size.y ∣ v.y

theorem Period.Divides.admits_add {m : Period} {v : Vec} (whole : m.Divides v) (wide : 1 ≤ m.size.x)
    (high : 1 ≤ m.size.y) (p : Vec) : m.admits (p + v) = m.admits p := by
  unfold admits
  split
  · rename_i active
    obtain ⟨⟨a, across⟩, b, down⟩ := whole active
    rw [Vec.remainder_of_pos wide high, Vec.remainder_of_pos wide high, Vec.add_x, Vec.add_y, across, down,
      Int.add_mul_emod_self_left, Int.add_mul_emod_self_left]
  · rfl

/-- As far as rules look, the same tiles stand around `p` in one grid and around `q` in the other, inside of both. -/
structure LooksAlike (c : Catalog) (g : Grid) (p : Vec) (h : Grid) (q : Vec) : Prop where
  before : ∀ d : Vec, d.AtMost c.range → g.Contains (p + d)
  after : ∀ d : Vec, d.AtMost c.range → h.Contains (q + d)
  alike : ∀ d : Vec, d.AtMost c.range → Cell.Alike c (g.cellAt (p + d)) (h.cellAt (q + d))

section Sight

variable {c : Catalog} {g h : Grid} {p q : Vec}

theorem Requirement.holds_of_contains {r : Requirement} (inside : g.Contains (p + r.offset)) :
    r.holds c g p = r.metBy c (g.cellAt (p + r.offset)) := by
  -- Neither the range check nor the clamped read makes a difference.
  rw [holds_eq, Vec.fit_of_fits inside.fits]
  change r.metBy c (g.cellAt (g.closest (p + r.offset))) = r.metBy c (g.cellAt (p + r.offset))
  rw [Grid.closest_of_contains inside]

theorem Catalog.Reaching.answers (reaching : c.Reaching) (intact : c.Intact)
    (inside : ∀ d : Vec, d.AtMost c.range → g.Contains (p + d)) : c.Answers (fun _ => False) g p := by
  intro i tile rule found tried r required
  rw [Requirement.holds_of_contains (inside r.offset (reaching.within found tried required))]
  exact .inr (Requirement.metBy_yields ((intact.rule found tried).target r required) _)

namespace LooksAlike

theorem here (same : LooksAlike c g p h q) (reaching : c.Reaching) :
    Cell.Alike c (g.cellAt (g.closest p)) (h.cellAt (h.closest q)) := by
  have still : Vec.zero.AtMost c.range := ⟨reaching.range_x, reaching.range_y⟩
  have origin : ∀ v : Vec, v + Vec.zero = v := fun v => Vec.ext (Int.add_zero _) (Int.add_zero _)
  have first := same.before _ still
  have second := same.after _ still
  have alike := same.alike _ still
  rw [origin] at first second
  rw [origin, origin] at alike
  rwa [Grid.closest_of_contains first, Grid.closest_of_contains second]

theorem firesAlike (same : LooksAlike c g p h q) (reaching : c.Reaching)
    (admits : ∀ tile ∈ c.tiles, ∀ rule ∈ tile.rules, rule.period.admits p = rule.period.admits q) :
    FiresAlike c g p h q := by
  intro t tile rule found tried candidate
  refine Rule.fires_congr (admits tile (Array.mem_of_getElem? found) rule tried) ?_ candidate
  intro r required
  have near : r.offset.AtMost c.range := reaching.within found tried required
  rw [Requirement.holds_of_contains (same.before _ near), Requirement.holds_of_contains (same.after _ near)]
  exact r.metBy_congr (same.alike _ near)

end LooksAlike

theorem Grid.Moved.looksAlike {k : Grid} {size offset : Vec} (moved : g.Moved size offset k)
    (before : ∀ d : Vec, d.AtMost c.range → g.Contains (p + d))
    (after : ∀ d : Vec, d.AtMost c.range → (p + offset + d).Within size) : LooksAlike c g p k (p + offset) := by
  refine ⟨before, ?_, ?_⟩
  · intro d near
    rw [Contains, moved.size]
    exact after d near
  · intro d near
    have within := after d near
    rw [Vec.add_right_comm] at within ⊢
    rw [moved.cellAt_add (before d near) within]
    exact Cell.Alike.refl c _

end Sight

/-- Away from the border the autotiler does not see where in the grid it is, apart from filters by position. There is a
result in both grids, as nothing that is looked at can overflow, and both evaluations take the same draws. -/
theorem evaluate_translated {config : Config} {c : Catalog} (compiled : config.compile = .ok c) {g k : Grid}
    {size offset p : Vec} (resized : g.resize size offset = .ok (some k))
    (whole : ∀ tile ∈ c.tiles, ∀ rule ∈ tile.rules, rule.period.Divides offset)
    (before : ∀ d : Vec, d.AtMost c.range → g.Contains (p + d))
    (after : ∀ d : Vec, d.AtMost c.range → (p + offset + d).Within size) {σ : Type} [DrawSource σ] (s : σ) :
    ∃ cell t, evaluate c g p s = .ok (cell, t) ∧ evaluate c k (p + offset) s = .ok (cell, t) := by
  obtain ⟨stages⟩ := compile_eq_ok compiled
  have same : LooksAlike c g p k (p + offset) := (Grid.resize_eq_ok resized).looksAlike before after
  have admits : ∀ tile ∈ c.tiles, ∀ rule ∈ tile.rules, rule.period.admits p = rule.period.admits (p + offset) := by
    intro tile listed rule tried
    obtain ⟨i, found⟩ := Array.mem_iff_getElem?.mp listed
    have intact := stages.intact.rule found tried
    exact ((whole tile listed rule tried).admits_add intact.period_x intact.period_y p).symm
  have equal : evaluate c g p s = evaluate c k (p + offset) s :=
    congrFun (evaluate_eq_of_firesAlike (same.here stages.reaching) (same.firesAlike stages.reaching admits)) s
  have answers := stages.reaching.answers stages.intact before
  obtain ⟨cell, t, done, -⟩ := (answers.evaluate_ends stages.intact).yields.exists_ok s
  exact ⟨cell, t, done, equal ▸ done⟩

/-- Hedges that are cut in every other column where they go on to the right. -/
def hedgeConfig : Config := {
  tiles := [{
    name := "hedge"
    layer := "front"
    defaultVariant := "wild"
    displayVariant := "wild"
    variants := [{ name := "wild", texture := ⟨0, 0⟩ }, { name := "round", texture := ⟨1, 0⟩ },
      { name := "square", texture := ⟨2, 0⟩ }]
    rules := [{
      results := [{ name := "round" }, { name := "square" }]
      requires := [{ name := "hedge", offset := ⟨1, 0⟩ }]
      period := { size := ⟨2, 1⟩, offsets := [⟨1, 0⟩] } }] }] }

def hedgeCatalog : Catalog := {
  flags := #[]
  groups := #[]
  tiles := #[{
    name := "hedge"
    layer := .front
    flags := []
    authoredIndex := 0
    variants := #[
      ⟨"round", ⟨1, 0⟩, ⟨1, 1⟩, ⟨0, 0⟩, ⟨0, 0⟩, ⟨12, 512⟩, ⟨12, 12⟩, ⟨0, 0⟩, ⟨0⟩⟩,
      ⟨"square", ⟨2, 0⟩, ⟨1, 1⟩, ⟨0, 0⟩, ⟨0, 0⟩, ⟨24, 512⟩, ⟨12, 12⟩, ⟨0, 0⟩, ⟨1⟩⟩,
      ⟨"wild", ⟨0, 0⟩, ⟨1, 1⟩, ⟨0, 0⟩, ⟨0, 0⟩, ⟨0, 512⟩, ⟨12, 12⟩, ⟨0, 0⟩, ⟨2⟩⟩]
    rules := #[{
      authoredIndex := 0
      results := [⟨"round", ⟨0x3F000000⟩, 0⟩, ⟨"square", ⟨0x3F000000⟩, 1⟩]
      requires := [⟨"hedge", ⟨1, 0⟩, .tile 0⟩]
      requiresNot := []
      reqVariants := #[]
      period := ⟨⟨2, 1⟩, [⟨1, 0⟩]⟩ }]
    flagBits := #[]
    defaultVariant := 2
    displayVariant := 2 }]
  infos := #[⟨0, 0, "hedge", "round"⟩, ⟨0, 1, "hedge", "square"⟩, ⟨0, 2, "hedge", "wild"⟩]
  range := ⟨1, 0⟩
  footprintLow := ⟨0, 0⟩
  footprintHigh := ⟨0, 0⟩ }

def hedgeRow : Grid :=
  ⟨⟨4, 1⟩, #[{ front := some ⟨2⟩ }, { front := some ⟨2⟩ }, { front := some ⟨2⟩ }, {}], by decide⟩

/-- Moved by two columns and one row, the second hedge is still in an odd column and between two others. -/
theorem evaluate_translated_hedgeRow :
    hedgeConfig.compile = .ok hedgeCatalog ∧
    (∀ tile ∈ hedgeCatalog.tiles, ∀ rule ∈ tile.rules, rule.period.Divides ⟨2, 1⟩) ∧
    (∀ d : Vec, d.AtMost hedgeCatalog.range → hedgeRow.Contains (⟨1, 0⟩ + d)) ∧
    (∀ d : Vec, d.AtMost hedgeCatalog.range → (⟨1, 0⟩ + ⟨2, 1⟩ + d : Vec).Within ⟨6, 2⟩) ∧
    ∃ k, hedgeRow.resize ⟨6, 2⟩ ⟨2, 1⟩ = .ok (some k) ∧
      evaluate hedgeCatalog k ⟨3, 1⟩ (Counted.mk (Scripted.mk #[⟨0x3F400000⟩] 0) 0) =
        .ok ({ front := some ⟨1⟩ }, ⟨⟨#[⟨0x3F400000⟩], 1⟩, 1⟩) := by
  have compiled : hedgeConfig.compile = .ok hedgeCatalog := by decide +kernel
  have whole : ∀ tile ∈ hedgeCatalog.tiles, ∀ rule ∈ tile.rules, rule.period.Divides ⟨2, 1⟩ := by
    unfold Period.Divides
    decide
  have before : ∀ d : Vec, d.AtMost hedgeCatalog.range → hedgeRow.Contains (⟨1, 0⟩ + d) := by
    intro d near
    simp only [Vec.AtMost, hedgeCatalog] at near
    simp only [Grid.Contains, Vec.Within, hedgeRow, Vec.add_x, Vec.add_y]
    omega
  have after : ∀ d : Vec, d.AtMost hedgeCatalog.range → (⟨1, 0⟩ + ⟨2, 1⟩ + d : Vec).Within ⟨6, 2⟩ := by
    intro d near
    simp only [Vec.AtMost, hedgeCatalog] at near
    simp only [Vec.Within, Vec.add_x, Vec.add_y]
    omega
  have usable : UsableSize ⟨6, 2⟩ := ⟨by decide, by decide, by decide⟩
  obtain ⟨k, resized⟩ : ∃ k, hedgeRow.resize ⟨6, 2⟩ ⟨2, 1⟩ = .ok (some k) :=
    Grid.exists_resize usable (by decide) (by decide) (by decide)
  refine ⟨compiled, whole, before, after, k, resized, ?_⟩
  have here : evaluate hedgeCatalog hedgeRow ⟨1, 0⟩ (Counted.mk (Scripted.mk #[⟨0x3F400000⟩] 0) 0) =
      .ok ({ front := some ⟨1⟩ }, ⟨⟨#[⟨0x3F400000⟩], 1⟩, 1⟩) := rfl
  obtain ⟨cell, t, first, second⟩ := evaluate_translated compiled resized whole before after
    (Counted.mk (Scripted.mk #[⟨0x3F400000⟩] 0) 0)
  cases first.symm.trans here
  exact second

end Tilework
