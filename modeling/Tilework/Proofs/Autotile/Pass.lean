import Tilework.Proofs.Autotile.Evaluate
import Tilework.Proofs.Draws.Sources
import Tilework.Proofs.Plane.Region

namespace Tilework

def Grid.SameTiles (c : Catalog) (g h : Grid) : Prop :=
  h.size = g.size ∧ ∀ p, g.Contains p → Cell.Alike c (g.cellAt p) (h.cellAt p)

namespace Grid.SameTiles

variable {c : Catalog} {g h k : Grid}

theorem refl (c : Catalog) (g : Grid) : SameTiles c g g := ⟨rfl, fun p _ => Cell.Alike.refl c (g.cellAt p)⟩

theorem symm (same : SameTiles c g h) : SameTiles c h g := by
  refine ⟨same.1.symm, ?_⟩
  intro p inside
  exact (same.2 p ((contains_congr same.1).mp inside)).symm

theorem trans (first : SameTiles c g h) (second : SameTiles c h k) : SameTiles c g k := by
  refine ⟨second.1.trans first.1, ?_⟩
  intro p inside
  exact (first.2 p inside).trans (second.2 p ((contains_congr first.1).mpr inside))

theorem slot (same : SameTiles c g h) {p : Vec} (inside : g.Contains p) {layer : Layer} {id : TileId}
    (held : (g.cellAt p).get layer = some id) :
    ∃ other, (h.cellAt p).get layer = some other ∧ c.occupant other = c.occupant id := by
  have alike := same.2 p inside layer
  rw [held, Option.map_some] at alike
  exact Option.map_eq_some_iff.mp alike.symm

theorem agreeAt (same : SameTiles c g h) (p : Vec) : AgreeAt c g h p := by
  have alike : ∀ q, Cell.Alike c (g.cellAt (g.closest q)) (h.cellAt (h.closest q)) := by
    intro q
    rw [closest_congr same.1]
    exact same.2 _ (g.closest_contains q)
  exact ⟨alike p, fun _ _ _ => alike _⟩

theorem update {p : Vec} {cell : Cell} (inside : g.Contains p) (alike : Cell.Alike c cell (g.cellAt p)) :
    SameTiles c g (g.update p fun _ => cell) := by
  refine ⟨rfl, ?_⟩
  intro q contains
  by_cases here : q = p
  · subst here
    rw [cellAt_update_self inside]
    exact alike.symm
  · rw [cellAt_update_of_ne inside contains _ here]
    exact Cell.Alike.refl c _

end Grid.SameTiles

section Frozen

def visited (c : Catalog) (g : Grid) (region : Rect) : Checked (List Vec) := do
  let grown ← region.expand c.range
  let common ← grown.intersect g.bounds
  return Rect.cellsOf common

variable {σ : Type} [DrawSource σ]

def evaluateFrozen (c : Catalog) (g : Grid) (positions : List Vec) : Drawing σ (List (Vec × Cell)) :=
  positions.mapM fun p => do
    let cell ← evaluate c g p
    return (p, cell)

def Grid.writeCells (g : Grid) (results : List (Vec × Cell)) : Checked Grid :=
  results.foldlM (fun g (p, cell) => g.setStrict p cell) g

/-- Evaluates cells in the grid as it is, and writes what they come to at the end. -/
def retileCellsFrozen (c : Catalog) (g : Grid) (positions : List Vec) : Drawing σ Grid := do
  let results ← evaluateFrozen c g positions
  g.writeCells results

def retileRegionFrozen (c : Catalog) (g : Grid) (region : Rect) : Drawing σ Grid := do
  let positions ← visited c g region
  retileCellsFrozen c g positions

def retileFrozen (c : Catalog) (g : Grid) : Drawing σ Grid := retileCellsFrozen c g g.bounds.cells

end Frozen

section Passes

variable {c : Catalog} {σ : Type} [DrawSource σ]

theorem retileCell_eq {g : Grid} {p : Vec} (inside : g.Contains p) :
    (retileCell c g p : Drawing σ Grid) = evaluate c g p >>= fun cell => pure (g.update p fun _ => cell) := by
  simp only [retileCell, if_pos inside, Grid.setStrict_of_contains inside]
  rfl

theorem writeCells_cons {g : Grid} {p : Vec} (inside : g.Contains p) (cell : Cell) (rest : List (Vec × Cell)) :
    g.writeCells ((p, cell) :: rest) = (g.update p fun _ => cell).writeCells rest := by
  simp only [Grid.writeCells, List.foldlM_cons, Grid.setStrict_of_contains inside, bind, Except.bind]

theorem evaluateFrozen_cons (g : Grid) (p : Vec) (rest : List Vec) :
    (evaluateFrozen c g (p :: rest) : Drawing σ _) =
      evaluate c g p >>= fun cell => evaluateFrozen c g rest >>= fun results => pure ((p, cell) :: results) := by
  simp only [evaluateFrozen, List.mapM_cons, bind_assoc, pure_bind]

/-- The grid that is written to may already differ from the one that cells are evaluated in. -/
theorem retileCells_eq_of_sameTiles (numbered : c.Numbered) {start g : Grid} (same : start.SameTiles c g)
    {positions : List Vec} (inside : ∀ p ∈ positions, start.Contains p) :
    (retileCells c g positions : Drawing σ Grid) =
      evaluateFrozen c start positions >>= fun results => liftM (g.writeCells results) := by
  induction positions generalizing g with
  | nil => rfl
  | cons p rest ih =>
    have contains : g.Contains p := (Grid.contains_congr same.1).mpr (inside p (by simp))
    have here := evaluate_congr (σ := σ) (same.agreeAt p)
    rw [retileCells, List.foldlM_cons, retileCell_eq contains, evaluateFrozen_cons, here]
    simp only [bind_assoc, pure_bind]
    funext s
    rw [Drawing.bind_apply, Drawing.bind_apply]
    cases evaluated : evaluate c g p s with
    | error cause => rfl
    | ok result =>
      obtain ⟨cell, t⟩ := result
      have alike := evaluate_alike numbered evaluated
      rw [Grid.closest_of_contains contains] at alike
      have written := same.trans (Grid.SameTiles.update contains alike)
      have others := ih written fun q member => inside q (by simp [member])
      show retileCells c (g.update p fun _ => cell) rest t =
        (evaluateFrozen c start rest >>= fun results => liftM (g.writeCells ((p, cell) :: results))) t
      simp only [writeCells_cons contains]
      exact congrFun others t

theorem retileCells_eq_frozen (numbered : c.Numbered) {g : Grid} {positions : List Vec}
    (inside : ∀ p ∈ positions, g.Contains p) :
    (retileCells c g positions : Drawing σ Grid) = retileCellsFrozen c g positions :=
  retileCells_eq_of_sameTiles numbered (Grid.SameTiles.refl c g) inside

theorem retileCells_eq_ok (numbered : c.Numbered) {g k : Grid} {s t : σ} {positions : List Vec}
    (inside : ∀ p ∈ positions, g.Contains p) (h : retileCells c g positions s = .ok (k, t)) :
    g.SameTiles c k ∧ ∀ p, g.Contains p →
      (p ∉ positions ∧ k.cellAt p = g.cellAt p) ∨ ∃ u v : σ, evaluate c g p u = .ok (k.cellAt p, v) := by
  induction positions generalizing g s with
  | nil =>
    obtain ⟨rfl, rfl⟩ := Drawing.pure_eq_ok.mp h
    exact ⟨Grid.SameTiles.refl c _, fun p _ => .inl ⟨by simp, rfl⟩⟩
  | cons p rest ih =>
    have contains := inside p (by simp)
    rw [retileCells, List.foldlM_cons, retileCell_eq contains, bind_assoc] at h
    obtain ⟨cell, u, evaluated, h⟩ := Drawing.bind_eq_ok.mp h
    rw [pure_bind] at h
    have alike := evaluate_alike numbered evaluated
    rw [Grid.closest_of_contains contains] at alike
    have written := Grid.SameTiles.update contains alike
    obtain ⟨last, cells⟩ := ih (g := g.update p fun _ => cell) (fun q member => inside q (by simp [member])) h
    refine ⟨written.trans last, ?_⟩
    intro q holds
    rcases cells q holds with ⟨unvisited, kept⟩ | ⟨v, w, later⟩
    · by_cases here : q = p
      · subst here
        rw [Grid.cellAt_update_self contains] at kept
        rw [kept]
        exact .inr ⟨s, u, evaluated⟩
      · rw [Grid.cellAt_update_of_ne contains holds _ here] at kept
        exact .inl ⟨by simp [here, unvisited], kept⟩
    · rw [← evaluate_congr (written.agreeAt q)] at later
      exact .inr ⟨v, w, later⟩

theorem visited_eq_ok {g : Grid} {region : Rect} {positions : List Vec} (h : visited c g region = .ok positions) :
    ∃ grown, region.expand c.range = .ok grown ∧ ∀ p, p ∈ positions ↔ grown.Holds p ∧ g.Contains p := by
  unfold visited at h
  obtain ⟨grown, expanded, h⟩ := bind_eq_ok.mp h
  obtain ⟨common, cut, h⟩ := bind_eq_ok.mp h
  cases h
  refine ⟨grown, expanded, ?_⟩
  intro p
  rw [Rect.mem_cellsOf_intersect cut, Grid.holds_bounds]

theorem retileRegion_eq (g : Grid) (region : Rect) :
    (retileRegion c g region : Drawing σ Grid) = liftM (visited c g region) >>= retileCells c g := by
  unfold retileRegion visited
  cases region.expand c.range with
  | error cause => rfl
  | ok grown =>
    cases cut : grown.intersect g.bounds with
    | error cause =>
      simp only [Drawing.lift_ok_bind, cut, Drawing.lift_error_bind]
      simp only [bind, Except.bind, cut]
      rfl
    | ok common =>
      simp only [Drawing.lift_ok_bind, cut]
      cases common <;> simp only [bind, Except.bind, cut] <;> rfl

theorem retileRegion_eq_ok {g k : Grid} {region : Rect} {s t : σ} (h : retileRegion c g region s = .ok (k, t)) :
    ∃ grown positions, region.expand c.range = .ok grown ∧ (∀ p, p ∈ positions ↔ grown.Holds p ∧ g.Contains p) ∧
      retileCells c g positions s = .ok (k, t) := by
  rw [retileRegion_eq] at h
  obtain ⟨positions, _, reached, run⟩ := Drawing.bind_eq_ok.mp h
  obtain ⟨covered, rfl⟩ := Drawing.lift_eq_ok.mp reached
  obtain ⟨grown, expanded, members⟩ := visited_eq_ok covered
  exact ⟨grown, positions, expanded, members, run⟩

theorem retileRegion_eq_frozen (numbered : c.Numbered) (g : Grid) (region : Rect) :
    (retileRegion c g region : Drawing σ Grid) = retileRegionFrozen c g region := by
  rw [retileRegion_eq, retileRegionFrozen]
  cases reached : visited c g region with
  | error cause => rw [Drawing.lift_error_bind, Drawing.lift_error_bind]
  | ok positions =>
    obtain ⟨grown, -, members⟩ := visited_eq_ok reached
    rw [Drawing.lift_ok_bind, Drawing.lift_ok_bind]
    exact retileCells_eq_frozen numbered fun p member => ((members p).mp member).2

theorem retile_eq_frozen (numbered : c.Numbered) (g : Grid) : (retile c g : Drawing σ Grid) = retileFrozen c g :=
  retileCells_eq_frozen numbered fun _ member => Grid.mem_bounds_cells.mp member

theorem retile_sameTiles (numbered : c.Numbered) {g k : Grid} {s t : σ} (h : retile c g s = .ok (k, t)) :
    g.SameTiles c k := by
  have inside : ∀ p ∈ g.bounds.cells, g.Contains p := fun p member => Grid.mem_bounds_cells.mp member
  exact (retileCells_eq_ok numbered inside h).1

theorem retileRegion_sameTiles (numbered : c.Numbered) {g k : Grid} {region : Rect} {s t : σ}
    (h : retileRegion c g region s = .ok (k, t)) : g.SameTiles c k := by
  obtain ⟨grown, positions, -, members, run⟩ := retileRegion_eq_ok h
  have inside : ∀ p ∈ positions, g.Contains p := fun p member => ((members p).mp member).2
  exact (retileCells_eq_ok numbered inside run).1

end Passes

/-- A pass that writes each cell as soon as it is evaluated comes to the same as one that evaluates all of them against
the grid at its start, because a write keeps the tiles. It also takes the same draws, which a source may count. -/
theorem passes_eq_frozen {config : Config} {c : Catalog} (compiled : config.compile = .ok c)
    (few : c.infos.size < 0x100000000) (g : Grid) (region : Rect) {σ : Type} [DrawSource σ] (s : σ) (taken : Nat) :
    retileRegion c g region s = retileRegionFrozen c g region s ∧
    retile c g s = retileFrozen c g s ∧
    retileRegion c g region (Counted.mk s taken) = retileRegionFrozen c g region (Counted.mk s taken) ∧
    retile c g (Counted.mk s taken) = retileFrozen c g (Counted.mk s taken) := by
  obtain ⟨stages⟩ := compile_eq_ok compiled
  have numbered := stages.numbered few
  refine ⟨?_, ?_, ?_, ?_⟩
  · rw [retileRegion_eq_frozen numbered]
  · rw [retile_eq_frozen numbered]
  · rw [retileRegion_eq_frozen numbered]
  · rw [retile_eq_frozen numbered]

/-- A row of three fences, with an id below the second one that the catalog does not know. -/
def fenceGrid : Grid :=
  ⟨⟨3, 2⟩, #[{ mid := some ⟨1⟩ }, { mid := some ⟨1⟩ }, { mid := some ⟨0⟩ }, {}, { back := some ⟨7⟩ }, {}], by decide⟩

theorem passes_eq_frozen_fenceGrid :
    fenceConfig.compile = .ok fenceCatalog ∧ fenceCatalog.infos.size < 0x100000000 ∧
    retileRegion fenceCatalog fenceGrid ⟨Vec.zero, Vec.one⟩ (Scripted.mk #[⟨0x3F400000⟩] 0) =
      retileRegionFrozen fenceCatalog fenceGrid ⟨Vec.zero, Vec.one⟩ (Scripted.mk #[⟨0x3F400000⟩] 0) ∧
    retile fenceCatalog fenceGrid (Counted.mk (Scripted.mk #[⟨0x3F400000⟩] 0) 0) =
      retileFrozen fenceCatalog fenceGrid (Counted.mk (Scripted.mk #[⟨0x3F400000⟩] 0) 0) := by
  have both := passes_eq_frozen fenceConfig_compile (by decide) fenceGrid ⟨Vec.zero, Vec.one⟩
    (Scripted.mk #[⟨0x3F400000⟩] 0) 0
  exact ⟨fenceConfig_compile, by decide, both.1, both.2.2.2⟩

end Tilework
