import Tilework.Proofs.Autotile.Fixed
import Tilework.Proofs.Edit.Changes
import Tilework.Store

namespace Tilework

section Settled

variable (possible : Single → Prop) (c : Catalog) (g : Grid) (p : Vec)

/-- For every known tile at `p` there are draws with which the cell evaluates to it, all of them possible ones. -/
def SettledAt : Prop :=
  ∀ layer id, (g.cellAt p).get layer = some id → (c.info? id).isSome →
    ∃ (draws rest : DrawSequence) (cell : Cell), (∀ n, possible (draws.draw n)) ∧
      evaluate c g p draws = .ok (cell, rest) ∧ cell.get layer = some id

def Grid.Settled : Prop := ∀ p, g.Contains p → SettledAt possible c g p

end Settled

section Locality

variable {c : Catalog} {g h k : Grid} {area grown : Rect} {p q : Vec}

theorem Grid.distance_closest (inside : g.Contains p) :
    ((g.closest (p + q)).x - p.x).natAbs ≤ q.x.natAbs ∧ ((g.closest (p + q)).y - p.y).natAbs ≤ q.y.natAbs := by
  obtain ⟨left, low, right, high⟩ := inside
  simp only [closest, Vec.clamp, Vec.min, Vec.max, Vec.zero, Vec.one, Vec.add_x, Vec.add_y, Vec.sub_x, Vec.sub_y]
  omega

/-- A change is not seen from farther away than the range of the catalog. -/
theorem Grid.ChangedWithin.agreeAt (reaching : c.Reaching) (changed : ChangedWithin area g h)
    (expanded : area.expand c.range = .ok grown) (inside : g.Contains p) (outside : ¬grown.Holds p) :
    AgreeAt c g h p := by
  rw [Rect.holds_expand expanded] at outside
  have wide := reaching.range_x
  have high := reaching.range_y
  have same : ∀ q, g.Contains q → ((q.x - p.x).natAbs : Int) ≤ c.range.x → ((q.y - p.y).natAbs : Int) ≤ c.range.y →
      h.cellAt q = g.cellAt q := by
    intro q contains x y
    refine changed.2 q contains ?_
    rintro ⟨left, right, low, high⟩
    apply outside
    omega
  constructor
  · rw [closest_congr changed.1, closest_of_contains inside, same p inside (by omega) (by omega)]
    exact Cell.Alike.refl c _
  · intro t tile rule r found member required
    obtain ⟨x, y⟩ := reaching.within found member required
    obtain ⟨nearX, nearY⟩ := distance_closest (q := r.offset) inside
    rw [closest_congr changed.1, same _ (g.closest_contains _) (by omega) (by omega)]
    exact Cell.Alike.refl c _

theorem SettledAt.congr {possible : Single → Prop} (settled : SettledAt possible c g p) (agree : AgreeAt c g h p)
    (cell : h.cellAt p = g.cellAt p) : SettledAt possible c h p := by
  intro layer id slot known
  rw [cell] at slot
  obtain ⟨draws, rest, result, each, evaluated, chosen⟩ := settled layer id slot known
  rw [evaluate_congr agree] at evaluated
  exact ⟨draws, rest, result, each, evaluated, chosen⟩

end Locality

section Runs

variable {c : Catalog} {σ : Type} [DrawSource σ] {s t : σ}

variable {possible : Single → Prop}

theorem settledAt_of_evaluate (draws : ∀ s : σ, possible (DrawSource.draw s).1) {g k : Grid} {p : Vec}
    (same : g.SameTiles c k) (h : evaluate c g p s = .ok (k.cellAt p, t)) : SettledAt possible c k p := by
  intro layer id slot _
  have evaluated := evaluate_ofSource h
  rw [evaluate_congr (same.agreeAt p)] at evaluated
  exact ⟨_, _, k.cellAt p, DrawSequence.draw_ofSource_possible draws s, evaluated, slot⟩

theorem retile_settled (numbered : c.Numbered) (draws : ∀ s : σ, possible (DrawSource.draw s).1) {g k : Grid}
    (h : retile c g s = .ok (k, t)) : k.Settled possible c := by
  obtain ⟨same, cells⟩ := retileCells_eq_ok numbered (fun p member => Grid.mem_bounds_cells.mp member) h
  intro p inside
  have contains := (Grid.contains_congr same.1).mp inside
  rcases cells p contains with ⟨unvisited, -⟩ | ⟨u, v, evaluated⟩
  · exact absurd (Grid.mem_bounds_cells.mpr contains) unvisited
  · exact settledAt_of_evaluate draws same evaluated

/-- The autotiler, run for a rectangle, makes good for all that was written within it. -/
theorem retileRegion_settled (numbered : c.Numbered) (reaching : c.Reaching)
    (draws : ∀ s : σ, possible (DrawSource.draw s).1) {g written k : Grid} {area : Rect}
    (settled : g.Settled possible c) (changed : g.ChangedWithin area written)
    (h : retileRegion c written area s = .ok (k, t)) : k.Settled possible c := by
  obtain ⟨grown, positions, expanded, members, run⟩ := retileRegion_eq_ok h
  obtain ⟨same, cells⟩ := retileCells_eq_ok numbered (fun p member => ((members p).mp member).2) run
  intro p inside
  have contains := (Grid.contains_congr same.1).mp inside
  rcases cells p contains with ⟨unvisited, kept⟩ | ⟨u, v, evaluated⟩
  · have before := (Grid.contains_congr changed.1).mp contains
    have outside : ¬grown.Holds p := fun holds => unvisited ((members p).mpr ⟨holds, contains⟩)
    have unseen := changed.agreeAt reaching expanded before outside
    have unwritten : written.cellAt p = g.cellAt p := by
      refine changed.2 p before ?_
      intro holds
      exact outside (holds.expand reaching.range_x reaching.range_y expanded)
    exact ((settled p before).congr unseen unwritten).congr (same.agreeAt p) kept
  · exact settledAt_of_evaluate draws same evaluated

theorem runEdits_settled (numbered : c.Numbered) (reaching : c.Reaching)
    (draws : ∀ s : σ, possible (DrawSource.draw s).1) {g k : Grid} {edits : List Edit}
    (settled : g.Settled possible c) (h : runEdits c g edits s = .ok (k, t)) : k.Settled possible c := by
  induction edits generalizing g s with
  | nil =>
    obtain ⟨rfl, rfl⟩ := Drawing.pure_eq_ok.mp h
    exact settled
  | cons e rest ih =>
    rw [runEdits, List.foldlM_cons] at h
    obtain ⟨next, u, edited, h⟩ := Drawing.bind_eq_ok.mp h
    refine ih ?_ h
    rcases Edit.run_eq_ok edited with ⟨rfl, -⟩ | ⟨area, written, changed, retiled⟩
    · exact settled
    · exact retileRegion_settled numbered reaching draws settled changed retiled

end Runs

section Determined

variable {c : Catalog} {g : Grid} {p : Vec} {σ : Type} [DrawSource σ]

theorem evaluateSlot_of_unknown {slot : Option TileId} (unknown : ∀ id, slot = some id → c.info? id = none) (s : σ) :
    evaluateSlot c g p slot s = .ok (slot, s) := by
  cases slot with
  | none => rfl
  | some id =>
    refine Drawing.bind_eq_ok.mpr ⟨id, s, ?_, rfl⟩
    unfold evaluateId
    rw [unknown id rfl]
    rfl

theorem evaluate_of_unknown (inside : g.Contains p)
    (unknown : ∀ layer id, (g.cellAt p).get layer = some id → c.info? id = none) (s : σ) :
    evaluate c g p s = .ok (g.cellAt p, s) := by
  refine evaluate_eq_ok.mpr ?_
  rw [Grid.closest_of_contains inside]
  refine ⟨s, s, ?_, ?_, ?_⟩
  · exact evaluateSlot_of_unknown (unknown .front) s
  · exact evaluateSlot_of_unknown (unknown .mid) s
  · exact evaluateSlot_of_unknown (unknown .back) s

theorem eq_of_alike_unknown {a b : Option TileId} (alike : a.map c.occupant = b.map c.occupant)
    (unknown : ∀ id, b = some id → c.info? id = none) : a = b := by
  cases b with
  | none => simpa using alike
  | some id =>
    cases a with
    | none => simp at alike
    | some other =>
      simp only [Option.map_some, Option.some.injEq, Catalog.occupant_of_unknown (unknown id rfl)] at alike
      unfold Catalog.occupant at alike
      split at alike
      · cases alike
      · injection alike with same
        rw [same]

theorem SettledAt.evaluate_eq {possible : Single → Prop} (numbered : c.Numbered) (determined : c.Determined)
    (settled : SettledAt possible c g p) (inside : g.Contains p) (s : σ) :
    evaluate c g p s = .ok (g.cellAt p, s) := by
  by_cases known : ∃ layer id, (g.cellAt p).get layer = some id ∧ (c.info? id).isSome
  · obtain ⟨layer, id, slot, hasInfo⟩ := known
    obtain ⟨draws, rest, result, -, evaluated, -⟩ := settled layer id slot hasInfo
    have alike := evaluate_alike numbered evaluated
    rw [Grid.closest_of_contains inside] at alike
    have same : ∀ layer, result.get layer = (g.cellAt p).get layer := by
      intro layer
      by_cases unknown : ∀ id, (g.cellAt p).get layer = some id → c.info? id = none
      · exact eq_of_alike_unknown (alike layer) unknown
      · push Not at unknown
        obtain ⟨other, slot, hasInfo⟩ := unknown
        obtain ⟨draws', rest', result', -, evaluated', chosen⟩ :=
          settled layer other slot (Option.isSome_iff_ne_none.mpr hasInfo)
        have here := determined.evaluate_eq evaluated draws
        rw [determined.evaluate_eq evaluated' draws] at here
        cases here
        rw [chosen, slot]
    rw [← Cell.ext_get same]
    exact determined.evaluate_eq evaluated s
  · have unknown : ∀ layer id, (g.cellAt p).get layer = some id → c.info? id = none := by
      intro layer id slot
      by_contra hasInfo
      exact known ⟨layer, id, slot, Option.isSome_iff_ne_none.mpr hasInfo⟩
    exact evaluate_of_unknown inside unknown s

/-- Where nothing is left to chance, a full pass finds nothing to do in a settled grid. -/
theorem Grid.Settled.retile_eq {possible : Single → Prop} (numbered : c.Numbered) (determined : c.Determined)
    (settled : g.Settled possible c) (s : σ) : retile c g s = .ok (g, s) := by
  rw [retile_fixed_iff determined]
  exact ⟨rfl, fun p inside => (settled p inside).evaluate_eq numbered determined inside s⟩

end Determined

/-- A full pass settles a grid, and edits keep it settled: an edit evaluates every cell from which a rule can see what
was written. The draws that a source gives have to be among the possible ones, whichever these are. -/
theorem edits_keep_settled {config : Config} {c : Catalog} (compiled : config.compile = .ok c)
    (few : c.infos.size < 0x100000000) {σ : Type} [DrawSource σ] {possible : Single → Prop}
    (draws : ∀ s : σ, possible (DrawSource.draw s).1) :
    (∀ (g k : Grid) (s t : σ), retile c g s = .ok (k, t) → k.Settled possible c) ∧
    ∀ (g k : Grid) (edits : List Edit) (s t : σ), g.Settled possible c → runEdits c g edits s = .ok (k, t) →
      k.Settled possible c ∧ (c.Determined → ∀ u : σ, retile c k u = .ok (k, u)) := by
  obtain ⟨stages⟩ := compile_eq_ok compiled
  have numbered := stages.numbered few
  constructor
  · intro g k s t retiled
    exact retile_settled numbered draws retiled
  · intro g k edits s t settled edited
    have last := runEdits_settled numbered stages.reaching draws settled edited
    exact ⟨last, fun determined u => last.retile_eq numbered determined u⟩

/-- Walls that join to what is on their right, and so leave nothing to chance. -/
def wallConfig : Config := {
  tiles := [{
    name := "wall"
    layer := "back"
    defaultVariant := "alone"
    displayVariant := "alone"
    variants := [{ name := "alone", texture := ⟨0, 0⟩ }, { name := "joined", texture := ⟨1, 0⟩ }]
    rules := [{ results := [{ name := "joined" }], requires := [{ name := "wall", offset := ⟨1, 0⟩ }] }] }] }

def wallCatalog : Catalog := {
  flags := #[]
  groups := #[]
  tiles := #[{
    name := "wall"
    layer := .back
    flags := []
    authoredIndex := 0
    variants := #[
      ⟨"alone", ⟨0, 0⟩, ⟨1, 1⟩, ⟨0, 0⟩, ⟨0, 0⟩, ⟨0, 512⟩, ⟨12, 12⟩, ⟨0, 0⟩, ⟨0⟩⟩,
      ⟨"joined", ⟨1, 0⟩, ⟨1, 1⟩, ⟨0, 0⟩, ⟨0, 0⟩, ⟨12, 512⟩, ⟨12, 12⟩, ⟨0, 0⟩, ⟨1⟩⟩]
    rules := #[{
      authoredIndex := 0
      results := [⟨"joined", ⟨0x3F800000⟩, 1⟩]
      requires := [⟨"wall", ⟨1, 0⟩, .tile 0⟩]
      requiresNot := []
      reqVariants := #[]
      period := ⟨⟨1, 1⟩, []⟩ }]
    flagBits := #[]
    defaultVariant := 0
    displayVariant := 0 }]
  infos := #[⟨0, 0, "wall", "alone"⟩, ⟨0, 1, "wall", "joined"⟩]
  range := ⟨1, 0⟩
  footprintLow := ⟨0, 0⟩
  footprintHigh := ⟨0, 0⟩ }

theorem wallConfig_compile : wallConfig.compile = .ok wallCatalog := by decide +kernel

theorem wallCatalog_determined : wallCatalog.Determined := by
  unfold Catalog.Determined
  decide

def wallRow (left middle right : Option TileId) : Grid :=
  ⟨⟨3, 1⟩, #[{ back := left }, { back := middle }, { back := right }], rfl⟩

theorem wallRow_rename : (wallRow none (some ⟨0⟩) none).rename wallCatalog wallCatalog = wallRow none (some ⟨0⟩) none :=
  Grid.ext_cells rfl (by decide +kernel)

/-- A wall at the border of the grid sees itself. The middle one closes a gap, and the right one is taken away. -/
theorem edits_keep_settled_wallRow :
    (wallRow (some ⟨0⟩) none (some ⟨1⟩)).Settled (fun _ => True) wallCatalog ∧
    runEdits wallCatalog (wallRow (some ⟨0⟩) none (some ⟨1⟩)) [.place ⟨1, 0⟩ 0, .erase ⟨2, 0⟩ ⟨5, 3⟩ .all]
      (Scripted.mk #[] 0) = .ok (wallRow (some ⟨1⟩) (some ⟨0⟩) none, Scripted.mk #[] 0) ∧
    (wallRow (some ⟨1⟩) (some ⟨0⟩) none).Settled (fun _ => True) wallCatalog ∧
    retile wallCatalog (wallRow (some ⟨1⟩) (some ⟨0⟩) none) (Scripted.mk #[] 0) =
      .ok (wallRow (some ⟨1⟩) (some ⟨0⟩) none, Scripted.mk #[] 0) := by
  obtain ⟨full, edits⟩ :=
    @edits_keep_settled _ _ wallConfig_compile (by decide) Scripted _ (fun _ => True) fun _ => trivial
  have settled := full (wallRow (some ⟨1⟩) none (some ⟨0⟩)) _ (Scripted.mk #[] 0) (Scripted.mk #[] 0) rfl
  have run : runEdits wallCatalog (wallRow (some ⟨0⟩) none (some ⟨1⟩)) [.place ⟨1, 0⟩ 0, .erase ⟨2, 0⟩ ⟨5, 3⟩ .all]
      (Scripted.mk #[] 0) = .ok (wallRow (some ⟨1⟩) (some ⟨0⟩) none, Scripted.mk #[] 0) := rfl
  obtain ⟨kept, unchanged⟩ := edits _ _ _ _ _ settled run
  exact ⟨settled, run, kept, unchanged wallCatalog_determined _⟩

end Tilework
