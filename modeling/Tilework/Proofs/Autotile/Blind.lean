import Tilework.Proofs.Autotile.Totality

namespace Tilework

inductive SlotsAlike (c : Catalog) : Option TileId → Option TileId → Prop where
  | empty : SlotsAlike c none none
  | tile {a b : TileId} {info other : TileInfo} : c.info? a = some info → c.info? b = some other →
    info.tile = other.tile → SlotsAlike c (some a) (some b)
  | unknown {id : TileId} : c.info? id = none → SlotsAlike c (some id) (some id)

variable {c : Catalog} {g h : Grid} {p : Vec}

theorem slotsAlike_iff {a b : Option TileId} : SlotsAlike c a b ↔ a.map c.occupant = b.map c.occupant := by
  constructor
  · intro alike
    cases alike with
    | empty => rfl
    | tile first second same =>
      exact congrArg some (Catalog.occupant_eq_iff.mpr (.inl ⟨_, _, first, second, same⟩))
    | unknown missing => rfl
  · intro same
    cases a with
    | none =>
      cases b with
      | none => exact .empty
      | some b => cases same
    | some a =>
      cases b with
      | none => cases same
      | some b =>
        rcases Catalog.occupant_eq_iff.mp (Option.some.inj same) with ⟨_, _, first, second, tile⟩ | ⟨missing, rfl⟩
        · exact .tile first second tile
        · exact .unknown missing

theorem Grid.sameTiles_iff : g.SameTiles c h ↔
    h.size = g.size ∧ ∀ p layer, g.Contains p → SlotsAlike c ((g.cellAt p).get layer) ((h.cellAt p).get layer) := by
  simp only [SameTiles, Cell.Alike, slotsAlike_iff]
  exact and_congr_right fun _ => forall_congr' fun p => forall_comm

theorem Vec.fit_ends (v : Vec) : Ends (· = .overflow) v.fit fun _ => True := by
  unfold fit
  split
  · exact .ok trivial
  · exact .inl ⟨.overflow, rfl, rfl⟩

theorem Requirement.holds_ends {r : Requirement} (target : r.target.Exists c) :
    Ends (· = .overflow) (r.holds c g p) fun _ => True := by
  rw [holds_eq]
  exact (Vec.fit_ends _).bind fun q _ => .inr (metBy_yields target _)

/-- Nothing but an overflow on the way to a cell that a rule looks at can end an evaluation. -/
theorem Catalog.Intact.evaluate_ends (intact : c.Intact) (g : Grid) (p : Vec) {σ : Type} [DrawSource σ] (s : σ) :
    evaluate c g p s = .error .overflow ∨ ∃ cell t, evaluate c g p s = .ok (cell, t) := by
  have answers : c.Answers (· = .overflow) g p := by
    intro i tile rule found tried r required
    exact Requirement.holds_ends ((intact.rule found tried).target r required)
  rcases answers.evaluate_ends intact s with ⟨_, rfl, overflow⟩ | ⟨⟨cell, t⟩, done, -⟩
  · exact .inl overflow
  · exact .inr ⟨cell, t, done⟩

/-- What evaluation makes of a cell, and which draws it takes for that, is the same in two grids that differ in nothing
but the variants of their tiles. It may overflow, but then it does so in both of them. -/
theorem evaluate_blind {config : Config} (compiled : config.compile = .ok c) (size : h.size = g.size)
    (alike : ∀ p layer, g.Contains p → SlotsAlike c ((g.cellAt p).get layer) ((h.cellAt p).get layer)) (p : Vec)
    {σ : Type} [DrawSource σ] (s : σ) :
    (evaluate c g p s = .error .overflow ∧ evaluate c h p s = .error .overflow) ∨
      ∃ cell t, evaluate c g p s = .ok (cell, t) ∧ evaluate c h p s = .ok (cell, t) := by
  obtain ⟨stages⟩ := compile_eq_ok compiled
  have same : g.SameTiles c h := Grid.sameTiles_iff.mpr ⟨size, alike⟩
  have equal : evaluate c g p s = evaluate c h p s := congrFun (evaluate_congr (same.agreeAt p)) s
  rcases stages.intact.evaluate_ends g p s with overflow | ⟨cell, t, done⟩
  · exact .inl ⟨overflow, equal ▸ overflow⟩
  · exact .inr ⟨cell, t, done, equal ▸ done⟩

def paintedGrid : Grid :=
  ⟨⟨3, 2⟩, #[{ mid := some ⟨2⟩ }, { mid := some ⟨0⟩ }, { mid := some ⟨1⟩ }, {}, { back := some ⟨7⟩ }, {}], by decide⟩

theorem evaluate_blind_fenceGrid :
    fenceConfig.compile = .ok fenceCatalog ∧ paintedGrid.size = fenceGrid.size ∧
    (∀ p layer, fenceGrid.Contains p →
      SlotsAlike fenceCatalog ((fenceGrid.cellAt p).get layer) ((paintedGrid.cellAt p).get layer)) ∧
    evaluate fenceCatalog paintedGrid ⟨-1, 0⟩ (Counted.mk (Scripted.mk #[⟨0x3F400000⟩] 0) 0) =
      .ok ({ mid := some ⟨0⟩ }, ⟨⟨#[⟨0x3F400000⟩], 1⟩, 1⟩) ∧
    evaluate fenceCatalog paintedGrid ⟨2147483647, 0⟩ (Counted.mk (Scripted.mk #[⟨0x3F400000⟩] 0) 0) =
      .error .overflow := by
  have alike : ∀ p layer, fenceGrid.Contains p →
      SlotsAlike fenceCatalog ((fenceGrid.cellAt p).get layer) ((paintedGrid.cellAt p).get layer) := by
    intro p layer inside
    have all : ∀ p ∈ fenceGrid.bounds.cells, ∀ layer ∈ Layer.all,
        ((fenceGrid.cellAt p).get layer).map fenceCatalog.occupant =
          ((paintedGrid.cellAt p).get layer).map fenceCatalog.occupant := by decide +kernel
    exact slotsAlike_iff.mpr (all p (Rect.mem_cells.mpr (Grid.holds_bounds.mpr inside)) layer layer.mem_all)
  have size : paintedGrid.size = fenceGrid.size := rfl
  have blind := fun p => evaluate_blind fenceConfig_compile size alike p (Counted.mk (Scripted.mk #[⟨0x3F400000⟩] 0) 0)
  refine ⟨fenceConfig_compile, size, alike, ?_, ?_⟩
  · have drawn : evaluate fenceCatalog fenceGrid ⟨-1, 0⟩ (Counted.mk (Scripted.mk #[⟨0x3F400000⟩] 0) 0) =
        .ok ({ mid := some ⟨0⟩ }, ⟨⟨#[⟨0x3F400000⟩], 1⟩, 1⟩) := rfl
    rcases blind ⟨-1, 0⟩ with ⟨overflow, -⟩ | ⟨cell, t, first, second⟩
    · rw [drawn] at overflow
      cases overflow
    · rw [second, ← first, drawn]
  · have overflown : evaluate fenceCatalog fenceGrid ⟨2147483647, 0⟩ (Counted.mk (Scripted.mk #[⟨0x3F400000⟩] 0) 0) =
        .error .overflow := rfl
    rcases blind ⟨2147483647, 0⟩ with ⟨-, overflow⟩ | ⟨cell, t, first, -⟩
    · exact overflow
    · rw [overflown] at first
      cases first

end Tilework
