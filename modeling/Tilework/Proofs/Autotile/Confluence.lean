import Tilework.Proofs.Autotile.Blind
import Tilework.Proofs.Autotile.Settled

namespace Tilework

section Decided

variable (c : Catalog) (g : Grid) (p : Vec)

/-- With every source the cell comes out like this, and no draw is taken for it. -/
def Decides (cell : Cell) : Prop :=
  ∀ (σ : Type) [DrawSource σ] (s : σ), evaluate c g p s = .ok (cell, s)

def Overflows : Prop := ∀ (σ : Type) [DrawSource σ] (s : σ), evaluate c g p s = .error .overflow

structure Settles (positions : List Vec) (k : Grid) : Prop where
  size : k.size = g.size
  visited : ∀ q, g.Contains q → q ∈ positions → Decides c g q (k.cellAt q)
  others : ∀ q, g.Contains q → q ∉ positions → k.cellAt q = g.cellAt q

end Decided

variable {c : Catalog} {g h k : Grid} {p : Vec} {positions rest : List Vec}

theorem Catalog.Determined.decides_or_overflows (determined : c.Determined) (intact : c.Intact) (g : Grid) (p : Vec) :
    (∃ cell, Decides c g p cell) ∨ Overflows c g p := by
  by_cases decided : ∃ cell, Decides c g p cell
  · exact .inl decided
  · refine .inr fun _ _ s => ?_
    rcases intact.evaluate_ends g p s with overflow | ⟨cell, t, done⟩
    · exact overflow
    · exact absurd ⟨cell, fun _ _ u => determined.evaluate_eq done u⟩ decided

theorem Decides.unique {a b : Cell} (first : Decides c g p a) (second : Decides c g p b) : a = b := by
  have same := (first Scripted (Scripted.mk #[] 0)).symm.trans (second Scripted (Scripted.mk #[] 0))
  cases same
  rfl

theorem Decides.not_overflows {cell : Cell} (decided : Decides c g p cell) (overflows : Overflows c g p) : False := by
  have same := (decided Scripted (Scripted.mk #[] 0)).symm.trans (overflows Scripted (Scripted.mk #[] 0))
  cases same

theorem Decides.congr {cell : Cell} (same : g.SameTiles c h) (decided : Decides c h p cell) : Decides c g p cell := by
  intro σ _ s
  rw [evaluate_congr (same.agreeAt p)]
  exact decided σ s

namespace Settles

theorem unique {others : List Vec} (first : Settles c g positions h) (second : Settles c g others k)
    (members : ∀ p, p ∈ positions ↔ p ∈ others) : h = k := by
  refine Grid.ext_cellAt (first.size.trans second.size.symm) ?_
  intro q inside
  have contains := (Grid.contains_congr first.size).mp inside
  by_cases member : q ∈ positions
  · exact (first.visited q contains member).unique (second.visited q contains ((members q).mp member))
  · rw [first.others q contains member, second.others q contains fun among => member ((members q).mpr among)]

theorem cons_outside (settled : Settles c g rest k) (outside : ¬g.Contains p) : Settles c g (p :: rest) k := by
  refine ⟨settled.size, ?_, ?_⟩
  · intro q inside member
    rcases List.mem_cons.mp member with rfl | among
    · exact absurd inside outside
    · exact settled.visited q inside among
  · intro q inside missing
    exact settled.others q inside fun among => missing (List.mem_cons_of_mem p among)

theorem cons_inside {cell : Cell} (inside : g.Contains p) (decided : Decides c g p cell)
    (same : g.SameTiles c (g.update p fun _ => cell)) (settled : Settles c (g.update p fun _ => cell) rest k) :
    Settles c g (p :: rest) k := by
  refine ⟨settled.size, ?_, ?_⟩
  · intro q contains member
    by_cases later : q ∈ rest
    · exact (settled.visited q contains later).congr same
    · have here : q = p := (List.mem_cons.mp member).resolve_right later
      subst here
      rw [settled.others q contains later, Grid.cellAt_update_self inside]
      exact decided
  · intro q contains missing
    rw [List.mem_cons, not_or] at missing
    rw [settled.others q contains missing.2, Grid.cellAt_update_of_ne inside contains _ missing.1]

end Settles

section Runs

variable {σ τ : Type} [DrawSource σ] [DrawSource τ]

/-- A run overflows if one of its cells does, in the grid as it is before the run. -/
theorem retileCells_settles (determined : c.Determined) (intact : c.Intact) (numbered : c.Numbered) (g : Grid)
    (positions : List Vec) (s : σ) :
    (retileCells c g positions s = .error .overflow ∧ ∃ p ∈ positions, g.Contains p ∧ Overflows c g p) ∨
      ∃ k, retileCells c g positions s = .ok (k, s) ∧ Settles c g positions k := by
  induction positions generalizing g with
  | nil => exact .inr ⟨g, rfl, rfl, by simp, fun _ _ _ => rfl⟩
  | cons p rest ih =>
    rw [retileCells, List.foldlM_cons]
    by_cases inside : g.Contains p
    · rw [retileCell_eq inside, bind_assoc, Drawing.bind_apply]
      rcases determined.decides_or_overflows intact g p with ⟨cell, decided⟩ | overflows
      · rw [decided σ s]
        have alike := evaluate_alike numbered (decided σ s)
        rw [Grid.closest_of_contains inside] at alike
        -- The write keeps the tiles, so cells that come later are decided as they would have been before it.
        have same := Grid.SameTiles.update inside alike
        rcases ih (g.update p fun _ => cell) with ⟨failed, q, member, contains, overflows⟩ | ⟨k, done, settled⟩
        · refine .inl ⟨failed, q, List.mem_cons_of_mem p member, contains, ?_⟩
          intro τ _ u
          rw [evaluate_congr (same.agreeAt q)]
          exact overflows τ u
        · exact .inr ⟨k, done, settled.cons_inside inside decided same⟩
      · rw [overflows σ s]
        exact .inl ⟨rfl, p, by simp, inside, overflows⟩
    · rw [retileCell, if_neg inside, pure_bind]
      rcases ih g with ⟨failed, q, member, contains, overflows⟩ | ⟨k, done, settled⟩
      · exact .inl ⟨failed, q, List.mem_cons_of_mem p member, contains, overflows⟩
      · exact .inr ⟨k, done, settled.cons_outside inside⟩

theorem retileCells_confluent (determined : c.Determined) (intact : c.Intact) (numbered : c.Numbered) (g : Grid)
    {xs ys : List Vec} (members : ∀ p, p ∈ xs ↔ p ∈ ys) (s : σ) (u : τ) :
    (retileCells c g xs s = .error .overflow ∧ retileCells c g ys u = .error .overflow) ∨
      ∃ k, retileCells c g xs s = .ok (k, s) ∧ retileCells c g ys u = .ok (k, u) := by
  rcases retileCells_settles determined intact numbered g xs s with ⟨failed, p, among, inside, overflows⟩ | ⟨h, done, first⟩
  · rcases retileCells_settles determined intact numbered g ys u with ⟨failed', -⟩ | ⟨k, -, second⟩
    · exact .inl ⟨failed, failed'⟩
    · exact ((second.visited p inside ((members p).mp among)).not_overflows overflows).elim
  · rcases retileCells_settles determined intact numbered g ys u with ⟨-, p, among, inside, overflows⟩ | ⟨k, done', second⟩
    · exact ((first.visited p inside ((members p).mpr among)).not_overflows overflows).elim
    · obtain rfl := first.unique second members
      exact .inr ⟨h, done, done'⟩

theorem retileCells_append (c : Catalog) (g : Grid) (xs ys : List Vec) :
    (retileCells c g (xs ++ ys) : Drawing σ Grid) = retileCells c g xs >>= fun h => retileCells c h ys :=
  List.foldlM_append

/-- After a run within the grid a full pass comes to what it comes to without that run. -/
theorem retile_after (determined : c.Determined) (intact : c.Intact) (numbered : c.Numbered)
    (inside : ∀ p ∈ positions, g.Contains p) {s t : σ} (run : retileCells c g positions s = .ok (h, t)) (u v : τ) :
    (retile c g u = .error .overflow ∧ retile c h v = .error .overflow) ∨
      ∃ k, retile c g u = .ok (k, u) ∧ retile c h v = .ok (k, v) := by
  have size : h.size = g.size := (retileCells_eq_ok numbered inside run).1.1
  have bounds : h.bounds = g.bounds := by rw [Grid.bounds, Grid.bounds, size]
  have members : ∀ p, p ∈ g.bounds.cells ↔ p ∈ positions ++ g.bounds.cells := by
    intro p
    rw [List.mem_append, Grid.mem_bounds_cells]
    exact ⟨.inr, fun either => either.elim (inside p) id⟩
  have again : retileCells c g positions v = .ok (h, v) := by
    rcases retileCells_confluent determined intact numbered g (fun p => Iff.refl (p ∈ positions)) s v with
      ⟨failed, -⟩ | ⟨k, done, again⟩
    · rw [run] at failed
      cases failed
    · rw [run] at done
      cases done
      exact again
  have both : retileCells c g (positions ++ g.bounds.cells) v = retile c h v := by
    rw [retileCells_append, Drawing.bind_apply, again, retile, bounds]
    rfl
  rw [← both]
  exact retileCells_confluent determined intact numbered g members u v

theorem retileRegions_eq_ok (numbered : c.Numbered) {regions : List Rect} {s t : σ}
    (done : regions.foldlM (retileRegion c) g s = .ok (h, t)) :
    ∃ positions, (∀ p ∈ positions, g.Contains p) ∧ retileCells c g positions s = .ok (h, t) := by
  induction regions generalizing g s with
  | nil => exact ⟨[], by simp, done⟩
  | cons region rest ih =>
    rw [List.foldlM_cons] at done
    obtain ⟨next, u, first, done⟩ := Drawing.bind_eq_ok.mp done
    obtain ⟨grown, positions, -, members, run⟩ := retileRegion_eq_ok first
    have inside : ∀ p ∈ positions, g.Contains p := fun p member => ((members p).mp member).2
    have size : next.size = g.size := (retileCells_eq_ok numbered inside run).1.1
    obtain ⟨later, within, others⟩ := ih done
    refine ⟨positions ++ later, ?_, ?_⟩
    · intro p member
      rcases List.mem_append.mp member with among | among
      · exact inside p among
      · exact (Grid.contains_congr size).mp (within p among)
    · rw [retileCells_append]
      exact Drawing.bind_eq_ok.mpr ⟨next, u, run, others⟩

end Runs

/-- Where no rule has a choice, what comes of a run is told by the set of its positions. A second full pass finds
nothing to do, and passes over regions before a full pass make no difference. The sources of the runs may be different
ones, and none of them is touched. -/
theorem determined_confluent {config : Config} {c : Catalog} (compiled : config.compile = .ok c)
    (few : c.infos.size < 0x100000000) (determined : c.Determined) (g : Grid) {σ τ : Type} [DrawSource σ]
    [DrawSource τ] :
    (∀ xs ys : List Vec, (∀ p, p ∈ xs ↔ p ∈ ys) → ∀ (s : σ) (u : τ),
      (retileCells c g xs s = .error .overflow ∧ retileCells c g ys u = .error .overflow) ∨
        ∃ k, retileCells c g xs s = .ok (k, s) ∧ retileCells c g ys u = .ok (k, u)) ∧
    (∀ (k : Grid) (s t : σ), retile c g s = .ok (k, t) → ∀ u : τ, retile c k u = .ok (k, u)) ∧
    (∀ (regions : List Rect) (h : Grid) (s t : σ), regions.foldlM (retileRegion c) g s = .ok (h, t) → ∀ u v : τ,
      (retile c g u = .error .overflow ∧ retile c h v = .error .overflow) ∨
        ∃ k, retile c g u = .ok (k, u) ∧ retile c h v = .ok (k, v)) := by
  obtain ⟨stages⟩ := compile_eq_ok compiled
  have numbered := stages.numbered few
  have intact := stages.intact
  refine ⟨?_, ?_, ?_⟩
  · intro xs ys members s u
    exact retileCells_confluent determined intact numbered g members s u
  · intro k s t done u
    have same := retileCells_confluent determined intact numbered g (fun p => Iff.refl (p ∈ g.bounds.cells)) s u
    rcases same with ⟨failed, -⟩ | ⟨l, first, second⟩
    · exact nomatch failed.symm.trans done
    · cases first.symm.trans done
      rcases retile_after determined intact numbered (fun p => Grid.mem_bounds_cells.mp) done u u with
        ⟨failed, -⟩ | ⟨l, once, twice⟩
      · exact nomatch failed.symm.trans second
      · cases once.symm.trans second
        exact twice
  · intro regions h s t done u v
    obtain ⟨positions, inside, run⟩ := retileRegions_eq_ok numbered done
    exact retile_after determined intact numbered inside run u v

/-- The left wall has nothing to join to. The right one is at the border of the grid, where it sees itself. -/
theorem determined_confluent_wallRow :
    wallConfig.compile = .ok wallCatalog ∧ wallCatalog.infos.size < 0x100000000 ∧ wallCatalog.Determined ∧
    retileCells wallCatalog (wallRow (some ⟨1⟩) none (some ⟨0⟩)) [⟨2, 0⟩, ⟨0, 0⟩, ⟨3, 0⟩, ⟨2, 0⟩]
      (Scripted.mk #[] 0) = .ok (wallRow (some ⟨0⟩) none (some ⟨1⟩), Scripted.mk #[] 0) ∧
    retileCells wallCatalog (wallRow (some ⟨1⟩) none (some ⟨0⟩)) [⟨0, 0⟩, ⟨2, 0⟩, ⟨3, 0⟩]
      (Counted.mk (Scripted.mk #[] 0) 0) =
        .ok (wallRow (some ⟨0⟩) none (some ⟨1⟩), Counted.mk (Scripted.mk #[] 0) 0) ∧
    retile wallCatalog (wallRow (some ⟨0⟩) none (some ⟨1⟩)) (Counted.mk (Scripted.mk #[] 0) 0) =
      .ok (wallRow (some ⟨0⟩) none (some ⟨1⟩), Counted.mk (Scripted.mk #[] 0) 0) ∧
    [⟨⟨2, 0⟩, Vec.one⟩].foldlM (retileRegion wallCatalog) (wallRow (some ⟨1⟩) none (some ⟨0⟩)) (Scripted.mk #[] 0) =
      .ok (wallRow (some ⟨1⟩) none (some ⟨1⟩), Scripted.mk #[] 0) ∧
    retile wallCatalog (wallRow (some ⟨1⟩) none (some ⟨1⟩)) (Counted.mk (Scripted.mk #[] 0) 0) =
      .ok (wallRow (some ⟨0⟩) none (some ⟨1⟩), Counted.mk (Scripted.mk #[] 0) 0) := by
  have members : ∀ p : Vec, p ∈ [⟨2, 0⟩, ⟨0, 0⟩, ⟨3, 0⟩, ⟨2, 0⟩] ↔ p ∈ [⟨0, 0⟩, ⟨2, 0⟩, (⟨3, 0⟩ : Vec)] := by
    intro p
    simp only [List.mem_cons, List.not_mem_nil, or_false]
    tauto
  obtain ⟨lists, again, passes⟩ := determined_confluent (σ := Scripted) (τ := Counted Scripted) wallConfig_compile
    (by decide) wallCatalog_determined (wallRow (some ⟨1⟩) none (some ⟨0⟩))
  have full : retile wallCatalog (wallRow (some ⟨1⟩) none (some ⟨0⟩)) (Scripted.mk #[] 0) =
      .ok (wallRow (some ⟨0⟩) none (some ⟨1⟩), Scripted.mk #[] 0) := rfl
  have run : retileCells wallCatalog (wallRow (some ⟨1⟩) none (some ⟨0⟩)) [⟨2, 0⟩, ⟨0, 0⟩, ⟨3, 0⟩, ⟨2, 0⟩]
      (Scripted.mk #[] 0) = .ok (wallRow (some ⟨0⟩) none (some ⟨1⟩), Scripted.mk #[] 0) := rfl
  have part : [⟨⟨2, 0⟩, Vec.one⟩].foldlM (retileRegion wallCatalog) (wallRow (some ⟨1⟩) none (some ⟨0⟩))
      (Scripted.mk #[] 0) = .ok (wallRow (some ⟨1⟩) none (some ⟨1⟩), Scripted.mk #[] 0) := rfl
  refine ⟨wallConfig_compile, by decide, wallCatalog_determined, run, ?_, again _ _ _ full _, part, ?_⟩
  · rcases lists _ _ members (Scripted.mk #[] 0) (Counted.mk (Scripted.mk #[] 0) 0) with ⟨failed, -⟩ | ⟨k, first, second⟩
    · exact nomatch failed.symm.trans run
    · cases first.symm.trans run
      exact second
  · rcases passes _ _ _ _ part (Counted.mk (Scripted.mk #[] 0) 0) (Counted.mk (Scripted.mk #[] 0) 0) with
      ⟨-, failed⟩ | ⟨k, first, second⟩
    · exact nomatch failed
    · cases first
      exact second

end Tilework
