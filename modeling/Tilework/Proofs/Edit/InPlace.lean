import Tilework.Proofs.Autotile.Confluence
import Tilework.Proofs.Autotile.Frame
import Tilework.Proofs.Edit.Readback

namespace Tilework

section Restoring

variable {c : Catalog} {g written : Grid} {area : Rect} {σ τ : Type} [DrawSource σ] [DrawSource τ] {s t : σ}

theorem Grid.decides_of_retile (determined : c.Determined) (fixed : retile c g s = .ok (g, t)) {p : Vec}
    (inside : g.Contains p) : Decides c g p (g.cellAt p) := by
  obtain ⟨-, cells⟩ := (retile_fixed_iff determined).mp fixed
  exact fun _ _ u => determined.evaluate_eq (cells p inside) u

/-- A pass over a rectangle restores the variants that were changed within it. -/
theorem retileRegion_restores (determined : c.Determined) (intact : c.Intact) (numbered : c.Numbered)
    (reaching : c.Reaching) (fixed : retile c g s = .ok (g, t)) (same : g.SameTiles c written)
    (changed : g.ChangedWithin area written) (u : τ) :
    retileRegion c written area u = .error .overflow ∨ retileRegion c written area u = .ok (g, u) := by
  rw [retileRegion_eq, Drawing.bind_apply, Drawing.lift_apply]
  rcases visited_ends c written area with ⟨_, rfl, failed⟩ | ⟨positions, covered, -⟩
  · rw [failed]
    exact .inl rfl
  · rw [covered]
    obtain ⟨grown, expanded, members⟩ := visited_eq_ok covered
    have settled : Settles c written positions g := by
      refine ⟨same.1.symm, ?_, ?_⟩
      · intro q inside _
        have contains := (Grid.contains_congr same.1).mp inside
        exact (Grid.decides_of_retile determined fixed contains).congr same.symm
      · intro q inside unvisited
        refine (changed.2 q ((Grid.contains_congr same.1).mp inside) ?_).symm
        intro held
        exact unvisited ((members q).mpr ⟨held.expand reaching.range_x reaching.range_y expanded, inside⟩)
    rcases retileCells_settles determined intact numbered written positions u with ⟨failed, -⟩ | ⟨k, done, own⟩
    · exact .inl failed
    · obtain rfl := own.unique settled fun _ => Iff.rfl
      exact .inr done

end Restoring

/-- What the catalog does not know is not part of a brush and so stays where it is. -/
theorem Catalog.Numbered.occupant_of_reset {c : Catalog} (numbered : c.Numbered) {slot kept : Option TileId}
    (reset : resetSlot c slot = .ok kept) : (kept.or slot).map c.occupant = slot.map c.occupant := by
  cases slot with
  | none =>
    cases reset
    rfl
  | some id =>
    rw [resetSlot, resetId] at reset
    cases known : c.info? id with
    | none =>
      rw [known] at reset
      cases reset
      rfl
    | some info =>
      rw [known] at reset
      obtain ⟨variant, default, reset⟩ := bind_eq_ok.mp reset
      cases reset
      obtain ⟨tile, found, place⟩ := defaultVariant_eq_ok default
      have same : c.occupant variant.id = c.occupant id := by
        rw [occupant_of_info (numbered.info_of_variant found place), occupant_of_info known]
      exact congrArg some same

namespace Grid

variable {c : Catalog} {g written : Grid} {a b : Vec} {filter : Filter} {brush : Brush}

theorem grab_contains (grabbed : g.grab c a b filter = .ok (some brush)) {p : Vec} (inside : brush.grid.Contains p) :
    g.Contains (p + (a.min b).max Vec.zero) := by
  obtain ⟨area, corner, covers, size, -⟩ := grab_eq_ok grabbed
  have held : area.Holds (p + area.pos) := by
    simp only [Contains, Vec.Within, size] at inside
    simp only [Rect.Holds, Vec.add_x, Vec.add_y]
    omega
  rw [← corner]
  exact ((covers _).mp held).2

theorem overlay_grabbed (grabbed : g.grab c a b filter = .ok (some brush)) :
    Yields (g.overlay brush ((a.min b).max Vec.zero)) fun h => h.size = g.size := by
  refine (g.overlay_size_ends fun p inside => ?_).yields
  rw [Vec.fit_of_fits (grab_contains grabbed inside).fits]
  exact .ok trivial

theorem overlay_sameTiles (numbered : c.Numbered) (grabbed : g.grab c a b filter = .ok (some brush))
    (stamped : g.overlay brush ((a.min b).max Vec.zero) = .ok written) : g.SameTiles c written := by
  refine ⟨(overlay_changedWithin stamped).1, ?_⟩
  intro q inside layer
  rw [overlay_get inside stamped]
  have slot := grab_slotAt grabbed (q - (a.min b).max Vec.zero) layer
  rw [Vec.add_sub_cancel] at slot
  split at slot
  · exact (numbered.occupant_of_reset slot).symm
  · rw [← Except.ok.inj slot, Option.none_or]

end Grid

/-- An area that is picked up and pasted where it was taken from leaves a grid as it is that a full pass leaves as it
is. No draw is taken for it, whatever the source. -/
theorem paste_in_place {config : Config} {c : Catalog} (compiled : config.compile = .ok c)
    (few : c.infos.size < 0x100000000) (determined : c.Determined) {σ τ : Type} [DrawSource σ] [DrawSource τ] {g : Grid}
    {s t : σ} (fixed : retile c g s = .ok (g, t)) {a b : Vec} {filter : Filter} {brush : Brush}
    (grabbed : g.grab c a b filter = .ok (some brush)) (u : τ) :
    g.paste c brush ((a.min b).max Vec.zero) u = .error .overflow ∨
      g.paste c brush ((a.min b).max Vec.zero) u = .ok (g, u) := by
  obtain ⟨stages⟩ := compile_eq_ok compiled
  have numbered := stages.numbered few
  obtain ⟨written, stamped, -⟩ := Grid.overlay_grabbed grabbed
  rw [Grid.paste, stamped, Drawing.lift_ok_bind]
  exact retileRegion_restores determined stages.intact numbered stages.reaching fixed
    (Grid.overlay_sameTiles numbered grabbed stamped) (Grid.overlay_changedWithin stamped) u

/-- The corners reach beyond the map. The id in the middle is not one of the catalog and so not on the brush. The wall on
the right, which sees itself at the border of the map, is alone on the brush. -/
theorem paste_in_place_wallRow :
    wallConfig.compile = .ok wallCatalog ∧ wallCatalog.infos.size < 0x100000000 ∧ wallCatalog.Determined ∧
    retile wallCatalog (wallRow (some ⟨0⟩) (some ⟨7⟩) (some ⟨1⟩)) (Scripted.mk #[] 0) =
      .ok (wallRow (some ⟨0⟩) (some ⟨7⟩) (some ⟨1⟩), Scripted.mk #[] 0) ∧
    (wallRow (some ⟨0⟩) (some ⟨7⟩) (some ⟨1⟩)).grab wallCatalog ⟨5, -3⟩ ⟨1, 2⟩ (.only .back) =
      .ok (some ⟨⟨⟨2, 1⟩, #[{}, { back := some ⟨0⟩ }], rfl⟩⟩) ∧
    (wallRow (some ⟨0⟩) (some ⟨7⟩) (some ⟨1⟩)).paste wallCatalog ⟨⟨⟨2, 1⟩, #[{}, { back := some ⟨0⟩ }], rfl⟩⟩ ⟨1, 0⟩
      (Counted.mk (Scripted.mk #[] 0) 0) =
        .ok (wallRow (some ⟨0⟩) (some ⟨7⟩) (some ⟨1⟩), Counted.mk (Scripted.mk #[] 0) 0) := by
  have fixed : retile wallCatalog (wallRow (some ⟨0⟩) (some ⟨7⟩) (some ⟨1⟩)) (Scripted.mk #[] 0) =
      .ok (wallRow (some ⟨0⟩) (some ⟨7⟩) (some ⟨1⟩), Scripted.mk #[] 0) := rfl
  have grabbed : (wallRow (some ⟨0⟩) (some ⟨7⟩) (some ⟨1⟩)).grab wallCatalog ⟨5, -3⟩ ⟨1, 2⟩ (.only .back) =
      .ok (some ⟨⟨⟨2, 1⟩, #[{}, { back := some ⟨0⟩ }], rfl⟩⟩) := rfl
  refine ⟨wallConfig_compile, by decide, wallCatalog_determined, fixed, grabbed, ?_⟩
  rcases paste_in_place wallConfig_compile (by decide) wallCatalog_determined fixed grabbed
    (Counted.mk (Scripted.mk #[] 0) 0) with failed | done
  · exact nomatch failed
  · exact done

end Tilework
