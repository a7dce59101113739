import Tilework.Proofs.Autotile.Blind

namespace Tilework

/-- `h` is `g` with other variants of the same tiles, in none but the cells that `reach` holds of. -/
structure Grid.Revaried (c : Catalog) (reach : Vec → Prop) (g h : Grid) : Prop where
  size : h.size = g.size
  slots : ∀ p layer, g.Contains p → SlotsAlike c ((g.cellAt p).get layer) ((h.cellAt p).get layer)
  frame : ∀ p, g.Contains p → ¬reach p → h.cellAt p = g.cellAt p

namespace Grid.Revaried

variable {c : Catalog} {reach other : Vec → Prop} {g h k : Grid}

theorem sameTiles (revaried : g.Revaried c reach h) : g.SameTiles c h := sameTiles_iff.mpr ⟨revaried.size, revaried.slots⟩

theorem of_sameTiles (same : g.SameTiles c h) (frame : ∀ p, g.Contains p → ¬reach p → h.cellAt p = g.cellAt p) :
    g.Revaried c reach h :=
  ⟨same.1, (sameTiles_iff.mp same).2, frame⟩

theorem refl (c : Catalog) (reach : Vec → Prop) (g : Grid) : g.Revaried c reach g :=
  of_sameTiles (SameTiles.refl c g) fun _ _ _ => rfl

theorem trans (first : g.Revaried c reach h) (second : h.Revaried c reach k) : g.Revaried c reach k := by
  refine of_sameTiles (first.sameTiles.trans second.sameTiles) ?_
  intro p inside outside
  rw [second.frame p ((contains_congr first.size).mpr inside) outside, first.frame p inside outside]

theorem mono (revaried : g.Revaried c reach h) (wider : ∀ p, reach p → other p) : g.Revaried c other h :=
  ⟨revaried.size, revaried.slots, fun p inside outside => revaried.frame p inside fun held => outside (wider p held)⟩

theorem update {p : Vec} {cell : Cell} (inside : g.Contains p) (alike : Cell.Alike c cell (g.cellAt p)) :
    g.Revaried c (· = p) (g.update p fun _ => cell) :=
  of_sameTiles (SameTiles.update inside alike) fun _ contains ne => cellAt_update_of_ne inside contains _ ne

end Grid.Revaried

def Rect.grownBy (r : Rect) (margin : Vec) : Rect := ⟨r.pos - margin, r.size + margin.scale 2⟩

section Frame

variable {c : Catalog} {σ : Type} [DrawSource σ]

theorem evaluate_ends_alike (intact : c.Intact) (numbered : c.Numbered) (g : Grid) (p : Vec) :
    (evaluate c g p : Drawing σ Cell).Ends (· = .overflow) fun cell => Cell.Alike c cell (g.cellAt (g.closest p)) := by
  intro s
  rcases intact.evaluate_ends g p s with overflow | ⟨cell, t, done⟩
  · exact .inl ⟨.overflow, rfl, overflow⟩
  · exact .inr ⟨(cell, t), done, evaluate_alike numbered done⟩

theorem retileCell_ends (intact : c.Intact) (numbered : c.Numbered) (g : Grid) (p : Vec) :
    (retileCell c g p : Drawing σ Grid).Ends (· = .overflow) (g.Revaried c (· = p)) := by
  by_cases inside : g.Contains p
  · rw [retileCell_eq inside]
    refine (evaluate_ends_alike intact numbered g p).bind fun cell alike => .pure ?_
    rw [Grid.closest_of_contains inside] at alike
    exact .update inside alike
  · rw [retileCell, if_neg inside]
    exact .pure (.refl c _ g)

theorem retileCells_ends (intact : c.Intact) (numbered : c.Numbered) (g : Grid) (positions : List Vec) :
    (retileCells c g positions : Drawing σ Grid).Ends (· = .overflow) (g.Revaried c (· ∈ positions)) := by
  refine .foldlM (.refl c _ g) ?_
  intro h p member sofar
  refine (retileCell_ends intact numbered h p).mono fun k step => sofar.trans (step.mono ?_)
  rintro q rfl
  exact member

theorem Rect.intersect_ends (r s : Rect) :
    Ends (· = .overflow) (r.intersect s) fun common => r.intersect s = .ok common := by
  have ends : Ends (· = .overflow) (r.intersect s) fun _ => True :=
    (Vec.fit_ends _).bind fun _ _ => (Vec.fit_ends _).bind fun _ _ => (Vec.fit_ends _).bind fun _ _ => .ok trivial
  exact ends.strengthen fun common cut => cut

theorem visited_ends (c : Catalog) (g : Grid) (region : Rect) :
    Ends (· = .overflow) (visited c g region) fun positions => ∀ p ∈ positions, (region.grownBy c.range).Holds p := by
  have grow : Ends (· = .overflow) (region.expand c.range) fun _ => True :=
    (Vec.fit_ends _).bind fun _ _ => (Vec.fit_ends _).bind fun _ _ => (Vec.fit_ends _).bind fun _ _ => .ok trivial
  have ends : Ends (· = .overflow) (visited c g region) fun _ => True :=
    grow.bind fun grown _ => (grown.intersect_ends g.bounds).bind fun _ _ => .ok trivial
  refine ends.strengthen ?_
  intro positions covered p member
  obtain ⟨grown, expanded, members⟩ := visited_eq_ok covered
  have same : grown = region.grownBy c.range := Rect.expand_eq_ok expanded
  exact same ▸ ((members p).mp member).1

end Frame

/-- Whatever is drawn, a pass ends in an overflow or leaves all but the variants of tiles in the cells that it visits.
-/
theorem passes_revary {config : Config} {c : Catalog} (compiled : config.compile = .ok c)
    (few : c.infos.size < 0x100000000) (g : Grid) {σ : Type} [DrawSource σ] :
    (∀ p, (retileCell c g p : Drawing σ Grid).Ends (· = .overflow) (g.Revaried c (· = p))) ∧
    (∀ region, (retileRegion c g region : Drawing σ Grid).Ends (· = .overflow)
      (g.Revaried c (region.grownBy c.range).Holds)) ∧
    (retile c g : Drawing σ Grid).Ends (· = .overflow) (g.Revaried c fun _ => True) := by
  obtain ⟨stages⟩ := compile_eq_ok compiled
  have numbered := stages.numbered few
  refine ⟨retileCell_ends stages.intact numbered g, ?_, ?_⟩
  · intro region
    rw [retileRegion_eq]
    refine .lift_bind (visited_ends c g region) fun positions within => ?_
    exact (retileCells_ends stages.intact numbered g positions).mono fun k revaried => revaried.mono within
  · exact (retileCells_ends stages.intact numbered g _).mono fun k revaried => revaried.mono fun _ _ => trivial

/-- The pass for the first fence does not come as far as the third one, which would not be a post after a full pass. -/
theorem passes_revary_paintedGrid :
    fenceConfig.compile = .ok fenceCatalog ∧ fenceCatalog.infos.size < 0x100000000 ∧
    (∃ k t, retileRegion fenceCatalog paintedGrid ⟨Vec.zero, Vec.one⟩ (Scripted.mk #[⟨0x3F400000⟩] 0) = .ok (k, t) ∧
      k.cellAt ⟨0, 0⟩ = { mid := some ⟨0⟩ } ∧ k.cellAt ⟨1, 1⟩ = { back := some ⟨7⟩ } ∧
      k.cellAt ⟨2, 0⟩ = { mid := some ⟨1⟩ } ∧
      paintedGrid.Revaried fenceCatalog (⟨⟨-1, -1⟩, ⟨3, 3⟩⟩ : Rect).Holds k) ∧
    retileRegion fenceCatalog paintedGrid ⟨⟨0, -2147483648⟩, Vec.one⟩ (Scripted.mk #[] 0) = .error .overflow := by
  obtain ⟨-, region, -⟩ := passes_revary (σ := Scripted) fenceConfig_compile (by decide) paintedGrid
  refine ⟨fenceConfig_compile, by decide, ?_, rfl⟩
  have run : ∃ k t, retileRegion fenceCatalog paintedGrid ⟨Vec.zero, Vec.one⟩ (Scripted.mk #[⟨0x3F400000⟩] 0) =
      .ok (k, t) ∧ k.cellAt ⟨0, 0⟩ = { mid := some ⟨0⟩ } ∧ k.cellAt ⟨1, 1⟩ = { back := some ⟨7⟩ } ∧
      k.cellAt ⟨2, 0⟩ = { mid := some ⟨1⟩ } := ⟨_, _, rfl, rfl, rfl, rfl⟩
  obtain ⟨k, t, done, first, second, third⟩ := run
  refine ⟨k, t, done, first, second, third, ?_⟩
  rcases region ⟨Vec.zero, Vec.one⟩ (Scripted.mk #[⟨0x3F400000⟩] 0) with ⟨_, -, failed⟩ | ⟨_, same, revaried⟩
  · rw [done] at failed
    cases failed
  · rw [done] at same
    cases same
    exact revaried

end Tilework
