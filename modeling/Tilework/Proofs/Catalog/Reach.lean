import Tilework.Proofs.Catalog.Numbering

namespace Tilework

def Requirement.Within (range : Vec) (r : Requirement) : Prop :=
  (r.offset.x.natAbs : Int) ≤ range.x ∧ (r.offset.y.natAbs : Int) ≤ range.y

theorem foldlM_range {requirements : List Requirement} {start last : Vec}
    (h : requirements.foldlM (fun range r => do
      let distance ← r.offset.abs.fit
      return range.max distance) start = (.ok last : Checked Vec)) :
    start.x ≤ last.x ∧ start.y ≤ last.y ∧ ∀ r ∈ requirements, r.Within last := by
  induction requirements generalizing start with
  | nil =>
    cases h
    exact ⟨Int.le_refl _, Int.le_refl _, by simp⟩
  | cons r rest ih =>
    rw [List.foldlM_cons, bind_eq_ok] at h
    obtain ⟨next, taken, h⟩ := h
    obtain ⟨distance, fits, taken⟩ := bind_eq_ok.mp taken
    obtain ⟨-, rfl⟩ := Vec.fit_eq_ok_iff.mp fits
    cases taken
    obtain ⟨x, y, others⟩ := ih h
    simp only [Vec.max, Vec.abs, Int.max_le] at x y
    refine ⟨x.1, y.1, ?_⟩
    intro s member
    rcases List.mem_cons.mp member with rfl | member
    · exact ⟨x.2, y.2⟩
    · exact others s member

namespace Catalog

/-- No rule of the catalog looks further than its range. -/
structure Reaching (c : Catalog) : Prop where
  range_x : 0 ≤ c.range.x
  range_y : 0 ≤ c.range.y
  within : ∀ {t : Nat} {tile : Tile} {rule : Rule} {r : Requirement}, c.tiles[t]? = some tile → rule ∈ tile.rules →
    r ∈ rule.requirements → r.Within c.range

end Catalog

theorem Compilation.reaching {config : Config} {c : Catalog} (stages : Compilation config c) : c.Reaching := by
  obtain ⟨x, y, covered⟩ := foldlM_range stages.range_eq
  refine ⟨x, y, ?_⟩
  intro t tile rule r ht hrule hr
  rw [stages.tiles_getElem?] at ht
  obtain ⟨before, numbered, rules, rfl, looked⟩ := exists_left_of_forall₂ stages.resolves ht
  simp only [List.mem_toArray] at hrule
  obtain ⟨i, place⟩ := List.mem_iff_getElem?.mp hrule
  obtain ⟨given, givenPlace, resolved⟩ := exists_left_of_forall₂ looked place
  obtain ⟨j, place⟩ := List.mem_iff_getElem?.mp hr
  obtain ⟨s, sPlace, found⟩ := exists_left_of_forall₂ (Rule.requirements_of_resolve resolved) place
  obtain ⟨target, rfl, -⟩ := Requirement.resolve_eq_ok found
  have member : s ∈ (numberTiles 0 stages.flagged).flatMap fun t => t.rules.toList.flatMap Rule.requirements := by
    refine List.mem_flatMap.mpr ⟨before, List.mem_of_getElem? numbered, ?_⟩
    exact List.mem_flatMap.mpr ⟨given, List.mem_of_getElem? givenPlace, List.mem_of_getElem? sPlace⟩
  exact covered s member

end Tilework
