import Tilework.Proofs.Autotile.Pass
import Tilework.Proofs.Catalog.Intact
import Tilework.Proofs.Plane.Moderate

namespace Tilework

section Rules

variable {c : Catalog} {g : Grid} {p : Vec}

structure Requirement.Sound (c : Catalog) (r : Requirement) : Prop where
  offset : r.offset.Moderate
  target : r.target.Exists c

theorem entryAt_yields {α : Type} {items : Array α} {i : Nat} (inside : i < items.size) :
    Yields (entryAt items i) fun item => items[i]? = some item :=
  ⟨items[i], entryAt_eq_ok_iff.mpr (Array.getElem?_eq_getElem inside), Array.getElem?_eq_getElem inside⟩

theorem Requirement.metBy_yields {r : Requirement} (target : r.target.Exists c) (cell : Cell) :
    Yields (r.metBy c cell) fun _ => True := by
  unfold metBy
  cases found : r.target with
  | any => exact .ok trivial
  | tile i =>
    rw [found] at target
    exact (entryAt_yields target).bind fun tile _ => .ok trivial
  | group i =>
    rw [found] at target
    exact (entryAt_yields target).bind fun group _ => .ok trivial

theorem Requirement.Sound.holds_yields {r : Requirement} (sound : r.Sound c) (near : p.Moderate) :
    Yields (r.holds c g p) fun _ => True := by
  have seen := near.add sound.offset
  rw [holds_eq]
  exact .bind_ok (Vec.fit_of_fits (seen.fits (by decide))) (metBy_yields sound.target _)

theorem Period.admits_yields {m : Period} (wide : 1 ≤ m.size.x) (high : 1 ≤ m.size.y) :
    Yields (m.admits p) fun _ => True := by
  unfold admits
  split
  · exact .bind_ok (Vec.remainder_of_pos wide high) (.ok trivial)
  · exact .ok trivial

theorem pickOutcome_yields (pick : Single) {outcomes : List Outcome} (some : outcomes ≠ []) :
    Yields (pickOutcome pick outcomes) fun outcome => outcome ∈ outcomes := by
  fun_induction pickOutcome pick outcomes with
  | case1 => exact absurd rfl some
  | case2 pick last => exact .ok (by simp)
  | case3 pick first rest more picked => exact .ok (by simp)
  | case4 pick first rest more passed ih =>
    refine (ih ?_).mono fun outcome member => by simp [member]
    rintro rfl
    exact more rfl

theorem chooseOutcome_yields {σ : Type} [DrawSource σ] {outcomes : List Outcome} (some : outcomes ≠ []) :
    Drawing.Yields (chooseOutcome outcomes : Drawing σ Outcome) fun outcome => outcome ∈ outcomes := by
  unfold chooseOutcome
  split
  · exact absurd rfl some
  · exact .pure (by simp)
  · intro s
    exact (pickOutcome_yields (DrawSource.draw s).1 some).bind fun outcome member => .ok member

variable {faults : Fault → Prop}

theorem allHold_ends {requirements : List Requirement}
    (each : ∀ r ∈ requirements, Ends faults (r.holds c g p) fun _ => True) :
    Ends faults (allHold c g p requirements) fun _ => True := by
  induction requirements with
  | nil => exact .ok trivial
  | cons r rest ih =>
    have others := ih fun s member => each s (by simp [member])
    refine (each r (by simp)).bind fun held _ => ?_
    cases held with
    | true => exact others
    | false => exact .ok trivial

theorem anyHolds_ends {requirements : List Requirement}
    (each : ∀ r ∈ requirements, Ends faults (r.holds c g p) fun _ => True) :
    Ends faults (anyHolds c g p requirements) fun _ => True := by
  induction requirements with
  | nil => exact .ok trivial
  | cons r rest ih =>
    have others := ih fun s member => each s (by simp [member])
    refine (each r (by simp)).bind fun held _ => ?_
    cases held with
    | true => exact .ok trivial
    | false => exact others

theorem Rule.Intact.fires_ends {rule : Rule} {variants : Nat} (intact : rule.Intact c variants)
    (each : ∀ r ∈ rule.requirements, Ends faults (r.holds c g p) fun _ => True) (candidate : Nat) :
    Ends faults (rule.fires c g p candidate) fun _ => True := by
  have wanted := allHold_ends fun r member => each r (List.mem_append_left _ member)
  have unwanted := anyHolds_ends fun r member => each r (List.mem_append_right _ member)
  unfold fires
  split
  · exact .ok trivial
  refine Ends.bind (.inr (Period.admits_yields intact.period_x intact.period_y)) fun admitted _ => ?_
  split
  · exact .ok trivial
  refine wanted.bind fun held _ => ?_
  split
  · exact .ok trivial
  exact unwanted.bind fun refused _ => .ok trivial

end Rules

def Catalog.Answers (c : Catalog) (faults : Fault → Prop) (g : Grid) (p : Vec) : Prop :=
  ∀ ⦃i : Nat⦄ ⦃tile : Tile⦄ ⦃rule : Rule⦄, c.tiles[i]? = some tile → rule ∈ tile.rules →
    ∀ r ∈ rule.requirements, Ends faults (r.holds c g p) fun _ => True

namespace Catalog.Answers

variable {c : Catalog} {faults : Fault → Prop} {g : Grid} {p : Vec} {σ : Type} [DrawSource σ]

theorem refineVariant_ends (answers : c.Answers faults g p) (intact : c.Intact) {i : Nat} {tile : Tile}
    (found : c.tiles[i]? = some tile) {rules : List Rule} (tried : ∀ rule ∈ rules, rule ∈ tile.rules) {candidate : Nat}
    (inside : candidate < tile.variants.size) :
    Drawing.Ends faults (refineVariant c g p rules candidate : Drawing σ Nat) fun chosen =>
      chosen < tile.variants.size := by
  induction rules generalizing candidate with
  | nil => exact .pure inside
  | cons rule rest ih =>
    have member := tried rule (by simp)
    have others : ∀ rule ∈ rest, rule ∈ tile.rules := fun other among => tried other (by simp [among])
    have whole := intact.rule found member
    refine .lift_bind (whole.fires_ends (answers found member) candidate) fun fired _ => ?_
    cases fired with
    | false => exact ih others inside
    | true =>
      -- Whichever outcome is drawn, it names a variant of the tile.
      refine Drawing.Ends.bind (.of_yields (chooseOutcome_yields whole.results)) fun outcome among => ?_
      exact ih others (whole.outcome outcome among)

theorem evaluateId_ends (answers : c.Answers faults g p) (intact : c.Intact) (id : TileId) :
    Drawing.Ends faults (evaluateId c g p id : Drawing σ TileId) fun _ => True := by
  unfold evaluateId
  cases known : c.info? id with
  | none => exact .pure trivial
  | some info =>
    refine .lift_bind (.inr (entryAt_yields (intact.tile_of_info known))) fun tile found => ?_
    have tried : ∀ rule ∈ tile.rules.toList, rule ∈ tile.rules := fun rule member => Array.mem_toList_iff.mp member
    refine (answers.refineVariant_ends intact found tried (intact.default found)).bind fun chosen inside => ?_
    exact .lift_bind (.inr (entryAt_yields inside)) fun variant _ => .pure trivial

theorem evaluateSlot_ends (answers : c.Answers faults g p) (intact : c.Intact) (slot : Option TileId) :
    Drawing.Ends faults (evaluateSlot c g p slot : Drawing σ (Option TileId)) fun _ => True := by
  cases slot with
  | none => exact .pure trivial
  | some id => exact (answers.evaluateId_ends intact id).bind fun chosen _ => .pure trivial

theorem evaluate_ends (answers : c.Answers faults g p) (intact : c.Intact) :
    Drawing.Ends faults (evaluate c g p : Drawing σ Cell) fun _ => True := by
  unfold evaluate
  rw [Grid.get_eq, Drawing.lift_ok_bind]
  refine (answers.evaluateSlot_ends intact _).bind fun front _ => ?_
  refine (answers.evaluateSlot_ends intact _).bind fun mid _ => ?_
  exact (answers.evaluateSlot_ends intact _).bind fun back _ => .pure trivial

end Catalog.Answers

/-- The indices of the catalog are those of entries, and its rules look no further than 2^28 in each direction. -/
structure Catalog.Sound (c : Catalog) : Prop where
  intact : c.Intact
  reaching : c.Reaching
  range : c.range.Moderate

theorem Compilation.sound {config : Config} {c : Catalog} (stages : Compilation config c) (range : c.range.Moderate) :
    c.Sound :=
  ⟨stages.intact, stages.reaching, range⟩

theorem Drawing.Yields.foldlM_size {σ α : Type} {g : Grid} {items : List α} {step : Grid → α → Drawing σ Grid}
    (each : ∀ h item, item ∈ items → h.size = g.size → Yields (step h item) fun k => k.size = h.size) :
    Yields (items.foldlM step g) fun k => k.size = g.size := by
  refine .foldlM rfl ?_
  intro h item member same
  exact (each h item member same).mono fun k kept => kept.trans same

namespace Catalog.Sound

variable {c : Catalog} {g : Grid} {p : Vec}

theorem requirement (sound : c.Sound) {i : Nat} {tile : Tile} {rule : Rule} (found : c.tiles[i]? = some tile)
    (tried : rule ∈ tile.rules) : ∀ r ∈ rule.requirements, r.Sound c := by
  intro r required
  obtain ⟨x, y⟩ := sound.reaching.within found tried required
  refine ⟨?_, (sound.intact.rule found tried).target r required⟩
  have range := sound.range
  simp only [Vec.Moderate, Vec.Bounded] at *
  omega

theorem tileAt_yields (sound : c.Sound) {i : Nat} (inside : i < c.tiles.size) :
    Yields (c.tileAt i) fun tile => c.tiles[i]? = some tile ∧ tile.defaultVariant < tile.variants.size := by
  refine (entryAt_yields inside).mono fun tile found => ?_
  exact ⟨found, sound.intact.default found⟩

theorem defaultVariant_yields (sound : c.Sound) {i : Nat} (inside : i < c.tiles.size) :
    Yields (c.defaultVariant i) fun _ => True :=
  (sound.tileAt_yields inside).bind fun _ found => (entryAt_yields found.2).mono fun _ _ => trivial

variable {σ : Type} [DrawSource σ]

theorem evaluate_yields (sound : c.Sound) (near : p.Moderate) :
    Drawing.Yields (evaluate c g p : Drawing σ Cell) fun _ => True := by
  have answers : c.Answers (fun _ => False) g p := by
    intro i tile rule found tried r required
    exact .inr ((sound.requirement found tried r required).holds_yields near)
  exact (answers.evaluate_ends sound.intact).yields

theorem retileCell_yields (sound : c.Sound) (near : p.Moderate) :
    Drawing.Yields (retileCell c g p : Drawing σ Grid) fun h => h.size = g.size := by
  unfold retileCell
  split
  · rename_i inside
    refine (sound.evaluate_yields near).bind fun cell _ => ?_
    rw [Grid.setStrict_of_contains inside]
    exact .lift (.ok rfl)
  · exact .pure rfl

theorem retileCells_yields (sound : c.Sound) {positions : List Vec} (near : ∀ p ∈ positions, p.Moderate) :
    Drawing.Yields (retileCells c g positions : Drawing σ Grid) fun h => h.size = g.size := by
  -- Each cell is evaluated in the grid as the earlier ones left it, which may hold other ids but has the same size.
  refine .foldlM_size ?_
  intro h p member _
  exact sound.retileCell_yields (near p member)

theorem retile_yields (sound : c.Sound) (extent : g.size.Moderate) :
    Drawing.Yields (retile c g : Drawing σ Grid) fun h => h.size = g.size := by
  refine sound.retileCells_yields ?_
  intro p member
  exact (Grid.mem_bounds_cells.mp member).bounded extent

theorem retileRegion_yields (sound : c.Sound) (extent : g.size.Moderate) {region : Rect}
    (pos : region.pos.Moderate) (size : region.size.Moderate) :
    Drawing.Yields (retileRegion c g region : Drawing σ Grid) fun h => h.size = g.size := by
  have corner := pos.sub sound.range
  have grown := size.add sound.range.twice
  unfold retileRegion
  rw [Rect.expand_eq pos size sound.range, Drawing.lift_ok_bind]
  refine .lift_bind (Grid.intersect_bounds_yields corner grown (extent.mono (by decide)) (by decide)) ?_
  intro common cut
  cases common with
  | none => exact .pure rfl
  | some area =>
    refine sound.retileCells_yields ?_
    intro p member
    exact ((cut area rfl).contains (Rect.mem_cells.mp member)).bounded extent

end Catalog.Sound

end Tilework
