import Tilework.Proofs.Autotile.Evaluate
import Tilework.Proofs.Draws.Sources

namespace Tilework

section Simulation

variable {σ τ : Type} [DrawSource σ] [DrawSource τ]

def Simulates (related : σ → τ → Prop) (outcomes : List Outcome) : Prop :=
  ∀ ⦃s t : σ⦄ ⦃u : τ⦄ ⦃outcome : Outcome⦄, related s u → chooseOutcome outcomes s = .ok (outcome, t) →
    ∃ v, chooseOutcome outcomes u = .ok (outcome, v) ∧ related t v

variable {related : σ → τ → Prop} {s t : σ} {u : τ}

omit [DrawSource σ] [DrawSource τ] in
theorem lift_simulates {α : Type} {x : Checked α} {a : α} (start : related s u)
    (h : (liftM x : Drawing σ α) s = .ok (a, t)) : (liftM x : Drawing τ α) u = .ok (a, u) ∧ related t u := by
  obtain ⟨result, rfl⟩ := Drawing.lift_eq_ok.mp h
  exact ⟨Drawing.lift_eq_ok.mpr ⟨result, rfl⟩, start⟩

variable {c : Catalog} {g : Grid} {p : Vec}

theorem refineVariant_simulates {rules : List Rule} (choices : ∀ rule ∈ rules, Simulates related rule.results)
    {candidate chosen : Nat} (start : related s u) (h : refineVariant c g p rules candidate s = .ok (chosen, t)) :
    ∃ v, refineVariant c g p rules candidate u = .ok (chosen, v) ∧ related t v := by
  induction rules generalizing candidate s u with
  | nil =>
    obtain ⟨rfl, rfl⟩ := Drawing.pure_eq_ok.mp h
    exact ⟨u, rfl, start⟩
  | cons rule rest ih =>
    have others := fun r member => choices r (List.mem_cons_of_mem rule member)
    obtain ⟨fires, s₁, tested, h⟩ := Drawing.bind_eq_ok.mp h
    obtain ⟨tested, start⟩ := lift_simulates start tested
    cases fires with
    | false =>
      obtain ⟨v, refined, last⟩ := ih others start h
      exact ⟨v, Drawing.bind_eq_ok.mpr ⟨false, u, tested, refined⟩, last⟩
    | true =>
      obtain ⟨outcome, s₂, picked, h⟩ := Drawing.bind_eq_ok.mp h
      obtain ⟨u₂, picked, next⟩ := choices rule (by simp) start picked
      obtain ⟨v, refined, last⟩ := ih others next h
      refine ⟨v, Drawing.bind_eq_ok.mpr ⟨true, u, tested, ?_⟩, last⟩
      exact Drawing.bind_eq_ok.mpr ⟨outcome, u₂, picked, refined⟩

def Catalog.Simulates (c : Catalog) (related : σ → τ → Prop) : Prop :=
  ∀ ⦃i : Nat⦄ ⦃tile : Tile⦄ ⦃rule : Rule⦄, c.tiles[i]? = some tile → rule ∈ tile.rules →
    Tilework.Simulates related rule.results

theorem evaluateId_simulates (choices : c.Simulates related) {id chosen : TileId} (start : related s u)
    (h : evaluateId c g p id s = .ok (chosen, t)) :
    ∃ v, evaluateId c g p id u = .ok (chosen, v) ∧ related t v := by
  unfold evaluateId at h ⊢
  cases known : c.info? id with
  | none =>
    simp only [known] at h
    obtain ⟨rfl, rfl⟩ := Drawing.pure_eq_ok.mp h
    exact ⟨u, rfl, start⟩
  | some info =>
    simp only [known] at h
    obtain ⟨tile, s₁, found, h⟩ := Drawing.bind_eq_ok.mp h
    have place := entryAt_eq_ok_iff.mp (Drawing.lift_eq_ok.mp found).1
    obtain ⟨found, start⟩ := lift_simulates start found
    obtain ⟨variant, s₂, refined, h⟩ := Drawing.bind_eq_ok.mp h
    obtain ⟨u₂, refined, next⟩ :=
      refineVariant_simulates (fun rule member => choices place (Array.mem_toList_iff.mp member)) start refined
    obtain ⟨entry, s₃, read, h⟩ := Drawing.bind_eq_ok.mp h
    obtain ⟨read, next⟩ := lift_simulates next read
    obtain ⟨rfl, rfl⟩ := Drawing.pure_eq_ok.mp h
    refine ⟨u₂, Drawing.bind_eq_ok.mpr ⟨tile, u, found, ?_⟩, next⟩
    refine Drawing.bind_eq_ok.mpr ⟨variant, u₂, refined, ?_⟩
    exact Drawing.bind_eq_ok.mpr ⟨entry, u₂, read, rfl⟩

theorem evaluateSlot_simulates (choices : c.Simulates related) {slot chosen : Option TileId} (start : related s u)
    (h : evaluateSlot c g p slot s = .ok (chosen, t)) :
    ∃ v, evaluateSlot c g p slot u = .ok (chosen, v) ∧ related t v := by
  cases slot with
  | none =>
    obtain ⟨rfl, rfl⟩ := Drawing.pure_eq_ok.mp h
    exact ⟨u, rfl, start⟩
  | some id =>
    obtain ⟨other, s₁, evaluated, h⟩ := Drawing.bind_eq_ok.mp h
    obtain ⟨u₁, evaluated, next⟩ := evaluateId_simulates choices start evaluated
    obtain ⟨rfl, rfl⟩ := Drawing.pure_eq_ok.mp h
    exact ⟨u₁, Drawing.bind_eq_ok.mpr ⟨other, u₁, evaluated, rfl⟩, next⟩

theorem evaluate_simulates (choices : c.Simulates related) {cell : Cell} (start : related s u)
    (h : evaluate c g p s = .ok (cell, t)) : ∃ v, evaluate c g p u = .ok (cell, v) ∧ related t v := by
  obtain ⟨s₁, s₂, front, mid, back⟩ := evaluate_eq_ok.mp h
  obtain ⟨u₁, front, first⟩ := evaluateSlot_simulates choices start front
  obtain ⟨u₂, mid, second⟩ := evaluateSlot_simulates choices first mid
  obtain ⟨u₃, back, third⟩ := evaluateSlot_simulates choices second back
  exact ⟨u₃, evaluate_eq_ok.mpr ⟨u₁, u₂, front, mid, back⟩, third⟩

end Simulation

section Sources

variable {σ τ : Type} [DrawSource σ] [DrawSource τ] {s t : σ} {c : Catalog} {g : Grid} {p : Vec}

theorem ofSource_simulates (outcomes : List Outcome) :
    Simulates (fun (s : σ) sequence => sequence = DrawSequence.ofSource s) outcomes := by
  rintro s t _ outcome rfl h
  match outcomes with
  | [] => cases h
  | [only] =>
    cases h
    exact ⟨_, rfl, rfl⟩
  | first :: second :: rest =>
    obtain ⟨pick, s₁, drawn, picked⟩ := Drawing.bind_eq_ok.mp h
    have same : DrawSource.draw s = (pick, s₁) := Except.ok.inj drawn
    obtain ⟨result, rfl⟩ := Drawing.lift_eq_ok.mp picked
    refine ⟨_, Drawing.bind_eq_ok.mpr ⟨pick, _, ?_, Drawing.lift_eq_ok.mpr ⟨result, rfl⟩⟩, rfl⟩
    rw [nextDraw, DrawSequence.draw_ofSource, same]

theorem evaluate_ofSource {cell : Cell} (h : evaluate c g p s = .ok (cell, t)) :
    evaluate c g p (DrawSequence.ofSource s) = .ok (cell, DrawSequence.ofSource t) := by
  have choices : c.Simulates fun (s : σ) sequence => sequence = DrawSequence.ofSource s := by
    intro i tile rule _ _
    exact ofSource_simulates rule.results
  obtain ⟨v, evaluated, rfl⟩ := evaluate_simulates choices rfl h
  exact evaluated

/-- Every rule has one result, so that no draw is ever taken. -/
def Catalog.Determined (c : Catalog) : Prop := ∀ tile ∈ c.tiles, ∀ rule ∈ tile.rules, rule.results.length = 1

theorem Catalog.Determined.simulates (determined : c.Determined) (u : τ) :
    c.Simulates fun (_ : σ) v => v = u := by
  intro i tile rule found member s t v outcome same h
  subst same
  obtain ⟨only, single⟩ := List.length_eq_one_iff.mp (determined tile (Array.mem_of_getElem? found) rule member)
  rw [single] at h ⊢
  obtain ⟨rfl, rfl⟩ := Drawing.pure_eq_ok.mp h
  exact ⟨v, rfl, rfl⟩

theorem Catalog.Determined.evaluate_eq (determined : c.Determined) {cell : Cell} (h : evaluate c g p s = .ok (cell, t))
    (u : τ) : evaluate c g p u = .ok (cell, u) := by
  obtain ⟨v, evaluated, rfl⟩ := evaluate_simulates (determined.simulates u) rfl h
  exact evaluated

end Sources

end Tilework
