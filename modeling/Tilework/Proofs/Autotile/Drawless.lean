import Tilework.Proofs.Autotile.Simulation
import Tilework.Session

namespace Tilework

section Drawless

variable {σ α β : Type}

def Drawing.Drawless (x : Drawing σ α) : Prop := ∃ result : Checked α, x = liftM result

namespace Drawing.Drawless

theorem lift (x : Checked α) : Drawless (liftM x : Drawing σ α) := ⟨x, rfl⟩

theorem pure (a : α) : Drawless (pure a : Drawing σ α) := ⟨.ok a, rfl⟩

theorem bind {x : Drawing σ α} {f : α → Drawing σ β} (first : Drawless x) (next : ∀ a, Drawless (f a)) :
    Drawless (x >>= f) := by
  obtain ⟨result, rfl⟩ := first
  cases result with
  | error cause => exact ⟨.error cause, by rw [lift_error_bind]; rfl⟩
  | ok a => rw [lift_ok_bind]; exact next a

theorem lift_bind {x : Checked α} {f : α → Drawing σ β} (next : ∀ a, x = .ok a → Drawless (f a)) :
    Drawless (liftM x >>= f) := by
  cases x with
  | error cause => exact ⟨.error cause, by rw [lift_error_bind]; rfl⟩
  | ok a => rw [lift_ok_bind]; exact next a rfl

theorem foldlM {f : β → α → Drawing σ β} (each : ∀ b a, Drawless (f b a)) (items : List α) (start : β) :
    Drawless (items.foldlM f start) := by
  induction items generalizing start with
  | nil => exact pure start
  | cons item items ih =>
    rw [List.foldlM_cons]
    exact (each start item).bind ih

end Drawing.Drawless

end Drawless

namespace Catalog.Determined

open Drawing (Drawless)

variable {σ : Type} [DrawSource σ] {c : Catalog} {g : Grid}

theorem refineVariant_drawless {p : Vec} {rules : List Rule} (single : ∀ rule ∈ rules, rule.results.length = 1)
    (candidate : Nat) : Drawless (refineVariant c g p rules candidate : Drawing σ Nat) := by
  induction rules generalizing candidate with
  | nil => exact .pure candidate
  | cons rule rest ih =>
    have others := ih fun other member => single other (by simp [member])
    refine .lift_bind ?_
    rintro (_ | _) -
    · exact others candidate
    · obtain ⟨only, one⟩ := List.length_eq_one_iff.mp (single rule (by simp))
      rw [if_pos rfl, one]
      exact (Drawless.pure only).bind fun outcome => others outcome.variant

theorem evaluateSlot_drawless (determined : c.Determined) (p : Vec) (slot : Option TileId) :
    Drawless (evaluateSlot c g p slot : Drawing σ (Option TileId)) := by
  cases slot with
  | none => exact .pure none
  | some id =>
    refine Drawless.bind ?_ fun chosen => .pure (some chosen)
    unfold evaluateId
    cases c.info? id with
    | none => exact .pure id
    | some info =>
      refine .lift_bind ?_
      intro tile found
      have member := Array.mem_of_getElem? (entryAt_eq_ok_iff.mp found)
      refine Drawless.bind ?_ fun chosen => .lift_bind fun variant _ => .pure variant.id
      exact refineVariant_drawless (fun rule among => determined tile member rule (Array.mem_toList_iff.mp among)) _

theorem evaluate_drawless (determined : c.Determined) (p : Vec) : Drawless (evaluate c g p : Drawing σ Cell) := by
  refine .lift_bind ?_
  intro cell _
  refine (determined.evaluateSlot_drawless p cell.front).bind fun front => ?_
  refine (determined.evaluateSlot_drawless p cell.mid).bind fun mid => ?_
  exact (determined.evaluateSlot_drawless p cell.back).bind fun back => .pure (Cell.mk front mid back)

theorem retileCells_drawless (determined : c.Determined) (g : Grid) (positions : List Vec) :
    Drawless (retileCells c g positions : Drawing σ Grid) := by
  refine .foldlM ?_ positions g
  intro h p
  unfold retileCell
  split
  · exact (determined.evaluate_drawless p).bind fun cell => .lift (h.setStrict p cell)
  · exact .pure h

theorem retileRegion_drawless (determined : c.Determined) (g : Grid) (region : Rect) :
    Drawless (retileRegion c g region : Drawing σ Grid) := by
  refine .lift_bind fun grown _ => .lift_bind fun common _ => ?_
  cases common with
  | none => exact .pure g
  | some area => exact determined.retileCells_drawless g area.cells

theorem place_drawless (determined : c.Determined) (g : Grid) (p : Vec) (i : Nat) :
    Drawless (g.place c p i : Drawing σ Grid) := by
  unfold Grid.place
  split
  · refine .lift_bind fun tile _ => .lift_bind fun variant _ => .lift_bind fun written _ => ?_
    exact determined.retileRegion_drawless written ⟨p, Vec.one⟩
  · exact .pure g

theorem erase_drawless (determined : c.Determined) (g : Grid) (a b : Vec) (filter : Filter) :
    Drawless (g.erase c a b filter : Drawing σ Grid) := by
  refine .lift_bind fun corners _ => .lift_bind fun common _ => ?_
  cases common with
  | none => exact .pure g
  | some area =>
    refine Drawless.bind ?_ fun cleared => determined.retileRegion_drawless cleared area
    exact .foldlM (fun h p => .lift (h.clear p filter)) area.cells g

end Catalog.Determined

end Tilework
