import Tilework.Catalog.Compiling

namespace Tilework.Compiling

variable {α β : Type} {P Q : Prop}

/-- It has a result only if the condition holds, and is refused only if it does not. -/
structure Screens (x : Compiling α) (P : Prop) : Prop where
  result : ∀ {a}, x = .ok a → P
  refusal : ∀ {reason}, x = .error (.invalid reason) → ¬P

abbrev Plain (x : Compiling α) : Prop := x.Screens True

namespace Screens

theorem congr {x : Compiling α} (screens : x.Screens P) (same : P ↔ Q) : x.Screens Q := by
  constructor
  · intro a done
    exact same.mp (screens.result done)
  · intro reason refused q
    exact screens.refusal refused (same.mpr q)

theorem bind {x : Compiling α} {f : α → Compiling β} (first : x.Screens P) (next : ∀ a, x = .ok a → (f a).Screens Q) :
    Screens (x >>= f) (P ∧ Q) := by
  cases done : x with
  | ok a =>
    have rest := next a done
    constructor
    · intro b finished
      exact ⟨first.result done, rest.result finished⟩
    · intro reason refused both
      exact rest.refusal refused both.2
  | error e =>
    constructor
    · intro b finished
      cases finished
    · intro reason refused both
      cases refused
      exact first.refusal done both.1

theorem after {x : Compiling α} {f : α → Compiling β} (first : x.Plain) (next : ∀ a, x = .ok a → (f a).Screens Q) :
    Screens (x >>= f) Q :=
  (first.bind next).congr (iff_of_eq (true_and Q))

theorem before {x : Compiling α} {f : α → Compiling β} (first : x.Screens P) (next : ∀ a, x = .ok a → (f a).Plain) :
    Screens (x >>= f) P :=
  (first.bind next).congr (and_iff_left trivial)

theorem pure (a : α) : Plain (Pure.pure a) := ⟨fun _ => trivial, nofun⟩

theorem refuse (reason : Invalid) : (Compiling.refuse reason : Compiling α).Screens False := ⟨nofun, fun _ => id⟩

theorem ensure (condition : Bool) (reason : Invalid) : (Compiling.ensure condition reason).Screens (condition = true) := by
  cases condition
  · exact (refuse reason).congr (by simp)
  · exact (pure ()).congr (by simp)

theorem found (reason : Invalid) (x : Option α) : (Compiling.found reason x).Screens (∃ a, x = some a) := by
  cases x with
  | none => exact (refuse reason).congr (by simp)
  | some a => exact (pure a).congr (by simp)

theorem distinct (reason : α → Invalid) (x : Option α) : (Compiling.distinct reason x).Screens (x = none) := by
  cases x with
  | none => exact (pure ()).congr (by simp)
  | some a => exact (refuse (reason a)).congr (by simp)

theorem lift (x : Checked α) : (liftM x : Compiling α).Plain := by
  refine ⟨fun _ => trivial, ?_⟩
  intro reason refused
  cases x <;> cases refused

theorem mapM {f : α → Compiling β} {P : α → Prop} {items : List α} (each : ∀ a ∈ items, (f a).Screens (P a)) :
    Screens (items.mapM f) (∀ a ∈ items, P a) := by
  induction items with
  | nil => exact (pure []).congr (by simp)
  | cons a rest ih =>
    have others := ih fun b member => each b (List.mem_cons_of_mem a member)
    rw [List.mapM_cons]
    refine ((each a (by simp)).bind fun b _ => ?_).congr List.forall_mem_cons.symm
    exact others.before fun tail _ => pure (b :: tail)

end Screens

end Tilework.Compiling
