import Tilework.Catalog.Compiling
import Tilework.Proofs.Checked

namespace Tilework

variable {α β : Type} {P Q : Prop}

/-- The computation comes to `a` where the condition holds, and overflows where it does not. -/
structure Exact (x : Checked α) (P : Prop) (a : α) : Prop where
  value : P → x = .ok a
  overflow : ¬P → x = .error .overflow

namespace Exact

theorem fit (a : Vec) : Exact a.fit a.Fits a := ⟨fun fits => if_pos fits, fun great => if_neg great⟩

theorem pure (a : α) : Exact (Pure.pure a) True a := ⟨fun _ => rfl, fun never => (never trivial).elim⟩

theorem bind {x : Checked α} {a : α} {f : α → Checked β} {b : β} (first : Exact x P a) (next : Exact (f a) Q b) :
    Exact (x >>= f) (P ∧ Q) b := by
  constructor
  · rintro ⟨p, q⟩
    rw [first.value p]
    exact next.value q
  · intro none
    by_cases p : P
    · rw [first.value p]
      exact next.overflow fun q => none ⟨p, q⟩
    · rw [first.overflow p]
      rfl

theorem congr {x : Checked α} {a : α} (exact : Exact x P a) (same : P ↔ Q) : Exact x Q a :=
  ⟨fun q => exact.value (same.mpr q), fun none => exact.overflow fun p => none (same.mp p)⟩

theorem map {x : Checked α} {a : α} (exact : Exact x P a) (f : α → β) :
    Exact (x >>= fun a => Pure.pure (f a)) P (f a) :=
  (exact.bind (pure (f a))).congr (and_iff_left trivial)

theorem mapM {f : α → Checked β} {P : α → Prop} {g : α → β} {items : List α}
    (each : ∀ a ∈ items, Exact (f a) (P a) (g a)) : Exact (items.mapM f) (∀ a ∈ items, P a) (items.map g) := by
  induction items with
  | nil => exact (pure []).congr (by simp)
  | cons a rest ih =>
    have others := ih fun b member => each b (List.mem_cons_of_mem a member)
    rw [List.mapM_cons]
    exact ((each a (by simp)).bind (others.map (g a :: ·))).congr List.forall_mem_cons.symm

theorem foldlM {f : β → α → Checked β} {P : α → Prop} {g : β → α → β} {items : List α}
    (each : ∀ b, ∀ a ∈ items, Exact (f b a) (P a) (g b a)) (start : β) :
    Exact (items.foldlM f start) (∀ a ∈ items, P a) (items.foldl g start) := by
  induction items generalizing start with
  | nil => exact (pure start).congr (by simp)
  | cons a rest ih =>
    have others := ih (fun b c member => each b c (List.mem_cons_of_mem a member)) (g start a)
    rw [List.foldlM_cons]
    exact ((each start a (by simp)).bind others).congr List.forall_mem_cons.symm

theorem eq_ok {x : Checked α} {a b : α} (exact : Exact x P a) (h : x = .ok b) : b = a := by
  by_cases p : P
  · rw [exact.value p] at h
    exact (Except.ok.inj h).symm
  · rw [exact.overflow p] at h
    cases h

end Exact

namespace Compiling

/-- It has a result only if the condition holds, and a fault, which is an overflow, only if it does not. -/
structure Needs (x : Compiling α) (P : Prop) : Prop where
  result : ∀ {a}, x = .ok a → P
  fault : ∀ {cause}, x = .error (.fault cause) → cause = .overflow ∧ ¬P

abbrev Free (x : Compiling α) : Prop := x.Needs True

namespace Needs

theorem congr {x : Compiling α} (needs : x.Needs P) (same : P ↔ Q) : x.Needs Q := by
  constructor
  · intro a h
    exact same.mp (needs.result h)
  · intro cause h
    obtain ⟨overflow, none⟩ := needs.fault h
    exact ⟨overflow, fun q => none (same.mpr q)⟩

theorem bind {x : Compiling α} {f : α → Compiling β} (first : x.Needs P) (next : ∀ a, x = .ok a → (f a).Needs Q) :
    Needs (x >>= f) (P ∧ Q) := by
  cases done : x with
  | ok a =>
    have rest := next a done
    have p := first.result done
    constructor
    · intro b h
      exact ⟨p, rest.result h⟩
    · intro cause h
      obtain ⟨overflow, none⟩ := rest.fault h
      exact ⟨overflow, fun both => none both.2⟩
  | error e =>
    constructor
    · intro b h
      cases h
    · intro cause h
      cases h
      obtain ⟨overflow, none⟩ := first.fault done
      exact ⟨overflow, fun both => none both.1⟩

theorem after {x : Compiling α} {f : α → Compiling β} (first : x.Free) (next : ∀ a, x = .ok a → (f a).Needs Q) :
    Needs (x >>= f) Q :=
  (first.bind next).congr (iff_of_eq (true_and Q))

theorem before {x : Compiling α} {f : α → Compiling β} (first : x.Needs P) (next : ∀ a, x = .ok a → (f a).Free) :
    Needs (x >>= f) P :=
  (first.bind next).congr (and_iff_left trivial)

theorem pure (a : α) : Free (Pure.pure a) := ⟨fun _ => trivial, nofun⟩

theorem refuse (reason : Invalid) : (Compiling.refuse reason : Compiling α).Free := ⟨fun _ => trivial, nofun⟩

theorem ensure (condition : Bool) (reason : Invalid) : (Compiling.ensure condition reason).Free := by
  cases condition
  · exact refuse reason
  · exact pure ()

theorem found (reason : Invalid) (x : Option α) : (Compiling.found reason x).Free := by
  cases x with
  | none => exact refuse reason
  | some a => exact pure a

theorem distinct (reason : α → Invalid) (x : Option α) : (Compiling.distinct reason x).Free := by
  cases x with
  | none => exact pure ()
  | some a => exact refuse (reason a)

theorem lift {x : Checked α} {a : α} (exact : Exact x P a) : (liftM x : Compiling α).Needs P := by
  by_cases p : P
  · rw [exact.value p]
    exact ⟨fun _ => p, nofun⟩
  · rw [exact.overflow p]
    constructor
    · intro b h
      cases h
    · rintro cause ⟨⟩
      exact ⟨rfl, p⟩

theorem mapM {f : α → Compiling β} {P : α → Prop} {items : List α} (each : ∀ a ∈ items, (f a).Needs (P a)) :
    Needs (items.mapM f) (∀ a ∈ items, P a) := by
  induction items with
  | nil => exact (pure []).congr (by simp)
  | cons a rest ih =>
    have others := ih fun b member => each b (List.mem_cons_of_mem a member)
    rw [List.mapM_cons]
    refine ((each a (by simp)).bind fun b _ => ?_).congr List.forall_mem_cons.symm
    exact others.before fun tail _ => pure (b :: tail)

theorem mapM_free {f : α → Compiling β} {items : List α} (each : ∀ a ∈ items, (f a).Free) : Free (items.mapM f) :=
  (mapM each).congr (by simp)

end Needs

end Compiling

end Tilework
