import Mathlib.Data.List.Forall2
import Tilework.Draws.Basic

namespace Tilework

section Except

variable {ε α β : Type}

theorem bind_eq_ok {x : Except ε α} {f : α → Except ε β} {b : β} :
    x >>= f = .ok b ↔ ∃ a, x = .ok a ∧ f a = .ok b := by
  cases x <;> simp [bind, Except.bind]

theorem mapM_eq_ok {f : α → Except ε β} {xs : List α} {ys : List β} :
    xs.mapM f = .ok ys ↔ List.Forall₂ (fun x y => f x = .ok y) xs ys := by
  induction xs generalizing ys with
  | nil => simp [pure, Except.pure, eq_comm]
  | cons x xs ih =>
    rw [List.mapM_cons, bind_eq_ok]
    constructor
    · rintro ⟨y, first, rest⟩
      obtain ⟨tail, others, same⟩ := bind_eq_ok.mp rest
      cases same
      exact .cons first (ih.mp others)
    · rintro (_ | ⟨first, others⟩)
      exact ⟨_, first, bind_eq_ok.mpr ⟨_, ih.mpr others, rfl⟩⟩

theorem mapM_map_of_ok {γ δ : Type} {f : α → Except ε β} {f' : γ → Except ε δ} {g : α → γ} {h : β → δ} {xs : List α}
    {ys : List β} (each : ∀ a b, f a = .ok b → f' (g a) = .ok (h b)) (all : xs.mapM f = .ok ys) :
    (xs.map g).mapM f' = .ok (ys.map h) := by
  rw [mapM_eq_ok, List.forall₂_map_left_iff, List.forall₂_map_right_iff]
  exact (mapM_eq_ok.mp all).imp each

theorem foldlM_invariant {f : β → α → Except ε β} (P : β → Prop) {xs : List α} {start last : β}
    (step : ∀ b a next, a ∈ xs → P b → f b a = .ok next → P next) (first : P start)
    (h : xs.foldlM f start = .ok last) : P last := by
  induction xs generalizing start with
  | nil => cases h; exact first
  | cons x xs ih =>
    rw [List.foldlM_cons, bind_eq_ok] at h
    obtain ⟨next, taken, rest⟩ := h
    refine ih ?_ (step start x next (by simp) first taken) rest
    intro b a after member
    exact step b a after (by simp [member])

/-- What one item brings about and the others leave alone holds in the end. -/
theorem foldlM_reaches {f : β → α → Except ε β} (P Q : β → Prop) {xs : List α} {x : α} {start last : β}
    (member : x ∈ xs) (kept : ∀ b a next, P b → f b a = .ok next → P next)
    (reached : ∀ b next, P b → f b x = .ok next → Q next)
    (stays : ∀ b a next, P b → Q b → f b a = .ok next → Q next) (first : P start)
    (h : xs.foldlM f start = .ok last) : Q last := by
  obtain ⟨before, after, rfl⟩ := List.append_of_mem member
  rw [List.foldlM_append, bind_eq_ok] at h
  obtain ⟨middle, done, h⟩ := h
  rw [List.foldlM_cons, bind_eq_ok] at h
  obtain ⟨next, taken, rest⟩ := h
  have arrived : P middle := foldlM_invariant P (fun b a next _ => kept b a next) first done
  have ending : P last ∧ Q last := by
    refine foldlM_invariant (fun b => P b ∧ Q b) ?_ ⟨kept _ _ _ arrived taken, reached _ _ arrived taken⟩ rest
    rintro b a next - ⟨sofar, holds⟩ step
    exact ⟨kept b a next sofar step, stays b a next sofar holds step⟩
  exact ending.2

theorem exists_right_of_forall₂ {R : α → β → Prop} {xs : List α} {ys : List β} (h : List.Forall₂ R xs ys)
    {i : Nat} {x : α} (found : xs[i]? = some x) : ∃ y, ys[i]? = some y ∧ R x y := by
  induction h generalizing i with
  | nil => simp at found
  | cons first _ ih =>
    cases i with
    | zero =>
      cases found
      exact ⟨_, rfl, first⟩
    | succ i => exact ih found

theorem exists_left_of_forall₂ {R : α → β → Prop} {xs : List α} {ys : List β} (h : List.Forall₂ R xs ys)
    {i : Nat} {y : β} (found : ys[i]? = some y) : ∃ x, xs[i]? = some x ∧ R x y :=
  exists_right_of_forall₂ h.flip found

theorem forall₂_comp {γ : Type} {R : α → β → Prop} {S : β → γ → Prop} {T : α → γ → Prop} {xs : List α} {ys : List β}
    {zs : List γ} (both : ∀ a b c, R a b → S b c → T a c) (first : List.Forall₂ R xs ys)
    (second : List.Forall₂ S ys zs) : List.Forall₂ T xs zs := by
  induction first generalizing zs with
  | nil =>
    cases second
    exact .nil
  | cons related _ ih =>
    cases second with
    | cons next rest => exact .cons (both _ _ _ related next) (ih rest)

theorem forall₂_steps {α' β' : Type} {R : α → β → Prop} {S : α' → β' → Prop} {A : α → α' → Prop} {B : β → β' → Prop}
    {xs : List α} {ys : List β} {xs' : List α'} {ys' : List β'}
    (each : ∀ a b a' b', R a b → A a a' → B b b' → S a' b') (before : List.Forall₂ R xs ys)
    (first : List.Forall₂ A xs xs') (second : List.Forall₂ B ys ys') : List.Forall₂ S xs' ys' := by
  induction before generalizing xs' ys' with
  | nil =>
    cases first
    cases second
    exact .nil
  | cons related _ ih =>
    cases first with
    | cons left others =>
      cases second with
      | cons right rest => exact .cons (each _ _ _ _ related left right) (ih others rest)

theorem mem_iff_of_forall₂ {f : α → Option β} {xs : List α} {ys : List β}
    (found : List.Forall₂ (fun x y => f x = some y) xs ys) {y : β} : y ∈ ys ↔ ∃ x ∈ xs, f x = some y := by
  induction found with
  | nil => simp
  | cons first _ ih => rw [List.mem_cons, ih, List.exists_mem_cons_iff, first, Option.some.injEq, eq_comm]

theorem flatMap_perm_of_forall₂ {γ : Type} {R : α → β → Prop} {f : α → List γ} {g : β → List γ} {xs : List α}
    {ys : List β} (same : ∀ a b, R a b → (g b).Perm (f a)) (all : List.Forall₂ R xs ys) :
    (ys.flatMap g).Perm (xs.flatMap f) := by
  induction all with
  | nil => exact .refl _
  | cons first _ ih =>
    rw [List.flatMap_cons, List.flatMap_cons]
    exact (same _ _ first).append ih

theorem map_eq_of_forall₂ {γ : Type} {R : α → β → Prop} {f : α → γ} {g : β → γ} {xs : List α} {ys : List β}
    (same : ∀ a b, R a b → g b = f a) (all : List.Forall₂ R xs ys) : ys.map g = xs.map f := by
  induction all with
  | nil => rfl
  | cons first _ ih => rw [List.map_cons, List.map_cons, same _ _ first, ih]

theorem flatMap_zipIdx (f : α → List β) (items : List α) : (items.zipIdx.flatMap fun x => f x.1) = items.flatMap f := by
  conv_rhs => rw [← List.zipIdx_map_fst 0 items, List.flatMap_map]

theorem forall₂_of_zipIdx {R : Nat → α → β → Prop} {xs : List α} {ys : List β}
    (each : List.Forall₂ (fun x y => R x.2 x.1 y) xs.zipIdx ys) : List.Forall₂ (fun x y => ∃ i, R i x y) xs ys := by
  rw [← List.zipIdx_map_fst 0 xs, List.forall₂_map_left_iff]
  exact each.imp fun x _ related => ⟨x.2, related⟩

theorem map_zipIdx (f : α → β) (items : List α) : (items.zipIdx.map fun x => f x.1) = items.map f := by
  conv_rhs => rw [← List.zipIdx_map_fst 0 items, List.map_map]
  rfl

theorem map_filter_zipIdx (p : α → Bool) (f : α → β) (items : List α) :
    ((items.zipIdx.filter fun x => p x.1).map fun x => f x.1) = (items.filter p).map f := by
  conv_rhs => rw [← List.zipIdx_map_fst 0 items, List.filter_map, List.map_map]
  rfl

end Except

namespace Drawing

variable {σ α β : Type} {s t : σ}

theorem bind_apply (x : Drawing σ α) (f : α → Drawing σ β) (s : σ) :
    (x >>= f) s = x s >>= fun r => f r.1 r.2 := rfl

theorem bind_eq_ok {x : Drawing σ α} {f : α → Drawing σ β} {r : β × σ} :
    (x >>= f) s = .ok r ↔ ∃ a t, x s = .ok (a, t) ∧ f a t = .ok r := by
  rw [bind_apply, Tilework.bind_eq_ok]
  simp

theorem lift_apply (x : Checked α) (s : σ) :
    (liftM x : Drawing σ α) s = x >>= fun a => .ok (a, s) := rfl

theorem lift_ok_bind (a : α) (f : α → Drawing σ β) : (liftM (.ok a : Checked α) : Drawing σ α) >>= f = f a := rfl

theorem lift_error_bind (cause : Fault) (f : α → Drawing σ β) :
    (liftM (.error cause : Checked α) : Drawing σ α) >>= f = fun _ => .error cause := rfl

theorem lift_eq_ok {x : Checked α} {a : α} :
    (liftM x : Drawing σ α) s = .ok (a, t) ↔ x = .ok a ∧ s = t := by
  rw [lift_apply, Tilework.bind_eq_ok]
  simp

theorem foldlM_lift (f : β → α → Checked β) (xs : List α) (start : β) :
    (xs.foldlM (fun b a => liftM (f b a)) start : Drawing σ β) = liftM (xs.foldlM f start) := by
  induction xs generalizing start with
  | nil => rfl
  | cons x xs ih =>
    rw [List.foldlM_cons, List.foldlM_cons]
    cases taken : f start x with
    | error cause => rw [lift_error_bind]; rfl
    | ok next => rw [lift_ok_bind, ih]; rfl

theorem pure_eq_ok {a b : α} : (pure a : Drawing σ α) s = .ok (b, t) ↔ a = b ∧ s = t := by
  show Except.ok (a, s) = .ok (b, t) ↔ _
  rw [Except.ok.injEq, Prod.mk.injEq]

end Drawing

end Tilework
