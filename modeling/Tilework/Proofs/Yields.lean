import Tilework.Proofs.Checked

namespace Tilework

variable {σ α β : Type}

def Yields (x : Checked α) (P : α → Prop) : Prop := ∃ a, x = .ok a ∧ P a

namespace Yields

variable {x : Checked α} {f : α → Checked β} {P R : α → Prop} {Q : β → Prop}

theorem ok {a : α} (met : P a) : Yields (.ok a) P := ⟨a, rfl, met⟩

theorem mono (yields : Yields x P) (weaker : ∀ a, P a → R a) : Yields x R := by
  obtain ⟨a, done, met⟩ := yields
  exact ⟨a, done, weaker a met⟩

theorem bind (yields : Yields x P) (next : ∀ a, P a → Yields (f a) Q) : Yields (x >>= f) Q := by
  obtain ⟨a, rfl, met⟩ := yields
  exact next a met

theorem bind_ok {a : α} (done : x = .ok a) (next : Yields (f a) Q) : Yields (x >>= f) Q := by
  subst done
  exact next

end Yields

/-- The computation ends in one of the faults, or there is a result and it meets the condition. -/
def Ends (faults : Fault → Prop) (x : Checked α) (P : α → Prop) : Prop :=
  (∃ cause, faults cause ∧ x = .error cause) ∨ Yields x P

namespace Ends

variable {faults : Fault → Prop} {x : Checked α} {f : α → Checked β} {P : α → Prop} {Q : β → Prop}

theorem ok {a : α} (met : P a) : Ends faults (.ok a) P := .inr (.ok met)

theorem bind (ends : Ends faults x P) (next : ∀ a, P a → Ends faults (f a) Q) : Ends faults (x >>= f) Q := by
  rcases ends with ⟨cause, listed, rfl⟩ | ⟨a, rfl, met⟩
  · exact .inl ⟨cause, listed, rfl⟩
  · exact next a met

theorem bind_ok {a : α} (done : x = .ok a) (next : Ends faults (f a) Q) : Ends faults (x >>= f) Q := by
  subst done
  exact next

theorem mono {R : α → Prop} (ends : Ends faults x P) (weaker : ∀ a, P a → R a) : Ends faults x R :=
  ends.imp_right fun yields => yields.mono weaker

theorem widen {more : Fault → Prop} (ends : Ends faults x P) (wider : ∀ cause, faults cause → more cause) :
    Ends more x P := by
  rcases ends with ⟨cause, listed, failed⟩ | yields
  · exact .inl ⟨cause, wider cause listed, failed⟩
  · exact .inr yields

theorem strengthen {R : α → Prop} (ends : Ends faults x P) (more : ∀ a, x = .ok a → R a) : Ends faults x R := by
  rcases ends with fault | ⟨a, done, -⟩
  · exact .inl fault
  · exact .inr ⟨a, done, more a done⟩

theorem foldlM {f : β → α → Checked β} {items : List α} {start : β} (first : Q start)
    (step : ∀ b a, a ∈ items → Q b → Ends faults (f b a) Q) : Ends faults (items.foldlM f start) Q := by
  induction items generalizing start with
  | nil => exact ok first
  | cons item rest ih =>
    rw [List.foldlM_cons]
    refine (step start item (by simp) first).bind fun next met => ih met ?_
    intro b a member
    exact step b a (by simp [member])

theorem yields (ends : Ends (fun _ => False) x P) : Yields x P := by
  rcases ends with ⟨_, none, -⟩ | yields
  · exact none.elim
  · exact yields

end Ends

theorem Yields.foldlM {f : β → α → Checked β} {items : List α} {start : β} {Q : β → Prop} (first : Q start)
    (step : ∀ b a, a ∈ items → Q b → Yields (f b a) Q) : Yields (items.foldlM f start) Q :=
  Ends.yields (.foldlM first fun b a member met => .inr (step b a member met))

namespace Drawing

def Yields (x : Drawing σ α) (P : α → Prop) : Prop := ∀ s, Tilework.Yields (x s) fun r => P r.1

namespace Yields

variable {x : Drawing σ α} {f : α → Drawing σ β} {P R : α → Prop} {Q : β → Prop}

theorem pure {a : α} (met : P a) : Yields (pure a : Drawing σ α) P := fun _ => .ok met

theorem lift {x : Checked α} (yields : Tilework.Yields x P) : Yields (liftM x : Drawing σ α) P :=
  fun _ => yields.bind fun _ met => .ok met

theorem mono (yields : Yields x P) (weaker : ∀ a, P a → R a) : Yields x R :=
  fun s => (yields s).mono fun r => weaker r.1

theorem bind (yields : Yields x P) (next : ∀ a, P a → Yields (f a) Q) : Yields (x >>= f) Q :=
  fun s => (yields s).bind fun r met => next r.1 met r.2

theorem lift_bind {x : Checked α} (yields : Tilework.Yields x P) (next : ∀ a, P a → Yields (f a) Q) :
    Yields (liftM x >>= f) Q :=
  (lift yields).bind next

theorem exists_ok (yields : Yields x P) (s : σ) : ∃ a t, x s = .ok (a, t) ∧ P a := by
  obtain ⟨⟨a, t⟩, done, met⟩ := yields s
  exact ⟨a, t, done, met⟩

end Yields

/-- Whatever is drawn, the computation ends in one of the faults or there is a result that meets the condition. -/
def Ends (faults : Fault → Prop) (x : Drawing σ α) (P : α → Prop) : Prop :=
  ∀ s, Tilework.Ends faults (x s) fun r => P r.1

namespace Ends

variable {faults : Fault → Prop} {x : Drawing σ α} {f : α → Drawing σ β} {P : α → Prop} {Q : β → Prop}

theorem pure {a : α} (met : P a) : Ends faults (pure a : Drawing σ α) P := fun _ => .ok met

theorem of_yields (yields : Yields x P) : Ends faults x P := fun s => .inr (yields s)

theorem bind (ends : Ends faults x P) (next : ∀ a, P a → Ends faults (f a) Q) : Ends faults (x >>= f) Q :=
  fun s => (ends s).bind fun r met => next r.1 met r.2

theorem lift_bind {x : Checked α} (ends : Tilework.Ends faults x P) (next : ∀ a, P a → Ends faults (f a) Q) :
    Ends faults (liftM x >>= f) Q :=
  fun s => (ends.bind fun _ met => .ok met : Tilework.Ends faults ((liftM x : Drawing σ α) s) fun r => P r.1).bind
    fun r met => next r.1 met r.2

theorem yields (ends : Ends (fun _ => False) x P) : Yields x P := fun s => (ends s).yields

theorem mono {R : α → Prop} (ends : Ends faults x P) (weaker : ∀ a, P a → R a) : Ends faults x R :=
  fun s => (ends s).mono fun r => weaker r.1

theorem of_eq_ok {s t : σ} {a : α} (ends : Ends faults x P) (done : x s = .ok (a, t)) : P a := by
  rcases ends s with ⟨_, -, failed⟩ | ⟨_, same, met⟩
  · cases done.symm.trans failed
  · cases done.symm.trans same
    exact met

theorem foldlM {f : β → α → Drawing σ β} {items : List α} {start : β} (first : Q start)
    (step : ∀ b a, a ∈ items → Q b → Ends faults (f b a) Q) : Ends faults (items.foldlM f start) Q := by
  induction items generalizing start with
  | nil => exact pure first
  | cons item rest ih =>
    rw [List.foldlM_cons]
    refine (step start item (by simp) first).bind fun next met => ih met ?_
    intro b a member
    exact step b a (by simp [member])

end Ends

theorem Yields.foldlM {f : β → α → Drawing σ β} {items : List α} {start : β} {Q : β → Prop} (first : Q start)
    (step : ∀ b a, a ∈ items → Q b → Yields (f b a) Q) : Yields (items.foldlM f start) Q :=
  Ends.yields (.foldlM first fun b a member met => .of_yields (step b a member met))

end Drawing

end Tilework
