import Tilework.Draws.Basic

namespace Tilework

structure Counted (σ : Type) where
  source : σ
  count : Nat

instance {σ : Type} [DrawSource σ] : DrawSource (Counted σ) where
  draw s := ((DrawSource.draw s.source).1, ⟨(DrawSource.draw s.source).2, s.count + 1⟩)

structure DrawSequence where
  draw : Nat → Single

namespace DrawSequence

instance : DrawSource DrawSequence where
  draw s := (s.draw 0, ⟨fun n => s.draw (n + 1)⟩)

variable {σ : Type} [DrawSource σ]

def after (s : σ) : Nat → σ
  | 0 => s
  | n + 1 => after (DrawSource.draw s).2 n

def ofSource (s : σ) : DrawSequence := ⟨fun n => (DrawSource.draw (after s n)).1⟩

theorem draw_ofSource (s : σ) :
    DrawSource.draw (ofSource s) = ((DrawSource.draw s).1, ofSource (DrawSource.draw s).2) := rfl

theorem draw_ofSource_possible {possible : Single → Prop} (draws : ∀ s : σ, possible (DrawSource.draw s).1) (s : σ)
    (n : Nat) : possible ((ofSource s).draw n) := draws (after s n)

end DrawSequence

end Tilework
