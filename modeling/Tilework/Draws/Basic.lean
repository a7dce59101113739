import Tilework.Fault
import Tilework.Number.Single

namespace Tilework

class DrawSource (σ : Type) where
  draw : σ → Single × σ

/-- A computation that may take draws and may end in a fault. -/
abbrev Drawing (σ : Type) := StateT σ Checked

def nextDraw {σ : Type} [DrawSource σ] : Drawing σ Single := fun source => .ok (DrawSource.draw source)

/-- Draws that are given beforehand and start over at their end. -/
structure Scripted where
  draws : Array Single
  next : Nat := 0
  deriving Repr

namespace Scripted

def draw (s : Scripted) : Single × Scripted :=
  ((s.draws[s.next % s.draws.size]?).getD Single.zero, { s with next := s.next + 1 })

instance : DrawSource Scripted := ⟨draw⟩

end Scripted

end Tilework
