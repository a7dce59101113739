import Tilework.Plane.Vec

namespace Tilework

inductive Fault where
  | overflow
  | divisionByZero
  | index
  | cellOutside (pos size : Vec)
  | unusableSize (size : Vec)
  | unknownId (id : UInt32)
  | noResults
  deriving DecidableEq, Repr

/-- A result, or the fault that prevented it. -/
abbrev Checked := Except Fault

namespace Fault

def message : Fault → String
  | overflow => "arithmetic overflow"
  | divisionByZero => "division by zero"
  | index => "index out of bounds"
  | cellOutside pos size => "cell " ++ toString pos ++ " is outside the " ++ toString size ++ " map"
  | unusableSize size =>
    "map size " ++ toString size ++ " must be at least 1x1 with at most " ++ toString Coord.greatest ++ " cells"
  | unknownId id => "attempt to look up tile id #" ++ toString id ++ ", which doesn't exist"
  | noResults => "compiled rules always have results"

end Fault

def entryAt {α : Type} (items : Array α) (i : Nat) : Checked α :=
  match items[i]? with
  | some item => .ok item
  | none => .error .index

theorem entryAt_eq_ok_iff {α : Type} {items : Array α} {i : Nat} {item : α} :
    entryAt items i = .ok item ↔ items[i]? = some item := by
  unfold entryAt
  cases items[i]? <;> simp

end Tilework
