import Tilework.Json.Value
import Tilework.Plane.Matrix

namespace Tilework.Json

inductive Unknown where
  | refuse
  | skip
  deriving DecidableEq, Repr

def memberFields? (unknown : Unknown) (declared : List String) :
    List (Option String × Json) → Option (List (Option Json))
  | [] => some (declared.map fun _ => none)
  | (none, _) :: _ => none
  | (some key, value) :: rest => do
    let found ← memberFields? unknown declared rest
    match declared.findIdx? (· == key) with
    | none => if unknown = .skip then some found else none
    | some i =>
      match found[i]? with
      | some none => some (found.set i (some value))
      | _ => none

/-- The values of the declared fields of a record, which is an object with its fields in any order, or an array of them
in their declared order, of which trailing ones may be left out. -/
def fields? (unknown : Unknown) (declared : List String) : Json → Option (List (Option Json))
  | object members => memberFields? unknown declared members
  | array items =>
    if items.length ≤ declared.length then
      some (items.map some ++ List.replicate (declared.length - items.length) none)
    else none
  | _ => none

def required? {α : Type} (read : Json → Option α) (field : Option Json) : Option α := field.bind read

def optional? {α : Type} (read : Json → Option α) (default : α) : Option Json → Option α
  | none => some default
  | some value => read value

def nullable? {α : Type} (read : Json → Option α) : Json → Option (Option α)
  | null => some none
  | value => (read value).map some

def string? : Json → Option String
  | text t => t
  | _ => none

def integerIn? (lo hi : Int) : Json → Option Int
  | number n => n.integerIn? lo hi
  | _ => none

def list? {α : Type} (read : Json → Option α) : Json → Option (List α)
  | array items => items.mapM read
  | _ => none

def coordinate? (value : Json) : Option Int := value.integerIn? Coord.least Coord.greatest

def vec? (value : Json) : Option Vec :=
  match value.list? coordinate? with
  | some [x, y] => some ⟨x, y⟩
  | _ => none

def matrix? (value : Json) : Option Matrix :=
  match value.list? vec? with
  | some [x, y] => some ⟨x, y⟩
  | _ => none

def word? (value : Json) : Option UInt32 := (value.integerIn? 0 0xFFFFFFFF).map fun n => UInt32.ofNat n.toNat

def ofInt (n : Int) : Json := number (Numeral.ofInt n)

def ofString (s : String) : Json := text (some s)

def ofVec (v : Vec) : Json := array [ofInt v.x, ofInt v.y]

def ofWord (n : UInt32) : Json := ofInt n.toNat

def ofOption {α : Type} (write : α → Json) : Option α → Json
  | none => null
  | some x => write x

end Tilework.Json
