import Tilework.Command.Arguments
import Tilework.Edit
import Tilework.Number.Decimal
import Tilework.Project

namespace Tilework.Command

inductive Action where
  | check
  | info
  | retile
  | exportText
  | importText
  | resize (size offset : Vec)
  | paint (pos : Vec) (tile : String)
  | erase (a b : Vec) (filter : Filter)
  deriving DecidableEq, Repr

structure Invocation where
  projectPath : String
  action : Action
  deriving DecidableEq, Repr

def projectOption : OptionKind := ⟨"config", some 'c', false⟩

def optionsOf (action : String) : List OptionKind :=
  if action = "resize" then [⟨"dx", none, true⟩, ⟨"dy", none, true⟩]
  else if action = "erase" then [⟨"layer", none, false⟩]
  else []

def optional? {α : Type} (read : String → Option α) (g : Given) (name : String) : Option (Option α) :=
  match g.valuesOf name with
  | [] => some none
  | [value] => (read value).map some
  | _ => none

def path? (text : String) : Option String := if text.isEmpty then none else some text

def coordinate? (text : String) : Option Int :=
  let (negative, digits) := match text.toList with
    | '-' :: digits => (true, digits)
    | '+' :: digits => (false, digits)
    | digits => (false, digits)
  if digits.isEmpty || !digits.all Char.isDigit then none
  else
    let n : Int := Decimal.digitsValue digits
    let n := if negative then -n else n
    if Coord.Fits n then some n else none

def vec? (x y : String) : Option Vec := do
  let x ← coordinate? x
  let y ← coordinate? y
  return ⟨x, y⟩

namespace Action

def resize? (g : Given) (width height : String) : Option Action := do
  let size ← vec? width height
  let dx ← optional? coordinate? g "dx"
  let dy ← optional? coordinate? g "dy"
  return resize size ⟨dx.getD 0, dy.getD 0⟩

def erase? (g : Given) (x0 y0 x1 y1 : String) : Option Action := do
  let a ← vec? x0 y0
  let b ← vec? x1 y1
  let layer ← optional? Layer.ofName? g "layer"
  return erase a b (match layer with
    | none => .all
    | some layer => .only layer)

def ofGiven? (name : String) (g : Given) : Option Action :=
  match name, g.words with
  | "check", [] => some check
  | "info", [] => some info
  | "retile", [] => some retile
  | "export-compat", [] => some exportText
  | "import-compat", [] => some importText
  | "resize", [width, height] => resize? g width height
  | "paint", [x, y, tile] => (vec? x y).map fun pos => paint pos tile
  | "erase", [x0, y0, x1, y1] => erase? g x0 y0 x1 y1
  | _, _ => none

end Action

/-- The project file may be named before or after the action, once in each place, and the latter counts. -/
def Invocation.ofArguments? (arguments : List String) : Option Invocation := do
  let leading ← Leading.ofArguments? [projectOption] none arguments
  let given ← Given.ofArguments? (projectOption :: optionsOf leading.word) none leading.rest
  let outer ← optional? path? leading.given projectOption.name
  let inner ← optional? path? given projectOption.name
  let action ← Action.ofGiven? leading.word given
  return ⟨(inner <|> outer).getD Project.standardPath, action⟩

end Tilework.Command
