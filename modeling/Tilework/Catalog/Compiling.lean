import Tilework.Catalog.Basic
import Tilework.Catalog.Invalid
import Tilework.Config.Basic

namespace Tilework

inductive CompileError where
  | invalid (reason : Invalid)
  | fault (cause : Fault)
  deriving DecidableEq, Repr

abbrev Compiling := Except CompileError

namespace Compiling

def ofChecked {α : Type} : Checked α → Compiling α
  | .ok a => .ok a
  | .error cause => .error (.fault cause)

instance : MonadLift Checked Compiling := ⟨ofChecked⟩

def refuse {α : Type} (reason : Invalid) : Compiling α := .error (.invalid reason)

def ensure (condition : Bool) (reason : Invalid) : Compiling Unit :=
  if condition then .ok () else refuse reason

def found {α : Type} (reason : Invalid) : Option α → Compiling α
  | some a => .ok a
  | none => refuse reason

def distinct {α : Type} (reason : α → Invalid) : Option α → Compiling Unit
  | some repeated => refuse (reason repeated)
  | none => .ok ()

end Compiling

end Tilework
