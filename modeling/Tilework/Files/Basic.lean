import Tilework.Bytes
import Tilework.Fault
import Tilework.Files.Path

namespace Tilework

inductive Making where
  | made
  | lacking
  | refused
  deriving DecidableEq, Repr

class Files (m : Type → Type) where
  read? : String → m (Option Bytes)
  write : String → Bytes → m Bool
  isPresent : String → m Bool
  isDirectory : String → m Bool
  makeDirectory : String → m Making

/-- A computation that a fault may end. What it has done to files by then stays done. -/
abbrev Faulting (m : Type → Type) := ExceptT Fault m

namespace Files

variable {m : Type → Type} [Monad m]

instance : MonadLift Checked (Faulting m) := ⟨fun c => ExceptT.mk (pure c)⟩

variable [Files m]

/-- Makes a directory that lies in the ones listed after it, and before it those of them that it lacks. Tells
whether it is there in the end. -/
def makeNested : List String → m Bool
  | [] => return true
  | dir :: above => do
    match ← makeDirectory dir with
    | .made => return true
    | .refused => isDirectory dir
    | .lacking =>
      if ← makeNested above then
        match ← makeDirectory dir with
        | .made => return true
        | .lacking | .refused => isDirectory dir
      else
        return false

def save (path : String) (bytes : Bytes) : m Bool := do
  if ← makeNested (Path.above path) then
    write path bytes
  else
    return false

def readText? (path : String) : m (Option String) := do
  let bytes ← read? path
  return bytes.bind Bytes.text?

end Files

end Tilework
