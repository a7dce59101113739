import Tilework.Catalog.Compile
import Tilework.Config.Reader

namespace Tilework

inductive LoadError where
  | io
  | parse
  | invalid (reason : Invalid)
  deriving DecidableEq, Repr

def LoadError.message : LoadError → String
  | io => "Failed to read catalog"
  | parse => "Failed to parse catalog"
  | invalid reason => "Invalid catalog: " ++ reason.message

/-- The compiled catalog, or the reason for which there is none. A fault of the arithmetic is neither. -/
def Config.load (config : Config) : Checked (Except LoadError Catalog) :=
  match config.compile with
  | .ok c => .ok (.ok c)
  | .error (.invalid reason) => .ok (.error (.invalid reason))
  | .error (.fault cause) => .error cause

def Catalog.ofText (text : String) : Checked (Except LoadError Catalog) :=
  match Config.parse? text with
  | none => return .error .parse
  | some config => config.load

end Tilework
