import Tilework.Archive.Basic
import Tilework.Files.Basic
import Tilework.Snapshot.Text

namespace Tilework

inductive Format where
  | compact
  | text
  deriving DecidableEq, Repr, Inhabited

namespace Format

def path (f : Format) (base : String) : String :=
  match f with
  | compact => base
  | text => base ++ ".compat.json"

def encode (f : Format) (compress : Bool) (s : Snapshot) : Bytes :=
  match f with
  | compact => Archive.encode s compress
  | text => Bytes.ofText s.encodeText

def decodeText (bytes : Bytes) : Except ArchiveError Snapshot :=
  match bytes.text? with
  | none => .error .io
  | some content =>
    match Snapshot.decodeText? content with
    | none => .error .text
    | some s => .ok s

def decode (f : Format) (bytes : Bytes) : Checked (Except ArchiveError Snapshot) :=
  match f with
  | compact => Archive.decode bytes
  | text => return decodeText bytes

variable {m : Type → Type} [Monad m] [Files m]

def write (f : Format) (base : String) (compress : Bool) (s : Snapshot) : m Bool :=
  Files.save (f.path base) (f.encode compress s)

def read (f : Format) (base : String) : Faulting m (Except ArchiveError Snapshot) := do
  match ← (Files.read? (f.path base) : m (Option Bytes)) with
  | none => return .error .io
  | some bytes => f.decode bytes

end Format

end Tilework
