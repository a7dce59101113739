import Tilework.Command.Run

namespace Tilework

def succeeds (operation : IO Unit) : IO Bool := do
  try
    operation
    return true
  catch _ =>
    return false

def result? {α : Type} (operation : IO α) : IO (Option α) := do
  try
    let a ← operation
    return some a
  catch _ =>
    return none

def make (path : String) : IO Making := do
  try
    IO.FS.createDir path
    return .made
  catch
    | .noFileOrDirectory .. => return .lacking
    | _ => return .refused

def canOpen (path : String) : IO Bool := succeeds do
  let _ ← IO.FS.Handle.mk path .read

instance : Files IO where
  read? path := do
    let content ← result? (IO.FS.readBinFile path)
    return content.map fun bytes => bytes.toList
  write path bytes := succeeds (IO.FS.writeBinFile path (ByteArray.mk bytes.toArray))
  isPresent path := canOpen path
  isDirectory path := canOpen (path ++ "/.")
  makeDirectory := make

end Tilework

def main (arguments : List String) : IO UInt32 := do
  let seed ← IO.rand 0 0x7FFFFFFF
  let unseeded := Tilework.Xoshiro.ofSeed (UInt64.ofNat seed)
  let ending ← (Tilework.Command.execute unseeded arguments : IO Tilework.Command.Ending)
  IO.print ending.output
  match ending.error with
  | some line => IO.eprintln line
  | none => pure ()
  return UInt32.ofNat ending.code
