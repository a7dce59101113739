import Tilework.Draws.Xoshiro
import Tilework.Files.Basic
import Tilework.Toml.Document

namespace Tilework

structure Project where
  catalogPath : String := "tiling.json"
  mapPath : String := "map.tsm"
  compress : Bool := true
  defaultSize : Vec := ⟨10, 10⟩
  seed : Option UInt64 := none
  deriving DecidableEq, Repr

inductive ProjectError where
  | io
  | parse
  deriving DecidableEq, Repr

namespace Project

open Toml (Value)

def standardPath : String := "tessera.toml"

def orDefault {α : Type} (read : Value → Option α) (default : α) : Option Value → Option α
  | none => some default
  | some v => read v

/-- The settings of these names, in their order: by name in a table, by position in an array. A date has
none. -/
def settings? (names : List String) : Value → Option (List (Option Value))
  | .table _ entries => some (names.map fun name => entries.lookup name)
  | .array items => some (names.mapIdx fun i _ => items[i]?)
  | .tables elements => some (names.mapIdx fun i _ => (elements[i]?).map (.table .header))
  | .date => some (names.map fun _ => none)
  | _ => none

def text? : Value → Option String
  | .string text => some text
  | _ => none

def boolean? : Value → Option Bool
  | .boolean b => some b
  | _ => none

def coordinate? : Value → Option Int
  | .integer n => if Coord.Fits n then some n else none
  | _ => none

def vec? : Value → Option Vec
  | .array (x :: y :: _) => do
    let x ← coordinate? x
    let y ← coordinate? y
    return ⟨x, y⟩
  | _ => none

def seed? : Value → Option (Option UInt64)
  | .integer n => if 0 ≤ n then some (some (UInt64.ofNat n.toNat)) else none
  | _ => none

def catalogSection? (p : Project) (v : Value) : Option Project := do
  match ← settings? ["path"] v with
  | [path] =>
    let path ← orDefault text? p.catalogPath path
    return { p with catalogPath := path }
  | _ => none

def mapSection? (p : Project) (v : Value) : Option Project := do
  match ← settings? ["path", "compress", "default_size"] v with
  | [path, compress, size] =>
    let path ← orDefault text? p.mapPath path
    let compress ← orDefault boolean? p.compress compress
    let size ← orDefault vec? p.defaultSize size
    return { p with mapPath := path, compress := compress, defaultSize := size }
  | _ => none

def autotileSection? (p : Project) (v : Value) : Option Project := do
  match ← settings? ["seed"] v with
  | [seed] =>
    let seed ← orDefault seed? p.seed seed
    return { p with seed := seed }
  | _ => none

def ofTable? (t : Toml.Table) : Option Project := do
  let p ← orDefault (catalogSection? {}) {} (t.find? "catalog")
  let p ← orDefault (mapSection? p) p (t.find? "map")
  orDefault (autotileSection? p) p (t.find? "autotile")

def parse? (text : String) : Option Project := (Toml.parse? text).bind ofTable?

def under (dir : String) (p : Project) : Project :=
  { p with catalogPath := Path.join dir p.catalogPath, mapPath := Path.join dir p.mapPath }

/-- Reads a project file. If there is none, all is left to the defaults. Its paths are taken from the
directory that it lies in. -/
def load {m : Type → Type} [Monad m] [Files m] (path : String) : m (Except ProjectError Project) := do
  if ← Files.isPresent path then
    match ← Files.readText? path with
    | none => return .error .io
    | some text =>
      match parse? text with
      | none => return .error .parse
      | some p =>
        match Path.parent? path with
        | some dir => return .ok (p.under dir)
        | none => return .ok p
  else
    return .ok {}

def draws (p : Project) (unseeded : Xoshiro) : Xoshiro :=
  match p.seed with
  | some seed => Xoshiro.ofSeed seed
  | none => unseeded

end Project

end Tilework
