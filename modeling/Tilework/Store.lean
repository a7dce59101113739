import Tilework.Edit
import Tilework.Format
import Tilework.Grid.Resize

namespace Tilework

inductive Origin where
  | compact
  /-- The text form, which was then saved in the compact one. -/
  | text
  | blank
  deriving DecidableEq, Repr, Inhabited

structure Store where
  grid : Grid
  /-- The compact file. The text file lies beside it. -/
  path : String
  compress : Bool
  origin : Origin

/-- The grid with every id replaced by the one that `new` has for its tile and variant. -/
def Grid.rename (old new : Catalog) (g : Grid) : Grid :=
  g.remap fun id => (old.info? id).bind fun info => new.id? info.tileName info.variantName

namespace Store

def ofGrid (g : Grid) (path : String) : Store := ⟨g, path, true, .blank⟩

def blankGrid (size : Vec) : Grid := (Grid.blank? size).getD Grid.standard

def resize (s : Store) (size offset : Vec) : Checked (Option Store) := do
  let resized ← s.grid.resize size offset
  return resized.map fun g => { s with grid := g }

section Drawing

variable {σ : Type} [DrawSource σ]

def edit (s : Store) (change : Grid → Drawing σ Grid) : Drawing σ Store := do
  let g ← change s.grid
  return { s with grid := g }

/-- Carries the map over to another catalog by names, and autotiles all of it. -/
def rebind (s : Store) (old new : Catalog) : Drawing σ Store :=
  s.edit fun g => Tilework.retile new (g.rename old new)

end Drawing

section Files

variable {m : Type → Type} [Monad m] [Files m]

def save (s : Store) (c : Catalog) (f : Format) : m Bool :=
  f.write s.path s.compress (Snapshot.capture s.grid c)

def load (s : Store) (c : Catalog) (f : Format) : Faulting m (Except ArchiveError Store) := do
  match ← f.read s.path with
  | .error e => return .error e
  | .ok snapshot =>
    match snapshot.restore c with
    | .error cause => return .error (.inconsistent cause)
    | .ok g => return .ok { s with grid := g }

/-- Opens the map at `path`: the compact form, else the text form, which is then saved in the compact one, else
a blank map. -/
def openAt (c : Catalog) (path : String) (defaultSize : Vec) (compress : Bool) : Faulting m Store := do
  let blank : Store := ⟨blankGrid defaultSize, path, compress, .blank⟩
  match ← blank.load c .compact with
  | .ok s => return { s with origin := .compact }
  | .error _ =>
    match ← blank.load c .text with
    | .ok s =>
      let s := { s with origin := .text }
      let _ ← (s.save c .compact : m Bool)
      return s
    | .error _ => return blank

end Files

end Store

end Tilework
