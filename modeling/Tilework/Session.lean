import Tilework.Catalog.Load
import Tilework.Project
import Tilework.Store

namespace Tilework

def Catalog.load {m : Type → Type} [Monad m] [Files m] (path : String) :
    Faulting m (Except LoadError Catalog) := do
  match ← (Files.readText? path : m (Option String)) with
  | none => return .error .io
  | some text => Catalog.ofText text

structure Session (σ : Type) where
  catalogPath : String
  catalog : Catalog
  store : Store
  draws : σ

namespace Session

variable {σ : Type}

def resize (s : Session σ) (size offset : Vec) : Checked (Option (Session σ)) := do
  let resized ← s.store.resize size offset
  return resized.map fun store => { s with store := store }

section Drawing

variable [DrawSource σ]

def edit (s : Session σ) (change : Catalog → Grid → Drawing σ Grid) : Checked (Session σ) := do
  let (store, draws) ← (s.store.edit (change s.catalog)).run s.draws
  return { s with store := store, draws := draws }

def place (s : Session σ) (p : Vec) (tile : Nat) : Checked (Session σ) := s.edit fun c g => g.place c p tile

def paste (s : Session σ) (brush : Brush) (offset : Vec) : Checked (Session σ) :=
  s.edit fun c g => g.paste c brush offset

def erase (s : Session σ) (a b : Vec) (filter : Filter) : Checked (Session σ) :=
  s.edit fun c g => g.erase c a b filter

def retile (s : Session σ) : Checked (Session σ) := s.edit fun c g => Tilework.retile c g

def rebind (s : Session σ) (new : Catalog) : Checked (Session σ) := do
  let (store, draws) ← (s.store.rebind s.catalog new).run s.draws
  return { s with catalog := new, store := store, draws := draws }

end Drawing

section Files

variable {m : Type → Type} [Monad m] [Files m]

def ofCatalog (p : Project) (c : Catalog) (draws : σ) : Faulting m (Session σ) := do
  let store ← Store.openAt c p.mapPath p.defaultSize p.compress
  return ⟨p.catalogPath, c, store, draws⟩

def start (p : Project) (draws : σ) : Faulting m (Except LoadError (Session σ)) := do
  match ← Catalog.load p.catalogPath with
  | .error e => return .error e
  | .ok c =>
    let s ← ofCatalog p c draws
    return .ok s

def reload [DrawSource σ] (s : Session σ) : Faulting m (Except LoadError (Session σ)) := do
  match ← Catalog.load s.catalogPath with
  | .error e => return .error e
  | .ok c =>
    let s ← s.rebind c
    return .ok s

def save (s : Session σ) (f : Format) : m Bool := s.store.save s.catalog f

def load (s : Session σ) (f : Format) : Faulting m (Except ArchiveError (Session σ)) := do
  let loaded ← s.store.load s.catalog f
  return loaded.map fun store => { s with store := store }

end Files

end Session

end Tilework
