import Tilework.Command.Invocation
import Tilework.Command.Report
import Tilework.Session

namespace Tilework.Command

inductive Failure where
  | project (path : String)
  | catalog (path : String)
  | textExport
  | saving (path : String)
  | unknownTile (name : String)
  | outside (pos size : Vec)
  | unusableSize (size : Vec)
  | fault (cause : Fault)
  deriving DecidableEq, Repr

def Failure.message : Failure → String
  | project path => "Reading " ++ path
  | catalog path => "Compiling " ++ path
  | textExport => "Reading the text export"
  | saving path => "Writing " ++ path
  | unknownTile name => "no tile named `" ++ name ++ "` in the catalog"
  | outside pos size => toString pos ++ " is outside the " ++ toString size ++ " map"
  | unusableSize size => toString size ++ " is not a usable map size"
  | fault cause => cause.message

/-- What an action does to a session: nothing, or a change after which the map is saved in a form. -/
inductive Effect (σ : Type) where
  | unchanged
  | save (s : Session σ) (f : Format)

abbrev Running (m : Type → Type) := ExceptT Failure m

section Checked

def checked {α : Type} : Checked α → Except Failure α
  | .ok a => .ok a
  | .error cause => .error (.fault cause)

variable {σ : Type} [DrawSource σ]

def resized (s : Session σ) (size offset : Vec) : Except Failure (Effect σ) :=
  match cellCount? size with
  | none => throw (.unusableSize size)
  | some _ => do
    match ← checked (s.resize size offset) with
    | none => return .unchanged
    | some s => return .save s .compact

def painted (s : Session σ) (pos : Vec) (tile : String) : Except Failure (Effect σ) :=
  match s.catalog.tileIndex? tile with
  | none => throw (.unknownTile tile)
  | some i =>
    if s.store.grid.Contains pos then do
      let s ← checked (s.place pos i)
      return .save s .compact
    else throw (.outside pos s.store.grid.size)

def erased (s : Session σ) (a b : Vec) (filter : Filter) : Except Failure (Effect σ) := do
  let s ← checked (s.erase a b filter)
  return .save s .compact

def retiled (s : Session σ) : Except Failure (Effect σ) := do
  let s ← checked s.retile
  return .save s .compact

end Checked

variable {m : Type → Type} [Monad m] [Files m]

def running {α : Type} (step : Faulting m α) : Running m α := ExceptT.mk do
  let result ← step.run
  return checked result

def readProject (path : String) : Running m Project := do
  match ← (Project.load path : m (Except ProjectError Project)) with
  | .ok p => return p
  | .error _ => throw (.project path)

def compileCatalog (p : Project) : Running m Catalog := do
  match ← running (Catalog.load p.catalogPath) with
  | .ok c => return c
  | .error _ => throw (.catalog p.catalogPath)

section Drawing

variable {σ : Type} [DrawSource σ]

def startSession (p : Project) (draws : σ) : Running m (Session σ) := do
  match ← running (Session.start p draws) with
  | .ok s => return s
  | .error _ => throw (.catalog p.catalogPath)

def imported (s : Session σ) : Running m (Effect σ) := do
  match ← running (s.load .text) with
  | .ok s => return .save s .compact
  | .error _ => throw .textExport

def effect (s : Session σ) : Action → Running m (Effect σ)
  | .check | .info => return .unchanged
  | .retile => ExceptT.mk (pure (retiled s))
  | .exportText => return .save s .text
  | .importText => imported s
  | .resize size offset => ExceptT.mk (pure (resized s size offset))
  | .paint pos tile => ExceptT.mk (pure (painted s pos tile))
  | .erase a b filter => ExceptT.mk (pure (erased s a b filter))

def settle : Effect σ → Running m Unit
  | .unchanged => return ()
  | .save s f => do
    if ← (s.save f : m Bool) then
      return ()
    else
      throw (.saving (f.path s.store.path))

def act (s : Session σ) (action : Action) : Running m (List String) := do
  let change ← effect s action
  settle change
  return if action = .info then s.catalog.report ++ s.store.report else []

end Drawing

/-- Every action but a check opens a session, and the actions that change the map save it. -/
def Invocation.run (i : Invocation) (unseeded : Xoshiro) : Running m (List String) := do
  let p ← readProject i.projectPath
  if i.action = .check then
    let c ← compileCatalog p
    return c.report
  else
    let s ← startSession p (p.draws unseeded)
    act s i.action

structure Ending where
  code : Nat
  output : String
  error : Option String
  deriving DecidableEq, Repr

namespace Ending

def done (lines : List String) : Ending := ⟨0, unlines lines, none⟩

def rejected : Ending := ⟨2, "", none⟩

def failed : Failure → Ending
  | .fault _ => ⟨101, "", none⟩
  | cause => ⟨1, "", some ("Error: " ++ cause.message)⟩

end Ending

def execute (unseeded : Xoshiro) (arguments : List String) : m Ending := do
  match Invocation.ofArguments? arguments with
  | none => return .rejected
  | some i =>
    match ← (i.run unseeded : Running m (List String)).run with
    | .ok lines => return .done lines
    | .error cause => return .failed cause

end Tilework.Command
