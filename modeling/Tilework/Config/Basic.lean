import Tilework.Plane.Matrix
import Tilework.Number.Single

namespace Tilework

namespace Config

structure Group where
  name : String
  tiles : List String := []
  deriving DecidableEq, Repr

structure Variant where
  name : String
  texture : Vec
  size : Vec := Vec.one
  offset : Vec := Vec.zero
  texOffset : Vec := Vec.zero
  deriving DecidableEq, Repr

/-- A variant that a rule may choose. Outcomes without a chance share what the others leave of one. -/
structure Outcome where
  name : String
  chance : Option Single := none
  deriving DecidableEq, Repr

/-- A look at the cell `offset` away, for a tile, a group, or with an empty name for anything. -/
structure Requirement where
  name : String := ""
  offset : Vec
  deriving DecidableEq, Repr

structure Period where
  size : Vec := Vec.one
  offsets : List Vec := []
  deriving DecidableEq, Repr

/-- A template for a copy of a rule: its requirements are moved by `matrix`, and its outcomes replaced if
there are new ones. -/
structure Template where
  matrix : Matrix
  results : List Outcome := []
  deriving DecidableEq, Repr

structure Rule where
  results : List Outcome
  requires : List Requirement := []
  requiresNot : List Requirement := []
  reqVariants : List String := []
  matrices : List Matrix := []
  period : Period := {}
  duplicate : List Template := []
  deriving DecidableEq, Repr

structure Tile where
  name : String
  layer : String
  flags : List String := []
  defaultVariant : String
  displayVariant : String
  variants : List Variant
  rules : List Rule := []
  deriving DecidableEq, Repr

end Config

structure Config where
  flags : List String := []
  groups : List Config.Group := []
  tiles : List Config.Tile := []
  deriving DecidableEq, Repr

end Tilework
