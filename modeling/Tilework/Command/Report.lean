import Tilework.Catalog.Basic
import Tilework.Store

namespace Tilework

def unlines (lines : List String) : String := String.join (lines.map fun line => line ++ "\n")

def Catalog.namesOn (c : Catalog) (layer : Layer) : List String :=
  (c.tilesOn layer).filterMap fun i => (c.tiles[i]?).map Tile.name

def Catalog.report (c : Catalog) : List String :=
  [toString c.tiles.size ++ " tiles, " ++ toString c.infos.size ++ " variants, " ++ toString c.groups.size ++
      " groups, " ++ toString c.flags.size ++ " flags",
    "autotiling range " ++ toString c.range ++ ", texture footprint " ++ toString c.footprintLow ++ " .. " ++
      toString c.footprintHigh] ++
    (Layer.all.map fun layer => "  " ++ toString layer ++ ": " ++ ", ".intercalate (c.namesOn layer)) ++
    c.groups.toList.map fun group => "  group " ++ group.name ++ ": " ++ ", ".intercalate group.tiles.toList

def Origin.name : Origin → String
  | compact => "Compact"
  | text => "Text"
  | blank => "Blank"

def Grid.countOn (g : Grid) (layer : Layer) : Nat := (g.layerIds layer).countP Option.isSome

def Store.report (s : Store) : List String :=
  ("map " ++ s.path ++ " (" ++ s.origin.name ++ "), size " ++ toString s.grid.size) ::
    Layer.all.map fun layer => "  " ++ toString layer ++ ": " ++ toString (s.grid.countOn layer) ++ " cells"

end Tilework
