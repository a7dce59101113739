import Tilework.Plane.Vec

namespace Tilework

inductive Invalid where
  | duplicateFlag (flag : String)
  | unnamedGroup
  | duplicateMember (member group : String)
  | duplicateGroup (group : String)
  | unnamedTile
  | unknownLayer (layer tile : String)
  | unnamedVariant (tile : String)
  | variantSize (variant tile : String)
  | textureRange (variant tile : String)
  | duplicateVariant (variant tile : String)
  | unknownDefault (variant tile : String)
  | unknownDisplay (variant tile : String)
  | noResults (rule : Nat) (tile : String)
  | chanceRange (rule : Nat) (tile : String)
  | chanceTotal (rule : Nat) (tile : String)
  | unknownResult (variant tile : String)
  | periodSize (rule : Nat) (tile : String)
  | noPeriodOffsets (rule : Nat) (tile : String)
  | periodOffset (offset : Vec) (rule : Nat) (tile : String)
  | unknownReqVariant (variant tile : String)
  | duplicateTile (tile : String)
  | nameCollision (tile : String)
  | unknownFlag (flag tile : String)
  | unknownMember (member group : String)
  | unknownReference (tile target : String)
  deriving DecidableEq, Repr

namespace Invalid

def message : Invalid → String
  | duplicateFlag flag => "A duplicate tile flag name `" ++ flag ++ "`."
  | unnamedGroup => "Attempt to create a tile group with an empty name."
  | duplicateMember member group => "Duplicate tile named `" ++ member ++ "` in group `" ++ group ++ "`."
  | duplicateGroup group => "A duplicate tile group named `" ++ group ++ "`."
  | unnamedTile => "Attempt to create a tile with an empty name."
  | unknownLayer layer tile => "Invalid layer `" ++ layer ++ "` for tile `" ++ tile ++ "`."
  | unnamedVariant tile => "A variant of tile `" ++ tile ++ "` has an empty name."
  | variantSize variant tile => "Variant `" ++ variant ++ "` of tile `" ++ tile ++ "` has non-positive size."
  | textureRange variant tile =>
    "Texture coordinates for variant `" ++ variant ++ "` of tile `" ++ tile ++ "` are out of range."
  | duplicateVariant variant tile => "Duplicate variant `" ++ variant ++ "` for tile `" ++ tile ++ "`."
  | unknownDefault variant tile => "Default variant `" ++ variant ++ "` for tile `" ++ tile ++ "` doesn't exist."
  | unknownDisplay variant tile => "Display variant `" ++ variant ++ "` for tile `" ++ tile ++ "` doesn't exist."
  | noResults rule tile => "Result vector of rule " ++ toString rule ++ " for tile `" ++ tile ++ "` is empty."
  | chanceRange rule tile =>
    "Results of the rule " ++ toString rule ++ " for tile `" ++ tile ++
      "` have a negative or non-finite probability."
  | chanceTotal rule tile =>
    "Results of the rule " ++ toString rule ++ " for tile `" ++ tile ++
      "` have total probability greater than 1."
  | unknownResult variant tile =>
    "A tiling rule result for tile `" ++ tile ++ "` references non-existent variant named `" ++ variant ++ "`."
  | periodSize rule tile =>
    "Rectangle size for modulo position for the rule " ++ toString rule ++ " for tile `" ++ tile ++
      "` is smaller than 1 in at least one dimension."
  | noPeriodOffsets rule tile =>
    "List of modulo offsets for the rule " ++ toString rule ++ " for tile `" ++ tile ++ "` is empty."
  | periodOffset offset rule tile =>
    "Modulo offset " ++ toString offset ++ " for the rule " ++ toString rule ++ " for tile `" ++ tile ++
      "` is invalid."
  | unknownReqVariant variant tile =>
    "A tiling rule for tile `" ++ tile ++ "` references non-existent variant named `" ++ variant ++ "`."
  | duplicateTile tile => "A duplicate tile named `" ++ tile ++ "`."
  | nameCollision tile =>
    "A name collision between a tile named `" ++ tile ++ "` and a group with the same name."
  | unknownFlag flag tile => "An invalid flag named `" ++ flag ++ "` was specified for tile `" ++ tile ++ "`."
  | unknownMember member group =>
    "Tile named `" ++ member ++ "` referenced in group `" ++ group ++ "` doesn't exist."
  | unknownReference tile target =>
    "Autotiling rule for tile `" ++ tile ++ "` references `" ++ target ++
      "`, which is neither a tile nor a tile group."

end Invalid

end Tilework
