import Tilework.Catalog.Compiling

namespace Tilework

open Compiling (ensure distinct)

def sheetSize : Vec := Vec.splat 32

def sheetOrigin : Vec := ⟨0, 512⟩

def cellPixels : Int := 12

def toPixels (v : Vec) : Checked Vec := (v.scale cellPixels).fit

def Config.Variant.pixelPos (v : Config.Variant) : Checked Vec := do
  let shifted ← (v.texture + v.offset).fit
  let corner ← (shifted + v.texOffset).fit
  let pixels ← toPixels corner
  (sheetOrigin + pixels).fit

def Variant.compile (tile : String) (v : Config.Variant) : Compiling Variant := do
  ensure (!v.name.isEmpty) (.unnamedVariant tile)
  ensure (1 ≤ v.size.minElement) (.variantSize v.name tile)
  let stop ← (v.texture + v.size).fit
  ensure (0 ≤ v.texture.minElement && stop.x ≤ sheetSize.x && stop.y ≤ sheetSize.y)
    (.textureRange v.name tile)
  let pixelPos ← v.pixelPos
  let pixelSize ← toPixels v.size
  let pixelOffset ← toPixels v.offset
  return {
    name := v.name
    texture := v.texture
    size := v.size
    offset := v.offset
    texOffset := v.texOffset
    pixelPos := pixelPos
    pixelSize := pixelSize
    pixelOffset := pixelOffset
    id := ⟨0⟩ }

def compileVariants (tile : String) (variants : List Config.Variant) : Compiling (Array Variant) := do
  let compiled ← variants.mapM (Variant.compile tile)
  let sorted := Names.sort compiled
  distinct (fun v => .duplicateVariant v.name tile) (Names.duplicate? sorted)
  return sorted.toArray

def Group.compile (g : Config.Group) : Compiling Group := do
  ensure (!g.name.isEmpty) .unnamedGroup
  let sorted := Names.sort g.tiles
  distinct (fun member => .duplicateMember member g.name) (Names.duplicate? sorted)
  return ⟨g.name, sorted.toArray, #[]⟩

def compileGroups (groups : List Config.Group) : Compiling (List Group) := do
  let compiled ← groups.mapM Group.compile
  let sorted := Names.sort compiled
  distinct (fun g => .duplicateGroup g.name) (Names.duplicate? sorted)
  return sorted

end Tilework
