import Tilework.Config.Basic
import Tilework.Json.Record

namespace Tilework.Config

open Json (fields? required? optional? list? string? vec? matrix? nullable?)

def Group.ofJson? (value : Json) : Option Group := do
  match ← fields? .refuse ["name", "tiles"] value with
  | [name, tiles] => return ⟨← required? string? name, ← optional? (list? string?) [] tiles⟩
  | _ => none

def Variant.ofJson? (value : Json) : Option Variant := do
  match ← fields? .refuse ["name", "texture", "size", "offset", "tex_offset"] value with
  | [name, texture, size, offset, texOffset] =>
    return ⟨← required? string? name, ← required? vec? texture, ← optional? vec? Vec.one size,
      ← optional? vec? Vec.zero offset, ← optional? vec? Vec.zero texOffset⟩
  | _ => none

def single? : Json → Option Single
  | .number n => n.single?
  | _ => none

def Outcome.ofJson? (value : Json) : Option Outcome := do
  match ← fields? .refuse ["name", "chance"] value with
  | [name, chance] => return ⟨← required? string? name, ← optional? (nullable? single?) none chance⟩
  | _ => none

def Requirement.ofJson? (value : Json) : Option Requirement := do
  match ← fields? .refuse ["name", "offset"] value with
  | [name, offset] => return ⟨← optional? string? "" name, ← required? vec? offset⟩
  | _ => none

def Period.ofJson? (value : Json) : Option Period := do
  match ← fields? .refuse ["size", "offsets"] value with
  | [size, offsets] => return ⟨← optional? vec? Vec.one size, ← optional? (list? vec?) [] offsets⟩
  | _ => none

def Template.ofJson? (value : Json) : Option Template := do
  match ← fields? .refuse ["matrix", "results"] value with
  | [matrix, results] => return ⟨← required? matrix? matrix, ← optional? (list? Outcome.ofJson?) [] results⟩
  | _ => none

def Rule.ofJson? (value : Json) : Option Rule := do
  let declared :=
    ["results", "requires", "requires_not", "req_variants", "matrices", "modulo_pos", "duplicate"]
  match ← fields? .refuse declared value with
  | [results, requires, requiresNot, reqVariants, matrices, period, duplicate] =>
    return {
      results := ← required? (list? Outcome.ofJson?) results
      requires := ← optional? (list? Requirement.ofJson?) [] requires
      requiresNot := ← optional? (list? Requirement.ofJson?) [] requiresNot
      reqVariants := ← optional? (list? string?) [] reqVariants
      matrices := ← optional? (list? matrix?) [] matrices
      period := ← optional? Period.ofJson? {} period
      duplicate := ← optional? (list? Template.ofJson?) [] duplicate }
  | _ => none

def Tile.ofJson? (value : Json) : Option Tile := do
  let declared := ["name", "layer", "flags", "default", "display", "variants", "rules"]
  match ← fields? .refuse declared value with
  | [name, layer, flags, default, display, variants, rules] =>
    return {
      name := ← required? string? name
      layer := ← required? string? layer
      flags := ← optional? (list? string?) [] flags
      defaultVariant := ← required? string? default
      displayVariant := ← required? string? display
      variants := ← required? (list? Variant.ofJson?) variants
      rules := ← optional? (list? Rule.ofJson?) [] rules }
  | _ => none

def ofJson? (value : Json) : Option Config := do
  match ← fields? .refuse ["flags", "groups", "tiles"] value with
  | [flags, groups, tiles] =>
    return ⟨← optional? (list? string?) [] flags, ← optional? (list? Group.ofJson?) [] groups,
      ← optional? (list? Tile.ofJson?) [] tiles⟩
  | _ => none

def parse? (text : String) : Option Config := (Json.parse? text).bind ofJson?

end Tilework.Config
