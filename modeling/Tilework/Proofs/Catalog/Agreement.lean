import Tilework.Proofs.Catalog.Overflow

namespace Tilework

attribute [ext] Tile

theorem Rule.Compiled.reqVariants_eq {variants : Array Variant} {place next : Nat} {source other : Config.Rule} {r s : Rule}
    (first : r.Compiled variants place source) (second : s.Compiled variants next other)
    (same : other.reqVariants = source.reqVariants) : s.reqVariants = r.reqVariants := by
  obtain ⟨indices, found, kept⟩ := first.reqVariants
  obtain ⟨others, again, keptAgain⟩ := second.reqVariants
  rw [same] at again
  have equal : others = indices := by
    refine List.right_unique_forall₂' ?_ again found
    intro key i j here there
    exact Option.some.inj (here.symm.trans there)
  rw [keptAgain, kept, equal]

/-- But for its rules and its place in the file a compiled tile is determined by what stands beside the rules. -/
theorem Tile.Compiled.determined {place next : Nat} {source other : Config.Tile} {t u : Tile}
    (first : t.Compiled place source) (second : u.Compiled next other) (name : other.name = source.name)
    (layer : other.layer = source.layer) (flags : other.flags = source.flags)
    (default : other.defaultVariant = source.defaultVariant) (display : other.displayVariant = source.displayVariant)
    (variants : u.variants = t.variants) : u = { t with rules := u.rules, authoredIndex := next } := by
  apply Tile.ext
  · rw [second.name, first.name, name]
  · have known := second.layer
    rw [layer, first.layer] at known
    exact (Option.some.inj known).symm
  · rw [second.flags, first.flags, flags]
  · exact second.authoredIndex
  · exact variants
  · rfl
  · rw [second.flagBits, first.flagBits]
  · have chosen := second.default
    rw [variants, default, first.default] at chosen
    exact (Option.some.inj chosen).symm
  · have shown := second.display
    rw [variants, display, first.display] at shown
    exact (Option.some.inj shown).symm

section Lists

variable {tiles others : List Tile}

theorem tileInfosFrom_congr (names : others.map Tile.name = tiles.map Tile.name)
    (variants : others.map Tile.variants = tiles.map Tile.variants) (i : Nat) :
    tileInfosFrom i others = tileInfosFrom i tiles := by
  induction tiles generalizing others i with
  | nil =>
    obtain rfl := List.map_eq_nil_iff.mp names
    rfl
  | cons t rest ih =>
    obtain ⟨u, more, rfl, name, names⟩ := List.map_eq_cons_iff.mp names
    obtain ⟨drawn, variants⟩ := List.cons.inj variants
    rw [tileInfosFrom_cons, tileInfosFrom_cons, ih names variants, name, drawn]

theorem footprint_congr (same : others.map Tile.variants = tiles.map Tile.variants) :
    footprint others = footprint tiles := by
  have drawn : ∀ ts : List Tile, (ts.flatMap fun t => t.variants.toList) =
      ((ts.map Tile.variants).map Array.toList).flatten := by
    intro ts
    rw [List.flatMap_def, List.map_map]
    rfl
  rw [footprint, footprint, drawn, drawn, same]

theorem lookRange_congr (same : others.map Tile.sights = tiles.map Tile.sights) :
    lookRange others = lookRange tiles := by
  have looked : ∀ ts : List Tile, lookRange ts =
      (ts.map Tile.sights).flatten.foldlM (fun range offset => do
        let distance ← offset.abs.fit
        return range.max distance) Vec.zero := by
    intro ts
    have sights : (ts.map Tile.sights).flatten =
        (ts.flatMap fun t => t.rules.toList.flatMap Rule.requirements).map Requirement.offset := by
      simp only [← List.flatMap_def, List.map_flatMap]
      rfl
    rw [sights, List.foldlM_map]
    rfl
  rw [looked, looked, same]

section Names

variable (same : others.map Tile.name = tiles.map Tile.name)

include same

theorem tiles_index?_congr (key : String) : Names.index? others.toArray key = Names.index? tiles.toArray key :=
  Names.index?_congr same key

theorem resolveMembers_congr : Group.resolveMembers others.toArray = Group.resolveMembers tiles.toArray := by
  funext g
  simp only [Group.resolveMembers, tiles_index?_congr same]

theorem Rule.resolve_congr : Rule.resolve others.toArray = Rule.resolve tiles.toArray := by
  funext groups tile r
  have each : Requirement.resolve others.toArray groups tile = Requirement.resolve tiles.toArray groups tile := by
    funext r
    simp only [Requirement.resolve, tiles_index?_congr same]
  rw [Rule.resolve, each]
  rfl

theorem Tile.resolve_congr : Tile.resolve others.toArray = Tile.resolve tiles.toArray := by
  funext groups t
  simp only [Tile.resolve, Rule.resolve_congr same]

end Names

end Lists

/-- A relation of tiles that agree in what the stages read, and of which each stage makes tiles in this relation again. -/
structure Kept (R : Tile → Tile → Prop) : Prop where
  name : ∀ t u, R t u → u.name = t.name
  variants : ∀ t u, R t u → u.variants = t.variants
  sights : ∀ t u, R t u → u.sights = t.sights
  resolveFlags : ∀ {flags : Array String} {t u t' u' : Tile}, R t u → t.resolveFlags flags = .ok t' →
    u.resolveFlags flags = .ok u' → R t' u'
  numbered : ∀ {t u} (first : Nat), R t u → R (t.numbered first) (u.numbered first)
  resolve : ∀ {tiles : Array Tile} {groups : Array Group} {t u t' u' : Tile}, R t u → t.resolve tiles groups = .ok t' →
    u.resolve tiles groups = .ok u' → R t' u'

structure Catalog.Agree (R : Tile → Tile → Prop) (c d : Catalog) : Prop where
  flags : d.flags = c.flags
  groups : d.groups = c.groups
  tiles : List.Forall₂ R c.tiles.toList d.tiles.toList
  infos : d.infos = c.infos
  range : d.range = c.range
  footprintLow : d.footprintLow = c.footprintLow
  footprintHigh : d.footprintHigh = c.footprintHigh

namespace Kept

variable {R : Tile → Tile → Prop} (kept : Kept R)

include kept

theorem numberTiles {tiles others : List Tile} (related : List.Forall₂ R tiles others) (next : Nat) :
    List.Forall₂ R (Tilework.numberTiles next tiles) (Tilework.numberTiles next others) := by
  induction related generalizing next with
  | nil => exact .nil
  | @cons t u _ _ first _ ih =>
    have count : u.variants.size = t.variants.size := by rw [kept.variants t u first]
    rw [Tilework.numberTiles, Tilework.numberTiles, count]
    exact .cons (kept.numbered next first) (ih _)

variable {config other : Config} {c d : Catalog} (stages : Compilation config c) (again : Compilation other d)
  (flags : d.flags = c.flags) (groups : again.groups = stages.groups)
  (tiles : List.Forall₂ R stages.tiles again.tiles)

include flags tiles

theorem flagged : List.Forall₂ R stages.flagged again.flagged := by
  have found := again.flags_found
  rw [flags] at found
  refine forall₂_steps ?_ tiles (mapM_eq_ok.mp stages.flags_found) (mapM_eq_ok.mp found)
  intro t u t' u' related first second
  exact kept.resolveFlags related first second

include groups

theorem members : again.members = stages.members := by
  have names := map_eq_of_forall₂ kept.name (kept.flagged stages again flags tiles)
  have found := again.members_found
  rw [groups, resolveMembers_congr names] at found
  exact Except.ok.inj (found.symm.trans stages.members_found)

theorem resolved : List.Forall₂ R stages.resolved again.resolved := by
  have numbered := kept.numberTiles (kept.flagged stages again flags tiles) 0
  have names := map_eq_of_forall₂ kept.name numbered
  have found := again.targets_found
  rw [kept.members stages again flags groups tiles, Tile.resolve_congr names] at found
  refine forall₂_steps ?_ numbered (mapM_eq_ok.mp stages.targets_found) (mapM_eq_ok.mp found)
  intro t u t' u' related first second
  exact kept.resolve related first second

/-- Whatever is related after each tile has been compiled by itself leads to catalogs that agree. -/
theorem agree : Catalog.Agree R c d := by
  have numbered := kept.numberTiles (kept.flagged stages again flags tiles) 0
  have names := map_eq_of_forall₂ kept.name numbered
  have variants := map_eq_of_forall₂ kept.variants numbered
  have sights := map_eq_of_forall₂ kept.sights numbered
  have corners := again.footprint_eq
  rw [footprint_congr variants, stages.footprint_eq] at corners
  have range := again.range_eq
  rw [lookRange_congr sights, stages.range_eq] at range
  constructor
  · exact flags
  · rw [again.groups_eq, stages.groups_eq, kept.members stages again flags groups tiles]
  · rw [again.tiles_eq, stages.tiles_eq]
    exact kept.resolved stages again flags groups tiles
  · rw [again.infos_eq, stages.infos_eq]
    exact congrArg List.toArray (tileInfosFrom_congr names variants 0)
  · exact (Except.ok.inj range).symm
  · exact congrArg Prod.fst (Except.ok.inj corners).symm
  · exact congrArg Prod.snd (Except.ok.inj corners).symm

end Kept

end Tilework
