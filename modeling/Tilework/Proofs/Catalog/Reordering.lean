import Mathlib.Data.List.Perm.Basic
import Tilework.Proofs.Catalog.Agreement
import Tilework.Proofs.Catalog.Pickers
import Tilework.Proofs.Catalog.WellFormed

namespace Tilework

/-- The second list has the entries of the first one, each of them changed in some way, in any order. -/
def Rearranged {α β : Type} (R : α → β → Prop) (xs : List α) (ys : List β) : Prop :=
  ∃ changed, List.Forall₂ R xs changed ∧ changed.Perm ys

namespace Rearranged

variable {α β γ : Type} {R : α → β → Prop} {xs : List α} {ys : List β}

theorem exists_mem (h : Rearranged R xs ys) {y : β} (member : y ∈ ys) : ∃ x ∈ xs, R x y := by
  obtain ⟨changed, each, perm⟩ := h
  obtain ⟨i, place⟩ := List.mem_iff_getElem?.mp (perm.mem_iff.mpr member)
  obtain ⟨x, found, related⟩ := exists_left_of_forall₂ each place
  exact ⟨x, List.mem_of_getElem? found, related⟩

theorem symm {S : β → α → Prop} (back : ∀ {a b}, R a b → S b a) (h : Rearranged R xs ys) : Rearranged S ys xs := by
  obtain ⟨changed, each, perm⟩ := h
  exact List.perm_comp_forall₂ perm.symm (each.flip.imp fun _ _ => back)

theorem map_perm {f : α → γ} {g : β → γ} (same : ∀ a b, R a b → g b = f a) (h : Rearranged R xs ys) :
    (ys.map g).Perm (xs.map f) := by
  obtain ⟨changed, each, perm⟩ := h
  rw [← map_eq_of_forall₂ same each]
  exact (perm.map g).symm

end Rearranged

namespace Config

def Group.Reorders (g h : Group) : Prop := ∃ tiles, g.tiles.Perm tiles ∧ h = { g with tiles := tiles }

def Tile.Reorders (t u : Tile) : Prop := ∃ variants, t.variants.Perm variants ∧ u = { t with variants := variants }

/-- The same catalog, written in another order. -/
structure Reorders (config other : Config) : Prop where
  flags : config.flags.Perm other.flags
  groups : Rearranged Group.Reorders config.groups other.groups
  tiles : Rearranged Tile.Reorders config.tiles other.tiles

theorem Group.Reorders.symm {g h : Group} (same : g.Reorders h) : h.Reorders g := by
  obtain ⟨tiles, perm, rfl⟩ := same
  exact ⟨g.tiles, perm.symm, rfl⟩

theorem Group.Reorders.wellFormed {g h : Group} (same : g.Reorders h) (sound : g.WellFormed) : h.WellFormed := by
  obtain ⟨tiles, perm, rfl⟩ := same
  exact ⟨sound.named, perm.nodup_iff.mp sound.distinct⟩

theorem Rule.WellFormed.perm {rule : Rule} {names others : List String} (same : names.Perm others)
    (sound : rule.WellFormed names) : rule.WellFormed others := by
  obtain ⟨⟨some_result, chances, total, listed⟩, period, reqVariants⟩ := sound
  refine ⟨⟨some_result, chances, total, ?_⟩, period, ?_⟩
  · exact fun r member => same.mem_iff.mp (listed r member)
  · exact fun key member => same.mem_iff.mp (reqVariants key member)

namespace Tile.Reorders

variable {t u : Tile}

theorem symm (same : t.Reorders u) : u.Reorders t := by
  obtain ⟨variants, perm, rfl⟩ := same
  exact ⟨t.variants, perm.symm, rfl⟩

theorem fits (same : t.Reorders u) (fits : t.Fits) : u.Fits := by
  obtain ⟨variants, perm, rfl⟩ := same
  constructor
  · exact fun v member => fits.variants v (perm.mem_iff.mpr member)
  · exact fun v member => fits.boxes v (perm.mem_iff.mpr member)
  · exact fits.rules

theorem wellFormed (same : t.Reorders u) (sound : t.WellFormed) : u.WellFormed := by
  obtain ⟨variants, perm, rfl⟩ := same
  have names : t.variantNames.Perm (variants.map Variant.name) := perm.map Variant.name
  constructor
  · exact sound.named
  · exact sound.layer
  · exact fun v member => sound.variants v (perm.mem_iff.mpr member)
  · exact names.nodup_iff.mp sound.distinct
  · exact names.mem_iff.mp sound.default
  · exact names.mem_iff.mp sound.display
  · exact fun rule member copy listed => (sound.rules rule member copy listed).perm names

end Tile.Reorders

namespace Reorders

variable {config other : Config}

theorem symm (same : config.Reorders other) : other.Reorders config :=
  ⟨same.flags.symm, same.groups.symm Group.Reorders.symm, same.tiles.symm Tile.Reorders.symm⟩

theorem groupNames (same : config.Reorders other) : other.groupNames.Perm config.groupNames := by
  apply same.groups.map_perm
  rintro g _ ⟨tiles, -, rfl⟩
  rfl

theorem tileNames (same : config.Reorders other) : other.tileNames.Perm config.tileNames := by
  apply same.tiles.map_perm
  rintro t _ ⟨variants, -, rfl⟩
  rfl

theorem fits (same : config.Reorders other) (fits : config.Fits) : other.Fits := by
  intro u member
  obtain ⟨t, among, changed⟩ := same.tiles.exists_mem member
  exact changed.fits (fits t among)

theorem wellFormed (same : config.Reorders other) (sound : config.WellFormed) : other.WellFormed := by
  constructor
  · exact same.flags.nodup_iff.mp sound.flags_distinct
  · intro h member
    obtain ⟨g, among, changed⟩ := same.groups.exists_mem member
    exact changed.wellFormed (sound.groups g among)
  · exact same.groupNames.nodup_iff.mpr sound.groups_distinct
  · intro u member
    obtain ⟨t, among, changed⟩ := same.tiles.exists_mem member
    exact changed.wellFormed (sound.tiles t among)
  · exact same.tileNames.nodup_iff.mpr sound.tiles_distinct
  · intro u member
    obtain ⟨t, among, variants, -, rfl⟩ := same.tiles.exists_mem member
    rw [same.groupNames.mem_iff]
    exact sound.tiles_apart t among
  · intro u member flag listed
    obtain ⟨t, among, variants, -, rfl⟩ := same.tiles.exists_mem member
    exact same.flags.mem_iff.mp (sound.tile_flags t among flag listed)
  · intro h member key listed
    obtain ⟨g, among, tiles, perm, rfl⟩ := same.groups.exists_mem member
    exact same.tileNames.mem_iff.mpr (sound.members g among key (perm.mem_iff.mpr listed))
  · intro u member rule written copy listed r looked
    obtain ⟨t, among, variants, -, rfl⟩ := same.tiles.exists_mem member
    have target := sound.targets t among rule written copy listed r looked
    rwa [Targets, ← same.tileNames.mem_iff, ← same.groupNames.mem_iff] at target

theorem compiles (same : config.Reorders other) {c : Catalog} (compiled : config.compile = .ok c) :
    ∃ d, other.compile = .ok d := by
  obtain ⟨sound, fits⟩ := config.compile_ok_iff.mp ⟨c, compiled⟩
  exact other.compile_ok_iff.mpr ⟨same.wellFormed sound, same.fits fits⟩

end Reorders

end Config

theorem Config.Group.Reorders.exact {g h : Config.Group} (same : g.Reorders h) : h.exact = g.exact := by
  obtain ⟨tiles, perm, rfl⟩ := same
  have sorted : Names.sort tiles = Names.sort g.tiles := Names.sort_eq_of_perm (fun _ _ _ _ equal => equal) perm.symm
  simp only [Config.Group.exact, sorted]

theorem compileGroups_reorders {authored others : List Config.Group} {groups regrouped : List Group}
    (same : Rearranged Config.Group.Reorders authored others) (first : compileGroups authored = .ok groups)
    (second : compileGroups others = .ok regrouped) : regrouped = groups := by
  obtain ⟨-, rfl⟩ := compileGroups_eq_ok first
  obtain ⟨apart, rfl⟩ := compileGroups_eq_ok second
  apply Names.sort_eq_of_nodup _ (same.map_perm fun _ _ changed => changed.exact)
  rw [List.map_map]
  exact apart

theorem compileVariants_reorders {tile : String} {authored others : List Config.Variant} {variants again : Array Variant}
    (same : authored.Perm others) (first : compileVariants tile authored = .ok variants)
    (second : compileVariants tile others = .ok again) : again = variants := by
  obtain ⟨-, rfl⟩ := compileVariants_eq_ok first
  obtain ⟨apart, rfl⟩ := compileVariants_eq_ok second
  congr 1
  apply Names.sort_eq_of_nodup _ (same.symm.map Config.Variant.exact)
  rw [List.map_map]
  exact apart

def Tile.Moves (t u : Tile) : Prop := ∃ place, u = { t with authoredIndex := place }

theorem Tile.Compiled.moves {place next : Nat} {source other : Config.Tile} {t u : Tile} (same : source.Reorders other)
    (first : t.Compiled place source) (second : u.Compiled next other) : t.Moves u := by
  obtain ⟨variants, perm, rfl⟩ := same
  have drawn : u.variants = t.variants := compileVariants_reorders perm first.variants second.variants
  have rules : u.rules = t.rules := by
    have again := second.rules
    rw [drawn] at again
    have equal := (mapM_eq_ok.mpr again).symm.trans (mapM_eq_ok.mpr first.rules)
    exact Array.toList_inj.mp (Except.ok.inj equal)
  refine ⟨next, ?_⟩
  rw [first.determined second rfl rfl rfl rfl rfl drawn, rules]

theorem compileTiles_moves {groups regrouped : List Group} {authored others : List Config.Tile} {tiles moved : List Tile}
    (same : Rearranged Config.Tile.Reorders authored others) (first : compileTiles groups authored = .ok tiles)
    (second : compileTiles regrouped others = .ok moved) : List.Forall₂ Tile.Moves tiles moved := by
  obtain ⟨compiled, each, -, rfl⟩ := compileTiles_eq_ok first
  obtain ⟨again, eachAgain, apart, rfl⟩ := compileTiles_eq_ok second
  obtain ⟨changed, reordered, perm⟩ := same
  obtain ⟨between, fromChanged, permAgain⟩ := List.perm_comp_forall₂ perm (forall₂_of_zipIdx eachAgain)
  have pairs : List.Forall₂ Tile.Moves compiled between := by
    refine forall₂_steps ?_ reordered (forall₂_of_zipIdx each) fromChanged
    rintro source other t u same ⟨place, own⟩ ⟨next, ownAgain⟩
    exact own.moves same ownAgain
  have distinct := (permAgain.map Tile.name).nodup_iff.mpr apart
  rw [← Names.sort_eq_of_nodup distinct permAgain]
  apply Sorted.sort_forall₂ _ pairs
  rintro a b _ _ ⟨_, rfl⟩ ⟨_, rfl⟩
  rfl

theorem Tile.Moves.resolveFlags {flags : Array String} {t u t' u' : Tile} (same : t.Moves u)
    (first : t.resolveFlags flags = .ok t') (second : u.resolveFlags flags = .ok u') : t'.Moves u' := by
  obtain ⟨place, rfl⟩ := same
  obtain ⟨indices, found, first⟩ := bind_eq_ok.mp first
  obtain ⟨again, foundAgain, second⟩ := bind_eq_ok.mp second
  rw [show again = indices from Except.ok.inj (foundAgain.symm.trans found)] at second
  cases first
  cases second
  exact ⟨place, rfl⟩

theorem Tile.Moves.resolve {tiles : Array Tile} {groups : Array Group} {t u t' u' : Tile} (same : t.Moves u)
    (first : t.resolve tiles groups = .ok t') (second : u.resolve tiles groups = .ok u') : t'.Moves u' := by
  obtain ⟨place, rfl⟩ := same
  obtain ⟨rules, found, first⟩ := bind_eq_ok.mp first
  obtain ⟨again, foundAgain, second⟩ := bind_eq_ok.mp second
  rw [show again = rules from Except.ok.inj (foundAgain.symm.trans found)] at second
  cases first
  cases second
  exact ⟨place, rfl⟩

theorem moves_kept : Kept Tile.Moves := by
  constructor
  · rintro t _ ⟨place, rfl⟩
    rfl
  · rintro t _ ⟨place, rfl⟩
    rfl
  · rintro t _ ⟨place, rfl⟩
    rfl
  · intro flags t u t' u' same first second
    exact same.resolveFlags first second
  · rintro t _ first ⟨place, rfl⟩
    exact ⟨place, rfl⟩
  · intro tiles groups t u t' u' same first second
    exact same.resolve first second

section Moved

variable {tiles moved : List Tile} (same : List.Forall₂ Tile.Moves tiles moved)

include same

theorem moved_map {β : Type} {f : Tile → β} (kept : ∀ t place, f { t with authoredIndex := place } = f t) :
    moved.map f = tiles.map f := by
  apply map_eq_of_forall₂ _ same
  rintro t _ ⟨place, rfl⟩
  exact kept t place

theorem moved_index? (key : String) : Names.index? moved.toArray key = Names.index? tiles.toArray key :=
  tiles_index?_congr (moved_map same fun _ _ => rfl) key

end Moved

/-- The second catalog, which is compiled from `other`, differs from the first one only in the places of its tiles in the
file and so in the order of the lists from which tiles are picked. -/
structure Catalog.Redrafts (other : Config) (c d : Catalog) : Prop extends Catalog.Agree Tile.Moves c d where
  id? : ∀ tile variant, d.id? tile variant = c.id? tile variant
  tilesOn_perm : ∀ layer, (d.tilesOn layer).Perm (c.tilesOn layer)
  tilesOn_eq : ∀ layer, (d.tilesOn layer).map some =
    (other.tiles.filter fun t => t.layer = layer.name).map fun t => d.tileIndex? t.name

theorem Catalog.id?_moves {c d : Catalog} (same : List.Forall₂ Tile.Moves c.tiles.toList d.tiles.toList)
    (tile variant : String) : d.id? tile variant = c.id? tile variant := by
  have place : d.tileIndex? tile = c.tileIndex? tile := moved_index? same tile
  have variants : ∀ i : Nat, (d.tiles[i]?).map Tile.variants = (c.tiles[i]?).map Tile.variants := by
    intro i
    rw [← Array.getElem?_toList, ← Array.getElem?_toList, ← List.getElem?_map, moved_map same fun _ _ => rfl,
      List.getElem?_map]
  -- Of a tile that is found only the variants are looked at.
  have through : ∀ e : Catalog, e.id? tile variant = (e.tileIndex? tile).bind fun i =>
      ((e.tiles[i]?).map Tile.variants).bind fun variants =>
        ((Names.index? variants variant).bind fun j => variants[j]?).bind fun v => some v.id := by
    intro e
    simp only [Option.bind_map]
    rfl
  rw [through, through, place]
  simp only [variants]

namespace Compilation

variable {config other : Config} {c d : Catalog} (stages : Compilation config c) (again : Compilation other d)
  (same : config.Reorders other)

include stages again same

theorem flags_reordered : d.flags = c.flags := by
  rw [stages.flags_eq, again.flags_eq, Names.sort_eq_of_perm (fun _ _ _ _ equal => equal) same.flags]

theorem compiled_moves : List.Forall₂ Tile.Moves stages.tiles again.tiles :=
  compileTiles_moves same.tiles stages.tiles_compiled again.tiles_compiled

theorem groups_reordered : again.groups = stages.groups :=
  compileGroups_reorders same.groups stages.groups_compiled again.groups_compiled

theorem agree_reordered : Catalog.Agree Tile.Moves c d :=
  moves_kept.agree stages again (stages.flags_reordered again same) (stages.groups_reordered again same)
    (stages.compiled_moves again same)

theorem tilesOn_reordered (layer : Layer) : (d.tilesOn layer).Perm (c.tilesOn layer) := by
  have written := (same.tiles.map_perm (f := fun t => (t.layer, t.name)) (g := fun t => (t.layer, t.name)) (by
    rintro t _ ⟨variants, -, rfl⟩
    rfl)).filter (fun x => x.1 = layer.name)
  have looked := written.map fun x => c.tileIndex? x.2
  rw [List.filter_map, List.filter_map, List.map_map, List.map_map] at looked
  have place : d.tileIndex? = c.tileIndex? := funext (moved_index? (stages.agree_reordered again same).tiles)
  apply (List.map_perm_map_iff (Option.some_injective _)).mp
  rw [stages.tilesOn_eq, again.tilesOn_eq, place]
  exact looked

end Compilation

/-- The order in which a catalog is written decides neither whether it compiles nor what any name stands for. -/
theorem order_immaterial {config other : Config} (same : config.Reorders other) :
    ((∃ c, config.compile = .ok c) ↔ ∃ d, other.compile = .ok d) ∧
      ∀ {c d : Catalog}, config.compile = .ok c → other.compile = .ok d → c.Redrafts other d := by
  refine ⟨⟨?_, ?_⟩, ?_⟩
  · rintro ⟨c, done⟩
    exact same.compiles done
  · rintro ⟨d, done⟩
    exact same.symm.compiles done
  intro c d first second
  obtain ⟨stages⟩ := compile_eq_ok first
  obtain ⟨again⟩ := compile_eq_ok second
  have agree := stages.agree_reordered again same
  constructor
  · exact agree
  · exact Catalog.id?_moves agree.tiles
  · exact stages.tilesOn_reordered again same
  · exact again.tilesOn_eq

def turnedConfig : Config := {
  flags := orchardConfig.flags.reverse
  groups := orchardConfig.groups.map fun g => { g with tiles := g.tiles.reverse }
  tiles := (orchardConfig.tiles.map fun t => { t with variants := t.variants.reverse }).reverse }

theorem order_immaterial_orchard :
    orchardConfig.Reorders turnedConfig ∧ ∃ d, turnedConfig.compile = .ok d ∧ orchardCatalog.Redrafts turnedConfig d := by
  have turned : orchardConfig.Reorders turnedConfig := by
    constructor
    · exact (List.reverse_perm _).symm
    · refine ⟨_, ?_, .refl _⟩
      exact List.forall₂_map_right_iff.mpr (List.forall₂_same.mpr fun g _ => ⟨_, (List.reverse_perm _).symm, rfl⟩)
    · refine ⟨_, ?_, (List.reverse_perm _).symm⟩
      exact List.forall₂_map_right_iff.mpr (List.forall₂_same.mpr fun t _ => ⟨_, (List.reverse_perm _).symm, rfl⟩)
  obtain ⟨compiles, agree⟩ := order_immaterial turned
  obtain ⟨d, done⟩ := compiles.mp ⟨_, orchardConfig_compile⟩
  exact ⟨turned, d, done, agree orchardConfig_compile done⟩

end Tilework
