import Tilework.Proofs.Catalog.Overflow
import Tilework.Proofs.Catalog.Screens
import Tilework.Proofs.Number.Single

namespace Tilework

open Compiling (Screens Plain)

namespace Config

/-- The sprite has a name and an extent, and lies on the sheet. -/
@[mk_iff] structure Variant.WellFormed (v : Variant) : Prop where
  named : v.name ≠ ""
  wide : 1 ≤ v.size.x
  high : 1 ≤ v.size.y
  left : 0 ≤ v.texture.x
  top : 0 ≤ v.texture.y
  right : v.texture.x + v.size.x ≤ 32
  bottom : v.texture.y + v.size.y ≤ 32

instance (v : Variant) : Decidable v.WellFormed := decidable_of_iff _ v.wellFormed_iff.symm

/-- What the outcomes of a rule have to meet in a tile with variants of these names. The explicit chances are added one
after the other, each sum rounded. -/
@[mk_iff] structure OutcomesWellFormed (variants : List String) (results : List Outcome) : Prop where
  some_result : results ≠ []
  chances : ∀ r ∈ results, ∀ chance ∈ r.chance, chance.isFinite = true ∧ Single.zero.le chance = true
  total : (explicitTotal results).le chanceLimit = true
  listed : ∀ r ∈ results, r.name ∈ variants

instance (variants : List String) (results : List Outcome) : Decidable (OutcomesWellFormed variants results) :=
  decidable_of_iff _ (outcomesWellFormed_iff variants results).symm

@[mk_iff] structure Period.WellFormed (m : Period) : Prop where
  wide : 1 ≤ m.size.x
  high : 1 ≤ m.size.y
  some_offset : m.size ≠ Vec.one → m.offsets ≠ []
  offsets : ∀ offset ∈ m.offsets, offset.Within m.size

instance (m : Period) : Decidable m.WellFormed := decidable_of_iff _ m.wellFormed_iff.symm

@[mk_iff] structure Rule.WellFormed (variants : List String) (rule : Rule) : Prop where
  results : OutcomesWellFormed variants rule.results
  period : rule.period.WellFormed
  reqVariants : ∀ key ∈ rule.reqVariants, key ∈ variants

instance (variants : List String) (rule : Rule) : Decidable (rule.WellFormed variants) :=
  decidable_of_iff _ (Rule.wellFormed_iff variants rule).symm

def Tile.variantNames (t : Tile) : List String := t.variants.map Variant.name

/-- What a tile has to meet by itself. Its rules are taken with the copies that they ask for. -/
@[mk_iff] structure Tile.WellFormed (t : Tile) : Prop where
  named : t.name ≠ ""
  layer : t.layer ∈ ["front", "mid", "back"]
  variants : ∀ v ∈ t.variants, v.WellFormed
  distinct : t.variantNames.Nodup
  default : t.defaultVariant ∈ t.variantNames
  display : t.displayVariant ∈ t.variantNames
  rules : ∀ rule ∈ t.rules, ∀ copy ∈ rule.copies, copy.WellFormed t.variantNames

instance (t : Tile) : Decidable t.WellFormed := decidable_of_iff _ t.wellFormed_iff.symm

@[mk_iff] structure Group.WellFormed (g : Group) : Prop where
  named : g.name ≠ ""
  distinct : g.tiles.Nodup

instance (g : Group) : Decidable g.WellFormed := decidable_of_iff _ g.wellFormed_iff.symm

def groupNames (config : Config) : List String := config.groups.map Group.name

def tileNames (config : Config) : List String := config.tiles.map Tile.name

def Targets (config : Config) (key : String) : Prop := key = "" ∨ key ∈ config.tileNames ∨ key ∈ config.groupNames

instance (config : Config) (key : String) : Decidable (config.Targets key) :=
  inferInstanceAs (Decidable (key = "" ∨ key ∈ config.tileNames ∨ key ∈ config.groupNames))

@[mk_iff] structure WellFormed (config : Config) : Prop where
  flags_distinct : config.flags.Nodup
  groups : ∀ g ∈ config.groups, g.WellFormed
  groups_distinct : config.groupNames.Nodup
  tiles : ∀ t ∈ config.tiles, t.WellFormed
  tiles_distinct : config.tileNames.Nodup
  tiles_apart : ∀ t ∈ config.tiles, t.name ∉ config.groupNames
  tile_flags : ∀ t ∈ config.tiles, ∀ flag ∈ t.flags, flag ∈ config.flags
  members : ∀ g ∈ config.groups, ∀ member ∈ g.tiles, member ∈ config.tileNames
  targets : ∀ t ∈ config.tiles, ∀ rule ∈ t.rules, ∀ copy ∈ rule.copies, ∀ r ∈ copy.looks, config.Targets r.name

instance (config : Config) : Decidable config.WellFormed := decidable_of_iff _ config.wellFormed_iff.symm

end Config

theorem Compiling.named_screens (name : String) (reason : Invalid) :
    (Compiling.ensure (!name.isEmpty) reason).Screens (name ≠ "") := by
  apply (Screens.ensure _ _).congr
  rw [Bool.not_eq_true', ← Bool.not_eq_true, String.isEmpty_iff]

section Table

variable {α : Type} [Named α] {items : Array α} {names : List String}

theorem Names.Tabulates.found_screens (table : Names.Tabulates items names) (reason : Invalid) (key : String) :
    (Compiling.found reason (Names.index? items key)).Screens (key ∈ names) :=
  (Screens.found _ _).congr table.exists_index?_iff

theorem Names.distinct_screens {items : List α} (same : items.map name = names) (reason : α → Invalid) :
    (Compiling.distinct reason (Names.duplicate? (Names.sort items))).Screens names.Nodup := by
  rw [← same]
  exact (Screens.distinct _ _).congr Names.duplicate?_sort_eq_none_iff

end Table

theorem Variant.compile_screens (tile : String) (v : Config.Variant) :
    (Variant.compile tile v).Screens v.WellFormed := by
  have checks : (Variant.compile tile v).Screens (v.name ≠ "" ∧ decide (1 ≤ v.size.minElement) = true ∧
      (decide (0 ≤ v.texture.minElement) && decide ((v.texture + v.size).x ≤ sheetSize.x) &&
        decide ((v.texture + v.size).y ≤ sheetSize.y)) = true) := by
    apply Screens.bind (Compiling.named_screens _ _)
    intro _ _
    apply Screens.bind (Screens.ensure _ _)
    intro _ _
    apply Screens.after (Screens.lift _)
    intro stop fits
    obtain rfl := (Exact.fit _).eq_ok (Compiling.lift_eq_ok.mp fits)
    apply Screens.before (Screens.ensure _ _)
    intro _ _
    apply Screens.after (Screens.lift _)
    intro pixelPos _
    apply Screens.after (Screens.lift _)
    intro pixelSize _
    apply Screens.after (Screens.lift _)
    intro pixelOffset _
    exact Screens.pure _
  apply checks.congr
  rw [Config.Variant.wellFormed_iff]
  simp only [Bool.and_eq_true, decide_eq_true_eq]
  simp only [Vec.minElement, sheetSize, Vec.splat, Vec.add_x, Vec.add_y, Int.le_min]
  tauto

theorem compileVariants_screens (tile : String) (variants : List Config.Variant) :
    (compileVariants tile variants).Screens
      ((∀ v ∈ variants, v.WellFormed) ∧ (variants.map Config.Variant.name).Nodup) := by
  apply Screens.bind (Screens.mapM fun v _ => Variant.compile_screens tile v)
  intro compiled each
  have names : compiled.map name = variants.map Config.Variant.name := by
    apply map_eq_of_forall₂ _ (mapM_eq_ok.mp each)
    intro v w done
    rw [Variant.compile_eq_ok done]
    rfl
  apply Screens.before (Names.distinct_screens names _)
  intro _ _
  exact Screens.pure _

theorem explicitTotal_isNaN {results : List Config.Outcome}
    (finite : ∀ r ∈ results, ∀ chance ∈ r.chance, chance.isFinite = true) : (explicitTotal results).isNaN = false := by
  have added : ∀ (chances : List Single) (sum : Single), (∀ chance ∈ chances, chance.isFinite = true) →
      sum.isNaN = false → (chances.foldl Single.add sum).isNaN = false := by
    intro chances
    induction chances with
    | nil => exact fun _ _ number => number
    | cons chance rest ih =>
      intro sum all number
      obtain ⟨first, others⟩ := List.forall_mem_cons.mp all
      exact ih _ others (Single.isNaN_add number first)
  apply added
  · intro chance member
    obtain ⟨r, among, explicit⟩ := List.mem_filterMap.mp member
    exact finite r among chance explicit
  · decide

theorem chanceAllowed_iff {chance : Single} :
    chanceAllowed chance = true ↔ chance.isFinite = true ∧ Single.zero.le chance = true := by
  rw [chanceAllowed, Bool.and_eq_true]
  apply and_congr_right
  intro finite
  rw [Single.le_eq_not_lt (by decide) (Single.isNaN_of_isFinite finite)]

section Rules

variable {variants : Array Variant} {names : List String}

theorem compileOutcomes_screens (table : Names.Tabulates variants names) (i : Nat) (tile : String)
    (results : List Config.Outcome) :
    (compileOutcomes i tile variants results).Screens (Config.OutcomesWellFormed names results) := by
  apply Screens.congr _ (Config.outcomesWellFormed_iff names results).symm
  have nonempty : (!results.isEmpty) = true ↔ results ≠ [] := by simp
  have allowed : (results.all fun r => r.chance.all chanceAllowed) = true ↔
      ∀ r ∈ results, ∀ chance ∈ r.chance, chance.isFinite = true ∧ Single.zero.le chance = true := by
    simp only [List.all_eq_true, Option.all_eq_true, chanceAllowed_iff, Option.mem_def]
  apply Screens.bind ((Screens.ensure _ _).congr nonempty)
  intro _ _
  apply Screens.bind ((Screens.ensure _ _).congr allowed)
  intro _ checked
  have chances := allowed.mp (Compiling.ensure_eq_ok.mp checked)
  have number := explicitTotal_isNaN fun r member chance explicit => (chances r member chance explicit).1
  rw [Single.le_eq_not_lt number (by decide)]
  apply Screens.bind (Screens.ensure _ _)
  intro _ _
  apply Screens.mapM
  intro r _
  apply Screens.before (table.found_screens _ _)
  intro variant _
  exact Screens.pure _

theorem compilePeriod_screens (i : Nat) (tile : String) (m : Config.Period) :
    (compilePeriod i tile m).Screens m.WellFormed := by
  apply Screens.congr _ (m.wellFormed_iff.trans and_assoc.symm).symm
  have positive : decide (1 ≤ m.size.minElement) = true ↔ 1 ≤ m.size.x ∧ 1 ≤ m.size.y := by
    rw [decide_eq_true_eq]
    exact Int.le_min
  apply Screens.bind ((Screens.ensure _ _).congr positive)
  intro _ _
  have filtered : (!Period.active ⟨m.size, Sorted.dedup (Sorted.sort Vec.notAfter m.offsets)⟩ ||
      !m.offsets.isEmpty) = true ↔ (m.size ≠ Vec.one → m.offsets ≠ []) := by
    simp only [Period.active, Bool.or_eq_true, Bool.not_eq_true', decide_eq_false_iff_not, List.isEmpty_eq_false_iff]
    tauto
  apply Screens.bind ((Screens.ensure _ _).congr filtered)
  intro _ _
  have listed : ∀ offset, offset ∈ Sorted.dedup (Sorted.sort Vec.notAfter m.offsets) ↔ offset ∈ m.offsets :=
    fun offset => Sorted.mem_dedup.trans Sorted.mem_sort
  split
  · rename_i bad found
    apply (Screens.refuse _).congr
    rw [false_iff]
    intro inside
    have outside := List.find?_some found
    simp only [Bool.not_eq_true', decide_eq_false_iff_not] at outside
    exact outside (inside bad ((listed bad).mp (List.mem_of_find?_eq_some found)))
  · rename_i none
    apply (Screens.pure _).congr
    rw [true_iff]
    intro offset member
    have within := List.find?_eq_none.mp none offset ((listed offset).mpr member)
    simpa using within

theorem compileReqVariants_screens (table : Names.Tabulates variants names) (tile : String) (keys : List String) :
    (compileReqVariants tile variants keys).Screens (∀ key ∈ keys, key ∈ names) := by
  apply Screens.before (Screens.mapM fun key _ => table.found_screens _ key)
  intro indices _
  exact Screens.pure _

theorem Rule.compile_screens (table : Names.Tabulates variants names) (tile : String) (i : Nat) (rule : Config.Rule) :
    (Rule.compile tile variants i rule).Screens (rule.WellFormed names) := by
  apply Screens.congr _ (Config.Rule.wellFormed_iff names rule).symm
  apply Screens.bind (compileOutcomes_screens table i tile rule.results)
  intro results _
  apply Screens.bind (compilePeriod_screens i tile rule.period)
  intro period _
  apply Screens.before (compileReqVariants_screens table tile rule.reqVariants)
  intro reqVariants _
  apply Screens.after (Screens.lift _)
  intro requires _
  apply Screens.after (Screens.lift _)
  intro requiresNot _
  exact Screens.pure _

end Rules

theorem Layer.exists_ofName?_iff {text : String} : (∃ layer, ofName? text = some layer) ↔ text ∈ ["front", "mid", "back"] := by
  rw [← Option.isSome_iff_exists, ofName?, List.find?_isSome]
  simp only [all, List.mem_cons, List.not_mem_nil, or_false, exists_eq_or_imp, exists_eq_left, beq_iff_eq, name]
  exact or_congr eq_comm (or_congr eq_comm eq_comm)

theorem Tile.compile_screens (i : Nat) (t : Config.Tile) : (Tile.compile i t).Screens t.WellFormed := by
  have all : (Tile.compile i t).Screens (t.name ≠ "" ∧ t.layer ∈ ["front", "mid", "back"] ∧
      ((∀ v ∈ t.variants, v.WellFormed) ∧ t.variantNames.Nodup) ∧ t.defaultVariant ∈ t.variantNames ∧
      t.displayVariant ∈ t.variantNames ∧
      ∀ rule ∈ t.rules, ∀ copy ∈ rule.copies, copy.WellFormed t.variantNames) := by
    apply Screens.bind (Compiling.named_screens _ _)
    intro _ _
    apply Screens.bind ((Screens.found _ _).congr Layer.exists_ofName?_iff)
    intro layer _
    apply Screens.bind (compileVariants_screens ..)
    intro variants compiled
    have table := compileVariants_tabulates compiled
    apply Screens.bind (table.found_screens _ _)
    intro default _
    apply Screens.bind (table.found_screens _ _)
    intro display _
    apply Screens.after (Screens.lift _)
    intro expanded found
    obtain rfl := (expandRules_exact _).eq_ok (Compiling.lift_eq_ok.mp found)
    apply Screens.congr _ Config.forall_mem_expanded
    apply Screens.before (Screens.mapM fun x _ => Rule.compile_screens table t.name x.1 x.2)
    intro rules _
    exact Screens.pure _
  apply all.congr
  rw [Config.Tile.wellFormed_iff]
  tauto

theorem Group.compile_screens (g : Config.Group) : (Group.compile g).Screens g.WellFormed := by
  apply Screens.congr _ g.wellFormed_iff.symm
  apply Screens.bind (Compiling.named_screens _ _)
  intro _ _
  apply Screens.before (Names.distinct_screens (List.map_id g.tiles) _)
  intro _ _
  exact Screens.pure _

theorem compileGroups_screens (groups : List Config.Group) : (compileGroups groups).Screens
    ((∀ g ∈ groups, g.WellFormed) ∧ (groups.map Config.Group.name).Nodup) := by
  apply Screens.bind (Screens.mapM fun g _ => Group.compile_screens g)
  intro compiled each
  have names : compiled.map name = groups.map Config.Group.name := by
    apply map_eq_of_forall₂ _ (mapM_eq_ok.mp each)
    intro g h done
    rw [(Group.compile_eq_ok done).2]
    rfl
  apply Screens.before (Names.distinct_screens names _)
  intro _ _
  exact Screens.pure _

theorem forall_mem_iff_of_map_perm {α β γ : Type} {f : α → γ} {g : β → γ} {xs : List α} {ys : List β}
    (same : (xs.map f).Perm (ys.map g)) (P : γ → Prop) : (∀ x ∈ xs, P (f x)) ↔ ∀ y ∈ ys, P (g y) := by
  rw [← List.forall_mem_map (f := f), ← List.forall_mem_map (f := g)]
  exact forall_congr' fun c => imp_congr_left same.mem_iff

theorem compileTiles_screens {groups : List Group} {names : List String}
    (table : Names.Tabulates groups.toArray names) (tiles : List Config.Tile) :
    (compileTiles groups tiles).Screens ((∀ t ∈ tiles, t.WellFormed) ∧ (tiles.map Config.Tile.name).Nodup ∧
      ∀ t ∈ tiles, t.name ∉ names) := by
  apply Screens.bind ((Screens.mapM fun x _ => Tile.compile_screens x.2 x.1).congr Config.forall_mem_zipIdx)
  intro compiled each
  have pairs : List.Forall₂ (fun x t => Tile.Compiled x.2 x.1 t) tiles.zipIdx compiled :=
    (mapM_eq_ok.mp each).imp fun _ _ => Tile.compile_eq_ok
  have called : compiled.map Tile.name = tiles.map Config.Tile.name := by
    rw [← map_zipIdx Config.Tile.name tiles]
    exact map_eq_of_forall₂ (fun _ _ own => own.name) pairs
  apply Screens.bind (Names.distinct_screens called _)
  intro _ _
  have apart : ((Names.sort compiled).find? fun t => Names.contains groups.toArray t.name) = none ↔
      ∀ t ∈ tiles, t.name ∉ names := by
    have sorted : ((Names.sort compiled).map Tile.name).Perm (tiles.map Config.Tile.name) := by
      rw [← called]
      exact (Sorted.sort_perm compiled).map Tile.name
    rw [List.find?_eq_none, ← forall_mem_iff_of_map_perm sorted fun key => key ∉ names]
    simp only [table.contains_iff]
  apply Screens.before ((Screens.distinct _ _).congr apart)
  intro _ _
  exact Screens.pure _

theorem resolveFlags_screens {flags : Array String} {names : List String} (table : Names.Tabulates flags names)
    (tiles : List Tile) : (tiles.mapM (Tile.resolveFlags flags)).Screens (∀ t ∈ tiles, ∀ flag ∈ t.flags, flag ∈ names) := by
  apply Screens.mapM
  intro t _
  apply Screens.before (Screens.mapM fun flag _ => table.found_screens _ flag)
  intro indices _
  exact Screens.pure _

theorem resolveMembers_screens {tiles : Array Tile} {names : List String} (table : Names.Tabulates tiles names)
    (groups : List Group) :
    (groups.mapM (Group.resolveMembers tiles)).Screens (∀ g ∈ groups, ∀ member ∈ g.tiles.toList, member ∈ names) := by
  apply Screens.mapM
  intro g _
  apply Screens.before (Screens.mapM fun member _ => table.found_screens _ member)
  intro indices _
  exact Screens.pure _

section Targets

variable {tiles : Array Tile} {groups : Array Group} {tileNames groupNames : List String}

theorem Requirement.resolve_screens (listed : Names.Tabulates tiles tileNames)
    (grouped : Names.Tabulates groups groupNames) (tile : String) (r : Requirement) :
    (r.resolve tiles groups tile).Screens (r.name = "" ∨ r.name ∈ tileNames ∨ r.name ∈ groupNames) := by
  unfold resolve
  split
  · rename_i i found
    have among := listed.exists_index?_iff.mp ⟨i, found⟩
    exact (Screens.pure _).congr (iff_of_true trivial (.inr (.inl among)))
  · rename_i missing
    have absent : r.name ∉ tileNames := by
      rw [← listed.exists_index?_iff, missing]
      simp
    split
    · rename_i empty
      exact (Screens.pure _).congr (iff_of_true trivial (.inl (String.isEmpty_iff.mp empty)))
    · rename_i filled
      rw [String.isEmpty_iff] at filled
      have group : (Compiling.found _ _).Screens _ := grouped.found_screens (.unknownReference tile r.name) r.name
      apply (group.before fun i _ => Screens.pure { r with target := .group i }).congr
      simp only [filled, absent, false_or]

theorem Rule.resolve_screens (listed : Names.Tabulates tiles tileNames) (grouped : Names.Tabulates groups groupNames)
    (tile : String) (rule : Rule) : (rule.resolve tiles groups tile).Screens
      (∀ r ∈ rule.requirements, r.name = "" ∨ r.name ∈ tileNames ∨ r.name ∈ groupNames) := by
  apply Screens.congr _ List.forall_mem_append.symm
  apply Screens.bind (Screens.mapM fun r _ => r.resolve_screens listed grouped tile)
  intro requires _
  apply Screens.before (Screens.mapM fun r _ => r.resolve_screens listed grouped tile)
  intro requiresNot _
  exact Screens.pure _

theorem Tile.resolve_screens (listed : Names.Tabulates tiles tileNames) (grouped : Names.Tabulates groups groupNames)
    (t : Tile) : (t.resolve tiles groups).Screens
      (∀ rule ∈ t.rules.toList, ∀ r ∈ rule.requirements, r.name = "" ∨ r.name ∈ tileNames ∨ r.name ∈ groupNames) := by
  apply Screens.before (Screens.mapM fun rule _ => rule.resolve_screens listed grouped t.name)
  intro rules _
  exact Screens.pure _

end Targets

def Tile.wanted (t : Tile) : List String := t.rules.toList.flatMap fun rule => rule.requirements.map Requirement.name

theorem Tile.forall_mem_wanted {t : Tile} {P : String → Prop} :
    (∀ key ∈ t.wanted, P key) ↔ ∀ rule ∈ t.rules.toList, ∀ r ∈ rule.requirements, P r.name := by
  simp only [wanted, List.forall_mem_flatMap, List.forall_mem_map]

theorem Config.Rule.forall_mem_sights_name {rule : Config.Rule} {P : String → Prop} :
    (∀ r ∈ rule.sights, P r.name) ↔ ∀ r ∈ rule.looks, P r.name := by
  constructor
  · intro all r member
    exact all r (mem_sights.mpr (.inl member))
  · intro all r member
    rcases mem_sights.mp member with authored | ⟨m, -, s, authored, rfl⟩
    · exact all r authored
    · exact all s authored

theorem Tile.Compiled.forall_mem_wanted {place : Nat} {source : Config.Tile} {t : Tile}
    (compiled : t.Compiled place source) {P : String → Prop} :
    (∀ key ∈ t.wanted, P key) ↔ ∀ rule ∈ source.rules, ∀ copy ∈ rule.copies, ∀ r ∈ copy.looks, P r.name := by
  have same : t.wanted = (Config.expanded source.rules).flatMap fun x => x.2.sights.map Config.Requirement.name := by
    rw [wanted, List.flatMap_def, List.flatMap_def]
    congr 1
    apply map_eq_of_forall₂ _ compiled.rules
    intro x rule from_source
    have own := Rule.compile_eq_ok from_source
    rw [Rule.requirements, own.requires, own.requiresNot]
    simp only [Config.Rule.sights, List.map_append, List.map_map]
    rfl
  rw [same, List.forall_mem_flatMap]
  simp only [List.forall_mem_map, Config.Rule.forall_mem_sights_name]
  exact Config.forall_mem_expanded (P := fun copy => ∀ r ∈ copy.looks, P r.name)

section Tiles

variable {groups : List Group} {authored : List Config.Tile} {tiles : List Tile}

theorem compileTiles_wanted (h : compileTiles groups authored = .ok tiles) (P : String → Prop) :
    (∀ t ∈ tiles, ∀ key ∈ t.wanted, P key) ↔
      ∀ t ∈ authored, ∀ rule ∈ t.rules, ∀ copy ∈ rule.copies, ∀ r ∈ copy.looks, P r.name := by
  have same := compileTiles_map h (f := fun t => ∀ key ∈ t.wanted, P key)
    (g := fun x => ∀ rule ∈ x.1.rules, ∀ copy ∈ rule.copies, ∀ r ∈ copy.looks, P r.name)
    fun _ _ own => propext own.forall_mem_wanted
  rw [map_zipIdx fun t : Config.Tile => ∀ rule ∈ t.rules, ∀ copy ∈ rule.copies, ∀ r ∈ copy.looks, P r.name] at same
  exact forall_mem_iff_of_map_perm same id

theorem numberTiles_wanted {flags : Array String} {flagged : List Tile}
    (h : tiles.mapM (Tile.resolveFlags flags) = .ok flagged) (P : String → Prop) :
    (∀ t ∈ numberTiles 0 flagged, ∀ rule ∈ t.rules.toList, ∀ r ∈ rule.requirements, P r.name) ↔
      ∀ t ∈ tiles, ∀ key ∈ t.wanted, P key := by
  have same : (numberTiles 0 flagged).map Tile.wanted = tiles.map Tile.wanted := by
    rw [numberTiles_map fun _ _ => rfl, resolveFlags_map h fun _ _ => rfl]
  simp only [← Tile.forall_mem_wanted]
  exact forall_mem_iff_of_map_perm (.of_eq same) fun keys => ∀ key ∈ keys, P key

theorem compileTiles_flags (h : compileTiles groups authored = .ok tiles) (P : String → Prop) :
    (∀ t ∈ tiles, ∀ flag ∈ t.flags, P flag) ↔ ∀ t ∈ authored, ∀ flag ∈ t.flags, P flag := by
  have same := compileTiles_map h (f := fun t => ∀ flag ∈ t.flags, P flag) (g := fun x => ∀ flag ∈ x.1.flags, P flag)
    fun x t own => by
      simp only [own.flags, Sorted.mem_dedup, Names.sort, Sorted.mem_sort]
  rw [map_zipIdx fun t : Config.Tile => ∀ flag ∈ t.flags, P flag] at same
  exact forall_mem_iff_of_map_perm same id

end Tiles

theorem compileGroups_members {authored : List Config.Group} {groups : List Group}
    (h : compileGroups authored = .ok groups) (P : String → Prop) :
    (∀ g ∈ groups, ∀ member ∈ g.tiles.toList, P member) ↔ ∀ g ∈ authored, ∀ member ∈ g.tiles, P member := by
  obtain ⟨-, rfl⟩ := compileGroups_eq_ok h
  simp only [Names.sort, Sorted.mem_sort, List.forall_mem_map, Config.Group.exact, List.toList_toArray]

theorem Config.compile_screens (config : Config) : config.compile.Screens config.WellFormed := by
  have stages : config.compile.Screens (config.flags.Nodup ∧
      ((∀ g ∈ config.groups, g.WellFormed) ∧ config.groupNames.Nodup) ∧
      ((∀ t ∈ config.tiles, t.WellFormed) ∧ config.tileNames.Nodup ∧
        ∀ t ∈ config.tiles, t.name ∉ config.groupNames) ∧
      (∀ t ∈ config.tiles, ∀ flag ∈ t.flags, flag ∈ config.flags) ∧
      (∀ g ∈ config.groups, ∀ member ∈ g.tiles, member ∈ config.tileNames) ∧
      ∀ t ∈ config.tiles, ∀ rule ∈ t.rules, ∀ copy ∈ rule.copies, ∀ r ∈ copy.looks, config.Targets r.name) := by
    apply Screens.bind (Names.distinct_screens (List.map_id config.flags) _)
    intro _ once
    have flagTable : Names.Tabulates (Names.sort config.flags).toArray config.flags := by
      have apart := Names.duplicate?_sort_eq_none_iff.mp (Compiling.distinct_eq_ok.mp once)
      exact (List.map_id config.flags).subst (Names.tabulates_sort apart)
    apply Screens.bind (compileGroups_screens config.groups)
    intro groups grouped
    have groupTable := compileGroups_tabulates grouped
    apply Screens.bind (compileTiles_screens groupTable config.tiles)
    intro tiles compiled
    have tileTable := compileTiles_tabulates compiled
    apply Screens.bind ((resolveFlags_screens flagTable tiles).congr (compileTiles_flags compiled _))
    intro flagged flags
    have flaggedTable := tileTable.congr (resolveFlags_map (f := name) flags fun _ _ => rfl)
    apply Screens.bind ((resolveMembers_screens flaggedTable groups).congr (compileGroups_members grouped _))
    intro members found
    apply Screens.after (Screens.lift _)
    intro corners _
    apply Screens.after (Screens.lift _)
    intro range _
    have numbered := numberTiles_tabulates tileTable flags
    have memberTable := groupTable.congr (resolveMembers_map found fun _ _ => rfl)
    have looked := (numberTiles_wanted flags config.Targets).trans (compileTiles_wanted compiled config.Targets)
    apply Screens.before ((Screens.mapM fun t _ => t.resolve_screens numbered memberTable).congr looked)
    intro resolved _
    exact Screens.pure _
  apply stages.congr
  rw [config.wellFormed_iff]
  tauto

/-- Arithmetic is the only other thing that may go wrong. -/
theorem Config.compile_ok_iff (config : Config) : (∃ c, config.compile = .ok c) ↔ config.WellFormed ∧ config.Fits := by
  constructor
  · rintro ⟨c, done⟩
    exact ⟨config.compile_screens.result done, config.compile_needs.result done⟩
  · rintro ⟨sound, fits⟩
    cases done : config.compile with
    | ok c => exact ⟨c, rfl⟩
    | error e =>
      cases e with
      | invalid reason => exact absurd sound (config.compile_screens.refusal done)
      | fault cause => exact absurd fits (config.compile_needs.fault done).2

/-- The checks accept neither less nor more than what is well-formed, in whatever order the parts are written. -/
theorem accepted_iff_wellFormed {config : Config} (steady : ∀ cause, config.compile ≠ .error (.fault cause)) :
    (∃ c, config.compile = .ok c) ↔ config.WellFormed := by
  constructor
  · rintro ⟨c, done⟩
    exact config.compile_screens.result done
  · intro sound
    cases done : config.compile with
    | ok c => exact ⟨c, rfl⟩
    | error e =>
      cases e with
      | invalid reason => exact absurd sound (config.compile_screens.refusal done)
      | fault cause => exact absurd done (steady cause)

/-- Two tiles of one group, neither written in the order of its names. The hedge has a rule with a copy, and both are
repeated under a rotation. -/
def orchardConfig : Config := {
  flags := ["tall", "solid"]
  groups := [{ name := "plants", tiles := ["hedge", "bush"] }]
  tiles := [
    { name := "hedge", layer := "mid", flags := ["tall"], defaultVariant := "trunk", displayVariant := "end"
      variants := [{ name := "trunk", texture := ⟨1, 0⟩, size := ⟨2, 1⟩ }, { name := "end", texture := ⟨0, 0⟩ }]
      rules := [{
        results := [{ name := "end" }]
        requires := [{ name := "plants", offset := ⟨1, 0⟩ }]
        requiresNot := [{ name := "", offset := ⟨-1, 0⟩ }]
        reqVariants := ["trunk", "end", "trunk"]
        matrices := [.rotate90]
        period := { size := ⟨2, 1⟩, offsets := [⟨1, 0⟩] }
        duplicate := [{ matrix := .flipX
                        results := [{ name := "trunk", chance := some ⟨0x3E800000⟩ }, { name := "end" }] }] }] },
    { name := "bush", layer := "mid", flags := ["solid"], defaultVariant := "leaf", displayVariant := "leaf"
      variants := [{ name := "leaf", texture := ⟨0, 1⟩, offset := ⟨0, -1⟩ }]
      rules := [{ results := [{ name := "leaf" }], requires := [{ name := "hedge", offset := ⟨0, 2⟩ }] }] }] }

def orchardCatalog : Catalog := {
  flags := #["solid", "tall"]
  groups := #[⟨"plants", #["bush", "hedge"], #[0, 1]⟩]
  tiles := #[
    { name := "bush", layer := .mid, flags := ["solid"], authoredIndex := 1
      variants := #[⟨"leaf", ⟨0, 1⟩, ⟨1, 1⟩, ⟨0, -1⟩, ⟨0, 0⟩, ⟨0, 512⟩, ⟨12, 12⟩, ⟨0, -12⟩, ⟨0⟩⟩]
      rules := #[{
        authoredIndex := 0
        results := [⟨"leaf", ⟨0x3F800000⟩, 0⟩]
        requires := [⟨"hedge", ⟨0, 2⟩, .tile 1⟩]
        requiresNot := []
        reqVariants := #[]
        period := ⟨⟨1, 1⟩, []⟩ }]
      flagBits := #[true, false], defaultVariant := 0, displayVariant := 0 },
    { name := "hedge", layer := .mid, flags := ["tall"], authoredIndex := 0
      variants := #[
        ⟨"end", ⟨0, 0⟩, ⟨1, 1⟩, ⟨0, 0⟩, ⟨0, 0⟩, ⟨0, 512⟩, ⟨12, 12⟩, ⟨0, 0⟩, ⟨1⟩⟩,
        ⟨"trunk", ⟨1, 0⟩, ⟨2, 1⟩, ⟨0, 0⟩, ⟨0, 0⟩, ⟨12, 512⟩, ⟨24, 12⟩, ⟨0, 0⟩, ⟨2⟩⟩]
      rules := #[
        { authoredIndex := 0
          results := [⟨"end", ⟨0x3F800000⟩, 0⟩]
          requires := [⟨"plants", ⟨1, 0⟩, .group 0⟩, ⟨"plants", ⟨0, 1⟩, .group 0⟩]
          requiresNot := [⟨"", ⟨-1, 0⟩, .any⟩, ⟨"", ⟨0, -1⟩, .any⟩]
          reqVariants := #[0, 1]
          period := ⟨⟨2, 1⟩, [⟨1, 0⟩]⟩ },
        { authoredIndex := 0
          results := [⟨"trunk", ⟨0x3E800000⟩, 1⟩, ⟨"end", ⟨0x3F400000⟩, 0⟩]
          requires := [⟨"plants", ⟨-1, 0⟩, .group 0⟩, ⟨"plants", ⟨0, -1⟩, .group 0⟩]
          requiresNot := [⟨"", ⟨1, 0⟩, .any⟩, ⟨"", ⟨0, 1⟩, .any⟩]
          reqVariants := #[0, 1]
          period := ⟨⟨2, 1⟩, [⟨1, 0⟩]⟩ }]
      flagBits := #[false, true], defaultVariant := 1, displayVariant := 0 }]
  infos := #[⟨0, 0, "bush", "leaf"⟩, ⟨1, 0, "hedge", "end"⟩, ⟨1, 1, "hedge", "trunk"⟩]
  range := ⟨1, 2⟩
  footprintLow := ⟨0, -1⟩
  footprintHigh := ⟨1, 0⟩ }

theorem orchardConfig_compile : orchardConfig.compile = .ok orchardCatalog := by decide +kernel

theorem accepted_iff_wellFormed_orchard :
    (∀ cause, orchardConfig.compile ≠ .error (.fault cause)) ∧ orchardConfig.WellFormed ∧
    (∀ cause, ({ orchardConfig with flags := ["tall"] } : Config).compile ≠ .error (.fault cause)) ∧
    ¬∃ c, ({ orchardConfig with flags := ["tall"] } : Config).compile = .ok c := by
  have steady : ∀ cause, orchardConfig.compile ≠ .error (.fault cause) := by
    rw [orchardConfig_compile]
    exact nofun
  have refused : ({ orchardConfig with flags := ["tall"] } : Config).compile =
      .error (.invalid (.unknownFlag "solid" "bush")) := by decide +kernel
  have still : ∀ cause, ({ orchardConfig with flags := ["tall"] } : Config).compile ≠ .error (.fault cause) := by
    rw [refused]
    exact nofun
  refine ⟨steady, (accepted_iff_wellFormed steady).mp ⟨_, orchardConfig_compile⟩, still, ?_⟩
  rw [accepted_iff_wellFormed still]
  decide

end Tilework
