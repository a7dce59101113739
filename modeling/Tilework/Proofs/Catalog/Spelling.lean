import Tilework.Proofs.Autotile.Evaluate
import Tilework.Proofs.Catalog.Agreement
import Tilework.Proofs.Catalog.WellFormed

namespace Tilework

namespace Config

namespace Rule

def flat (rule : Rule) : Rule :=
  { rule with
    requires := spread rule.matrices rule.requires
    requiresNot := spread rule.matrices rule.requiresNot
    matrices := []
    duplicate := [] }

def spelled (rule : Rule) : List Rule := rule.copies.map flat

/-- The images of offsets under templates and matrices stay in range. -/
@[mk_iff] structure Carried (rule : Rule) : Prop where
  templates : ∀ template ∈ rule.duplicate, ∀ r ∈ rule.looks, template.matrix.Carries r.offset
  matrices : ∀ copy ∈ rule.copies, ∀ m ∈ copy.matrices, ∀ r ∈ copy.looks, m.Carries r.offset

instance (rule : Rule) : Decidable rule.Carried := decidable_of_iff _ rule.carried_iff.symm

theorem copies_flat (rule : Rule) : rule.flat.copies = [rule.flat] := rfl

theorem looks_flat (rule : Rule) : rule.flat.looks = rule.sights := rfl

theorem sights_flat (rule : Rule) : rule.flat.sights = rule.sights := by
  simp only [sights, flat, spread_nil]

theorem flat_wellFormed {rule : Rule} {names : List String} : rule.flat.WellFormed names ↔ rule.WellFormed names :=
  ⟨fun ⟨results, period, reqVariants⟩ => ⟨results, period, reqVariants⟩,
    fun ⟨results, period, reqVariants⟩ => ⟨results, period, reqVariants⟩⟩

theorem flat_fits {rule : Rule} : rule.flat.Fits ↔ ∀ r ∈ rule.sights, r.offset.abs.Fits := by
  constructor
  · intro fits
    have distances := fits.distances rule.flat (by simp [copies_flat])
    rwa [sights_flat] at distances
  · intro distances
    constructor
    · exact nofun
    · rw [copies_flat, List.forall_mem_singleton]
      exact nofun
    · rwa [copies_flat, List.forall_mem_singleton, sights_flat]

theorem fits_iff_carried (rule : Rule) : rule.Fits ↔ rule.Carried ∧ ∀ copy ∈ rule.spelled, copy.Fits := by
  simp only [fits_iff rule, carried_iff, spelled, List.forall_mem_map, flat_fits, and_assoc]

end Rule

def Tile.spelled (t : Tile) : Tile := { t with rules := t.rules.flatMap Rule.spelled }

def spelled (config : Config) : Config := { config with tiles := config.tiles.map Tile.spelled }

def Carried (config : Config) : Prop := ∀ t ∈ config.tiles, ∀ rule ∈ t.rules, rule.Carried

instance (config : Config) : Decidable config.Carried :=
  inferInstanceAs (Decidable (∀ t ∈ config.tiles, ∀ rule ∈ t.rules, rule.Carried))

namespace Tile

variable {t : Tile}

theorem forall_mem_spelled {P : Rule → Prop} :
    (∀ rule ∈ t.spelled.rules, ∀ copy ∈ rule.copies, P copy) ↔ ∀ rule ∈ t.rules, ∀ copy ∈ rule.copies, P copy.flat := by
  simp only [spelled, Rule.spelled, List.forall_mem_flatMap, List.forall_mem_map, Rule.copies_flat,
    List.forall_mem_singleton]

theorem spelled_wellFormed : t.spelled.WellFormed ↔ t.WellFormed := by
  rw [wellFormed_iff, wellFormed_iff, forall_mem_spelled]
  simp only [Rule.flat_wellFormed]
  rfl

theorem fits_iff_spelled (t : Tile) : t.Fits ↔ (∀ rule ∈ t.rules, rule.Carried) ∧ t.spelled.Fits := by
  have rules : (∀ rule ∈ t.rules, rule.Fits) ↔
      (∀ rule ∈ t.rules, rule.Carried) ∧ ∀ rule ∈ t.spelled.rules, rule.Fits := by
    rw [spelled, List.forall_mem_flatMap, ← forall₂_and]
    exact forall₂_congr fun rule _ => rule.fits_iff_carried
  rw [fits_iff, fits_iff, rules]
  simp only [spelled]
  tauto

end Tile

theorem spelled_tileNames (config : Config) : config.spelled.tileNames = config.tileNames := by
  simp only [tileNames, spelled, List.map_map]
  rfl

theorem spelled_wellFormed {config : Config} : config.spelled.WellFormed ↔ config.WellFormed := by
  have tiles : ∀ {P : Tile → Prop}, (∀ t ∈ config.spelled.tiles, P t) ↔ ∀ t ∈ config.tiles, P t.spelled :=
    List.forall_mem_map
  have targets : ∀ t : Tile, (∀ rule ∈ t.spelled.rules, ∀ copy ∈ rule.copies, ∀ r ∈ copy.looks, config.Targets r.name) ↔
      ∀ rule ∈ t.rules, ∀ copy ∈ rule.copies, ∀ r ∈ copy.looks, config.Targets r.name := by
    intro t
    simp only [Tile.forall_mem_spelled (P := fun copy => ∀ r ∈ copy.looks, config.Targets r.name), Rule.looks_flat,
      Rule.forall_mem_sights_name]
  have same : config.spelled.Targets = config.Targets := by
    funext key
    rw [Targets, spelled_tileNames]
    rfl
  rw [wellFormed_iff, wellFormed_iff, spelled_tileNames, same]
  simp only [tiles, targets, Tile.spelled_wellFormed]
  rfl

theorem fits_iff_carried {config : Config} : config.Fits ↔ config.Carried ∧ config.spelled.Fits := by
  rw [Fits, Fits, Carried, spelled, List.forall_mem_map, ← forall₂_and]
  exact forall₂_congr fun t _ => t.fits_iff_spelled

theorem expanded_spelled (rules : List Rule) :
    List.Forall₂ (fun x y => y.2 = x.2.flat) (expanded rules) (expanded (rules.flatMap Rule.spelled)) := by
  have same : ((expanded rules).map Prod.snd).map Rule.flat = (expanded (rules.flatMap Rule.spelled)).map Prod.snd := by
    rw [expanded_rules, expanded_rules, List.flatMap_assoc, List.map_flatMap]
    simp only [Rule.spelled, List.flatMap_map, Rule.copies_flat, ← List.map_eq_flatMap]
  rw [List.map_map, ← List.forall₂_eq_eq_eq, List.forall₂_map_left_iff, List.forall₂_map_right_iff] at same
  exact same.imp fun _ _ => Eq.symm

end Config

def Rule.unplaced (r : Rule) : Rule := { r with authoredIndex := 0 }

def Tile.unplaced (t : Tile) : Tile := { t with rules := t.rules.map Rule.unplaced }

def Catalog.unplaced (c : Catalog) : Catalog := { c with tiles := c.tiles.map Tile.unplaced }

theorem Rule.Compiled.unplaced {variants : Array Variant} {place next : Nat} {source : Config.Rule} {r s : Rule}
    (first : r.Compiled variants place source) (second : s.Compiled variants next source.flat) :
    s.unplaced = r.unplaced := by
  have requires : s.requires = r.requires := by
    rw [second.requires, first.requires]
    simp only [Config.Rule.flat, Config.spread_nil]
  have requiresNot : s.requiresNot = r.requiresNot := by
    rw [second.requiresNot, first.requiresNot]
    simp only [Config.Rule.flat, Config.spread_nil]
  have results : s.results = r.results := by
    refine List.right_unique_forall₂' ?_ second.results first.results
    rintro a _ _ ⟨v, found, rfl⟩ ⟨w, again, rfl⟩
    rw [Option.some.inj (found.symm.trans again)]
  have reqVariants : s.reqVariants = r.reqVariants := first.reqVariants_eq second rfl
  have period : s.period = r.period := second.period.trans first.period.symm
  simp only [Rule.unplaced, requires, requiresNot, results, reqVariants, period]

theorem Tile.resolveFlags_unplaced {flags : Array String} {t u : Tile} (h : t.resolveFlags flags = .ok u) :
    t.unplaced.resolveFlags flags = .ok u.unplaced := by
  obtain ⟨indices, found, h⟩ := bind_eq_ok.mp h
  cases h
  exact bind_eq_ok.mpr ⟨indices, found, rfl⟩

theorem Rule.resolve_unplaced {tiles : Array Tile} {groups : Array Group} {tile : String} {r s : Rule}
    (h : r.resolve tiles groups tile = .ok s) : r.unplaced.resolve tiles groups tile = .ok s.unplaced := by
  obtain ⟨requires, wanted, h⟩ := bind_eq_ok.mp h
  obtain ⟨requiresNot, unwanted, h⟩ := bind_eq_ok.mp h
  cases h
  exact bind_eq_ok.mpr ⟨requires, wanted, bind_eq_ok.mpr ⟨requiresNot, unwanted, rfl⟩⟩

theorem Tile.resolve_unplaced {tiles : Array Tile} {groups : Array Group} {t u : Tile}
    (h : t.resolve tiles groups = .ok u) : t.unplaced.resolve tiles groups = .ok u.unplaced := by
  obtain ⟨rules, found, h⟩ := bind_eq_ok.mp h
  cases h
  refine bind_eq_ok.mpr ⟨rules.map Rule.unplaced, ?_, ?_⟩
  · rw [unplaced, Array.toList_map]
    exact mapM_map_of_ok (fun _ _ => Rule.resolve_unplaced) found
  · simp [unplaced, pure, Except.pure]

theorem Tile.unplaced_sights (t : Tile) : t.unplaced.sights = t.sights := by
  simp only [sights, unplaced, Array.toList_map, List.flatMap_map]
  rfl

theorem unplaced_kept : Kept fun t u => u.unplaced = t.unplaced := by
  constructor
  · intro t u same
    exact (congrArg Tile.name same : u.unplaced.name = t.unplaced.name)
  · intro t u same
    exact (congrArg Tile.variants same : u.unplaced.variants = t.unplaced.variants)
  · intro t u same
    rw [← u.unplaced_sights, same, t.unplaced_sights]
  · intro flags t u t' u' same first second
    have found := Tile.resolveFlags_unplaced second
    rw [same, Tile.resolveFlags_unplaced first] at found
    exact (Except.ok.inj found).symm
  · intro t u first same
    exact (congrArg (Tile.numbered · first) same : u.unplaced.numbered first = t.unplaced.numbered first)
  · intro tiles groups t u t' u' same first second
    have found := Tile.resolve_unplaced second
    rw [same, Tile.resolve_unplaced first] at found
    exact (Except.ok.inj found).symm

theorem Tile.Compiled.unplaced {place : Nat} {source : Config.Tile} {t u : Tile} (first : t.Compiled place source)
    (second : u.Compiled place source.spelled) : u.unplaced = t.unplaced := by
  have variants : u.variants = t.variants := Except.ok.inj (second.variants.symm.trans first.variants)
  have rules : u.rules.map Rule.unplaced = t.rules.map Rule.unplaced := by
    have again := second.rules
    rw [variants] at again
    have pairs : List.Forall₂ (fun r s => s.unplaced = r.unplaced) t.rules.toList u.rules.toList := by
      refine forall₂_steps ?_ (Config.expanded_spelled source.rules) first.rules again
      rintro x ⟨next, _⟩ r s rfl compiled spelled
      exact (Rule.compile_eq_ok compiled).unplaced (Rule.compile_eq_ok spelled)
    rw [← Array.toList_inj, Array.toList_map, Array.toList_map]
    exact map_eq_of_forall₂ (fun _ _ same => same) pairs
  rw [first.determined second rfl rfl rfl rfl rfl variants, Tile.unplaced, Tile.unplaced, rules, first.authoredIndex]

theorem compileTiles_spelled {groups : List Group} {authored : List Config.Tile} {tiles spelled : List Tile}
    (first : compileTiles groups authored = .ok tiles)
    (second : compileTiles groups (authored.map Config.Tile.spelled) = .ok spelled) :
    List.Forall₂ (fun t u => u.unplaced = t.unplaced) tiles spelled := by
  obtain ⟨compiled, each, -, rfl⟩ := compileTiles_eq_ok first
  obtain ⟨again, eachAgain, -, rfl⟩ := compileTiles_eq_ok second
  rw [List.zipIdx_map, List.forall₂_map_left_iff] at eachAgain
  have pairs : List.Forall₂ (fun t u => u.unplaced = t.unplaced) compiled again := by
    refine forall₂_steps ?_ (List.forall₂_same.mpr fun x _ => (rfl : x = x)) each eachAgain
    rintro x _ t u rfl compiled spelled
    exact compiled.unplaced spelled
  apply Sorted.sort_forall₂ _ pairs
  intro a b a' b' first second
  simp only [Names.le, Named.name, unplaced_kept.name a a' first, unplaced_kept.name b b' second]

theorem Compilation.unplaced_eq {config : Config} {c d : Catalog} (stages : Compilation config c)
    (again : Compilation config.spelled d) : d.unplaced = c.unplaced := by
  have flags : d.flags = c.flags := again.flags_eq.trans stages.flags_eq.symm
  have groups : again.groups = stages.groups := Except.ok.inj (again.groups_compiled.symm.trans stages.groups_compiled)
  have compiled := again.tiles_compiled
  rw [groups] at compiled
  have same := compileTiles_spelled stages.tiles_compiled compiled
  obtain ⟨flags, groups, tiles, infos, range, low, high⟩ := unplaced_kept.agree stages again flags groups same
  have tables : d.tiles.map Tile.unplaced = c.tiles.map Tile.unplaced := by
    rw [← Array.toList_inj, Array.toList_map, Array.toList_map]
    exact map_eq_of_forall₂ (fun _ _ related => related) tiles
  simp only [Catalog.unplaced, flags, groups, tables, infos, range, low, high]

section Evaluation

variable (c : Catalog) (g : Grid) (p : Vec)

theorem Catalog.unplaced_tileAt (i : Nat) : c.unplaced.tileAt i = (c.tileAt i).map Tile.unplaced := by
  simp only [tileAt, entryAt, unplaced, Array.getElem?_map]
  cases c.tiles[i]? <;> rfl

theorem Requirement.holds_unplaced (r : Requirement) : r.holds c.unplaced g p = r.holds c g p := by
  have met : ∀ cell, r.metBy c.unplaced cell = r.metBy c cell := by
    intro cell
    unfold metBy
    cases r.target with
    | any => rfl
    | tile i =>
      simp only [Catalog.unplaced_tileAt]
      cases c.tileAt i <;> rfl
    | group i => rfl
  simp only [holds_eq, met]

theorem Rule.fires_unplaced (rule : Rule) (candidate : Nat) :
    rule.unplaced.fires c.unplaced g p candidate = rule.fires c g p candidate := by
  have wanted := allHold_congr fun r (_ : r ∈ rule.requires) => r.holds_unplaced c g p
  have unwanted := anyHolds_congr fun r (_ : r ∈ rule.requiresNot) => r.holds_unplaced c g p
  simp only [fires, unplaced, wanted, unwanted]
  rfl

variable {σ : Type} [DrawSource σ]

theorem refineVariant_unplaced (rules : List Rule) (candidate : Nat) :
    (refineVariant c.unplaced g p (rules.map Rule.unplaced) candidate : Drawing σ Nat) =
      refineVariant c g p rules candidate := by
  induction rules generalizing candidate with
  | nil => rfl
  | cons rule rest ih =>
    rw [List.map_cons, refineVariant, refineVariant, rule.fires_unplaced]
    simp only [ih]
    rfl

theorem evaluateId_unplaced (id : TileId) :
    (evaluateId c.unplaced g p id : Drawing σ TileId) = evaluateId c g p id := by
  have info : c.unplaced.info? id = c.info? id := rfl
  unfold evaluateId
  rw [info]
  cases c.info? id with
  | none => rfl
  | some info =>
    simp only [Catalog.unplaced_tileAt]
    cases c.tileAt info.tile with
    | error cause => simp only [Except.map, Drawing.lift_error_bind]
    | ok tile =>
      simp only [Except.map, Drawing.lift_ok_bind, Tile.unplaced, Array.toList_map, refineVariant_unplaced]

theorem evaluate_unplaced : (evaluate c.unplaced g p : Drawing σ Cell) = evaluate c g p := by
  have slots : ∀ slot, (evaluateSlot c.unplaced g p slot : Drawing σ (Option TileId)) = evaluateSlot c g p slot := by
    intro slot
    cases slot with
    | none => rfl
    | some id => simp only [evaluateSlot, evaluateId_unplaced]
  simp only [evaluate, slots]

end Evaluation

/-- A catalog compiles if and only if the products of its matrices and offsets stay in range and it compiles without
templates and matrices. The two catalogs then only differ in the places of their rules, and evaluate every cell alike. -/
theorem shorthand_spelled (config : Config) :
    ((∃ c, config.compile = .ok c) ↔ config.Carried ∧ ∃ d, config.spelled.compile = .ok d) ∧
      ∀ {c d : Catalog}, config.compile = .ok c → config.spelled.compile = .ok d →
        d.unplaced = c.unplaced ∧
          ∀ (g : Grid) (p : Vec) {σ : Type} [DrawSource σ], (evaluate d g p : Drawing σ Cell) = evaluate c g p := by
  constructor
  · rw [config.compile_ok_iff, config.spelled.compile_ok_iff, config.spelled_wellFormed, config.fits_iff_carried]
    tauto
  · intro c d first second
    obtain ⟨stages⟩ := compile_eq_ok first
    obtain ⟨again⟩ := compile_eq_ok second
    have same := stages.unplaced_eq again
    refine ⟨same, ?_⟩
    intro g p σ _
    rw [← evaluate_unplaced (σ := σ) d, same, evaluate_unplaced]

theorem shorthand_spelled_orchard :
    orchardConfig.Carried ∧ orchardConfig.spelled.tiles.map (fun t => t.rules.length) = [2, 1] ∧
    ∃ d, orchardConfig.spelled.compile = .ok d ∧ d.unplaced = orchardCatalog.unplaced := by
  obtain ⟨compiles, agree⟩ := shorthand_spelled orchardConfig
  obtain ⟨carried, d, done⟩ := compiles.mp ⟨_, orchardConfig_compile⟩
  exact ⟨carried, by decide, d, done, (agree orchardConfig_compile done).1⟩

end Tilework
