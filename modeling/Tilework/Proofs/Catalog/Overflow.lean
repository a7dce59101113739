import Tilework.Proofs.Catalog.Origin
import Tilework.Proofs.Plane.Moderate

namespace Tilework

open Compiling (Needs Free)

namespace Tile

def boxes (t : Tile) : List (Vec × Vec) := t.variants.toList.map fun v => (v.offset, v.size)

def sights (t : Tile) : List Vec := t.rules.toList.flatMap fun rule => rule.requirements.map Requirement.offset

end Tile

namespace Config.Tile

def boxes (t : Tile) : List (Vec × Vec) := t.variants.map Variant.box

def sights (t : Tile) : List Vec :=
  (expanded t.rules).flatMap fun x => x.2.sights.map Requirement.offset

theorem forall_mem_sights {P : Vec → Prop} {t : Tile} :
    (∀ offset ∈ t.sights, P offset) ↔ ∀ rule ∈ t.rules, ∀ copy ∈ rule.copies, ∀ r ∈ copy.sights, P r.offset := by
  simp only [sights, List.forall_mem_flatMap, List.forall_mem_map]
  exact forall_mem_expanded (P := fun copy => ∀ r ∈ copy.sights, P r.offset)

end Config.Tile

theorem compileVariants_boxes {tile : String} {authored : List Config.Variant} {variants : Array Variant}
    (h : compileVariants tile authored = .ok variants) :
    (variants.toList.map fun v => (v.offset, v.size)).Perm (authored.map Config.Variant.box) := by
  obtain ⟨-, rfl⟩ := compileVariants_eq_ok h
  have same : (authored.map Config.Variant.exact).map (fun v => (v.offset, v.size)) = authored.map Config.Variant.box :=
    List.map_map
  rw [← same]
  exact (Sorted.sort_perm _).map _

theorem Rule.Compiled.sights {variants : Array Variant} {i : Nat} {authored : Config.Rule} {rule : Rule}
    (compiled : rule.Compiled variants i authored) :
    rule.requirements.map Requirement.offset = authored.sights.map Config.Requirement.offset := by
  rw [Rule.requirements, compiled.requires, compiled.requiresNot]
  simp only [Config.Rule.sights, List.map_append, List.map_map]
  rfl

theorem Tile.Compiled.traces {i : Nat} {authored : Config.Tile} {t : Tile} (compiled : t.Compiled i authored) :
    t.boxes.Perm authored.boxes ∧ t.sights.Perm authored.sights := by
  refine ⟨compileVariants_boxes compiled.variants, ?_⟩
  apply flatMap_perm_of_forall₂ _ compiled.rules
  intro x rule from_authored
  rw [(Rule.compile_eq_ok from_authored).sights]

theorem compileTiles_traces {groups : List Group} {authored : List Config.Tile} {tiles : List Tile}
    (h : compileTiles groups authored = .ok tiles) :
    (tiles.flatMap Tile.boxes).Perm (authored.flatMap Config.Tile.boxes) ∧
      (tiles.flatMap Tile.sights).Perm (authored.flatMap Config.Tile.sights) := by
  constructor
  · exact compileTiles_flatMap h fun _ _ _ own => own.traces.1
  · exact compileTiles_flatMap h fun _ _ _ own => own.traces.2

theorem resolveFlags_traces {flags : Array String} {tiles flagged : List Tile}
    (h : tiles.mapM (Tile.resolveFlags flags) = .ok flagged) :
    flagged.flatMap Tile.boxes = tiles.flatMap Tile.boxes ∧ flagged.flatMap Tile.sights = tiles.flatMap Tile.sights := by
  simp only [List.flatMap_def]
  rw [resolveFlags_map h fun _ _ => rfl, resolveFlags_map h fun _ _ => rfl]
  exact ⟨rfl, rfl⟩

theorem Tile.numbered_boxes (t : Tile) (first : Nat) : (t.numbered first).boxes = t.boxes := numbered_map fun _ _ => rfl

theorem numberTiles_traces (next : Nat) (tiles : List Tile) :
    (numberTiles next tiles).flatMap Tile.boxes = tiles.flatMap Tile.boxes ∧
      (numberTiles next tiles).flatMap Tile.sights = tiles.flatMap Tile.sights := by
  simp only [List.flatMap_def]
  rw [numberTiles_map Tile.numbered_boxes, numberTiles_map fun _ _ => rfl]
  exact ⟨rfl, rfl⟩

theorem extents_exact (tiles : List Tile) :
    Exact ((tiles.flatMap fun t => t.variants.toList).mapM Variant.extent)
      (∀ v ∈ tiles.flatMap fun t => t.variants.toList, BoxFits (v.offset, v.size))
      ((tiles.flatMap fun t => t.variants.toList).map fun v => (v.offset, v.offset + v.size - Vec.one)) := by
  apply Exact.mapM
  intro v _
  exact (Exact.fit _).bind ((Exact.fit _).map _)

theorem footprint_exact (tiles : List Tile) :
    ∃ corners, Exact (footprint tiles) (∀ box ∈ tiles.flatMap Tile.boxes, BoxFits box) corners := by
  have extents := extents_exact tiles
  have all : (∀ v ∈ tiles.flatMap fun t => t.variants.toList, BoxFits (v.offset, v.size)) ∧ True ↔
      ∀ box ∈ tiles.flatMap Tile.boxes, BoxFits box := by
    simp only [and_true, List.forall_mem_flatMap, Tile.boxes, List.forall_mem_map]
  cases found : (tiles.flatMap fun t => t.variants.toList).map fun v => (v.offset, v.offset + v.size - Vec.one) with
  | nil =>
    rw [found] at extents
    refine ⟨(Vec.zero, Vec.zero), Exact.congr ?_ all⟩
    apply Exact.bind extents
    exact Exact.pure _
  | cons first rest =>
    rw [found] at extents
    exact ⟨_, Exact.congr (extents.bind (Exact.pure _)) all⟩

theorem lookRange_exact (tiles : List Tile) :
    ∃ range, Exact (lookRange tiles) (∀ offset ∈ tiles.flatMap Tile.sights, offset.abs.Fits) range := by
  refine ⟨(tiles.flatMap fun t => t.rules.toList.flatMap Rule.requirements).foldl (fun range r => range.max r.offset.abs)
    Vec.zero, ?_⟩
  apply Exact.congr
  apply Exact.foldlM
  · intro range r _
    exact (Exact.fit r.offset.abs).map _
  · simp only [List.forall_mem_flatMap, Tile.sights, List.forall_mem_map]

theorem Requirement.resolve_free (tiles : Array Tile) (groups : Array Group) (tile : String) (r : Requirement) :
    (r.resolve tiles groups tile).Free := by
  unfold resolve
  split
  · exact Needs.pure _
  · split
    · exact Needs.pure _
    · apply Needs.after (Needs.found _ _)
      intro i _
      exact Needs.pure _

theorem Rule.resolve_free (tiles : Array Tile) (groups : Array Group) (tile : String) (r : Rule) :
    (r.resolve tiles groups tile).Free := by
  apply Needs.after (Needs.mapM_free fun r _ => r.resolve_free tiles groups tile)
  intro requires _
  apply Needs.after (Needs.mapM_free fun r _ => r.resolve_free tiles groups tile)
  intro requiresNot _
  exact Needs.pure _

theorem Tile.resolve_free (tiles : Array Tile) (groups : Array Group) (t : Tile) : (t.resolve tiles groups).Free := by
  apply Needs.after (Needs.mapM_free fun r _ => r.resolve_free tiles groups t.name)
  intro rules _
  exact Needs.pure _

theorem compileGroups_free (groups : List Config.Group) : (compileGroups groups).Free := by
  have each : ∀ g ∈ groups, (Group.compile g).Free := by
    intro g _
    apply Needs.after (Needs.ensure _ _)
    intro _ _
    apply Needs.after (Needs.distinct _ _)
    intro _ _
    exact Needs.pure _
  apply Needs.after (Needs.mapM_free each)
  intro compiled _
  apply Needs.after (Needs.distinct _ _)
  intro _ _
  exact Needs.pure _

theorem Tile.resolveFlags_free (flags : Array String) (t : Tile) : (t.resolveFlags flags).Free := by
  apply Needs.after (Needs.mapM_free fun flag _ => Needs.found _ _)
  intro indices _
  exact Needs.pure _

theorem Group.resolveMembers_free (tiles : Array Tile) (g : Group) : (g.resolveMembers tiles).Free := by
  apply Needs.after (Needs.mapM_free fun member _ => Needs.found _ _)
  intro indices _
  exact Needs.pure _

theorem Config.fits_iff (config : Config) : config.Fits ↔ (∀ t ∈ config.tiles, t.Steady) ∧
    (∀ box ∈ config.tiles.flatMap Config.Tile.boxes, BoxFits box) ∧
    ∀ offset ∈ config.tiles.flatMap Config.Tile.sights, offset.abs.Fits := by
  rw [List.forall_mem_flatMap, List.forall_mem_flatMap]
  constructor
  · intro fits
    refine ⟨?_, ?_, ?_⟩
    · intro t member
      have rules := (fits t member).rules
      exact ⟨(fits t member).variants, fun rule among => (rules rule among).templates,
        fun rule among => (rules rule among).matrices⟩
    · intro t member
      exact List.forall_mem_map.mpr (fits t member).boxes
    · intro t member
      exact Config.Tile.forall_mem_sights.mpr fun rule among => ((fits t member).rules rule among).distances
  · rintro ⟨steady, boxes, sights⟩ t member
    have own := steady t member
    constructor
    · exact own.variants
    · exact List.forall_mem_map.mp (boxes t member)
    · intro rule among
      have distances := Config.Tile.forall_mem_sights.mp (sights t member) rule among
      exact ⟨own.templates rule among, own.matrices rule among, distances⟩

theorem Config.compile_needs (config : Config) : config.compile.Needs config.Fits := by
  apply Needs.congr ?_ config.fits_iff.symm
  apply Needs.after (Needs.distinct _ _)
  intro _ _
  apply Needs.after (compileGroups_free config.groups)
  intro groups _
  apply Needs.bind (compileTiles_needs groups config.tiles)
  intro tiles compiled
  obtain ⟨boxes, sights⟩ := compileTiles_traces compiled
  apply Needs.after (Needs.mapM_free fun t _ => t.resolveFlags_free _)
  intro flagged found
  obtain ⟨sameBoxes, sameSights⟩ := resolveFlags_traces found
  apply Needs.after (Needs.mapM_free fun g _ => g.resolveMembers_free _)
  intro members _
  obtain ⟨corners, footprint⟩ := footprint_exact (numberTiles 0 flagged)
  obtain ⟨range, looked⟩ := lookRange_exact (numberTiles 0 flagged)
  rw [(numberTiles_traces _ _).1, sameBoxes] at footprint
  rw [(numberTiles_traces _ _).2, sameSights] at looked
  apply Needs.bind ((Needs.lift footprint).congr (forall_congr' fun box => imp_congr_left boxes.mem_iff))
  intro _ _
  apply Needs.before ((Needs.lift looked).congr (forall_congr' fun offset => imp_congr_left sights.mem_iff))
  intro _ _
  apply Needs.after (Needs.mapM_free fun t _ => t.resolve_free _ _)
  intro resolved _
  exact Needs.pure _

theorem Config.compile_eq_fault_iff {config : Config} {cause : Fault} :
    config.compile = .error (.fault cause) ↔
      cause = .overflow ∧ ¬config.Fits ∧ ∀ reason, config.compile ≠ .error (.invalid reason) := by
  constructor
  · intro faulted
    obtain ⟨overflow, unfit⟩ := config.compile_needs.fault faulted
    refine ⟨overflow, unfit, ?_⟩
    intro reason refused
    rw [faulted] at refused
    cases refused
  · rintro ⟨rfl, unfit, unrefused⟩
    cases done : config.compile with
    | ok c => exact absurd (config.compile_needs.result done) unfit
    | error e =>
      cases e with
      | invalid reason => exact absurd done (unrefused reason)
      | fault cause => rw [(config.compile_needs.fault done).1]

section Modest

variable {m n : Nat}

theorem Vec.Bounded.scale {a : Vec} (bounded : a.Bounded m) {k : Int} (small : k.natAbs ≤ n) :
    (a.scale k).Bounded (m * n) := by
  simp only [Vec.Bounded, Vec.scale, Int.natAbs_mul]
  exact ⟨Nat.mul_le_mul bounded.1 small, Nat.mul_le_mul bounded.2 small⟩

theorem Vec.Bounded.abs_fits {a : Vec} (bounded : a.Bounded n) (small : n ≤ 0x7FFFFFFF) : a.abs.Fits := by
  simp only [Vec.Bounded, Vec.abs, Vec.Fits, Coord.Fits, Coord.least, Coord.greatest] at *
  omega

def Matrix.Modest (m : Matrix) : Prop := m.x.Bounded 16 ∧ m.y.Bounded 16

theorem Matrix.Modest.image {m : Matrix} (modest : m.Modest) {v : Vec} (bounded : v.Bounded n) :
    (m.image v).Bounded (16 * n + 16 * n) :=
  (modest.1.scale bounded.1).add (modest.2.scale bounded.2)

theorem Matrix.Modest.carries {m : Matrix} (modest : m.Modest) {v : Vec} (bounded : v.Bounded n)
    (small : 16 * n + 16 * n ≤ 0x7FFFFFFF) : m.Carries v :=
  ⟨(modest.1.scale bounded.1).fits (by omega), (modest.2.scale bounded.2).fits (by omega),
    (modest.image bounded).fits small⟩

namespace Config

/-- The numbers of a variant are at most 2^20 in absolute value. -/
structure Variant.Modest (v : Variant) : Prop where
  texture : v.texture.Bounded 0x100000
  size : v.size.Bounded 0x100000
  offset : v.offset.Bounded 0x100000
  texOffset : v.texOffset.Bounded 0x100000

structure Rule.Modest (rule : Rule) : Prop where
  offsets : ∀ r ∈ rule.looks, r.offset.Bounded 0x100000
  matrices : ∀ m ∈ rule.matrices, m.Modest
  templates : ∀ template ∈ rule.duplicate, template.matrix.Modest

structure Tile.Modest (t : Tile) : Prop where
  variants : ∀ v ∈ t.variants, v.Modest
  rules : ∀ rule ∈ t.rules, rule.Modest

theorem Variant.Modest.drawn {v : Variant} (modest : v.Modest) : v.Drawn := by
  have shifted := modest.texture.add modest.offset
  have corner := shifted.add modest.texOffset
  have cell : cellPixels.natAbs ≤ 12 := by decide
  have pixels := corner.scale cell
  have origin : sheetOrigin.Bounded 512 := by decide
  constructor
  · exact (modest.texture.add modest.size).fits (by decide)
  · exact shifted.fits (by decide)
  · exact corner.fits (by decide)
  · exact pixels.fits (by decide)
  · exact (origin.add pixels).fits (by decide)
  · exact (modest.size.scale cell).fits (by decide)
  · exact (modest.offset.scale cell).fits (by decide)

theorem Variant.Modest.box {v : Variant} (modest : v.Modest) : BoxFits v.box := by
  have stop := modest.offset.add modest.size
  have one : Vec.one.Bounded 1 := by decide
  exact ⟨stop.fits (by decide), (stop.sub one).fits (by decide)⟩

theorem Rule.Modest.copies {rule copy : Rule} (modest : rule.Modest) (listed : copy ∈ rule.copies) :
    copy.matrices = rule.matrices ∧ ∀ r ∈ copy.looks, r.offset.Bounded 0x2000000 := by
  rcases List.mem_cons.mp listed with rfl | listed
  · refine ⟨rfl, ?_⟩
    intro r member
    exact (modest.offsets r member).mono (by decide)
  · obtain ⟨template, among, rfl⟩ := List.mem_map.mp listed
    refine ⟨rfl, ?_⟩
    intro r member
    have images : (rule.exactCopy template).looks = rule.looks.map (Requirement.image template.matrix) := by
      simp only [looks, exactCopy, List.map_append]
    rw [images] at member
    obtain ⟨s, original, rfl⟩ := List.mem_map.mp member
    exact ((modest.templates template among).image (modest.offsets s original)).mono (by decide)

theorem Rule.mem_sights {rule : Rule} {r : Requirement} :
    r ∈ rule.sights ↔ r ∈ rule.looks ∨ ∃ m ∈ rule.matrices, ∃ s ∈ rule.looks, s.image m = r := by
  simp only [sights, spread, looks, List.mem_append, List.mem_flatMap, List.mem_map]
  constructor
  · rintro ((wanted | ⟨m, among, s, member, rfl⟩) | unwanted | ⟨m, among, s, member, rfl⟩)
    · exact .inl (.inl wanted)
    · exact .inr ⟨m, among, s, .inl member, rfl⟩
    · exact .inl (.inr unwanted)
    · exact .inr ⟨m, among, s, .inr member, rfl⟩
  · rintro ((wanted | unwanted) | ⟨m, among, s, member | member, rfl⟩)
    · exact .inl (.inl wanted)
    · exact .inr (.inl unwanted)
    · exact .inl (.inr ⟨m, among, s, member, rfl⟩)
    · exact .inr (.inr ⟨m, among, s, member, rfl⟩)

theorem Rule.Modest.fits {rule : Rule} (modest : rule.Modest) : rule.Fits := by
  constructor
  · intro template among r member
    exact (modest.templates template among).carries (modest.offsets r member) (by decide)
  · intro copy listed m among r member
    obtain ⟨same, bounded⟩ := modest.copies listed
    rw [same] at among
    exact (modest.matrices m among).carries (bounded r member) (by decide)
  · intro copy listed r member
    obtain ⟨same, bounded⟩ := modest.copies listed
    rcases mem_sights.mp member with authored | ⟨m, among, s, authored, rfl⟩
    · exact (bounded r authored).abs_fits (by decide)
    · rw [same] at among
      exact ((modest.matrices m among).image (bounded s authored)).abs_fits (by decide)

/-- A catalog of modest numbers is never the cause of an overflow. -/
theorem fits_of_modest {config : Config} (modest : ∀ t ∈ config.tiles, t.Modest) : config.Fits := by
  intro t member
  have own := modest t member
  constructor
  · intro v among
    exact (own.variants v among).drawn
  · intro v among
    exact (own.variants v among).box
  · intro rule among
    exact (own.rules rule among).fits

end Config

end Modest

end Tilework
