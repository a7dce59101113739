import Mathlib.Tactic.MkIffOfInductiveProp
import Tilework.Proofs.Catalog.Needs
import Tilework.Proofs.Catalog.Stages

namespace Tilework

open Compiling (Needs Free)

/-- The image of the vector and the products on the way to it stay in range. -/
@[mk_iff] structure Matrix.Carries (m : Matrix) (v : Vec) : Prop where
  first : (m.x.scale v.x).Fits
  second : (m.y.scale v.y).Fits
  image : (m.image v).Fits

instance (m : Matrix) (v : Vec) : Decidable (m.Carries v) := decidable_of_iff _ (Matrix.carries_iff m v).symm

theorem Matrix.apply_exact (m : Matrix) (v : Vec) : Exact (m.apply v) (m.Carries v) (m.image v) := by
  apply Exact.congr _ (carries_iff m v).symm
  apply Exact.bind (Exact.fit _)
  exact Exact.bind (Exact.fit _) (Exact.fit _)

def BoxFits (box : Vec × Vec) : Prop := (box.1 + box.2).Fits ∧ (box.1 + box.2 - Vec.one).Fits

instance (box : Vec × Vec) : Decidable (BoxFits box) :=
  inferInstanceAs (Decidable ((box.1 + box.2).Fits ∧ (box.1 + box.2 - Vec.one).Fits))

namespace Config

/-- What is computed for a variant on its own stays in range. -/
@[mk_iff] structure Variant.Drawn (v : Variant) : Prop where
  stop : (v.texture + v.size).Fits
  shifted : (v.texture + v.offset).Fits
  corner : (v.texture + v.offset + v.texOffset).Fits
  pixels : ((v.texture + v.offset + v.texOffset).scale cellPixels).Fits
  place : (sheetOrigin + (v.texture + v.offset + v.texOffset).scale cellPixels).Fits
  pixelSize : (v.size.scale cellPixels).Fits
  pixelOffset : (v.offset.scale cellPixels).Fits

instance (v : Variant) : Decidable v.Drawn := decidable_of_iff _ (Variant.drawn_iff v).symm

def Requirement.image (m : Matrix) (r : Requirement) : Requirement := { r with offset := m.image r.offset }

def spread (matrices : List Matrix) (requirements : List Requirement) : List Requirement :=
  requirements ++ matrices.flatMap fun m => requirements.map (Requirement.image m)

theorem spread_nil (requirements : List Requirement) : spread [] requirements = requirements := List.append_nil _

namespace Rule

def looks (rule : Rule) : List Requirement := rule.requires ++ rule.requiresNot

def exactCopy (rule : Rule) (template : Template) : Rule :=
  { rule with
    requires := rule.requires.map (Requirement.image template.matrix)
    requiresNot := rule.requiresNot.map (Requirement.image template.matrix)
    results := if template.results.isEmpty then rule.results else template.results
    duplicate := [] }

def copies (rule : Rule) : List Rule := rule :: rule.duplicate.map rule.exactCopy

def sights (rule : Rule) : List Requirement := spread rule.matrices rule.requires ++ spread rule.matrices rule.requiresNot

/-- The images of offsets under templates and matrices stay in range, and so does the distance of each offset. -/
@[mk_iff] structure Fits (rule : Rule) : Prop where
  templates : ∀ template ∈ rule.duplicate, ∀ r ∈ rule.looks, template.matrix.Carries r.offset
  matrices : ∀ copy ∈ rule.copies, ∀ m ∈ copy.matrices, ∀ r ∈ copy.looks, m.Carries r.offset
  distances : ∀ copy ∈ rule.copies, ∀ r ∈ copy.sights, r.offset.abs.Fits

instance (rule : Rule) : Decidable rule.Fits := decidable_of_iff _ rule.fits_iff.symm

end Rule

def Variant.box (v : Variant) : Vec × Vec := (v.offset, v.size)

@[mk_iff] structure Tile.Fits (t : Tile) : Prop where
  variants : ∀ v ∈ t.variants, v.Drawn
  boxes : ∀ v ∈ t.variants, BoxFits v.box
  rules : ∀ rule ∈ t.rules, rule.Fits

instance (t : Tile) : Decidable t.Fits := decidable_of_iff _ (Tile.fits_iff t).symm

/-- No step of the compilation leaves the 32-bit range. -/
def Fits (config : Config) : Prop := ∀ t ∈ config.tiles, t.Fits

instance (config : Config) : Decidable config.Fits := inferInstanceAs (Decidable (∀ t ∈ config.tiles, t.Fits))

theorem Requirement.moved_exact (m : Matrix) (r : Requirement) : Exact (r.moved m) (m.Carries r.offset) (r.image m) :=
  (m.apply_exact r.offset).map _

theorem requirements_moved (m : Matrix) (requirements : List Requirement) :
    Exact (requirements.mapM (Requirement.moved m)) (∀ r ∈ requirements, m.Carries r.offset)
      (requirements.map (Requirement.image m)) :=
  .mapM fun r _ => r.moved_exact m

theorem Rule.copy_exact (rule : Rule) (template : Template) :
    Exact (rule.copy template) (∀ r ∈ rule.looks, template.matrix.Carries r.offset) (rule.exactCopy template) := by
  apply Exact.congr _ List.forall_mem_append.symm
  apply Exact.bind (requirements_moved template.matrix rule.requires)
  exact (requirements_moved template.matrix rule.requiresNot).map _

theorem Rule.withCopies_exact (rule : Rule) :
    Exact rule.withCopies (∀ template ∈ rule.duplicate, ∀ r ∈ rule.looks, template.matrix.Carries r.offset)
      rule.copies :=
  Exact.map (.mapM fun template _ => rule.copy_exact template) (rule :: ·)

theorem forall_mem_zipIdx {α : Type} {P : α → Prop} {items : List α} :
    (∀ x ∈ items.zipIdx, P x.1) ↔ ∀ a ∈ items, P a := by
  rw [← List.forall_mem_map, List.zipIdx_map_fst]

def expanded (rules : List Rule) : List (Nat × Rule) :=
  rules.zipIdx.flatMap fun (rule, i) => rule.copies.map fun copy => (i, copy)

theorem expanded_rules (rules : List Rule) : (expanded rules).map Prod.snd = rules.flatMap Rule.copies := by
  simp only [expanded, List.map_flatMap, List.map_map]
  rw [← flatMap_zipIdx Rule.copies]
  exact congrArg (List.flatMap · _) (funext fun x => List.map_id _)

theorem forall_mem_expanded {P : Rule → Prop} {rules : List Rule} :
    (∀ x ∈ expanded rules, P x.2) ↔ ∀ rule ∈ rules, ∀ copy ∈ rule.copies, P copy := by
  simp only [expanded, List.forall_mem_flatMap, List.forall_mem_map]
  exact forall_mem_zipIdx (P := fun (rule : Rule) => ∀ copy ∈ rule.copies, P copy)

end Config

theorem expandRules_exact (rules : List Config.Rule) :
    Exact (expandRules rules)
      (∀ rule ∈ rules, ∀ template ∈ rule.duplicate, ∀ r ∈ rule.looks, template.matrix.Carries r.offset)
      (Config.expanded rules) := by
  apply Exact.congr _ Config.forall_mem_zipIdx
  apply Exact.map (f := List.flatten)
  apply Exact.mapM
  rintro ⟨rule, i⟩ -
  exact rule.withCopies_exact.map _

theorem expandRequirements_exact (matrices : List Matrix) (requirements : List Config.Requirement) :
    Exact (expandRequirements matrices requirements)
      (∀ m ∈ matrices, ∀ r ∈ requirements, m.Carries r.offset)
      ((Config.spread matrices requirements).map fun r => ⟨r.name, r.offset, .any⟩) := by
  have moved : Exact (matrices.mapM fun m => requirements.mapM (Config.Requirement.moved m))
      (∀ m ∈ matrices, ∀ r ∈ requirements, m.Carries r.offset)
      (matrices.map fun m => requirements.map (Config.Requirement.image m)) := by
    apply Exact.mapM
    intro m _
    exact Config.requirements_moved m requirements
  exact moved.map fun copies => (requirements ++ copies.flatten).map fun r => (⟨r.name, r.offset, .any⟩ : Requirement)

theorem Config.Variant.pixelPos_exact (v : Config.Variant) : Exact v.pixelPos
    ((v.texture + v.offset).Fits ∧ (v.texture + v.offset + v.texOffset).Fits ∧
      ((v.texture + v.offset + v.texOffset).scale cellPixels).Fits ∧
      (sheetOrigin + (v.texture + v.offset + v.texOffset).scale cellPixels).Fits)
    (sheetOrigin + (v.texture + v.offset + v.texOffset).scale cellPixels) := by
  apply Exact.bind (Exact.fit _)
  apply Exact.bind (Exact.fit _)
  exact Exact.bind (Exact.fit _) (Exact.fit _)

theorem Variant.compile_needs (tile : String) (v : Config.Variant) : (Variant.compile tile v).Needs v.Drawn := by
  have arithmetic : (Variant.compile tile v).Needs ((v.texture + v.size).Fits ∧
      ((v.texture + v.offset).Fits ∧ (v.texture + v.offset + v.texOffset).Fits ∧
        ((v.texture + v.offset + v.texOffset).scale cellPixels).Fits ∧
        (sheetOrigin + (v.texture + v.offset + v.texOffset).scale cellPixels).Fits) ∧
      (v.size.scale cellPixels).Fits ∧ (v.offset.scale cellPixels).Fits) := by
    apply Needs.after (Needs.ensure _ _)
    intro _ _
    apply Needs.after (Needs.ensure _ _)
    intro _ _
    apply Needs.bind (Needs.lift (Exact.fit _))
    intro stop _
    apply Needs.after (Needs.ensure _ _)
    intro _ _
    apply Needs.bind (Needs.lift v.pixelPos_exact)
    intro pixelPos _
    apply Needs.bind (Needs.lift (Exact.fit _))
    intro pixelSize _
    apply Needs.before (Needs.lift (Exact.fit _))
    intro pixelOffset _
    exact Needs.pure _
  apply arithmetic.congr
  rw [v.drawn_iff]
  tauto

theorem compileVariants_needs (tile : String) (variants : List Config.Variant) :
    (compileVariants tile variants).Needs (∀ v ∈ variants, v.Drawn) := by
  apply Needs.before (Needs.mapM fun v _ => Variant.compile_needs tile v)
  intro compiled _
  apply Needs.after (Needs.distinct _ _)
  intro _ _
  exact Needs.pure _

theorem compileOutcomes_free (i : Nat) (tile : String) (variants : Array Variant) (results : List Config.Outcome) :
    (compileOutcomes i tile variants results).Free := by
  apply Needs.after (Needs.ensure _ _)
  intro _ _
  apply Needs.after (Needs.ensure _ _)
  intro _ _
  apply Needs.after (Needs.ensure _ _)
  intro _ _
  apply Needs.mapM_free
  intro r _
  apply Needs.after (Needs.found _ _)
  intro variant _
  exact Needs.pure _

theorem compilePeriod_free (i : Nat) (tile : String) (m : Config.Period) : (compilePeriod i tile m).Free := by
  apply Needs.after (Needs.ensure _ _)
  intro _ _
  apply Needs.after (Needs.ensure _ _)
  intro _ _
  split
  · exact Needs.refuse _
  · exact Needs.pure _

theorem compileReqVariants_free (tile : String) (variants : Array Variant) (names : List String) :
    (compileReqVariants tile variants names).Free := by
  apply Needs.before (Needs.mapM_free fun key _ => Needs.found _ _)
  intro indices _
  exact Needs.pure _

theorem Rule.compile_needs (tile : String) (variants : Array Variant) (i : Nat) (rule : Config.Rule) :
    (Rule.compile tile variants i rule).Needs (∀ m ∈ rule.matrices, ∀ r ∈ rule.looks, m.Carries r.offset) := by
  have arithmetic : (Rule.compile tile variants i rule).Needs
      ((∀ m ∈ rule.matrices, ∀ r ∈ rule.requires, m.Carries r.offset) ∧
        ∀ m ∈ rule.matrices, ∀ r ∈ rule.requiresNot, m.Carries r.offset) := by
    apply Needs.after (compileOutcomes_free ..)
    intro results _
    apply Needs.after (compilePeriod_free ..)
    intro period _
    apply Needs.after (compileReqVariants_free ..)
    intro reqVariants _
    apply Needs.bind (Needs.lift (expandRequirements_exact ..))
    intro requires _
    apply Needs.before (Needs.lift (expandRequirements_exact ..))
    intro requiresNot _
    exact Needs.pure _
  apply arithmetic.congr
  simp only [Config.Rule.looks, List.forall_mem_append, forall_and]

structure Config.Tile.Steady (t : Config.Tile) : Prop where
  variants : ∀ v ∈ t.variants, v.Drawn
  templates : ∀ rule ∈ t.rules, ∀ template ∈ rule.duplicate, ∀ r ∈ rule.looks, template.matrix.Carries r.offset
  matrices : ∀ rule ∈ t.rules, ∀ copy ∈ rule.copies, ∀ m ∈ copy.matrices, ∀ r ∈ copy.looks, m.Carries r.offset

theorem Tile.compile_needs (i : Nat) (t : Config.Tile) : (Tile.compile i t).Needs t.Steady := by
  have arithmetic : (Tile.compile i t).Needs ((∀ v ∈ t.variants, v.Drawn) ∧
      (∀ rule ∈ t.rules, ∀ template ∈ rule.duplicate, ∀ r ∈ rule.looks, template.matrix.Carries r.offset) ∧
      ∀ rule ∈ t.rules, ∀ copy ∈ rule.copies, ∀ m ∈ copy.matrices, ∀ r ∈ copy.looks, m.Carries r.offset) := by
    apply Needs.after (Needs.ensure _ _)
    intro _ _
    apply Needs.after (Needs.found _ _)
    intro layer _
    apply Needs.bind (compileVariants_needs ..)
    intro variants _
    apply Needs.after (Needs.found _ _)
    intro default _
    apply Needs.after (Needs.found _ _)
    intro display _
    apply Needs.bind (Needs.lift (expandRules_exact _))
    intro expanded found
    obtain rfl := (expandRules_exact _).eq_ok (Compiling.lift_eq_ok.mp found)
    apply Needs.congr _ Config.forall_mem_expanded
    apply Needs.before (Needs.mapM fun x _ => Rule.compile_needs t.name variants x.1 x.2)
    intro rules _
    exact Needs.pure _
  apply arithmetic.congr
  constructor
  · rintro ⟨variants, templates, matrices⟩
    exact ⟨variants, templates, matrices⟩
  · rintro ⟨variants, templates, matrices⟩
    exact ⟨variants, templates, matrices⟩

theorem compileTiles_needs (groups : List Group) (tiles : List Config.Tile) :
    (compileTiles groups tiles).Needs (∀ t ∈ tiles, t.Steady) := by
  apply Needs.congr _ Config.forall_mem_zipIdx
  apply Needs.before (Needs.mapM fun x _ => Tile.compile_needs x.2 x.1)
  intro compiled _
  apply Needs.after (Needs.distinct _ _)
  intro _ _
  apply Needs.after (Needs.distinct _ _)
  intro _ _
  exact Needs.pure _

end Tilework
