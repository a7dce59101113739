import Tilework.Catalog.Variants

namespace Tilework

open Compiling (ensure found)

def Config.Requirement.moved (m : Matrix) (r : Config.Requirement) : Checked Config.Requirement := do
  let offset ← m.apply r.offset
  return { r with offset := offset }

def Config.Rule.copy (rule : Config.Rule) (template : Config.Template) : Checked Config.Rule := do
  let requires ← rule.requires.mapM (Config.Requirement.moved template.matrix)
  let requiresNot ← rule.requiresNot.mapM (Config.Requirement.moved template.matrix)
  return { rule with
    requires := requires
    requiresNot := requiresNot
    results := if template.results.isEmpty then rule.results else template.results
    duplicate := [] }

def Config.Rule.withCopies (rule : Config.Rule) : Checked (List Config.Rule) := do
  let copies ← rule.duplicate.mapM rule.copy
  return rule :: copies

def expandRules (rules : List Config.Rule) : Checked (List (Nat × Config.Rule)) := do
  let expanded ← rules.zipIdx.mapM fun (rule, i) => do
    let copies ← rule.withCopies
    return copies.map fun copy => (i, copy)
  return expanded.flatten

/-- The greatest total of explicit chances: one, and some slack for rounding. -/
def chanceLimit : Single := Single.one.add ⟨0x358637BD⟩

def chanceAllowed (chance : Single) : Bool := chance.isFinite && !chance.lt Single.zero

def explicitTotal (results : List Config.Outcome) : Single :=
  (results.filterMap Config.Outcome.chance).foldl Single.add Single.zero

/-- What each outcome without a chance gets: an equal part of what the explicit chances leave of one. -/
def chanceShare (results : List Config.Outcome) : Single :=
  let omitted := results.countP fun r => r.chance.isNone
  (Single.one.sub (explicitTotal results)).positivePart.divNat omitted

def compileOutcomes (i : Nat) (tile : String) (variants : Array Variant) (results : List Config.Outcome) :
    Compiling (List Outcome) := do
  ensure (!results.isEmpty) (.noResults i tile)
  ensure (results.all fun r => r.chance.all chanceAllowed) (.chanceRange i tile)
  ensure (!chanceLimit.lt (explicitTotal results)) (.chanceTotal i tile)
  let share := chanceShare results
  results.mapM fun r => do
    let variant ← found (.unknownResult r.name tile) (Names.index? variants r.name)
    return ⟨r.name, r.chance.getD share, variant⟩

def compilePeriod (i : Nat) (tile : String) (m : Config.Period) : Compiling Period := do
  ensure (1 ≤ m.size.minElement) (.periodSize i tile)
  let period : Period := ⟨m.size, Sorted.dedup (Sorted.sort Vec.notAfter m.offsets)⟩
  ensure (!period.active || !m.offsets.isEmpty) (.noPeriodOffsets i tile)
  match period.offsets.find? fun offset => !decide (offset.Within m.size) with
  | some bad => Compiling.refuse (.periodOffset bad i tile)
  | none => return period

def compileReqVariants (tile : String) (variants : Array Variant) (names : List String) :
    Compiling (Array Nat) := do
  let indices ← names.mapM fun key => found (.unknownReqVariant key tile) (Names.index? variants key)
  return (Sorted.dedup (Sorted.sort (fun a b => a ≤ b) indices)).toArray

def expandRequirements (matrices : List Matrix) (requirements : List Config.Requirement) :
    Checked (List Requirement) := do
  let copies ← matrices.mapM fun m => requirements.mapM (Config.Requirement.moved m)
  return (requirements ++ copies.flatten).map fun r => ⟨r.name, r.offset, .any⟩

def Rule.compile (tile : String) (variants : Array Variant) (i : Nat) (rule : Config.Rule) :
    Compiling Rule := do
  let results ← compileOutcomes i tile variants rule.results
  let period ← compilePeriod i tile rule.period
  let reqVariants ← compileReqVariants tile variants rule.reqVariants
  let requires ← expandRequirements rule.matrices rule.requires
  let requiresNot ← expandRequirements rule.matrices rule.requiresNot
  return ⟨i, results, requires, requiresNot, reqVariants, period⟩

end Tilework
