import Tilework.Proofs.Autotile.Totality
import Tilework.Proofs.Catalog.Agreement
import Tilework.Proofs.Plane.Turn

namespace Tilework

/-- Both computations come to the same result, unless one of them overflows. -/
def Concur {α : Type} (x y : Checked α) : Prop :=
  x = .error .overflow ∨ y = .error .overflow ∨ ∃ a, x = .ok a ∧ y = .ok a

namespace Concur

variable {α β : Type} {x y : Checked α} {f g : α → Checked β}

theorem ok (a : α) : Concur (.ok a) (.ok a) := .inr (.inr ⟨a, rfl, rfl⟩)

theorem bind (first : Concur x y) (next : ∀ a, Concur (f a) (g a)) : Concur (x >>= f) (y >>= g) := by
  rcases first with rfl | rfl | ⟨a, rfl, rfl⟩
  · exact .inl rfl
  · exact .inr (.inl rfl)
  · exact next a

theorem eq_ok (concur : Concur x y) {a b : α} (first : x = .ok a) (second : y = .ok b) : b = a := by
  rcases concur with overflow | overflow | ⟨e, left, right⟩
  · cases first.symm.trans overflow
  · cases second.symm.trans overflow
  · rw [left] at first
    rw [right] at second
    exact Except.ok.inj (second.symm.trans first)

end Concur

def Requirement.image (m : Matrix) (r : Requirement) : Requirement := { r with offset := m.image r.offset }

/-- The second rule is tried at the same positions and for the same variants, and looks where the first one does, but for
the matrix. -/
structure Rule.Turned (m : Matrix) (rule copy : Rule) : Prop where
  requires : copy.requires = rule.requires.map (Requirement.image m)
  requiresNot : copy.requiresNot = rule.requiresNot.map (Requirement.image m)
  reqVariants : copy.reqVariants = rule.reqVariants
  period : copy.period = rule.period

theorem Rule.Turned.requirements {m : Matrix} {rule copy : Rule} (turned : rule.Turned m copy) :
    copy.requirements = rule.requirements.map (Requirement.image m) := by
  rw [Rule.requirements, Rule.requirements, turned.requires, turned.requiresNot, List.map_append]

section Firing

variable {c : Catalog} {g : Grid} {m : Matrix} (turn : m.Signed) {p : Vec}

theorem Requirement.holds_turned {r : Requirement} (target : r.target.Exists c) :
    Concur (r.holds c g p) ((r.image m).holds c (g.turned turn) (m.send g.size p)) := by
  rw [holds_eq, holds_eq]
  have sent : m.send g.size p + (r.image m).offset = m.send g.size (p + r.offset) := (m.send_add _ _ _).symm
  rw [sent]
  by_cases near : (p + r.offset).Fits
  · by_cases far : (m.send g.size (p + r.offset)).Fits
    · rw [Vec.fit_of_fits near, Vec.fit_of_fits far]
      obtain ⟨held, met, -⟩ := metBy_yields target (g.cellAt (g.closest (p + r.offset)))
      refine .inr (.inr ⟨held, met, ?_⟩)
      show r.metBy c ((g.turned turn).cellAt ((g.turned turn).closest (m.send g.size (p + r.offset)))) = _
      rw [Grid.read_turned, met]
    · rw [Vec.fit_of_not_fits far]
      exact .inr (.inl rfl)
  · rw [Vec.fit_of_not_fits near]
    exact .inl rfl

variable {d : Catalog} {h : Grid} {q : Vec} {f : Requirement → Requirement}

theorem allHold_concur {requirements : List Requirement}
    (each : ∀ r ∈ requirements, Concur (r.holds c g p) ((f r).holds d h q)) :
    Concur (allHold c g p requirements) (allHold d h q (requirements.map f)) := by
  induction requirements with
  | nil => exact .ok true
  | cons r rest ih =>
    have others := ih fun s member => each s (by simp [member])
    refine (each r (by simp)).bind fun held => ?_
    cases held with
    | true => exact others
    | false => exact .ok false

theorem anyHolds_concur {requirements : List Requirement}
    (each : ∀ r ∈ requirements, Concur (r.holds c g p) ((f r).holds d h q)) :
    Concur (anyHolds c g p requirements) (anyHolds d h q (requirements.map f)) := by
  induction requirements with
  | nil => exact .ok false
  | cons r rest ih =>
    have others := ih fun s member => each s (by simp [member])
    refine (each r (by simp)).bind fun held => ?_
    cases held with
    | true => exact .ok true
    | false => exact others

theorem Rule.Turned.fires_concur {rule copy : Rule} (turned : rule.Turned m copy)
    (inactive : rule.period.active = false) (targets : ∀ r ∈ rule.requirements, r.target.Exists c) (candidate : Nat) :
    Concur (rule.fires c g p candidate) (copy.fires c (g.turned turn) (m.send g.size p) candidate) := by
  have each : ∀ r ∈ rule.requirements,
      Concur (r.holds c g p) ((r.image m).holds c (g.turned turn) (m.send g.size p)) :=
    fun r member => Requirement.holds_turned turn (targets r member)
  have wanted := allHold_concur fun r member => each r (List.mem_append_left _ member)
  have unwanted := anyHolds_concur fun r member => each r (List.mem_append_right _ member)
  have admits : ∀ q, rule.period.admits q = .ok true := fun q => by simp [Period.admits, inactive, pure, Except.pure]
  have applies : copy.appliesTo candidate = rule.appliesTo candidate := by simp only [appliesTo, turned.reqVariants]
  rw [← turned.requires] at wanted
  rw [← turned.requiresNot] at unwanted
  unfold fires
  rw [applies, turned.period, admits, admits]
  split
  · exact .ok false
  · refine wanted.bind fun held => ?_
    split
    · exact .ok false
    · exact unwanted.bind fun refused => .ok (!refused)

theorem Rule.Intact.fires_of_fits {rule : Rule} {variants : Nat} (intact : rule.Intact c variants)
    (fits : ∀ r ∈ rule.requirements, (p + r.offset).Fits) (candidate : Nat) :
    ∃ fired, rule.fires c g p candidate = .ok fired := by
  have each : ∀ r ∈ rule.requirements, Ends (fun _ => False) (r.holds c g p) fun _ => True := by
    intro r required
    rw [Requirement.holds_eq, Vec.fit_of_fits (fits r required)]
    exact .inr (Requirement.metBy_yields (intact.target r required) _)
  obtain ⟨fired, done, -⟩ := (intact.fires_ends each candidate).yields
  exact ⟨fired, done⟩

end Firing

theorem Requirement.resolve_image {m : Matrix} {tiles : Array Tile} {groups : Array Group} {tile : String}
    {r s : Requirement} (h : r.resolve tiles groups tile = .ok s) :
    (r.image m).resolve tiles groups tile = .ok (s.image m) := by
  obtain ⟨target, rfl, found⟩ := resolve_eq_ok h
  exact resolve_of_found (r := r.image m) found

namespace Rule

variable {m : Matrix} {rule copy : Rule}

theorem Turned.resolve {tiles : Array Tile} {groups : Array Group} {tile : String} {found foundCopy : Rule}
    (turned : rule.Turned m copy) (first : rule.resolve tiles groups tile = .ok found)
    (second : copy.resolve tiles groups tile = .ok foundCopy) : found.Turned m foundCopy := by
  obtain ⟨requires, wanted, first⟩ := bind_eq_ok.mp first
  obtain ⟨requiresNot, unwanted, first⟩ := bind_eq_ok.mp first
  obtain ⟨requiresCopy, wantedCopy, second⟩ := bind_eq_ok.mp second
  obtain ⟨requiresNotCopy, unwantedCopy, second⟩ := bind_eq_ok.mp second
  cases first
  cases second
  rw [turned.requires] at wantedCopy
  rw [turned.requiresNot] at unwantedCopy
  constructor
  · exact Except.ok.inj (wantedCopy.symm.trans (mapM_map_of_ok (fun _ _ => Requirement.resolve_image) wanted))
  · exact Except.ok.inj (unwantedCopy.symm.trans (mapM_map_of_ok (fun _ _ => Requirement.resolve_image) unwanted))
  · exact turned.reqVariants
  · exact turned.period

/-- Without matrices of its own a rule is compiled to the offsets that it has, and a copy to their images. -/
theorem Compiled.turned {variants : Array Variant} {place next : Nat} {source : Config.Rule} {template : Config.Template}
    (plain : source.matrices = []) (first : rule.Compiled variants place source)
    (second : copy.Compiled variants next (source.exactCopy template)) : rule.Turned template.matrix copy := by
  have spread : ∀ requirements, Config.spread source.matrices requirements = requirements := by
    rw [plain]
    exact Config.spread_nil
  constructor
  · rw [second.requires, first.requires, Config.Rule.exactCopy, spread, spread, List.map_map, List.map_map]
    rfl
  · rw [second.requiresNot, first.requiresNot, Config.Rule.exactCopy, spread, spread, List.map_map, List.map_map]
    rfl
  · exact first.reqVariants_eq second rfl
  · exact second.period.trans first.period.symm

end Rule

namespace Config.Tile

def rulesBefore (t : Tile) (i : Nat) : Nat := ((t.rules.take i).flatMap Rule.copies).length

theorem expanded_getElem? {t : Tile} {i l : Nat} {rule copy : Rule} (written : t.rules[i]? = some rule)
    (listed : rule.copies[l]? = some copy) :
    ∃ place, (expanded t.rules)[t.rulesBefore i + l]? = some (place, copy) := by
  obtain ⟨inside, rfl⟩ := List.getElem?_eq_some_iff.mp written
  have all : ((expanded t.rules).map Prod.snd)[t.rulesBefore i + l]? = some copy := by
    have cut : t.rules = t.rules.take i ++ t.rules[i] :: t.rules.drop (i + 1) := by simp
    have short := (List.getElem?_eq_some_iff.mp listed).1
    rw [expanded_rules, cut, List.flatMap_append, List.flatMap_cons]
    rw [List.getElem?_append_right (by simp [rulesBefore]), rulesBefore, Nat.add_sub_cancel_left,
      List.getElem?_append_left short, listed]
  obtain ⟨⟨place, _⟩, found, rfl⟩ := Option.map_eq_some_iff.mp (List.getElem?_map ▸ all)
  exact ⟨place, found⟩

end Config.Tile

/-- The compiled rules of a tile are the copies of the authored ones, each compiled by itself and then resolved against the
same tables. -/
theorem Compilation.copies_compiled {config : Config} {c : Catalog} (stages : Compilation config c) {j : Nat} {tile : Tile}
    {source : Config.Tile} (found : c.tiles[j]? = some tile)
    (authored : config.tiles[tile.authoredIndex]? = some source) :
    ∃ variants tiles groups, ∀ {i l : Nat} {rule copy : Config.Rule}, source.rules[i]? = some rule →
      rule.copies[l]? = some copy → ∃ (place : Nat) (bare resolved : Rule),
        tile.rules[source.rulesBefore i + l]? = some resolved ∧
        bare.Compiled variants place copy ∧ bare.resolve tiles groups tile.name = .ok resolved := by
  obtain ⟨t, place, origin, first, bits, rules, -, listed, own, -, rfl, looked⟩ := stages.origin found
  have same : origin = source := by
    change config.tiles[t.authoredIndex]? = some source at authored
    rw [own.authoredIndex, listed] at authored
    exact Option.some.inj authored
  subst same
  refine ⟨t.variants, (numberTiles 0 stages.flagged).toArray, stages.members.toArray, ?_⟩
  intro i l rule copy written among
  obtain ⟨next, expanded⟩ := Config.Tile.expanded_getElem? written among
  obtain ⟨bare, early, compiled⟩ := exists_right_of_forall₂ own.rules expanded
  obtain ⟨resolved, late, targets⟩ := exists_right_of_forall₂ looked early
  exact ⟨next, bare, resolved, by simpa using late, Rule.compile_eq_ok compiled, targets⟩

/-- A rule without matrices and without a filter by position, and its copy by a rotation or reflection: wherever and
whenever the rule fires in a grid, the copy does so in the image of the grid. Nothing but an overflow comes between, and
none does where all that they look at stays in range. -/
theorem copies_fire_turned {config : Config} {c : Catalog} (compiled : config.compile = .ok c) {j : Nat} {tile : Tile}
    {source : Config.Tile} (found : c.tiles[j]? = some tile)
    (authored : config.tiles[tile.authoredIndex]? = some source) {i k : Nat} {rule : Config.Rule}
    {template : Config.Template} (written : source.rules[i]? = some rule) (asked : rule.duplicate[k]? = some template)
    (plain : rule.matrices = []) (inactive : rule.period.size = Vec.one) (turn : template.matrix.Signed) :
    ∃ original copy, tile.rules[source.rulesBefore i]? = some original ∧
      tile.rules[source.rulesBefore i + (k + 1)]? = some copy ∧
      ∀ (g : Grid) (p : Vec) (candidate : Nat),
        Concur (original.fires c g p candidate)
          (copy.fires c (g.turned turn) (template.matrix.send g.size p) candidate) ∧
        ((∀ r ∈ original.requirements, (p + r.offset).Fits ∧ (template.matrix.send g.size (p + r.offset)).Fits) →
          ∃ fired, original.fires c g p candidate = .ok fired ∧
            copy.fires c (g.turned turn) (template.matrix.send g.size p) candidate = .ok fired) := by
  obtain ⟨stages⟩ := compile_eq_ok compiled
  obtain ⟨variants, tiles, groups, copies⟩ := stages.copies_compiled found authored
  obtain ⟨_, bare, original, place, own, resolved⟩ := copies written (l := 0) rfl
  have listed : rule.copies[k + 1]? = some (rule.exactCopy template) := by
    rw [Config.Rule.copies, List.getElem?_cons_succ, List.getElem?_map, asked]
    rfl
  obtain ⟨_, bareCopy, copy, placeCopy, ownCopy, resolvedCopy⟩ := copies written listed
  have turned : original.Turned template.matrix copy := (own.turned plain ownCopy).resolve resolved resolvedCopy
  have intact := stages.intact.rule found (Array.mem_of_getElem? place)
  have intactCopy := stages.intact.rule found (Array.mem_of_getElem? placeCopy)
  have idle : original.period.active = false := by
    obtain ⟨_, _, rfl, -, -⟩ := Rule.resolve_eq_ok resolved
    simp only [own.period, Period.active, inactive, ne_eq, not_true, decide_false]
  refine ⟨original, copy, place, placeCopy, ?_⟩
  intro g p candidate
  have concur := turned.fires_concur (g := g) (p := p) turn idle intact.target candidate
  refine ⟨concur, ?_⟩
  intro fits
  have near : ∀ r ∈ copy.requirements, (template.matrix.send g.size p + r.offset).Fits := by
    intro r required
    rw [turned.requirements] at required
    obtain ⟨s, among, rfl⟩ := List.mem_map.mp required
    have sent := (fits s among).2
    rwa [Matrix.send_add] at sent
  obtain ⟨fired, done⟩ := intact.fires_of_fits (g := g) (fun r required => (fits r required).1) candidate
  obtain ⟨again, doneCopy⟩ := intactCopy.fires_of_fits (g := g.turned turn) near candidate
  obtain rfl := concur.eq_ok done doneCopy
  exact ⟨again, done, doneCopy⟩

/-- A vine is a leaf if it goes on two rows below and one column to the right, and has nothing to its left. The copy of the
rule is for vines that lie on their side. -/
def vineConfig : Config := {
  tiles := [{
    name := "vine"
    layer := "mid"
    defaultVariant := "stem"
    displayVariant := "stem"
    variants := [{ name := "stem", texture := ⟨0, 0⟩ }, { name := "leaf", texture := ⟨1, 0⟩ }]
    rules := [{
      results := [{ name := "leaf" }]
      requires := [{ name := "vine", offset := ⟨1, 2⟩ }]
      requiresNot := [{ name := "", offset := ⟨-1, 0⟩ }]
      duplicate := [{ matrix := .rotate90 }] }] }] }

def vineTile : Tile := {
  name := "vine"
  layer := .mid
  flags := []
  authoredIndex := 0
  variants := #[
    ⟨"leaf", ⟨1, 0⟩, ⟨1, 1⟩, ⟨0, 0⟩, ⟨0, 0⟩, ⟨12, 512⟩, ⟨12, 12⟩, ⟨0, 0⟩, ⟨0⟩⟩,
    ⟨"stem", ⟨0, 0⟩, ⟨1, 1⟩, ⟨0, 0⟩, ⟨0, 0⟩, ⟨0, 512⟩, ⟨12, 12⟩, ⟨0, 0⟩, ⟨1⟩⟩]
  rules := #[
    { authoredIndex := 0
      results := [⟨"leaf", ⟨0x3F800000⟩, 0⟩]
      requires := [⟨"vine", ⟨1, 2⟩, .tile 0⟩]
      requiresNot := [⟨"", ⟨-1, 0⟩, .any⟩]
      reqVariants := #[]
      period := ⟨⟨1, 1⟩, []⟩ },
    { authoredIndex := 0
      results := [⟨"leaf", ⟨0x3F800000⟩, 0⟩]
      requires := [⟨"vine", ⟨-2, 1⟩, .tile 0⟩]
      requiresNot := [⟨"", ⟨0, -1⟩, .any⟩]
      reqVariants := #[]
      period := ⟨⟨1, 1⟩, []⟩ }]
  flagBits := #[]
  defaultVariant := 1
  displayVariant := 1 }

def vineCatalog : Catalog := {
  flags := #[]
  groups := #[]
  tiles := #[vineTile]
  infos := #[⟨0, 0, "vine", "leaf"⟩, ⟨0, 1, "vine", "stem"⟩]
  range := ⟨2, 2⟩
  footprintLow := ⟨0, 0⟩
  footprintHigh := ⟨0, 0⟩ }

/-- Vines in the right one of two columns, with a gap between them. -/
def vineGrid : Grid := ⟨⟨2, 3⟩, #[{}, { mid := some ⟨1⟩ }, {}, {}, {}, { mid := some ⟨0⟩ }], by decide⟩

theorem rotate90_signed : Matrix.rotate90.Signed := .crossed rfl rfl

/-- The upper vine looks past the right border. On its side it looks past the lower one. -/
theorem copies_fire_turned_vine :
    vineConfig.compile = .ok vineCatalog ∧ (Matrix.rotate90.send vineGrid.size ⟨1, 0⟩) = ⟨2, 1⟩ ∧
    ∃ copy, vineTile.rules[1]? = some copy ∧
      copy.fires vineCatalog (vineGrid.turned rotate90_signed) ⟨2, 1⟩ 1 = .ok true := by
  have compiled : vineConfig.compile = .ok vineCatalog := by decide +kernel
  have found : vineCatalog.tiles[0]? = some vineTile := rfl
  obtain ⟨original, copy, place, placeCopy, mirrors⟩ :=
    copies_fire_turned compiled found rfl (i := 0) (k := 0) rfl rfl rfl rfl rotate90_signed
  obtain ⟨-, same⟩ := mirrors vineGrid ⟨1, 0⟩ 1
  have first : vineTile.rules[0]? = some original := place
  cases first
  obtain ⟨fired, done, turned⟩ := same (by decide)
  have fires : fired = true := Except.ok.inj (done.symm.trans (by decide +kernel))
  rw [fires] at turned
  exact ⟨compiled, by decide, copy, placeCopy, turned⟩

end Tilework
