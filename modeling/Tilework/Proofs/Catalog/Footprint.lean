import Tilework.Proofs.Catalog.WellFormed

namespace Tilework

def Vec.Through (p first last : Vec) : Prop := first.x ≤ p.x ∧ p.x ≤ last.x ∧ first.y ≤ p.y ∧ p.y ≤ last.y

instance (p first last : Vec) : Decidable (p.Through first last) :=
  inferInstanceAs (Decidable (first.x ≤ p.x ∧ p.x ≤ last.x ∧ first.y ≤ p.y ∧ p.y ≤ last.y))

def extentOf (box : Vec × Vec) : Vec × Vec := (box.1, box.1 + box.2 - Vec.one)

/-- Each extent, given by its first and last cell, lies between the corners, and each side of them is that of an extent. -/
structure Encloses (corners : Vec × Vec) (extents : List (Vec × Vec)) : Prop where
  left : ∃ e ∈ extents, e.1.x = corners.1.x
  top : ∃ e ∈ extents, e.1.y = corners.1.y
  right : ∃ e ∈ extents, e.2.x = corners.2.x
  bottom : ∃ e ∈ extents, e.2.y = corners.2.y
  first : ∀ e ∈ extents, corners.1.x ≤ e.1.x ∧ corners.1.y ≤ e.1.y
  last : ∀ e ∈ extents, e.2.x ≤ corners.2.x ∧ e.2.y ≤ corners.2.y

/-- What combines to the less of two measures folds to the least of all. -/
theorem foldl_least {α : Type} {f : α → α → α} (measure : α → Int)
    (less : ∀ a b, measure (f a b) = min (measure a) (measure b)) (first : α) (rest : List α) :
    (∃ a ∈ first :: rest, measure a = measure (rest.foldl f first)) ∧
      ∀ a ∈ first :: rest, measure (rest.foldl f first) ≤ measure a := by
  induction rest generalizing first with
  | nil => simp
  | cons second rest ih =>
    obtain ⟨⟨a, member, attained⟩, least⟩ := ih (f first second)
    obtain ⟨start, others⟩ := List.forall_mem_cons.mp least
    rw [less] at start
    rw [List.foldl_cons]
    constructor
    · rcases List.mem_cons.mp member with rfl | later
      · rw [← attained, less]
        rcases Int.le_total (measure first) (measure second) with le | ge
        · exact ⟨first, by simp, (Int.min_eq_left le).symm⟩
        · exact ⟨second, by simp, (Int.min_eq_right ge).symm⟩
      · exact ⟨a, by simp [later], attained⟩
    · exact List.forall_mem_cons.mpr ⟨by omega, List.forall_mem_cons.mpr ⟨by omega, others⟩⟩

def joined (a b : Vec × Vec) : Vec × Vec := (a.1.min b.1, a.2.max b.2)

theorem encloses_foldl (first : Vec × Vec) (rest : List (Vec × Vec)) :
    Encloses (rest.foldl joined first) (first :: rest) := by
  -- The greatest of the last cells is where their negatives are least.
  have greater : ∀ a b : Int, -max a b = min (-a) (-b) := by omega
  obtain ⟨left, notLeft⟩ := foldl_least (f := joined) (fun e => e.1.x) (fun _ _ => rfl) first rest
  obtain ⟨top, notAbove⟩ := foldl_least (f := joined) (fun e => e.1.y) (fun _ _ => rfl) first rest
  obtain ⟨right, notRight⟩ := foldl_least (f := joined) (fun e => -e.2.x) (fun _ _ => greater _ _) first rest
  obtain ⟨bottom, notBelow⟩ := foldl_least (f := joined) (fun e => -e.2.y) (fun _ _ => greater _ _) first rest
  simp only [Int.neg_inj, Int.neg_le_neg_iff] at right notRight bottom notBelow
  exact ⟨left, top, right, bottom, fun e member => ⟨notLeft e member, notAbove e member⟩,
    fun e member => ⟨notRight e member, notBelow e member⟩⟩

theorem footprint_eq_ok {tiles : List Tile} {corners : Vec × Vec} (h : footprint tiles = .ok corners) :
    (tiles.flatMap Tile.boxes = [] ∧ corners = (Vec.zero, Vec.zero)) ∨
      Encloses corners ((tiles.flatMap Tile.boxes).map extentOf) := by
  obtain ⟨extents, computed, h⟩ := bind_eq_ok.mp h
  obtain rfl := (extents_exact tiles).eq_ok computed
  have same : ((tiles.flatMap fun t => t.variants.toList).map fun v => (v.offset, v.offset + v.size - Vec.one)) =
      (tiles.flatMap Tile.boxes).map extentOf := by
    simp only [List.map_flatMap, Tile.boxes, List.map_map]
    rfl
  rw [same] at h
  cases found : tiles.flatMap Tile.boxes with
  | nil =>
    rw [found] at h
    exact .inl ⟨rfl, (Except.ok.inj h).symm⟩
  | cons first rest =>
    rw [found, List.map_cons] at h
    cases h
    exact .inr (encloses_foldl _ _)

namespace Compilation

variable {config : Config} {c : Catalog}

theorem boxes_eq (stages : Compilation config c) :
    c.tiles.toList.flatMap Tile.boxes = stages.tiles.flatMap Tile.boxes := by
  rw [List.flatMap_def, List.flatMap_def, stages.tiles_map (fun _ _ => rfl) Tile.numbered_boxes fun _ _ => rfl]

theorem footprint_encloses (stages : Compilation config c) :
    (c.tiles.toList.flatMap Tile.boxes = [] ∧ c.footprintLow = Vec.zero ∧ c.footprintHigh = Vec.zero) ∨
      Encloses (c.footprintLow, c.footprintHigh) ((c.tiles.toList.flatMap Tile.boxes).map extentOf) := by
  have enclosed := footprint_eq_ok stages.footprint_eq
  rwa [(numberTiles_traces _ _).1, (resolveFlags_traces stages.flags_found).1, ← stages.boxes_eq, Prod.mk.injEq] at enclosed

theorem box_filled (stages : Compilation config c) (compiled : config.compile = .ok c) {box : Vec × Vec}
    (member : box ∈ c.tiles.toList.flatMap Tile.boxes) : 1 ≤ box.2.x ∧ 1 ≤ box.2.y := by
  rw [stages.boxes_eq, (compileTiles_traces stages.tiles_compiled).1.mem_iff, List.mem_flatMap] at member
  obtain ⟨source, authored, among⟩ := member
  obtain ⟨v, listed, rfl⟩ := List.mem_map.mp among
  have sound := ((config.compile_screens.result compiled).tiles source authored).variants v listed
  exact ⟨sound.wide, sound.high⟩

end Compilation

/-- The sprite, when it stands at `p`, covers a cell of the view that these two cells end. -/
def Variant.Shows (v : Variant) (p first last : Vec) : Prop :=
  ∃ q : Vec, q.Through (p + v.offset) (p + v.offset + v.size - Vec.one) ∧ q.Through first last

/-- Of whatever view, the ends moved by `low` and `high` enclose each cell of which the sprite shows in the view. -/
def Catalog.Pads (c : Catalog) (low high : Vec) : Prop :=
  ∀ t ∈ c.tiles, ∀ v ∈ t.variants, ∀ p first last : Vec, v.Shows p first last → p.Through (first + low) (last + high)

section Padding

variable {c : Catalog} {low high : Vec}

structure Padded (low high : Vec) (extent : Vec × Vec) : Prop where
  left : low.x + extent.2.x ≤ 0
  top : low.y + extent.2.y ≤ 0
  right : 0 ≤ high.x + extent.1.x
  bottom : 0 ≤ high.y + extent.1.y

/-- The closest views are those of one cell, the first or the last one of the sprite. -/
theorem padded_iff {box : Vec × Vec} (wide : 1 ≤ box.2.x) (tall : 1 ≤ box.2.y) :
    (∀ p first last q : Vec, q.Through (p + box.1) (p + box.1 + box.2 - Vec.one) → q.Through first last →
      p.Through (first + low) (last + high)) ↔ Padded low high (extentOf box) := by
  simp only [Vec.Through, Vec.add_x, Vec.add_y, Vec.sub_x, Vec.sub_y, Vec.one]
  constructor
  · intro pads
    have start := pads Vec.zero box.1 box.1 box.1 (by simp only [Vec.zero]; omega) (by omega)
    have stop := pads Vec.zero (extentOf box).2 (extentOf box).2 (extentOf box).2
      (by simp only [extentOf, Vec.zero, Vec.add_x, Vec.add_y, Vec.sub_x, Vec.sub_y, Vec.one]; omega) (by omega)
    simp only [Vec.zero] at start stop
    constructor <;> simp only [extentOf] at * <;> omega
  · rintro ⟨left, top, right, bottom⟩ p first last q covered seen
    simp only [extentOf, Vec.add_x, Vec.add_y, Vec.sub_x, Vec.sub_y, Vec.one] at left top right bottom
    omega

theorem Catalog.pads_iff (filled : ∀ box ∈ c.tiles.toList.flatMap Tile.boxes, 1 ≤ box.2.x ∧ 1 ≤ box.2.y) :
    c.Pads low high ↔ ∀ box ∈ c.tiles.toList.flatMap Tile.boxes, Padded low high (extentOf box) := by
  have all : (∀ box ∈ c.tiles.toList.flatMap Tile.boxes, Padded low high (extentOf box)) ↔
      ∀ box ∈ c.tiles.toList.flatMap Tile.boxes, ∀ p first last q : Vec,
        q.Through (p + box.1) (p + box.1 + box.2 - Vec.one) → q.Through first last →
          p.Through (first + low) (last + high) :=
    forall₂_congr fun box member => (padded_iff (filled box member).1 (filled box member).2).symm
  rw [all]
  simp only [Pads, Variant.Shows, List.forall_mem_flatMap, Tile.boxes, List.forall_mem_map, Array.mem_toList_iff,
    exists_imp, and_imp]

theorem Encloses.padded_iff {corners : Vec × Vec} {boxes : List (Vec × Vec)}
    (encloses : Encloses corners (boxes.map extentOf)) :
    (∀ box ∈ boxes, Padded low high (extentOf box)) ↔ Padded low high corners := by
  rw [← List.forall_mem_map]
  obtain ⟨⟨l, isLeft, left⟩, ⟨t, isTop, top⟩, ⟨r, isRight, right⟩, ⟨b, isBottom, bottom⟩, first, last⟩ := encloses
  constructor
  · intro padded
    constructor
    · rw [← right]
      exact (padded r isRight).left
    · rw [← bottom]
      exact (padded b isBottom).top
    · rw [← left]
      exact (padded l isLeft).right
    · rw [← top]
      exact (padded t isTop).bottom
  · rintro ⟨left, top, right, bottom⟩ e member
    have after := first e member
    have before := last e member
    constructor <;> omega

end Padding

/-- Taken from the ends of a view the footprint encloses all cells of which the sprite shows in it. Added to them it does so
only if its two ends cancel out. -/
theorem sprites_in_view {config : Config} {c : Catalog} (compiled : config.compile = .ok c) :
    c.Pads (-c.footprintHigh) (-c.footprintLow) ∧
      (c.Pads c.footprintLow c.footprintHigh ↔ c.footprintLow + c.footprintHigh = Vec.zero) := by
  obtain ⟨stages⟩ := compile_eq_ok compiled
  have pads : ∀ {low high : Vec}, c.Pads low high ↔ _ := Catalog.pads_iff fun box => stages.box_filled compiled
  rcases stages.footprint_encloses with ⟨none, low, high⟩ | encloses
  · rw [pads, pads, none, low, high]
    exact ⟨by simp, iff_of_true (by simp) rfl⟩
  · rw [pads, pads, encloses.padded_iff, encloses.padded_iff]
    constructor
    · constructor <;> simp only [Vec.neg_x, Vec.neg_y] <;> omega
    · rw [Vec.ext_iff]
      simp only [Vec.add_x, Vec.add_y, Vec.zero]
      constructor
      · rintro ⟨left, top, right, bottom⟩
        simp only at left top right bottom
        omega
      · rintro ⟨x, y⟩
        constructor <;> simp only <;> omega

/-- A barn is two cells wide and stands with its left half on its cell. -/
def barnConfig : Config := {
  tiles := [{
    name := "barn"
    layer := "mid"
    defaultVariant := "wide"
    displayVariant := "wide"
    variants := [{ name := "wide", texture := ⟨0, 0⟩, size := ⟨2, 1⟩ }] }] }

def barnCatalog : Catalog := {
  flags := #[]
  groups := #[]
  tiles := #[{
    name := "barn"
    layer := .mid
    flags := []
    authoredIndex := 0
    variants := #[⟨"wide", ⟨0, 0⟩, ⟨2, 1⟩, ⟨0, 0⟩, ⟨0, 0⟩, ⟨0, 512⟩, ⟨24, 12⟩, ⟨0, 0⟩, ⟨0⟩⟩]
    rules := #[]
    flagBits := #[]
    defaultVariant := 0
    displayVariant := 0 }]
  infos := #[⟨0, 0, "barn", "wide"⟩]
  range := ⟨0, 0⟩
  footprintLow := ⟨0, 0⟩
  footprintHigh := ⟨1, 0⟩ }

theorem barnConfig_compile : barnConfig.compile = .ok barnCatalog := by decide +kernel

theorem sprites_in_view_barn :
    barnConfig.compile = .ok barnCatalog ∧ barnCatalog.Pads ⟨-1, 0⟩ ⟨0, 0⟩ ∧ ¬barnCatalog.Pads ⟨0, 0⟩ ⟨1, 0⟩ := by
  obtain ⟨enough, exactly⟩ := sprites_in_view barnConfig_compile
  refine ⟨barnConfig_compile, enough, ?_⟩
  rw [show barnCatalog.Pads ⟨0, 0⟩ ⟨1, 0⟩ ↔ _ from exactly]
  decide

/-- The right half of a barn shows in a view that starts one cell beyond it, and the added footprint does not reach back. -/
theorem barnView_misses :
    ∃ c, barnConfig.compile = .ok c ∧ ∃ t ∈ c.tiles, ∃ v ∈ t.variants,
      v.Shows ⟨0, 0⟩ ⟨1, 0⟩ ⟨1, 0⟩ ∧
      ¬Vec.Through ⟨0, 0⟩ (⟨1, 0⟩ + c.footprintLow) (⟨1, 0⟩ + c.footprintHigh) := by
  refine ⟨barnCatalog, barnConfig_compile, _, Array.mem_singleton.mpr rfl, _, Array.mem_singleton.mpr rfl, ?_, by decide⟩
  exact ⟨⟨1, 0⟩, by decide, by decide⟩

end Tilework
