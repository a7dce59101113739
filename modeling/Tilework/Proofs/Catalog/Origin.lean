import Tilework.Proofs.Catalog.Arithmetic
import Tilework.Proofs.Catalog.Numbering
import Tilework.Proofs.Names

namespace Tilework

def Config.Variant.exact (v : Config.Variant) : Tilework.Variant := {
  name := v.name
  texture := v.texture
  size := v.size
  offset := v.offset
  texOffset := v.texOffset
  pixelPos := sheetOrigin + (v.texture + v.offset + v.texOffset).scale cellPixels
  pixelSize := v.size.scale cellPixels
  pixelOffset := v.offset.scale cellPixels
  id := ⟨0⟩ }

theorem Variant.compile_eq_ok {tile : String} {v : Config.Variant} {w : Variant}
    (h : Variant.compile tile v = .ok w) : w = v.exact := by
  obtain ⟨_, -, h⟩ := bind_eq_ok.mp h
  obtain ⟨_, -, h⟩ := bind_eq_ok.mp h
  obtain ⟨stop, -, h⟩ := bind_eq_ok.mp h
  obtain ⟨_, -, h⟩ := bind_eq_ok.mp h
  obtain ⟨pixelPos, place, h⟩ := bind_eq_ok.mp h
  obtain ⟨pixelSize, size, h⟩ := bind_eq_ok.mp h
  obtain ⟨pixelOffset, offset, h⟩ := bind_eq_ok.mp h
  obtain rfl := v.pixelPos_exact.eq_ok (Compiling.lift_eq_ok.mp place)
  obtain rfl := (Exact.fit _).eq_ok (Compiling.lift_eq_ok.mp size)
  obtain rfl := (Exact.fit _).eq_ok (Compiling.lift_eq_ok.mp offset)
  cases h
  rfl

theorem compileVariants_eq_ok {tile : String} {authored : List Config.Variant} {variants : Array Variant}
    (h : compileVariants tile authored = .ok variants) :
    (authored.map Config.Variant.name).Nodup ∧ variants = (Names.sort (authored.map Config.Variant.exact)).toArray := by
  obtain ⟨compiled, each, h⟩ := bind_eq_ok.mp h
  obtain ⟨_, once, h⟩ := bind_eq_ok.mp h
  cases h
  have exact_values : compiled = authored.map Config.Variant.exact := by
    have same : compiled.map id = authored.map Config.Variant.exact :=
      map_eq_of_forall₂ (fun _ _ => Variant.compile_eq_ok) (mapM_eq_ok.mp each)
    rwa [List.map_id] at same
  refine ⟨?_, by rw [exact_values]⟩
  have apart := Names.duplicate?_sort_eq_none_iff.mp (Compiling.distinct_eq_ok.mp once)
  rwa [exact_values, List.map_map] at apart

theorem compileVariants_tabulates {tile : String} {authored : List Config.Variant} {variants : Array Variant}
    (h : compileVariants tile authored = .ok variants) :
    Names.Tabulates variants (authored.map Config.Variant.name) := by
  obtain ⟨apart, rfl⟩ := compileVariants_eq_ok h
  have names : (authored.map Config.Variant.exact).map name = authored.map Config.Variant.name := List.map_map
  rw [← names] at apart ⊢
  exact Names.tabulates_sort apart

def Config.Group.exact (g : Config.Group) : Tilework.Group := ⟨g.name, (Names.sort g.tiles).toArray, #[]⟩

theorem Group.compile_eq_ok {g : Config.Group} {compiled : Group} (h : Group.compile g = .ok compiled) :
    g.tiles.Nodup ∧ compiled = g.exact := by
  obtain ⟨_, -, h⟩ := bind_eq_ok.mp h
  obtain ⟨_, once, h⟩ := bind_eq_ok.mp h
  cases h
  have apart := Names.duplicate?_sort_eq_none_iff.mp (Compiling.distinct_eq_ok.mp once)
  exact ⟨(List.map_id g.tiles).subst apart, rfl⟩

theorem compileGroups_eq_ok {authored : List Config.Group} {groups : List Group}
    (h : compileGroups authored = .ok groups) :
    (authored.map Config.Group.name).Nodup ∧ groups = Names.sort (authored.map Config.Group.exact) := by
  obtain ⟨compiled, each, h⟩ := bind_eq_ok.mp h
  obtain ⟨_, once, h⟩ := bind_eq_ok.mp h
  cases h
  have exact_values : compiled.map id = authored.map Config.Group.exact :=
    map_eq_of_forall₂ (fun _ _ done => (Group.compile_eq_ok done).2) (mapM_eq_ok.mp each)
  rw [List.map_id] at exact_values
  refine ⟨?_, by rw [exact_values]⟩
  have apart := Names.duplicate?_sort_eq_none_iff.mp (Compiling.distinct_eq_ok.mp once)
  rwa [exact_values, List.map_map] at apart

theorem compileGroups_tabulates {authored : List Config.Group} {groups : List Group}
    (h : compileGroups authored = .ok groups) :
    Names.Tabulates groups.toArray (authored.map Config.Group.name) := by
  obtain ⟨apart, rfl⟩ := compileGroups_eq_ok h
  have names : (authored.map Config.Group.exact).map name = authored.map Config.Group.name := List.map_map
  rw [← names] at apart ⊢
  exact Names.tabulates_sort apart

theorem compileOutcomes_eq_ok {i : Nat} {tile : String} {variants : Array Variant} {authored : List Config.Outcome}
    {outcomes : List Outcome} (h : compileOutcomes i tile variants authored = .ok outcomes) :
    authored ≠ [] ∧ List.Forall₂
      (fun a o => ∃ v, Names.index? variants a.name = some v ∧ o = ⟨a.name, a.chance.getD (chanceShare authored), v⟩)
      authored outcomes := by
  obtain ⟨_, some, h⟩ := bind_eq_ok.mp h
  obtain ⟨_, -, h⟩ := bind_eq_ok.mp h
  obtain ⟨_, -, h⟩ := bind_eq_ok.mp h
  constructor
  · rintro rfl
    cases Compiling.ensure_eq_ok.mp some
  · refine (mapM_eq_ok.mp h).imp ?_
    intro a o chosen
    obtain ⟨v, found, chosen⟩ := bind_eq_ok.mp chosen
    cases chosen
    exact ⟨v, Compiling.found_eq_ok.mp found, rfl⟩

theorem compilePeriod_eq_ok {i : Nat} {tile : String} {authored : Config.Period} {period : Period}
    (h : compilePeriod i tile authored = .ok period) :
    1 ≤ authored.size.minElement ∧
      period = ⟨authored.size, Sorted.dedup (Sorted.sort Vec.notAfter authored.offsets)⟩ := by
  obtain ⟨_, positive, h⟩ := bind_eq_ok.mp h
  obtain ⟨_, -, h⟩ := bind_eq_ok.mp h
  have least := of_decide_eq_true (Compiling.ensure_eq_ok.mp positive)
  split at h
  · cases h
  · cases h
    exact ⟨least, rfl⟩

/-- What compiling a rule by itself comes to, for a tile of these variants. -/
structure Rule.Compiled (variants : Array Variant) (place : Nat) (source : Config.Rule) (rule : Rule) : Prop where
  authoredIndex : rule.authoredIndex = place
  some_result : source.results ≠ []
  results : List.Forall₂
    (fun a o => ∃ v, Names.index? variants a.name = some v ∧
      o = ⟨a.name, a.chance.getD (chanceShare source.results), v⟩)
    source.results rule.results
  requires : rule.requires = (Config.spread source.matrices source.requires).map fun r => ⟨r.name, r.offset, .any⟩
  requiresNot :
    rule.requiresNot = (Config.spread source.matrices source.requiresNot).map fun r => ⟨r.name, r.offset, .any⟩
  reqVariants : ∃ indices, List.Forall₂ (fun key i => Names.index? variants key = some i) source.reqVariants indices ∧
    rule.reqVariants = (Sorted.dedup (Sorted.sort (fun a b => a ≤ b) indices)).toArray
  positive : 1 ≤ source.period.size.minElement
  period : rule.period = ⟨source.period.size, Sorted.dedup (Sorted.sort Vec.notAfter source.period.offsets)⟩

theorem Rule.compile_eq_ok {tile : String} {variants : Array Variant} {i : Nat} {source : Config.Rule} {rule : Rule}
    (h : Rule.compile tile variants i source = .ok rule) : rule.Compiled variants i source := by
  obtain ⟨results, chosen, h⟩ := bind_eq_ok.mp h
  obtain ⟨period, filtered, h⟩ := bind_eq_ok.mp h
  obtain ⟨reqVariants, limited, h⟩ := bind_eq_ok.mp h
  obtain ⟨requires, wanted, h⟩ := bind_eq_ok.mp h
  obtain ⟨requiresNot, unwanted, h⟩ := bind_eq_ok.mp h
  obtain rfl := (expandRequirements_exact _ _).eq_ok (Compiling.lift_eq_ok.mp wanted)
  obtain rfl := (expandRequirements_exact _ _).eq_ok (Compiling.lift_eq_ok.mp unwanted)
  obtain ⟨indices, found, limited⟩ := bind_eq_ok.mp limited
  cases h
  cases limited
  constructor
  · rfl
  · exact (compileOutcomes_eq_ok chosen).1
  · exact (compileOutcomes_eq_ok chosen).2
  · rfl
  · rfl
  · exact ⟨indices, (mapM_eq_ok.mp found).imp fun _ _ => Compiling.found_eq_ok.mp, rfl⟩
  · exact (compilePeriod_eq_ok filtered).1
  · exact (compilePeriod_eq_ok filtered).2

structure Tile.Compiled (place : Nat) (source : Config.Tile) (t : Tile) : Prop where
  named : source.name ≠ ""
  name : t.name = source.name
  layer : Layer.ofName? source.layer = some t.layer
  flags : t.flags = Sorted.dedup (Names.sort source.flags)
  authoredIndex : t.authoredIndex = place
  variants : compileVariants source.name source.variants = .ok t.variants
  rules : List.Forall₂ (fun x rule => Rule.compile source.name t.variants x.1 x.2 = .ok rule)
    (Config.expanded source.rules) t.rules.toList
  flagBits : t.flagBits = #[]
  default : Names.index? t.variants source.defaultVariant = some t.defaultVariant
  display : Names.index? t.variants source.displayVariant = some t.displayVariant

theorem Tile.compile_eq_ok {place : Nat} {source : Config.Tile} {t : Tile} (h : Tile.compile place source = .ok t) :
    t.Compiled place source := by
  obtain ⟨_, named, h⟩ := bind_eq_ok.mp h
  obtain ⟨layer, known, h⟩ := bind_eq_ok.mp h
  obtain ⟨variants, compiled, h⟩ := bind_eq_ok.mp h
  obtain ⟨default, chosen, h⟩ := bind_eq_ok.mp h
  obtain ⟨display, shown, h⟩ := bind_eq_ok.mp h
  obtain ⟨expanded, found, h⟩ := bind_eq_ok.mp h
  obtain ⟨rules, each, h⟩ := bind_eq_ok.mp h
  cases h
  obtain rfl := (expandRules_exact _).eq_ok (Compiling.lift_eq_ok.mp found)
  constructor
  · intro empty
    have filled := Compiling.ensure_eq_ok.mp named
    rw [empty] at filled
    cases filled
  · rfl
  · exact Compiling.found_eq_ok.mp known
  · rfl
  · rfl
  · exact compiled
  · exact mapM_eq_ok.mp each
  · rfl
  · exact Compiling.found_eq_ok.mp chosen
  · exact Compiling.found_eq_ok.mp shown

theorem Tile.Compiled.tabulates {place : Nat} {source : Config.Tile} {t : Tile} (compiled : t.Compiled place source) :
    Names.Tabulates t.variants (source.variants.map Config.Variant.name) :=
  compileVariants_tabulates compiled.variants

theorem compileTiles_eq_ok {groups : List Group} {authored : List Config.Tile} {tiles : List Tile}
    (h : compileTiles groups authored = .ok tiles) :
    ∃ compiled, List.Forall₂ (fun x t => Tile.Compiled x.2 x.1 t) authored.zipIdx compiled ∧
      (compiled.map name).Nodup ∧ tiles = Names.sort compiled := by
  obtain ⟨compiled, each, h⟩ := bind_eq_ok.mp h
  obtain ⟨_, once, h⟩ := bind_eq_ok.mp h
  obtain ⟨_, -, h⟩ := bind_eq_ok.mp h
  cases h
  refine ⟨compiled, (mapM_eq_ok.mp each).imp fun _ _ => Tile.compile_eq_ok, ?_, rfl⟩
  exact Names.duplicate?_sort_eq_none_iff.mp (Compiling.distinct_eq_ok.mp once)

theorem compileTiles_source {groups : List Group} {authored : List Config.Tile} {tiles : List Tile}
    (h : compileTiles groups authored = .ok tiles) {t : Tile} (member : t ∈ tiles) :
    ∃ place source, authored[place]? = some source ∧ t.Compiled place source := by
  obtain ⟨compiled, each, -, rfl⟩ := compileTiles_eq_ok h
  obtain ⟨i, found⟩ := List.mem_iff_getElem?.mp (Sorted.mem_sort.mp member)
  obtain ⟨⟨source, place⟩, listed, from_source⟩ := exists_left_of_forall₂ each found
  refine ⟨place, source, ?_, from_source⟩
  rw [List.getElem?_zipIdx, Option.map_eq_some_iff] at listed
  obtain ⟨other, there, same⟩ := listed
  cases same
  rwa [Nat.zero_add]

theorem compileTiles_map {groups : List Group} {authored : List Config.Tile} {tiles : List Tile}
    (h : compileTiles groups authored = .ok tiles) {β : Type} {f : Tile → β} {g : Config.Tile × Nat → β}
    (same : ∀ x t, Tile.Compiled x.2 x.1 t → f t = g x) : (tiles.map f).Perm (authored.zipIdx.map g) := by
  obtain ⟨compiled, each, -, rfl⟩ := compileTiles_eq_ok h
  rw [← map_eq_of_forall₂ same each]
  exact (Sorted.sort_perm compiled).map f

theorem compileTiles_flatMap {groups : List Group} {authored : List Config.Tile} {tiles : List Tile}
    (h : compileTiles groups authored = .ok tiles) {β : Type} {f : Tile → List β} {g : Config.Tile → List β}
    (same : ∀ place source t, Tile.Compiled place source t → (f t).Perm (g source)) :
    (tiles.flatMap f).Perm (authored.flatMap g) := by
  obtain ⟨compiled, each, -, rfl⟩ := compileTiles_eq_ok h
  have pairs := flatMap_perm_of_forall₂ (f := fun x => g x.1) (fun x t own => same x.2 x.1 t own) each
  rw [flatMap_zipIdx] at pairs
  exact ((Sorted.sort_perm compiled).flatMap_right f).trans pairs

theorem compileTiles_tabulates {groups : List Group} {authored : List Config.Tile} {tiles : List Tile}
    (h : compileTiles groups authored = .ok tiles) :
    Names.Tabulates tiles.toArray (authored.map Config.Tile.name) := by
  have names := compileTiles_map h (f := name) (g := fun x => x.1.name) fun _ _ compiled => compiled.name
  obtain ⟨compiled, -, apart, rfl⟩ := compileTiles_eq_ok h
  refine ⟨(Names.tabulates_sort apart).ascending, ?_⟩
  rwa [map_zipIdx] at names

def Tile.numbered (t : Tile) (first : Nat) : Tile :=
  { t with variants := t.variants.mapIdx fun i v => { v with id := ⟨UInt32.ofNat (first + i)⟩ } }

namespace Tile

variable {t : Tile} {first i : Nat}

theorem numbered_variant {v : Variant} (h : (t.numbered first).variants[i]? = some v) :
    ∃ w, t.variants[i]? = some w ∧ v = { w with id := ⟨UInt32.ofNat (first + i)⟩ } := by
  rw [numbered, Array.getElem?_mapIdx, Option.map_eq_some_iff] at h
  obtain ⟨w, found, rfl⟩ := h
  exact ⟨w, found, rfl⟩

@[simp] theorem numbered_size : (t.numbered first).variants.size = t.variants.size := Array.size_mapIdx

theorem numbered_map {β : Type} {f : Variant → β} (kept : ∀ v id, f { v with id := id } = f v) :
    (t.numbered first).variants.toList.map f = t.variants.toList.map f := by
  apply List.ext_getElem?
  intro i
  simp only [numbered, List.getElem?_map, Array.getElem?_toList, Array.getElem?_mapIdx, Option.map_map]
  exact congrArg (fun g => Option.map g _) (funext fun v => kept v _)

theorem numbered_names :
    (t.numbered first).variants.toList.map Variant.name = t.variants.toList.map Variant.name :=
  numbered_map fun _ _ => rfl

end Tile

theorem numberTiles_getElem? {next i : Nat} {tiles : List Tile} {u : Tile} (h : (numberTiles next tiles)[i]? = some u) :
    ∃ t first, tiles[i]? = some t ∧ u = t.numbered first := by
  induction tiles generalizing next i with
  | nil => simp [numberTiles] at h
  | cons t rest ih =>
    cases i with
    | zero =>
      cases h
      exact ⟨t, next, rfl, rfl⟩
    | succ i => exact ih h

theorem resolveFlags_map {flags : Array String} {tiles flagged : List Tile}
    (h : tiles.mapM (Tile.resolveFlags flags) = .ok flagged) {β : Type} {f : Tile → β}
    (kept : ∀ t bits, f { t with flagBits := bits } = f t) : flagged.map f = tiles.map f := by
  apply map_eq_of_forall₂ _ (mapM_eq_ok.mp h)
  intro t u resolved
  obtain ⟨indices, -, rfl⟩ := Tile.resolveFlags_eq_ok resolved
  exact kept t _

theorem resolveMembers_map {tiles : Array Tile} {groups members : List Group}
    (h : groups.mapM (Group.resolveMembers tiles) = .ok members) {β : Type} {f : Group → β}
    (kept : ∀ g indices, f { g with indices := indices } = f g) : members.map f = groups.map f := by
  apply map_eq_of_forall₂ _ (mapM_eq_ok.mp h)
  intro g k found
  obtain ⟨indices, -, rfl⟩ := Group.resolveMembers_eq_ok found
  exact kept g _

theorem numberTiles_map {β : Type} {f : Tile → β} (kept : ∀ t first, f (t.numbered first) = f t) (next : Nat)
    (tiles : List Tile) : (numberTiles next tiles).map f = tiles.map f := by
  induction tiles generalizing next with
  | nil => rfl
  | cons t rest ih =>
    rw [numberTiles, List.map_cons, List.map_cons, ih]
    exact congrArg (· :: rest.map f) (kept t next)

theorem numberTiles_tabulates {tiles flagged : List Tile} {flags : Array String} {names : List String}
    (table : Names.Tabulates tiles.toArray names) (h : tiles.mapM (Tile.resolveFlags flags) = .ok flagged) :
    Names.Tabulates (numberTiles 0 flagged).toArray names := by
  have flagged_table := table.congr (resolveFlags_map (f := name) h fun _ _ => rfl)
  exact flagged_table.congr (numberTiles_map (f := name) (fun _ _ => rfl) 0 flagged)

namespace Compilation

variable {config : Config} {c : Catalog}

/-- What does not depend on flags, ids and targets is as it was when the tiles had been compiled. -/
theorem tiles_map (stages : Compilation config c) {β : Type} {f : Tile → β}
    (flags : ∀ t bits, f { t with flagBits := bits } = f t) (ids : ∀ t first, f (t.numbered first) = f t)
    (targets : ∀ t rules, f { t with rules := rules } = f t) : c.tiles.toList.map f = stages.tiles.map f := by
  have looked : stages.resolved.map f = (numberTiles 0 stages.flagged).map f := by
    apply map_eq_of_forall₂ _ stages.resolves
    rintro t u ⟨rules, rfl, -⟩
    exact targets t rules.toArray
  rw [stages.tiles_eq, List.toList_toArray, looked, numberTiles_map ids, resolveFlags_map stages.flags_found flags]

theorem flags_tabulates (stages : Compilation config c) : Names.Tabulates c.flags config.flags := by
  have apart := Names.duplicate?_sort_eq_none_iff.mp stages.flags_distinct
  rw [stages.flags_eq]
  exact (List.map_id config.flags).subst (Names.tabulates_sort apart)

theorem groups_tabulates (stages : Compilation config c) :
    Names.Tabulates c.groups (config.groups.map Config.Group.name) := by
  rw [stages.groups_eq]
  exact (compileGroups_tabulates stages.groups_compiled).congr (resolveMembers_map stages.members_found fun _ _ => rfl)

theorem tiles_tabulates (stages : Compilation config c) :
    Names.Tabulates c.tiles (config.tiles.map Config.Tile.name) :=
  (compileTiles_tabulates stages.tiles_compiled).congr
    (stages.tiles_map (f := name) (fun _ _ => rfl) (fun _ _ => rfl) fun _ _ => rfl)

theorem origin (stages : Compilation config c) {i : Nat} {u : Tile} (h : c.tiles[i]? = some u) :
    ∃ t place source first bits rules, stages.tiles[i]? = some t ∧ config.tiles[place]? = some source ∧
      t.Compiled place source ∧ t.resolveFlags c.flags = .ok { t with flagBits := bits } ∧
      u = { t.numbered first with flagBits := bits, rules := rules.toArray } ∧
      List.Forall₂
        (fun a b => a.resolve (numberTiles 0 stages.flagged).toArray stages.members.toArray t.name = .ok b)
        t.rules.toList rules := by
  rw [stages.tiles_getElem?] at h
  obtain ⟨numbered, before, rules, rfl, resolved⟩ := exists_left_of_forall₂ stages.resolves h
  obtain ⟨flagged, first, earlier, rfl⟩ := numberTiles_getElem? before
  obtain ⟨t, found, flags⟩ := exists_left_of_forall₂ (mapM_eq_ok.mp stages.flags_found) earlier
  obtain ⟨indices, -, rfl⟩ := Tile.resolveFlags_eq_ok flags
  obtain ⟨place, source, listed, compiled⟩ := compileTiles_source stages.tiles_compiled (List.mem_of_getElem? found)
  exact ⟨t, place, source, first, _, rules, found, listed, compiled, flags, rfl, resolved⟩

end Compilation

end Tilework
