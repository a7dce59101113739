import Tilework.Proofs.Catalog.Stages

namespace Tilework

def tileInfosFrom (i : Nat) (tiles : List Tile) : List TileInfo :=
  (tiles.zipIdx i).flatMap fun (t, i) => t.variants.toList.zipIdx.map fun (v, j) => ⟨i, j, t.name, v.name⟩

theorem tileInfosFrom_cons (i : Nat) (t : Tile) (rest : List Tile) :
    tileInfosFrom i (t :: rest) =
      (t.variants.toList.zipIdx.map fun (v, j) => ⟨i, j, t.name, v.name⟩) ++ tileInfosFrom (i + 1) rest := by
  simp [tileInfosFrom]

theorem info_of_numbered {tiles : List Tile} {next i t j : Nat} {tile : Tile} {v : Variant}
    (ht : (numberTiles next tiles)[t]? = some tile) (hv : tile.variants[j]? = some v) :
    ∃ k, v.id = ⟨UInt32.ofNat (next + k)⟩ ∧
      (tileInfosFrom i (numberTiles next tiles))[k]? = some ⟨i + t, j, tile.name, v.name⟩ := by
  induction tiles generalizing next i t with
  | nil => simp [numberTiles] at ht
  | cons first rest ih =>
    rw [numberTiles, tileInfosFrom_cons]
    rw [numberTiles] at ht
    cases t with
    | zero =>
      simp only [List.getElem?_cons_zero, Option.some.injEq] at ht
      subst ht
      have inside : j < first.variants.size := by
        have := (Array.getElem?_eq_some_iff.mp hv).1
        simpa using this
      refine ⟨j, ?_, ?_⟩
      · simp only [Array.getElem?_mapIdx, Option.map_eq_some_iff] at hv
        obtain ⟨w, -, rfl⟩ := hv
        rfl
      · have entry : (first.variants.mapIdx fun i v => { v with id := ⟨UInt32.ofNat (next + i)⟩ }).toList[j]? = some v := by
          simpa using hv
        rw [List.getElem?_append_left (by simpa using inside)]
        simp only [List.getElem?_map, List.getElem?_zipIdx, entry]
        simp
    | succ t =>
      simp only [List.getElem?_cons_succ] at ht
      obtain ⟨k, number, entry⟩ := ih (i := i + 1) ht
      refine ⟨first.variants.size + k, ?_, ?_⟩
      · rw [number, Nat.add_assoc]
      · rw [List.getElem?_append_right (by simp)]
        simp only [List.length_map, List.length_zipIdx, Array.length_toList, Array.size_mapIdx,
          Nat.add_sub_cancel_left]
        rw [entry]
        simp only [Option.some.injEq, TileInfo.mk.injEq, and_true]
        omega

theorem numbered_of_info {tiles : List Tile} {next i k : Nat} {info : TileInfo}
    (h : (tileInfosFrom i (numberTiles next tiles))[k]? = some info) :
    ∃ t tile v, info = ⟨i + t, info.variant, tile.name, v.name⟩ ∧ (numberTiles next tiles)[t]? = some tile ∧
      tile.variants[info.variant]? = some v ∧ v.id = ⟨UInt32.ofNat (next + k)⟩ := by
  induction tiles generalizing next i k with
  | nil => simp [numberTiles, tileInfosFrom] at h
  | cons first rest ih =>
    rw [numberTiles, tileInfosFrom_cons] at h
    rw [numberTiles]
    by_cases inside : k < first.variants.size
    · rw [List.getElem?_append_left (by simpa using inside)] at h
      simp only [List.getElem?_map, List.getElem?_zipIdx, Array.getElem?_toList, Array.getElem?_mapIdx,
        Option.map_map, Option.map_eq_some_iff] at h
      obtain ⟨w, found, rfl⟩ := h
      refine ⟨0, _, { w with id := ⟨UInt32.ofNat (next + k)⟩ }, ?_, rfl, ?_, rfl⟩
      · simp
      · simp [found]
    · rw [List.getElem?_append_right (by simpa using inside)] at h
      simp only [List.length_map, List.length_zipIdx, Array.length_toList, Array.size_mapIdx] at h
      obtain ⟨t, tile, v, same, found, entry, number⟩ := ih h
      refine ⟨t + 1, tile, v, ?_, by simpa using found, entry, ?_⟩
      · rw [same]
        simp only [TileInfo.mk.injEq, and_true]
        omega
      · rw [number]
        congr 2
        omega

namespace Catalog

/-- The ids and their entries are inverse to each other. -/
structure Numbered (c : Catalog) : Prop where
  info_of_variant : ∀ {t j : Nat} {tile : Tile} {v : Variant}, c.tiles[t]? = some tile →
    tile.variants[j]? = some v → c.info? v.id = some ⟨t, j, tile.name, v.name⟩
  variant_of_info : ∀ {id : TileId} {info : TileInfo}, c.info? id = some info →
    ∃ tile v, c.tiles[info.tile]? = some tile ∧ tile.variants[info.variant]? = some v ∧ v.id = id ∧
      info.tileName = tile.name ∧ info.variantName = v.name

end Catalog

namespace Compilation

variable {config : Config} {c : Catalog}

def Resolves (stages : Compilation config c) (t u : Tile) : Prop :=
  ∃ rules, u = { t with rules := rules.toArray } ∧
    List.Forall₂
      (fun a b => a.resolve (numberTiles 0 stages.flagged).toArray stages.members.toArray t.name = .ok b)
      t.rules.toList rules

theorem resolves (stages : Compilation config c) :
    List.Forall₂ stages.Resolves (numberTiles 0 stages.flagged) stages.resolved :=
  (mapM_eq_ok.mp stages.targets_found).imp fun _ _ => Tile.resolve_eq_ok

theorem tiles_getElem? (stages : Compilation config c) (t : Nat) : c.tiles[t]? = stages.resolved[t]? := by
  rw [stages.tiles_eq, List.getElem?_toArray]

theorem info?_eq (stages : Compilation config c) (id : TileId) :
    c.info? id = (tileInfosFrom 0 (numberTiles 0 stages.flagged))[id.index]? := by
  rw [Catalog.info?, stages.infos_eq, List.getElem?_toArray]
  rfl

theorem variant_of_info (stages : Compilation config c) {id : TileId} {info : TileInfo} (h : c.info? id = some info) :
    ∃ tile v, c.tiles[info.tile]? = some tile ∧ tile.variants[info.variant]? = some v ∧ v.id = id ∧
      info.tileName = tile.name ∧ info.variantName = v.name := by
  rw [stages.info?_eq] at h
  obtain ⟨t, tile, v, same, before, variant, number⟩ := numbered_of_info h
  obtain ⟨u, after, rules, rfl, -⟩ := exists_right_of_forall₂ stages.resolves before
  rw [← stages.tiles_getElem?] at after
  rw [same]
  refine ⟨{ tile with rules := rules.toArray }, v, ?_, variant, ?_, rfl, rfl⟩
  · rw [Nat.zero_add]
    exact after
  · rw [number, Nat.zero_add, TileId.index, UInt32.ofNat_toNat]

/-- The id of a variant is the place of its entry, up to a multiple of 2^32. -/
theorem number_of_variant (stages : Compilation config c) {t j : Nat} {tile : Tile} {v : Variant}
    (ht : c.tiles[t]? = some tile) (hv : tile.variants[j]? = some v) :
    ∃ k, v.id = ⟨UInt32.ofNat k⟩ ∧ c.infos[k]? = some ⟨t, j, tile.name, v.name⟩ := by
  rw [stages.tiles_getElem?] at ht
  obtain ⟨u, before, rules, rfl, -⟩ := exists_left_of_forall₂ stages.resolves ht
  obtain ⟨k, number, entry⟩ := info_of_numbered (i := 0) before hv
  rw [Nat.zero_add] at number entry
  refine ⟨k, number, ?_⟩
  rw [stages.infos_eq, List.getElem?_toArray]
  exact entry

theorem numbered (stages : Compilation config c) (few : c.infos.size < 0x100000000) : c.Numbered := by
  refine ⟨?_, stages.variant_of_info⟩
  intro t j tile v ht hv
  obtain ⟨k, number, entry⟩ := stages.number_of_variant ht hv
  have inside := (Array.getElem?_eq_some_iff.mp entry).1
  have index : v.id.index = k := by
    rw [number, TileId.index, UInt32.toNat_ofNat']
    omega
  rw [Catalog.info?, index, entry]

end Compilation

end Tilework
