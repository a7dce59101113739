import Mathlib.Data.List.Perm.Basic
import Tilework.Edit
import Tilework.Proofs.Catalog.Lookup
import Tilework.Proofs.Catalog.WellFormed

namespace Tilework

namespace Layer

theorem ofName?_eq_some {text : String} {layer : Layer} (h : ofName? text = some layer) : layer.name = text :=
  eq_of_beq (List.find?_some (p := fun layer : Layer => layer.name == text) h)

theorem name_inj {a b : Layer} : a.name = b.name ↔ a = b := by
  constructor
  · intro same
    have found := congrArg ofName? same
    rwa [ofName?_name, ofName?_name, Option.some.injEq] at found
  · exact congrArg name

theorem flatMap_filter_perm {α : Type} (on : α → Layer) (items : List α) :
    (all.flatMap fun layer => items.filter fun x => on x = layer).Perm items := by
  induction items with
  | nil => exact .refl _
  | cons x rest ih =>
    have first : (all.flatMap fun layer => if on x = layer then [x] else []) = [x] := by
      cases on x <;> rfl
    have dealt : (fun layer => (x :: rest).filter fun y => on y = layer) =
        fun layer => (if on x = layer then [x] else []) ++ rest.filter fun y => on y = layer := by
      funext layer
      by_cases here : on x = layer <;> simp [here]
    rw [dealt]
    refine (List.flatMap_append_perm all _ _).symm.trans ?_
    rw [first]
    exact ih.cons x

end Layer

def Config.placesOn (config : Config) (layer : Layer) : List (Config.Tile × Nat) :=
  config.tiles.zipIdx.filter fun x => x.1.layer = layer.name

theorem Config.placesOn_pairwise (config : Config) (layer : Layer) :
    (config.placesOn layer).Pairwise fun a b => a.2 < b.2 := by
  apply List.Pairwise.filter
  rw [List.pairwise_iff_getElem]
  intro i j first second less
  simpa using less

namespace Catalog

variable {c : Catalog} {layer : Layer}

def filedOn (c : Catalog) (layer : Layer) : List (Tile × Nat) :=
  Sorted.sort (fun a b => a.1.authoredIndex ≤ b.1.authoredIndex)
    (c.tiles.toList.zipIdx.filter fun x => x.1.layer = layer)

theorem filedOn_index (ordered : c.Ordered) {x : Tile × Nat} (member : x ∈ c.filedOn layer) :
    c.tileIndex? x.1.name = some x.2 := by
  have listed := (List.mem_filter.mp (Sorted.mem_sort.mp member)).1
  have found := List.mem_zipIdx_iff_getElem?.mp listed
  rw [Array.getElem?_toList] at found
  exact ordered.tiles.index?_eq found

theorem tilesOn_perm (c : Catalog) : (Layer.all.flatMap c.tilesOn).Perm (List.range c.tiles.size) := by
  have dealt := (Layer.flatMap_filter_perm (fun x : Tile × Nat => x.1.layer) c.tiles.toList.zipIdx).map Prod.snd
  rw [List.map_flatMap, List.zipIdx_map_snd, Array.length_toList, ← List.range_eq_range'] at dealt
  refine List.Perm.trans (List.Perm.flatMap_left _ ?_) dealt
  intro layer _
  exact (Sorted.sort_perm _).map Prod.snd

/-- What there is to pick from: on each layer its authored tiles in file order, and each tile on one layer only. -/
structure Offers (config : Config) (c : Catalog) : Prop where
  on_layer : ∀ layer : Layer, (c.available (.only layer)).map some =
    (config.tiles.filter fun t => t.layer = layer.name).map fun t => c.tileIndex? t.name
  indices_perm : (Layer.all.flatMap fun layer => c.available (.only layer)).Perm (List.range c.tiles.size)
  all_perm : (c.available .all).Perm (Layer.all.flatMap fun layer => c.available (.only layer))

end Catalog

namespace Compilation

variable {config : Config} {c : Catalog} (stages : Compilation config c)

include stages

theorem filedOn_perm (layer : Layer) :
    ((c.filedOn layer).map fun x => (x.1.name, x.1.authoredIndex)).Perm
      ((config.placesOn layer).map fun x => (x.1.name, x.2)) := by
  have all : (c.tiles.toList.map fun t => (t.layer.name, t.name, t.authoredIndex)).Perm
      (config.tiles.zipIdx.map fun x => (x.1.layer, x.1.name, x.2)) := by
    rw [stages.tiles_map (fun _ _ => rfl) (fun _ _ => rfl) fun _ _ => rfl]
    apply compileTiles_map stages.tiles_compiled
    intro x t own
    rw [Layer.ofName?_eq_some own.layer, own.name, own.authoredIndex]
  have here := (all.filter fun x => x.1 = layer.name).map Prod.snd
  rw [List.filter_map, List.filter_map, List.map_map, List.map_map] at here
  refine ((Sorted.sort_perm _).map _).trans ?_
  rw [map_filter_zipIdx (fun t : Tile => t.layer = layer) fun t => (t.name, t.authoredIndex)]
  simp only [Function.comp_def, Layer.name_inj] at here
  exact here

theorem filedOn_names (layer : Layer) :
    ((c.filedOn layer).map fun x => (x.1.name, x.1.authoredIndex)) =
      (config.placesOn layer).map fun x => (x.1.name, x.2) := by
  have places := config.placesOn_pairwise layer
  have once : (((config.placesOn layer).map fun x => (x.1.name, x.2)).map Prod.snd).Nodup := by
    rw [List.map_map]
    exact List.pairwise_map.mpr (places.imp Nat.ne_of_lt)
  have ascending : ((config.placesOn layer).map fun x => (x.1.name, x.2)).Pairwise fun a b => a.2 ≤ b.2 :=
    List.pairwise_map.mpr (places.imp Nat.le_of_lt)
  have sorted : ((c.filedOn layer).map fun x => (x.1.name, x.1.authoredIndex)).Pairwise fun a b => a.2 ≤ b.2 :=
    List.pairwise_map.mpr (Sorted.sort_key_pairwise _ _)
  have perm := stages.filedOn_perm layer
  refine perm.eq_of_pairwise ?_ sorted ascending
  intro a b first second before after
  exact List.inj_on_of_nodup_map once (perm.mem_iff.mp first) second (Nat.le_antisymm before after)

theorem tilesOn_eq (layer : Layer) :
    (c.tilesOn layer).map some =
      (config.tiles.filter fun t => t.layer = layer.name).map fun t => c.tileIndex? t.name := by
  have indices : (c.filedOn layer).map (fun x => some x.2) = (c.filedOn layer).map fun x => c.tileIndex? x.1.name :=
    List.map_congr_left fun x member => (Catalog.filedOn_index stages.ordered member).symm
  have names := congrArg (List.map fun x => c.tileIndex? x.1) (stages.filedOn_names layer)
  rw [List.map_map, List.map_map] at names
  rw [← map_filter_zipIdx (fun t : Config.Tile => t.layer = layer.name) fun t => c.tileIndex? t.name]
  refine List.map_map.trans ?_
  exact indices.trans names

end Compilation

theorem pickers_complete {config : Config} {c : Catalog} (compiled : config.compile = .ok c) : c.Offers config := by
  obtain ⟨stages⟩ := compile_eq_ok compiled
  constructor
  · exact stages.tilesOn_eq
  · exact c.tilesOn_perm
  · exact c.tilesOn_perm.symm

/-- The hedge comes first in the file and last by name. -/
theorem pickers_complete_orchard :
    orchardConfig.compile = .ok orchardCatalog ∧ orchardCatalog.Offers orchardConfig ∧
      orchardCatalog.available (.only .mid) = [1, 0] :=
  ⟨orchardConfig_compile, pickers_complete orchardConfig_compile, by decide +kernel⟩

end Tilework
