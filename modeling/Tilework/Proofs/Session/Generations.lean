import Tilework.Proofs.Session.Stamps

namespace Tilework

/-- A run keeps the map resolved and pastes what was picked up if and only if all ids that it pastes are still those of
the same tiles. Brushes of the current catalog are fresh. After a reload the others are so only by chance. -/
theorem pastes_named_iff_fresh {config : Config} {σ δ : Type} [DrawSource σ] [Files (StateM δ)] (start : Desk σ δ)
    (actions : List (Desk.Action δ)) (compiled : config.compile = .ok start.session.catalog)
    (resolved : start.Resolved) (none : start.picked = [])
    (few : start.Throughout (fun w _ v => w.Few ∧ v.Few) actions) :
    (start.Throughout (fun w a v => v.Resolved ∧ w.Stamps a v) actions ↔
      start.Throughout (fun w a _ => w.Fresh a) actions) ∧
    (start.Throughout (fun w a _ => w.Current a) actions →
      start.Throughout (fun w a v => v.Resolved ∧ w.Stamps a v) actions) := by
  have sound : start.Sound := by
    refine ⟨⟨config, compiled⟩, ?_⟩
    rw [none]
    intro x member
    cases member
  have both := sound.throughout_iff resolved few
  refine ⟨both, ?_⟩
  intro current
  apply both.mpr
  apply current.mono
  intro w a _ same
  exact same.fresh

/-- Tiles of these names, one variant each. -/
def quarryConfig (names : List String) : Config := {
  tiles := names.map fun name => {
    name := name
    layer := "mid"
    defaultVariant := "v"
    displayVariant := "v"
    variants := [{ name := "v", texture := ⟨0, 0⟩ }] } }

def quarryCatalog (names : List String) : Catalog := {
  flags := #[]
  groups := #[]
  tiles := (names.zipIdx.map fun (name, i) => {
    name := name
    layer := .mid
    flags := []
    authoredIndex := i
    variants := #[⟨"v", ⟨0, 0⟩, ⟨1, 1⟩, ⟨0, 0⟩, ⟨0, 0⟩, ⟨0, 512⟩, ⟨12, 12⟩, ⟨0, 0⟩, ⟨UInt32.ofNat i⟩⟩]
    rules := #[]
    flagBits := #[]
    defaultVariant := 0
    displayVariant := 0 }).toArray
  infos := (names.zipIdx.map fun (name, i) => ⟨i, 0, name, "v"⟩).toArray
  range := ⟨0, 0⟩
  footprintLow := ⟨0, 0⟩
  footprintHigh := ⟨0, 0⟩ }

open Json in
def quarryJson (names : List String) : Json :=
  .object [(some "tiles", .array (names.map fun name => .object [
    (some "name", ofString name), (some "layer", ofString "mid"), (some "default", ofString "v"),
    (some "display", ofString "v"),
    (some "variants", .array [.object [(some "name", ofString "v"), (some "texture", ofVec ⟨0, 0⟩)]])]))]

def quarryShelf (names : List String) : Shelf :=
  Shelf.empty.put "tiling.json" (Bytes.ofText (quarryJson names).pretty)

def quarryGrid (slot : Option TileId) : Grid := ⟨⟨1, 1⟩, #[{ mid := slot }], rfl⟩

def quarryPick (names : List String) (id : TileId) (name : String) : Picked :=
  ⟨⟨quarryGrid (some id)⟩, quarryCatalog names, fun p layer => if p = Vec.zero ∧ layer = .mid then some name else none⟩

def quarryDesk (names : List String) (slot : Option TileId) (picked : List Picked) (files : Shelf) :
    Desk Scripted Shelf :=
  ⟨⟨"tiling.json", quarryCatalog names, Store.ofGrid (quarryGrid slot) "map", ⟨#[], 0⟩⟩, picked, files⟩

theorem quarryConfig_compile : (quarryConfig ["brick", "stone"]).compile = .ok (quarryCatalog ["brick", "stone"]) := by
  decide +kernel

theorem quarryDesk_resolved : (quarryDesk ["brick", "stone"] none [] .empty).Resolved := by
  unfold Desk.Resolved
  decide +kernel

theorem quarryDesk_reload (picked : List Picked) :
    (quarryDesk ["brick", "stone"] none picked (quarryShelf ["brick"])).step .reload =
      .ok (quarryDesk ["brick"] none picked (quarryShelf ["brick"])) := by
  have legible : (quarryJson ["brick"]).Legible := by
    simp [quarryJson, Json.Legible, Json.MembersLegible, Json.ItemsLegible, Json.ofString, Json.ofVec, Json.ofInt,
      Json.Numeral.ofInt_legible]
  have parsed : Config.parse? (quarryJson ["brick"]).pretty = some (quarryConfig ["brick"]) :=
    Config.parse?_pretty legible (by decide +kernel)
  have compiled : (quarryConfig ["brick"]).compile = .ok (quarryCatalog ["brick"]) := by decide +kernel
  have held : content (quarryShelf ["brick"]) "tiling.json" = some (Bytes.ofText (quarryJson ["brick"]).pretty) :=
    Files.Reliable.content_put_self (d := Shelf.empty)
  have text : (Files.readText? "tiling.json" : StateM Shelf (Option String)) (quarryShelf ["brick"]) =
      (some (quarryJson ["brick"]).pretty, quarryShelf ["brick"]) := by
    rw [Files.Reliable.readText?_eq, held, Option.bind_some, Bytes.text?_ofText]
  have blank : (quarryGrid none).rename (quarryCatalog ["brick", "stone"]) (quarryCatalog ["brick"]) =
      quarryGrid none := Grid.ext_cells rfl (by decide +kernel)
  have rebound : (quarryDesk ["brick", "stone"] none picked (quarryShelf ["brick"])).session.rebind
      (quarryCatalog ["brick"]) = .ok (quarryDesk ["brick"] none picked (quarryShelf ["brick"])).session := by
    simp only [Session.rebind, Store.rebind, Store.edit, quarryDesk, Store.ofGrid, blank]
    rfl
  have reloaded := Session.reload_of_parsed
    (s := (quarryDesk ["brick", "stone"] none picked (quarryShelf ["brick"])).session) text parsed compiled rebound
  simp only [Desk.step]
  exact congrArg (Desk.settle _) reloaded

def stonePick : Picked := quarryPick ["brick", "stone"] ⟨1⟩ "stone"

def brickPick : Picked := quarryPick ["brick"] ⟨0⟩ "brick"

/-- A stone is picked up, the catalog file then lacks the stones, and it is read again. -/
theorem quarryDesk_rebuilt (rest : List (Desk.Action Shelf)) :
    (quarryDesk ["brick", "stone"] none [] .empty).run
      (.grabTile 1 :: .replaceFiles (quarryShelf ["brick"]) :: .reload :: rest) =
        (quarryDesk ["brick"] none [stonePick] (quarryShelf ["brick"])).run rest ∧
    ∀ P : Desk Scripted Shelf → Desk.Action Shelf → Desk Scripted Shelf → Prop,
      (quarryDesk ["brick", "stone"] none [] .empty).Throughout P
        (.grabTile 1 :: .replaceFiles (quarryShelf ["brick"]) :: .reload :: rest) ↔
      P (quarryDesk ["brick", "stone"] none [] .empty) (.grabTile 1)
        (quarryDesk ["brick", "stone"] none [stonePick] .empty) ∧
      P (quarryDesk ["brick", "stone"] none [stonePick] .empty) (.replaceFiles (quarryShelf ["brick"]))
        (quarryDesk ["brick", "stone"] none [stonePick] (quarryShelf ["brick"])) ∧
      P (quarryDesk ["brick", "stone"] none [stonePick] (quarryShelf ["brick"])) .reload
        (quarryDesk ["brick"] none [stonePick] (quarryShelf ["brick"])) ∧
      (quarryDesk ["brick"] none [stonePick] (quarryShelf ["brick"])).Throughout P rest := by
  have grabbed : (quarryDesk ["brick", "stone"] none [] .empty).step (.grabTile 1) =
      .ok (quarryDesk ["brick", "stone"] none [stonePick] .empty) := rfl
  have replaced : (quarryDesk ["brick", "stone"] none [stonePick] .empty).step (.replaceFiles (quarryShelf ["brick"])) =
      .ok (quarryDesk ["brick", "stone"] none [stonePick] (quarryShelf ["brick"])) := rfl
  have reloaded := quarryDesk_reload [stonePick]
  constructor
  · rw [Desk.run_cons grabbed, Desk.run_cons replaced, Desk.run_cons reloaded]
  · intro P
    rw [Desk.throughout_cons grabbed, Desk.throughout_cons replaced, Desk.throughout_cons reloaded]

/-- A brick that is picked up after the reload may be pasted. -/
theorem pastes_named_iff_fresh_brick :
    (quarryDesk ["brick", "stone"] none [] .empty).run
      [.grabTile 1, .replaceFiles (quarryShelf ["brick"]), .reload, .grabTile 0, .paste 1 ⟨0, 0⟩] =
      .ok (quarryDesk ["brick"] (some ⟨0⟩) [stonePick, brickPick] (quarryShelf ["brick"])) ∧
    (quarryDesk ["brick", "stone"] none [] .empty).Throughout (fun w a v => v.Resolved ∧ w.Stamps a v)
      [.grabTile 1, .replaceFiles (quarryShelf ["brick"]), .reload, .grabTile 0, .paste 1 ⟨0, 0⟩] := by
  have grabbed : (quarryDesk ["brick"] none [stonePick] (quarryShelf ["brick"])).step (.grabTile 0) =
      .ok (quarryDesk ["brick"] none [stonePick, brickPick] (quarryShelf ["brick"])) := rfl
  have pasted : (quarryDesk ["brick"] none [stonePick, brickPick] (quarryShelf ["brick"])).step (.paste 1 ⟨0, 0⟩) =
      .ok (quarryDesk ["brick"] (some ⟨0⟩) [stonePick, brickPick] (quarryShelf ["brick"])) := rfl
  have many : ∀ slot picked files, (quarryDesk ["brick", "stone"] slot picked files).Few := fun _ _ _ =>
    show (quarryCatalog ["brick", "stone"]).infos.size < 0x100000000 by decide
  have one : ∀ slot picked files, (quarryDesk ["brick"] slot picked files).Few := fun _ _ _ =>
    show (quarryCatalog ["brick"]).infos.size < 0x100000000 by decide
  obtain ⟨rebuilt, throughout⟩ := quarryDesk_rebuilt [.grabTile 0, .paste 1 ⟨0, 0⟩]
  constructor
  · rw [rebuilt, Desk.run_cons grabbed, Desk.run_cons pasted]
    rfl
  · apply (pastes_named_iff_fresh _ _ quarryConfig_compile quarryDesk_resolved rfl ?_).2
    · rw [throughout, Desk.throughout_cons grabbed, Desk.throughout_cons pasted]
      refine ⟨Desk.current_of_not_paste nofun, Desk.current_of_not_paste nofun, Desk.current_of_not_paste nofun,
        Desk.current_of_not_paste nofun, ?_, trivial⟩
      intro i offset x paste found
      cases paste
      cases found
      rfl
    · rw [throughout, Desk.throughout_cons grabbed, Desk.throughout_cons pasted]
      exact ⟨⟨many .., many ..⟩, ⟨many .., many ..⟩, ⟨many .., one ..⟩, ⟨one .., one ..⟩, ⟨one .., one ..⟩, trivial⟩

/-- The stone that was picked up before the reload leaves an id that no tile has any more. -/
theorem stonePick_strays :
    (quarryConfig ["brick", "stone"]).compile = .ok (quarryCatalog ["brick", "stone"]) ∧
    (quarryDesk ["brick", "stone"] none [] .empty).Resolved ∧
    (quarryDesk ["brick", "stone"] none [] .empty).run
      [.grabTile 1, .replaceFiles (quarryShelf ["brick"]), .reload, .paste 0 ⟨0, 0⟩] =
      .ok (quarryDesk ["brick"] (some ⟨1⟩) [stonePick] (quarryShelf ["brick"])) ∧
    ¬(quarryDesk ["brick"] (some ⟨1⟩) [stonePick] (quarryShelf ["brick"])).Resolved ∧
    ¬(quarryDesk ["brick"] none [stonePick] (quarryShelf ["brick"])).Stamps (.paste 0 ⟨0, 0⟩)
      (quarryDesk ["brick"] (some ⟨1⟩) [stonePick] (quarryShelf ["brick"])) := by
  have pasted : (quarryDesk ["brick"] none [stonePick] (quarryShelf ["brick"])).step (.paste 0 ⟨0, 0⟩) =
      .ok (quarryDesk ["brick"] (some ⟨1⟩) [stonePick] (quarryShelf ["brick"])) := rfl
  obtain ⟨rebuilt, -⟩ := quarryDesk_rebuilt [.paste 0 ⟨0, 0⟩]
  refine ⟨quarryConfig_compile, quarryDesk_resolved, ?_, ?_, ?_⟩
  · rw [rebuilt, Desk.run_cons pasted]
    rfl
  · unfold Desk.Resolved
    decide +kernel
  · intro stamps
    rcases (stamps 0 ⟨0, 0⟩ stonePick ⟨0, 0⟩ .mid rfl rfl (by decide)).1 "stone" rfl with shown | ⟨nothing, -⟩
    · cases shown
    · cases nothing

end Tilework
