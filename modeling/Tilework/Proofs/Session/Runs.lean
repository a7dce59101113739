import Tilework.Proofs.Autotile.Settled
import Tilework.Proofs.Edit.Ownership
import Tilework.Proofs.Edit.Resize
import Tilework.Proofs.Session.Reopen

namespace Tilework

theorem Session.edit_eq_ok {σ : Type} {s t : Session σ} {change : Catalog → Grid → Drawing σ Grid}
    (h : s.edit change = .ok t) : ∃ k draws, change s.catalog s.store.grid s.draws = .ok (k, draws) ∧
      t = { s with store := { s.store with grid := k }, draws := draws } := by
  obtain ⟨⟨store, draws⟩, edited, h⟩ := bind_eq_ok.mp h
  cases h
  obtain ⟨k, _, changed, same⟩ := Drawing.bind_eq_ok.mp edited
  obtain ⟨rfl, rfl⟩ := Drawing.pure_eq_ok.mp same
  exact ⟨k, _, changed, rfl⟩

theorem Session.resize_eq_ok {σ : Type} {s : Session σ} {size offset : Vec} {resized : Option (Session σ)}
    (h : s.resize size offset = .ok resized) : resized = none ∨
      ∃ k, s.store.grid.resize size offset = .ok (some k) ∧ resized = some { s with store := { s.store with grid := k } } := by
  obtain ⟨store, made, h⟩ := bind_eq_ok.mp h
  cases h
  obtain ⟨grid, moved, made⟩ := bind_eq_ok.mp made
  cases made
  cases grid with
  | none => exact .inl rfl
  | some grid => exact .inr ⟨grid, moved, rfl⟩

inductive Action where
  | place (p : Vec) (tile : Nat)
  | grabTile (tile : Nat)
  | grabArea (a b : Vec) (filter : Filter)
  /-- Pastes the brush with this number, counted in the order in which they were picked up. -/
  | paste (brush : Nat) (offset : Vec)
  | erase (a b : Vec) (filter : Filter)
  | resize (size offset : Vec)
  | retile
  | retileRegion (region : Rect)
  | reopen (format : Format)

structure Workbench (σ δ : Type) where
  session : Session σ
  brushes : List Brush
  files : δ

namespace Workbench

variable {σ δ : Type} [DrawSource σ] [Files (StateM δ)]

def step (w : Workbench σ δ) : Action → Checked (Workbench σ δ)
  | .place p tile => do
    let s ← w.session.place p tile
    return { w with session := s }
  | .grabTile tile => do
    let brush ← Brush.ofTile w.session.catalog tile
    return { w with brushes := w.brushes ++ [brush] }
  | .grabArea a b filter => do
    let brush ← w.session.store.grid.grab w.session.catalog a b filter
    return { w with brushes := w.brushes ++ brush.toList }
  | .paste i offset =>
    match w.brushes[i]? with
    | none => return w
    | some brush => do
      let s ← w.session.paste brush offset
      return { w with session := s }
  | .erase a b filter => do
    let s ← w.session.erase a b filter
    return { w with session := s }
  | .resize size offset => do
    let resized ← w.session.resize size offset
    return { w with session := resized.getD w.session }
  | .retile => do
    let s ← w.session.retile
    return { w with session := s }
  | .retileRegion region => do
    let s ← w.session.edit fun c g => Tilework.retileRegion c g region
    return { w with session := s }
  | .reopen format => do
    let (s, files) ← w.session.reopen format w.files
    return { w with session := s, files := files }

def run (w : Workbench σ δ) (actions : List Action) : Checked (Workbench σ δ) := actions.foldlM step w

theorem run_cons {w v : Workbench σ δ} {action : Action} (h : w.step action = .ok v) (rest : List Action) :
    w.run (action :: rest) = v.run rest := by
  rw [run, List.foldlM_cons, h]
  rfl

structure Sound (c : Catalog) (w : Workbench σ δ) : Prop where
  catalog : w.session.catalog = c
  grid : w.session.store.grid.Upholds c.Owns
  brushes : ∀ brush ∈ w.brushes, brush.grid.Upholds c.Provides

variable {c : Catalog} {w v : Workbench σ δ}

omit [DrawSource σ] [Files (StateM δ)] in
theorem Sound.edit (sound : w.Sound c) {change : Catalog → Grid → Drawing σ Grid} {s : Session σ}
    (kept : ∀ k t, change c w.session.store.grid w.session.draws = .ok (k, t) → k.Upholds c.Owns)
    (h : w.session.edit change = .ok s) : Sound c { w with session := s } := by
  obtain ⟨k, draws, changed, rfl⟩ := Session.edit_eq_ok h
  rw [sound.catalog] at changed
  exact ⟨sound.catalog, kept k draws changed, sound.brushes⟩

omit [DrawSource σ] [Files (StateM δ)] in
theorem Sound.pickUp (sound : w.Sound c) {picked : List Brush}
    (provided : ∀ brush ∈ picked, brush.grid.Upholds c.Provides) :
    Sound c { w with brushes := w.brushes ++ picked } := by
  refine ⟨sound.catalog, sound.grid, ?_⟩
  intro brush member
  rcases List.mem_append.mp member with old | new
  · exact sound.brushes brush old
  · exact provided brush new

omit [DrawSource σ] [Files (StateM δ)] in
theorem Sound.resize (sound : w.Sound c) {size offset : Vec} {resized : Option (Session σ)}
    (h : w.session.resize size offset = .ok resized) : Sound c { w with session := resized.getD w.session } := by
  rcases Session.resize_eq_ok h with rfl | ⟨grid, moved, rfl⟩
  · exact sound
  · exact ⟨sound.catalog, sound.grid.resize moved, sound.brushes⟩

omit [DrawSource σ] in
theorem Sound.reopen (numbered : c.Numbered) (distinct : c.TilesDistinct) (few : c.infos.size < 0x100000000)
    (counted : c.NamesCounted) (faithful : Files.Faithful δ) (sound : w.Sound c) {format : Format} {s : Session σ}
    {files : δ} (h : w.session.reopen format w.files = .ok (s, files)) :
    Sound c { w with session := s, files := files } := by
  have same := sound.catalog
  rcases Session.reopen_eq_ok faithful (by rw [same]; exact few) (by rw [same]; exact counted) h with rfl | rfl
  · exact ⟨same, sound.grid, sound.brushes⟩
  · refine ⟨same, ?_, sound.brushes⟩
    show (w.session.store.grid.rename w.session.catalog w.session.catalog).Upholds c.Owns
    rw [same]
    exact Grid.rename_proper numbered distinct sound.grid

theorem Sound.step (numbered : c.Numbered) (distinct : c.TilesDistinct) (few : c.infos.size < 0x100000000)
    (counted : c.NamesCounted) (faithful : Files.Faithful δ) (sound : w.Sound c) {action : Action}
    (h : w.step action = .ok v) : v.Sound c := by
  have respected := Catalog.respects_owns numbered
  cases action with
  | place p tile =>
    obtain ⟨s, edited, h⟩ := bind_eq_ok.mp h
    cases h
    exact sound.edit (fun _ _ placed => Grid.place_upholds numbered respected sound.grid placed) edited
  | grabTile tile =>
    obtain ⟨brush, made, h⟩ := bind_eq_ok.mp h
    cases h
    rw [sound.catalog] at made
    apply sound.pickUp
    intro other member
    rw [List.mem_singleton.mp member]
    exact Brush.ofTile_provides made
  | grabArea a b filter =>
    obtain ⟨brush, made, h⟩ := bind_eq_ok.mp h
    cases h
    rw [sound.catalog] at made
    apply sound.pickUp
    intro other member
    rw [Option.mem_toList] at member
    rw [member] at made
    exact Grid.grab_provides sound.grid made
  | paste i offset =>
    cases found : w.brushes[i]? with
    | none =>
      simp only [Workbench.step, found] at h
      cases h
      exact sound
    | some brush =>
      simp only [Workbench.step, found] at h
      obtain ⟨s, edited, h⟩ := bind_eq_ok.mp h
      cases h
      have provided := sound.brushes brush (List.mem_of_getElem? found)
      apply sound.edit ?_ edited
      intro k t pasted
      apply Grid.paste_upholds numbered respected sound.grid ?_ pasted
      intro q layer id _ slot
      obtain ⟨inside, held⟩ := Brush.slotAt_eq_some_iff.mp slot
      exact respected.of_provides (provided _ inside layer id held)
  | erase a b filter =>
    obtain ⟨s, edited, h⟩ := bind_eq_ok.mp h
    cases h
    exact sound.edit (fun _ _ erased => Grid.erase_upholds numbered respected sound.grid erased) edited
  | resize size offset =>
    obtain ⟨resized, done, h⟩ := bind_eq_ok.mp h
    cases h
    exact sound.resize done
  | retile =>
    obtain ⟨s, edited, h⟩ := bind_eq_ok.mp h
    cases h
    exact sound.edit (fun _ _ retiled => Grid.retile_upholds numbered respected sound.grid retiled) edited
  | retileRegion region =>
    obtain ⟨s, edited, h⟩ := bind_eq_ok.mp h
    cases h
    exact sound.edit (fun _ _ retiled => Grid.retileRegion_upholds numbered respected sound.grid retiled) edited
  | reopen format =>
    obtain ⟨⟨s, files⟩, opened, h⟩ := bind_eq_ok.mp h
    cases h
    exact sound.reopen numbered distinct few counted faithful opened

end Workbench

/-- Every id in the brush is that of the default variant of a tile of the layer that it stands on. -/
def Brush.Default (c : Catalog) (brush : Brush) : Prop := ∀ cell ∈ brush.grid.cells, cell.Upholds c.Provides

/-- Every run keeps the map proper and its brushes at default variants. It starts without brushes, so that those at its
end are the ones which were picked up in it. -/
theorem runs_keep_proper {config : Config} {c : Catalog} (compiled : config.compile = .ok c)
    (few : c.infos.size < 0x100000000) (counted : c.NamesCounted) {σ δ : Type} [DrawSource σ] [Files (StateM δ)]
    (faithful : Files.Faithful δ) :
    (∀ (size : Vec) (g : Grid), Grid.blank size = .ok g → g.Proper c) ∧
    ∀ (start last : Workbench σ δ) (actions : List Action), start.session.catalog = c → start.brushes = [] →
      start.session.store.grid.Proper c → start.run actions = .ok last →
        last.session.store.grid.Proper c ∧ ∀ brush ∈ last.brushes, brush.Default c := by
  obtain ⟨stages⟩ := compile_eq_ok compiled
  constructor
  · intro size g made
    exact Grid.proper_iff.mpr (Grid.blank_upholds made)
  · intro start last actions catalog none proper done
    have sound : start.Sound c := by
      refine ⟨catalog, Grid.proper_iff.mp proper, ?_⟩
      simp [none]
    have ending : last.Sound c := by
      refine foldlM_invariant (fun w => w.Sound c) ?_ sound done
      intro w action next _ sound taken
      exact sound.step (stages.numbered few) stages.tilesDistinct few counted faithful taken
    exact ⟨Grid.proper_iff.mpr ending.grid, fun brush member => Grid.upholds_iff_mem.mp (ending.brushes brush member)⟩

def wallBench (g : Grid) (brushes : List Brush) (files : Shelf) : Workbench Scripted Shelf :=
  ⟨⟨"tiles.json", wallCatalog, ⟨g, "map", false, .blank⟩, Scripted.mk #[] 0⟩, brushes, files⟩

def wallBrush : Brush := ⟨⟨⟨2, 1⟩, #[{}, { back := some ⟨0⟩ }], rfl⟩⟩

theorem wallCatalog_namesCounted : wallCatalog.NamesCounted := by
  unfold Catalog.NamesCounted
  decide +kernel

theorem wallBench_reopen (f : Format) (brushes : List Brush) (files : Shelf) :
    ∃ after, (wallBench (wallRow none (some ⟨0⟩) none) brushes files).step (.reopen f) =
      .ok (wallBench (wallRow none (some ⟨0⟩) none) brushes after) := by
  have few : wallCatalog.infos.size < 0x100000000 := by decide
  have encodes : f.Encodes false (Snapshot.capture (wallRow none (some ⟨0⟩) none) wallCatalog) := by
    intro _
    exact ⟨by decide +kernel, fun impossible => nomatch impossible⟩
  have opened := Session.reopen_shelf (wallBench (wallRow none (some ⟨0⟩) none) brushes files).session files few
    wallCatalog_namesCounted encodes
  refine ⟨files.put (f.path "map") (f.encode false (Snapshot.capture (wallRow none (some ⟨0⟩) none) wallCatalog)), ?_⟩
  apply bind_eq_ok.mpr
  refine ⟨_, opened, ?_⟩
  simp only [wallBench, wallRow_rename]
  rfl

/-- A wall that is picked up at the border is pasted beside itself and taken away, and the map goes through both forms. -/
theorem runs_keep_proper_wallBench :
    ∃ files, (wallBench (wallRow none none none) [] .empty).run
        [.place ⟨2, 0⟩ 0, .grabArea ⟨1, 0⟩ ⟨9, 9⟩ .all, .paste 0 ⟨0, 0⟩, .erase ⟨2, 0⟩ ⟨5, 3⟩ .all, .reopen .text,
          .reopen .compact] =
      .ok (wallBench (wallRow none (some ⟨0⟩) none) [wallBrush] files) ∧
    (wallRow none (some ⟨0⟩) none).Proper wallCatalog ∧ wallBrush.Default wallCatalog := by
  have placed : (wallBench (wallRow none none none) [] .empty).step (.place ⟨2, 0⟩ 0) =
      .ok (wallBench (wallRow none none (some ⟨1⟩)) [] .empty) := rfl
  have grabbed : (wallBench (wallRow none none (some ⟨1⟩)) [] .empty).step (.grabArea ⟨1, 0⟩ ⟨9, 9⟩ .all) =
      .ok (wallBench (wallRow none none (some ⟨1⟩)) [wallBrush] .empty) := rfl
  have pasted : (wallBench (wallRow none none (some ⟨1⟩)) [wallBrush] .empty).step (.paste 0 ⟨0, 0⟩) =
      .ok (wallBench (wallRow none (some ⟨1⟩) (some ⟨1⟩)) [wallBrush] .empty) := rfl
  have erased : (wallBench (wallRow none (some ⟨1⟩) (some ⟨1⟩)) [wallBrush] .empty).step (.erase ⟨2, 0⟩ ⟨5, 3⟩ .all) =
      .ok (wallBench (wallRow none (some ⟨0⟩) none) [wallBrush] .empty) := by
    apply bind_eq_ok.mpr
    exact ⟨_, rfl, rfl⟩
  obtain ⟨first, text⟩ := wallBench_reopen .text [wallBrush] .empty
  obtain ⟨second, compact⟩ := wallBench_reopen .compact [wallBrush] first
  obtain ⟨blank, runs⟩ := @runs_keep_proper _ _ wallConfig_compile (by decide) wallCatalog_namesCounted Scripted Shelf _ _
    Shelf.faithful
  have run : (wallBench (wallRow none none none) [] .empty).run
      [.place ⟨2, 0⟩ 0, .grabArea ⟨1, 0⟩ ⟨9, 9⟩ .all, .paste 0 ⟨0, 0⟩, .erase ⟨2, 0⟩ ⟨5, 3⟩ .all, .reopen .text,
        .reopen .compact] = .ok (wallBench (wallRow none (some ⟨0⟩) none) [wallBrush] second) := by
    rw [Workbench.run_cons placed, Workbench.run_cons grabbed, Workbench.run_cons pasted, Workbench.run_cons erased,
      Workbench.run_cons text, Workbench.run_cons compact]
    rfl
  have start := blank ⟨3, 1⟩ (wallRow none none none) rfl
  obtain ⟨proper, brushes⟩ := runs _ _ _ rfl rfl start run
  exact ⟨second, run, proper, brushes wallBrush (List.mem_singleton.mpr rfl)⟩

end Tilework
