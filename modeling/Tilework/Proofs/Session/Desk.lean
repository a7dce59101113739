import Tilework.Proofs.Session.Catalogs
import Tilework.Proofs.Session.Picked
import Tilework.Proofs.Session.Runs

namespace Tilework

/-- A session with what was picked up in it, and the files that it works on. -/
structure Desk (σ δ : Type) where
  session : Session σ
  picked : List Picked
  files : δ

namespace Desk

inductive Action (δ : Type) where
  | place (p : Vec) (tile : Nat)
  | grabTile (tile : Nat)
  | grabArea (a b : Vec) (filter : Filter)
  /-- Pastes what was picked up at this place in the order of the run. -/
  | paste (brush : Nat) (offset : Vec)
  | erase (a b : Vec) (filter : Filter)
  | resize (size offset : Vec)
  | retile
  | save (format : Format)
  | load (format : Format)
  | reload
  | replaceFiles (files : δ)

variable {σ δ : Type}

section Steps

def settle {ε : Type} (w : Desk σ δ) : Except Fault (Except ε (Session σ)) × δ → Checked (Desk σ δ)
  | (.error cause, _) => .error cause
  | (.ok (.error _), files) => .ok { w with files := files }
  | (.ok (.ok s), files) => .ok { w with session := s, files := files }

variable [DrawSource σ] [Files (StateM δ)]

def step (w : Desk σ δ) : Action δ → Checked (Desk σ δ)
  | .place p tile => do
    let s ← w.session.place p tile
    return { w with session := s }
  | .grabTile tile => do
    let x ← Picked.ofTile w.session.catalog tile
    return { w with picked := w.picked ++ [x] }
  | .grabArea a b filter => do
    let x ← Picked.ofArea w.session.catalog w.session.store.grid a b filter
    return { w with picked := w.picked ++ x.toList }
  | .paste i offset =>
    match w.picked[i]? with
    | none => return w
    | some x => do
      let s ← w.session.paste x.brush offset
      return { w with session := s }
  | .erase a b filter => do
    let s ← w.session.erase a b filter
    return { w with session := s }
  | .resize size offset => do
    let resized ← w.session.resize size offset
    return { w with session := resized.getD w.session }
  | .retile => do
    let s ← w.session.retile
    return { w with session := s }
  | .save format => return { w with files := ((w.session.save format : StateM δ Bool) w.files).2 }
  | .load format => w.settle ((w.session.load format : Faulting (StateM δ) (Except ArchiveError (Session σ))) w.files)
  | .reload => w.settle ((w.session.reload : Faulting (StateM δ) (Except LoadError (Session σ))) w.files)
  | .replaceFiles files => return { w with files := files }

def run (w : Desk σ δ) (actions : List (Action δ)) : Checked (Desk σ δ) := actions.foldlM step w

theorem run_cons {w v : Desk σ δ} {a : Action δ} (h : w.step a = .ok v) (rest : List (Action δ)) :
    w.run (a :: rest) = v.run rest := by
  rw [run, List.foldlM_cons, h]
  rfl

/-- Every step of the run, up to its end or to a fault, meets the condition. -/
def Throughout (P : Desk σ δ → Action δ → Desk σ δ → Prop) (w : Desk σ δ) : List (Action δ) → Prop
  | [] => True
  | a :: rest => ∀ v, w.step a = .ok v → P w a v ∧ v.Throughout P rest

theorem throughout_cons {P : Desk σ δ → Action δ → Desk σ δ → Prop} {w v : Desk σ δ} {a : Action δ}
    (h : w.step a = .ok v) (rest : List (Action δ)) :
    w.Throughout P (a :: rest) ↔ P w a v ∧ v.Throughout P rest := by
  constructor
  · intro all
    exact all v h
  · intro both u taken
    rw [h] at taken
    cases taken
    exact both

theorem Throughout.mono {w : Desk σ δ} {P Q : Desk σ δ → Action δ → Desk σ δ → Prop} {actions : List (Action δ)}
    (each : ∀ w a v, P w a v → Q w a v) (all : w.Throughout P actions) : w.Throughout Q actions := by
  induction actions generalizing w with
  | nil => trivial
  | cons a rest ih =>
    intro v taken
    obtain ⟨here, later⟩ := all v taken
    exact ⟨each w a v here, ih later⟩

end Steps

def Resolved (w : Desk σ δ) : Prop := w.session.store.grid.Known w.session.catalog

/-- Each id that a paste writes is that of a tile of the same name as under the catalog of the pick-up. -/
def Fresh (w : Desk σ δ) (a : Action δ) : Prop :=
  ∀ i offset x q layer id, a = .paste i offset → w.picked[i]? = some x → w.session.store.grid.Contains q →
    x.brush.slotAt (q - offset) layer = some id → w.session.catalog.tileName? id = x.catalog.tileName? id

def Current (w : Desk σ δ) (a : Action δ) : Prop :=
  ∀ i offset x, a = .paste i offset → w.picked[i]? = some x → x.catalog = w.session.catalog

theorem Current.fresh {w : Desk σ δ} {a : Action δ} (current : w.Current a) : w.Fresh a := by
  intro i offset x q layer id paste found _ _
  rw [current i offset x paste found]

theorem current_of_not_paste {w : Desk σ δ} {a : Action δ} (other : ∀ i offset, a ≠ .paste i offset) :
    w.Current a := by
  intro i offset x paste
  exact absurd paste (other i offset)

def Few (w : Desk σ δ) : Prop := w.session.catalog.infos.size < 0x100000000

structure Sound (w : Desk σ δ) : Prop where
  compiled : ∃ config : Config, config.compile = .ok w.session.catalog
  picked : ∀ x ∈ w.picked, x.Sound

structure Keeps (w : Desk σ δ) (a : Action δ) (v : Desk σ δ) : Prop where
  sound : v.Sound
  resolved : w.Resolved → w.Fresh a → v.Resolved

variable {w v : Desk σ δ} {a : Action δ}

theorem Sound.ordered (sound : w.Sound) : w.session.catalog.Ordered := by
  obtain ⟨config, compiled⟩ := sound.compiled
  obtain ⟨stages⟩ := compile_eq_ok compiled
  exact stages.ordered

theorem Sound.numbered (sound : w.Sound) (few : w.Few) : w.session.catalog.Numbered := by
  obtain ⟨config, compiled⟩ := sound.compiled
  obtain ⟨stages⟩ := compile_eq_ok compiled
  exact stages.numbered few

theorem Sound.edit (sound : w.Sound) {change : Catalog → Grid → Drawing σ Grid} {s : Session σ}
    (kept : w.Resolved → w.Fresh a → ∀ k t,
      change w.session.catalog w.session.store.grid w.session.draws = .ok (k, t) → k.Known w.session.catalog)
    (h : w.session.edit change = .ok s) : w.Keeps a { w with session := s } := by
  obtain ⟨k, t, changed, rfl⟩ := Session.edit_eq_ok h
  constructor
  · exact ⟨sound.compiled, sound.picked⟩
  · intro resolved fresh
    exact kept resolved fresh k t changed

theorem Sound.pickUp (sound : w.Sound) {more : List Picked} (each : ∀ x ∈ more, x.Sound) :
    w.Keeps a { w with picked := w.picked ++ more } := by
  constructor
  · refine ⟨sound.compiled, ?_⟩
    intro x member
    rcases List.mem_append.mp member with old | new
    · exact sound.picked x old
    · exact each x new
  · intro resolved _
    exact resolved

theorem Sound.resize (sound : w.Sound) {size offset : Vec} {resized : Option (Session σ)}
    (h : w.session.resize size offset = .ok resized) : w.Keeps a { w with session := resized.getD w.session } := by
  rcases Session.resize_eq_ok h with rfl | ⟨grid, moved, rfl⟩
  · exact ⟨sound, fun resolved _ => resolved⟩
  · constructor
    · exact ⟨sound.compiled, sound.picked⟩
    · intro resolved _
      exact Grid.Upholds.resize resolved moved

theorem settle_eq_ok {ε : Type} {r : Except Fault (Except ε (Session σ)) × δ} (h : w.settle r = .ok v) :
    v = { w with files := r.2 } ∨ ∃ s, r = (.ok (.ok s), r.2) ∧ v = { w with session := s, files := r.2 } := by
  unfold settle at h
  split at h
  · cases h
  · cases h
    exact .inl rfl
  · cases h
    exact .inr ⟨_, rfl, rfl⟩

variable [DrawSource σ]

theorem Sound.rebind (sound : w.Sound) {c : Catalog} (compiled : ∃ config : Config, config.compile = .ok c)
    {s : Session σ} {files : δ} (few : Few { w with session := s, files := files })
    (h : w.session.rebind c = .ok s) : w.Keeps a { w with session := s, files := files } := by
  obtain ⟨⟨store, draws⟩, edited, h⟩ := bind_eq_ok.mp h
  cases h
  obtain ⟨k, t, retiled, same⟩ := Drawing.bind_eq_ok.mp edited
  obtain ⟨rfl, rfl⟩ := Drawing.pure_eq_ok.mp same
  have rebound : Sound ⟨⟨w.session.catalogPath, c, { w.session.store with grid := k }, t⟩, w.picked, files⟩ :=
    ⟨compiled, sound.picked⟩
  constructor
  · exact rebound
  · intro _ _
    have numbered := rebound.numbered few
    have renamed : (w.session.store.grid.rename w.session.catalog c).Known c :=
      Grid.rename_known _ rebound.ordered numbered
    exact Grid.retile_upholds numbered (Catalog.respects_knows numbered) renamed retiled

variable [Files (StateM δ)]

/-- A fresh paste writes ids that the catalog knows, and so does everything else that a step can write. -/
theorem Sound.step (sound : w.Sound) (few : w.Few) (fewAfter : v.Few) (h : w.step a = .ok v) : w.Keeps a v := by
  have numbered := sound.numbered few
  have respected := Catalog.respects_knows numbered
  cases a with
  | place p tile =>
    obtain ⟨s, edited, h⟩ := bind_eq_ok.mp h
    cases h
    exact sound.edit (fun resolved _ _ _ placed => Grid.place_upholds numbered respected resolved placed) edited
  | grabTile tile =>
    obtain ⟨x, taken, h⟩ := bind_eq_ok.mp h
    cases h
    apply sound.pickUp
    intro y member
    rw [List.mem_singleton.mp member]
    exact Picked.ofTile_sound numbered taken
  | grabArea p q filter =>
    obtain ⟨x, taken, h⟩ := bind_eq_ok.mp h
    cases h
    apply sound.pickUp
    intro y member
    rw [Option.mem_toList] at member
    rw [member] at taken
    exact Picked.ofArea_sound numbered taken
  | paste i offset =>
    cases found : w.picked[i]? with
    | none =>
      simp only [Desk.step, found] at h
      cases h
      exact ⟨sound, fun resolved _ => resolved⟩
    | some x =>
      simp only [Desk.step, found] at h
      obtain ⟨s, edited, h⟩ := bind_eq_ok.mp h
      cases h
      apply sound.edit ?_ edited
      intro resolved fresh k t pasted
      apply Grid.paste_upholds numbered respected resolved ?_ pasted
      intro q layer id contains held
      obtain ⟨name, -, called⟩ := (sound.picked x (List.mem_of_getElem? found)).name held
      apply Catalog.knows_iff_tileName?.mpr
      exact ⟨name, (fresh i offset x q layer id rfl found contains held).trans called⟩
  | erase p q filter =>
    obtain ⟨s, edited, h⟩ := bind_eq_ok.mp h
    cases h
    exact sound.edit (fun resolved _ _ _ erased => Grid.erase_upholds numbered respected resolved erased) edited
  | resize size offset =>
    obtain ⟨resized, done, h⟩ := bind_eq_ok.mp h
    cases h
    exact sound.resize done
  | retile =>
    obtain ⟨s, edited, h⟩ := bind_eq_ok.mp h
    cases h
    exact sound.edit (fun resolved _ _ _ retiled => Grid.retile_upholds numbered respected resolved retiled) edited
  | save format =>
    cases h
    exact ⟨⟨sound.compiled, sound.picked⟩, fun resolved _ => resolved⟩
  | load format =>
    rcases settle_eq_ok h with rfl | ⟨s, loaded, rfl⟩
    · exact ⟨⟨sound.compiled, sound.picked⟩, fun resolved _ => resolved⟩
    · obtain ⟨k, known, rfl⟩ := Session.load_known sound.ordered numbered loaded
      exact ⟨⟨sound.compiled, sound.picked⟩, fun _ _ => known⟩
  | reload =>
    rcases settle_eq_ok h with rfl | ⟨s, reloaded, rfl⟩
    · exact ⟨⟨sound.compiled, sound.picked⟩, fun resolved _ => resolved⟩
    · obtain ⟨c, compiled, rebound⟩ := Session.reload_eq_ok reloaded
      exact sound.rebind compiled fewAfter rebound
  | replaceFiles files =>
    cases h
    exact ⟨⟨sound.compiled, sound.picked⟩, fun resolved _ => resolved⟩

end Desk

end Tilework
