import Tilework.Command.Run
import Tilework.Proofs.Autotile.Drawless
import Tilework.Proofs.Edit.Resize
import Tilework.Proofs.Store.Open

namespace Tilework

namespace Session

variable {σ : Type}

def withGrid (s : Session σ) (g : Grid) : Session σ := { s with store := { s.store with grid := g } }

section Perform

variable {m : Type → Type} [Monad m] [Files m] [DrawSource σ]

/-- What a command asks for, as an operation of a session. What cannot be done leaves the session as it is. -/
def perform (s : Session σ) : Command.Action → Faulting m (Session σ)
  | .check | .info => return s
  | .retile => s.retile
  | .exportText => do
    let _ ← (s.save .text : m Bool)
    return s
  | .importText => do
    match ← s.load .text with
    | .ok loaded => return loaded
    | .error _ => return s
  | .resize size offset => do
    let resized ← s.resize size offset
    return resized.getD s
  | .paint pos tile =>
    match s.catalog.tileIndex? tile with
    | none => return s
    | some i => s.place pos i
  | .erase a b filter => s.erase a b filter

def performAll (s : Session σ) (actions : List Command.Action) : Faulting m (Session σ) := actions.foldlM perform s

theorem performAll_cons [LawfulMonad m] (s : Session σ) (action : Command.Action) (actions : List Command.Action) :
    (s.performAll (action :: actions) : Faulting m (Session σ)) = s.perform action >>= fun t => t.performAll actions :=
  List.foldlM_cons

end Perform

theorem edit_eq [DrawSource σ] {s : Session σ} {change : Catalog → Grid → Drawing σ Grid} {result : Checked Grid}
    (same : change s.catalog s.store.grid = liftM result) : s.edit change = result.map s.withGrid := by
  unfold edit Store.edit
  rw [same]
  cases result <;> rfl

end Session

theorem Session.load_apply {σ δ : Type} [Files (StateM δ)] [Files.Reliable δ] (s : Session σ) (f : Format) (d : δ) :
    (s.load f : Faulting (StateM δ) (Except ArchiveError (Session σ))) d =
      ((f.gridIn s.catalog (content d (f.path s.store.path))).map fun found => found.map s.withGrid, d) := by
  have loaded := s.store.load_apply s.catalog f d
  unfold Session.load
  cases found : f.gridIn s.catalog (content d (f.path s.store.path)) with
  | error cause =>
    rw [found] at loaded
    rw [bind_apply_error loaded]
    rfl
  | ok read =>
    rw [found] at loaded
    rw [bind_apply_ok loaded]
    cases read <;> rfl

theorem Session.perform_export {σ δ : Type} [DrawSource σ] [Files (StateM δ)] [Files.Reliable δ] (s : Session σ)
    (d : δ) :
    (s.perform .exportText : Faulting (StateM δ) (Session σ)) d =
      (.ok s, Files.Reliable.put d (Format.text.path s.store.path)
        (Format.text.encode s.store.compress (Snapshot.capture s.store.grid s.catalog))) := by
  have saved : (s.save .text : StateM δ Bool) d = _ := Files.Reliable.save_eq _ _ _
  exact bind_apply_ok (congrArg (fun r => (Except.ok r.1, r.2)) saved) _

namespace Command

variable {σ : Type} [DrawSource σ]

omit [DrawSource σ] in
theorem running_apply {δ α : Type} (step : Faulting (StateM δ) α) (d : δ) :
    (running step : Running (StateM δ) α) d = (checked (step d).1, (step d).2) := rfl

inductive Agrees (s : Session σ) : Except Failure (Effect σ) → Checked Grid → Prop
  | unchanged : Agrees s (.ok .unchanged) (.ok s.store.grid)
  | refused {failure : Failure} (usual : ∀ cause, failure ≠ .fault cause) : Agrees s (.error failure) (.ok s.store.grid)
  | saved (k : Grid) : Agrees s (.ok (.save (s.withGrid k) .compact)) (.ok k)
  | faulted (cause : Fault) : Agrees s (.error (.fault cause)) (.error cause)

omit [DrawSource σ] in
theorem agrees_saved (s : Session σ) (result : Checked Grid) :
    Agrees s (checked (result.map s.withGrid) >>= fun t => .ok (.save t .compact)) result := by
  cases result with
  | error cause => exact .faulted cause
  | ok k => exact .saved k

variable {δ : Type} [Files (StateM δ)]

/-- From the map of the session the action comes to this one, in the session and in a process alike. -/
structure Comes (s : Session σ) (e : δ) (action : Action) (result : Checked Grid) : Prop where
  perform : (s.perform action : Faulting (StateM δ) (Session σ)) e = (result.map s.withGrid, e)
  effect : ∃ x, (effect s action : Running (StateM δ) (Effect σ)) e = (x, e) ∧ Agrees s x result
  known : s.store.grid.Known s.catalog → ∀ k, result = .ok k → k.Known s.catalog

variable {c : Catalog}

theorem comes_edit {g : Grid} {action : Action} (change : Catalog → Grid → Drawing σ Grid)
    (drawless : (change c g).Drawless) (kept : ∀ u k v, g.Known c → change c g u = .ok (k, v) → k.Known c)
    (performs : ∀ (s : Session σ) (e : δ), s.catalog = c → s.store.grid = g →
      (s.perform action : Faulting (StateM δ) (Session σ)) e = (s.edit change, e))
    (effects : ∀ (s : Session σ) (e : δ), s.catalog = c → s.store.grid = g →
      (effect s action : Running (StateM δ) (Effect σ)) e =
        (checked (s.edit change) >>= fun t => .ok (.save t .compact), e)) :
    ∃ result, ∀ (s : Session σ) (e : δ), s.catalog = c → s.store.grid = g → Comes s e action result := by
  obtain ⟨result, same⟩ := drawless
  refine ⟨result, ?_⟩
  rintro s e rfl rfl
  refine ⟨?_, ⟨_, effects s e rfl rfl, ?_⟩, ?_⟩
  · rw [performs s e rfl rfl, Session.edit_eq same]
  · rw [Session.edit_eq same]
    exact agrees_saved s result
  · rintro known k rfl
    refine kept s.draws k s.draws known ?_
    rw [same]
    rfl

theorem comes_kept {g : Grid} {action : Action}
    (performs : ∀ (s : Session σ) (e : δ), s.catalog = c → s.store.grid = g →
      (s.perform action : Faulting (StateM δ) (Session σ)) e = (.ok s, e))
    (effects : ∀ (s : Session σ) (e : δ), s.catalog = c → s.store.grid = g →
      ∃ x, (effect s action : Running (StateM δ) (Effect σ)) e = (x, e) ∧ Agrees s x (.ok g)) :
    ∃ result, ∀ (s : Session σ) (e : δ), s.catalog = c → s.store.grid = g → Comes s e action result := by
  refine ⟨.ok g, ?_⟩
  rintro s e rfl rfl
  refine ⟨performs s e rfl rfl, effects s e rfl rfl, ?_⟩
  rintro known _ ⟨⟩
  exact known

theorem comes_paint (determined : c.Determined) (numbered : c.Numbered) (g : Grid) (pos : Vec) (tile : String) :
    ∃ result, ∀ (s : Session σ) (e : δ), s.catalog = c → s.store.grid = g → Comes s e (.paint pos tile) result := by
  cases found : c.tileIndex? tile with
  | none =>
    refine comes_kept ?_ ?_
    · rintro s e rfl rfl
      simp only [Session.perform, found]
      rfl
    · rintro s e rfl rfl
      refine ⟨_, rfl, ?_⟩
      rw [painted, found]
      exact .refused fun _ same => by cases same
  | some i =>
    by_cases inside : g.Contains pos
    · refine comes_edit (fun c g => g.place c pos i) (determined.place_drawless g pos i) ?_ ?_ ?_
      · intro u k v known placed
        exact Grid.place_upholds numbered (Catalog.respects_knows numbered) known placed
      · rintro s e rfl rfl
        simp only [Session.perform, found]
        rfl
      · rintro s e rfl rfl
        simp only [effect, painted, found, if_pos inside]
        rfl
    · have nothing : (g.place c pos i : Drawing σ Grid) = liftM (.ok g : Checked Grid) := if_neg inside
      refine comes_kept ?_ ?_
      · rintro s e rfl rfl
        have same : (s.edit fun c g => g.place c pos i) = (Except.ok s.store.grid).map s.withGrid :=
          Session.edit_eq nothing
        simp only [Session.perform, found, Session.place, same]
        rfl
      · rintro s e rfl rfl
        refine ⟨.error (.outside pos s.store.grid.size), ?_, .refused fun _ same => by cases same⟩
        simp only [effect, painted, found, if_neg inside]
        rfl

theorem comes_resize (g : Grid) (size offset : Vec) :
    ∃ result, ∀ (s : Session σ) (e : δ), s.catalog = c → s.store.grid = g → Comes s e (.resize size offset) result := by
  refine ⟨(g.resize size offset).map fun resized => resized.getD g, ?_⟩
  rintro s e rfl rfl
  have session :
      s.resize size offset = (s.store.grid.resize size offset).map fun resized => resized.map s.withGrid := by
    unfold Session.resize Store.resize
    cases s.store.grid.resize size offset with
    | error cause => rfl
    | ok resized => cases resized <;> rfl
  refine ⟨?_, ⟨_, rfl, ?_⟩, ?_⟩
  · cases made : s.store.grid.resize size offset with
    | error cause =>
      rw [made] at session
      exact bind_apply_error (congrArg (·, e) session) _
    | ok resized =>
      rw [made] at session
      refine (bind_apply_ok (congrArg (·, e) session) _).trans ?_
      cases resized <;> rfl
  · cases count : cellCount? size with
    | none =>
      rw [resized, count, Grid.resize_of_unusable (cellCount?_eq_none_iff.mp count)]
      exact .refused fun _ same => by cases same
    | some n =>
      simp only [resized, count, session]
      cases s.store.grid.resize size offset with
      | error cause => exact .faulted cause
      | ok resized =>
        cases resized with
        | none => exact .unchanged
        | some k => exact .saved k
  · intro known k made
    cases moved : s.store.grid.resize size offset with
    | error cause =>
      rw [moved] at made
      cases made
    | ok resized =>
      rw [moved] at made
      cases made
      cases resized with
      | none => exact known
      | some k => exact Grid.Upholds.resize known moved

variable [Files.Reliable δ]

theorem comes_importText (ordered : c.Ordered) (numbered : c.Numbered) (g : Grid) (text : Option Bytes) :
    ∃ result, ∀ (s : Session σ) (e : δ), s.catalog = c → s.store.grid = g →
      content e (Format.text.path s.store.path) = text → Comes s e .importText result := by
  refine ⟨(Format.text.gridIn c text).map fun found => found.toOption.getD g, ?_⟩
  rintro s e rfl rfl rfl
  have loaded := s.load_apply .text e
  cases found : Format.text.gridIn s.catalog (content e (Format.text.path s.store.path)) with
  | error cause =>
    rw [found] at loaded
    have step : (running (s.load .text) : Running (StateM δ) _) e = (.error (.fault cause), e) := by
      rw [running_apply, loaded]
      rfl
    exact ⟨bind_apply_error loaded _, ⟨_, bind_apply_error step _, .faulted cause⟩, fun _ _ made => nomatch made⟩
  | ok read =>
    rw [found] at loaded
    have step : (running (s.load .text) : Running (StateM δ) _) e = (.ok (read.map s.withGrid), e) := by
      rw [running_apply, loaded]
      rfl
    have performed := bind_apply_ok loaded fun found => match found with
      | .ok loaded => (pure loaded : Faulting (StateM δ) (Session σ))
      | .error _ => pure s
    cases read with
    | error cause =>
      refine ⟨performed, ⟨_, bind_apply_ok step _, .refused fun _ same => by cases same⟩, ?_⟩
      rintro known _ ⟨⟩
      exact known
    | ok k =>
      refine ⟨performed, ⟨_, bind_apply_ok step _, .saved k⟩, ?_⟩
      rintro - _ ⟨⟩
      exact Format.gridIn_known ordered numbered found

theorem exists_comes (determined : c.Determined) (ordered : c.Ordered) (numbered : c.Numbered) (g : Grid)
    (text : Option Bytes) {action : Action} (other : action ≠ .exportText) :
    ∃ result, ∀ (s : Session σ) (e : δ), s.catalog = c → s.store.grid = g →
      content e (Format.text.path s.store.path) = text → Comes s e action result := by
  have weaken : (∃ result, ∀ (s : Session σ) (e : δ), s.catalog = c → s.store.grid = g → Comes s e action result) →
      ∃ result, ∀ (s : Session σ) (e : δ), s.catalog = c → s.store.grid = g →
        content e (Format.text.path s.store.path) = text → Comes s e action result := by
    rintro ⟨result, comes⟩
    exact ⟨result, fun s e catalog grid _ => comes s e catalog grid⟩
  have respected := Catalog.respects_knows numbered
  cases action with
  | check | info =>
    refine weaken (comes_kept ?_ ?_)
    · rintro s e rfl rfl
      rfl
    · rintro s e rfl rfl
      exact ⟨_, rfl, .unchanged⟩
  | retile =>
    refine weaken (comes_edit (fun c g => Tilework.retile c g)
      (determined.retileCells_drawless g g.bounds.cells) ?_ (fun _ _ _ _ => rfl) (fun _ _ _ _ => rfl))
    intro u k v known retiled
    exact Grid.retile_upholds numbered respected known retiled
  | exportText => exact absurd rfl other
  | importText => exact comes_importText ordered numbered g text
  | resize size offset => exact weaken (comes_resize g size offset)
  | paint pos tile => exact weaken (comes_paint determined numbered g pos tile)
  | erase a b filter =>
    refine weaken (comes_edit (fun c g => g.erase c a b filter) (determined.erase_drawless g a b filter) ?_
      (fun _ _ _ _ => rfl) (fun _ _ _ _ => rfl))
    intro u k v known erased
    exact Grid.erase_upholds numbered respected known erased

end Command

end Tilework
