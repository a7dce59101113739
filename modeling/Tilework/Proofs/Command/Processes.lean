import Tilework.Proofs.Command.Effects

namespace Tilework

section Loading

variable {δ : Type} [Files (StateM δ)] [Files.Reliable δ]

def Project.ofContent (path : String) : Option Bytes → Except ProjectError Project
  | none => .ok {}
  | some bytes =>
    match bytes.text? with
    | none => .error .io
    | some text =>
      match Project.parse? text with
      | none => .error .parse
      | some p =>
        match Path.parent? path with
        | some dir => .ok (p.under dir)
        | none => .ok p

theorem Project.ofContent_ofText {path text dir : String} {p : Project} (parsed : Project.parse? text = some p)
    (above : Path.parent? path = some dir) : Project.ofContent path (some (Bytes.ofText text)) = .ok (p.under dir) := by
  rw [ofContent, Bytes.text?_ofText]
  simp only [parsed, above]

theorem Project.load_apply (path : String) (d : δ) : (Project.load path : StateM δ (Except ProjectError Project)) d =
    (Project.ofContent path (content d path), d) := by
  have present := Files.Reliable.isPresent_eq path d
  have text := Files.Reliable.readText?_eq path d
  rw [Project.load, state_bind_apply present]
  cases stored : content d path with
  | none => rfl
  | some bytes =>
    rw [stored] at text
    rw [Option.isSome_some, if_pos rfl, state_bind_apply text, Option.bind_some, Project.ofContent]
    cases bytes.text? with
    | none => rfl
    | some text =>
      dsimp only
      cases Project.parse? text with
      | none => rfl
      | some p =>
        dsimp only
        cases Path.parent? path <;> rfl

theorem Config.parse?_pretty {value : Json} {config : Config} (legible : value.Legible)
    (read : Config.ofJson? value = some config) : Config.parse? value.pretty = some config := by
  rw [parse?, Json.parse?_pretty legible, Option.bind_some, read]

def Catalog.ofContent : Option Bytes → Checked (Except LoadError Catalog)
  | none => .ok (.error .io)
  | some bytes =>
    match bytes.text? with
    | none => .ok (.error .io)
    | some text => Catalog.ofText text

theorem Catalog.ofContent_ofText {text : String} {config : Config} {c : Catalog}
    (parsed : Config.parse? text = some config)
    (compiled : config.compile = .ok c) : Catalog.ofContent (some (Bytes.ofText text)) = .ok (.ok c) := by
  rw [ofContent, Bytes.text?_ofText]
  simp only [ofText, parsed, Config.load, compiled]

theorem Catalog.load_apply (path : String) (d : δ) :
    (Catalog.load path : Faulting (StateM δ) (Except LoadError Catalog)) d =
    (Catalog.ofContent (content d path), d) := by
  have text : (liftM (Files.readText? path : StateM δ (Option String)) : Faulting (StateM δ) _) d =
      (.ok ((content d path).bind Bytes.text?), d) := by
    rw [lift_apply, Files.Reliable.readText?_eq]
  rw [Catalog.load, bind_apply_ok text]
  cases content d path with
  | none => rfl
  | some bytes =>
    rw [Catalog.ofContent, Option.bind_some]
    cases bytes.text? <;> rfl

theorem Catalog.ofText_eq_ok {text : String} {c : Catalog} (h : Catalog.ofText text = .ok (.ok c)) :
    ∃ config : Config, config.compile = .ok c := by
  unfold ofText at h
  split at h
  · cases h
  · rename_i config _
    refine ⟨config, ?_⟩
    unfold Config.load at h
    split at h
    · cases h
      assumption
    · cases h
    · cases h

theorem Catalog.ofContent_eq_ok {stored : Option Bytes} {c : Catalog} (h : Catalog.ofContent stored = .ok (.ok c)) :
    ∃ config : Config, config.compile = .ok c := by
  cases stored with
  | none => cases h
  | some bytes =>
    rw [Catalog.ofContent] at h
    split at h
    · cases h
    · exact Catalog.ofText_eq_ok h

end Loading

namespace Store

variable {δ : Type} [Files (StateM δ)] [Files.Reliable δ] {c : Catalog} {path : String} {size : Vec} {d : δ}

/-- An exported map does not hide the compact one, and takes the place of none. -/
theorem opening_put_text (ordered : c.Ordered) (numbered : c.Numbered) {g : Grid} {origin : Origin} (compress : Bool)
    (h : opening c path size d = .ok (g, origin)) :
    ∃ later, opening c path size (Files.Reliable.put d (Format.text.path path)
      (Format.text.encode compress (Snapshot.capture g c))) = .ok (g, later) := by
  have known := opening_known ordered numbered h
  have apart : Files.Reliable.content (Files.Reliable.put d (Format.text.path path)
      (Format.text.encode compress (Snapshot.capture g c))) (Format.compact.path path) =
      Files.Reliable.content d (Format.compact.path path) :=
    Files.Reliable.content_put_of_ne (Format.path_ne path).symm
  obtain ⟨compact, first, h⟩ := bind_eq_ok.mp h
  rw [← apart] at first
  cases compact with
  | ok found =>
    cases h
    exact ⟨.compact, bind_eq_ok.mpr ⟨_, first, rfl⟩⟩
  | error e =>
    refine ⟨.text, bind_eq_ok.mpr ⟨_, first, bind_eq_ok.mpr ⟨.ok g, ?_, rfl⟩⟩⟩
    rw [Files.Reliable.content_put_self, Format.gridIn_text, Grid.rename_self ordered numbered known]

end Store

namespace Command

section Runs

variable {δ : Type} [Files (StateM δ)] [Files.Reliable δ] {projectPath : String} {p : Project} {c : Catalog} {d : δ}

structure Standing (projectPath : String) (p : Project) (c : Catalog) (d : δ) : Prop where
  project : Project.ofContent projectPath (content d projectPath) = .ok p
  catalog : Catalog.ofContent (content d p.catalogPath) = .ok (.ok c)

def opened {σ : Type} (p : Project) (c : Catalog) (draws : σ) (g : Grid) (origin : Origin) : Session σ :=
  ⟨p.catalogPath, c, ⟨g, p.mapPath, p.compress, origin⟩, draws⟩

theorem Standing.start_apply {σ : Type} (standing : Standing projectPath p c d) (draws : σ) :
    (Session.start p draws : Faulting (StateM δ) (Except LoadError (Session σ))) d =
      match Store.opening c p.mapPath p.defaultSize d with
      | .error cause => (.error cause, d)
      | .ok (g, origin) => (.ok (.ok (opened p c draws g origin)), Store.migrated c (opened p c draws g origin).store d) := by
  have loaded := Catalog.load_apply p.catalogPath d
  rw [standing.catalog] at loaded
  have store := Store.openAt_apply c p.mapPath p.defaultSize p.compress d
  rw [Session.start, bind_apply_ok loaded]
  unfold Session.ofCatalog
  cases found : Store.opening c p.mapPath p.defaultSize d with
  | error cause =>
    rw [found] at store
    exact bind_apply_error (bind_apply_error store _) _
  | ok map =>
    rw [found] at store
    exact bind_apply_ok (bind_apply_ok store _) _

theorem Standing.read_apply (standing : Standing projectPath p c d) :
    (readProject projectPath : Running (StateM δ) Project) d = (.ok p, d) := by
  have loaded := Project.load_apply projectPath d
  rw [standing.project] at loaded
  have step : (liftM (Project.load projectPath : StateM δ (Except ProjectError Project)) : Running (StateM δ) _) d =
      (.ok (.ok p), d) := by
    rw [lift_apply, loaded]
  rw [readProject, bind_apply_ok step]
  rfl

theorem Standing.run_check (standing : Standing projectPath p c d) (unseeded : Xoshiro) :
    (Invocation.run ⟨projectPath, .check⟩ unseeded : Running (StateM δ) (List String)) d = (.ok c.report, d) := by
  have loaded := Catalog.load_apply p.catalogPath d
  rw [standing.catalog] at loaded
  have step : (running (Catalog.load p.catalogPath) : Running (StateM δ) _) d = (.ok (.ok c), d) := by
    rw [running_apply, loaded]
    rfl
  have compiled : (compileCatalog p : Running (StateM δ) Catalog) d = (.ok c, d) := by
    rw [compileCatalog, bind_apply_ok step]
    rfl
  rw [Invocation.run, bind_apply_ok standing.read_apply, if_pos rfl, bind_apply_ok compiled]
  rfl

theorem Standing.run_apply (standing : Standing projectPath p c d) {action : Action} (opens : action ≠ .check)
    (unseeded : Xoshiro) :
    (Invocation.run ⟨projectPath, action⟩ unseeded : Running (StateM δ) (List String)) d =
      match Store.opening c p.mapPath p.defaultSize d with
      | .error cause => (.error (.fault cause), d)
      | .ok (g, origin) => (act (opened p c (p.draws unseeded) g origin) action : Running (StateM δ) (List String))
          (Store.migrated c (opened p c (p.draws unseeded) g origin).store d) := by
  have started := standing.start_apply (p.draws unseeded)
  rw [Invocation.run, bind_apply_ok standing.read_apply, if_neg opens]
  cases found : Store.opening c p.mapPath p.defaultSize d with
  | error cause =>
    have step : (running (Session.start p (p.draws unseeded)) : Running (StateM δ) _) d =
        (.error (.fault cause), d) := by
      rw [running_apply, started, found]
      rfl
    have session : (startSession p (p.draws unseeded) : Running (StateM δ) _) d = (.error (.fault cause), d) := by
      rw [startSession, bind_apply_error step]
    rw [bind_apply_error session]
  | ok map =>
    obtain ⟨g, origin⟩ := map
    have step : (running (Session.start p (p.draws unseeded)) : Running (StateM δ) _) d =
        (.ok (.ok (opened p c (p.draws unseeded) g origin)),
          Store.migrated c (opened p c (p.draws unseeded) g origin).store d) := by
      rw [running_apply, started, found]
      rfl
    have session : (startSession p (p.draws unseeded) : Running (StateM δ) _) d =
        (.ok (opened p c (p.draws unseeded) g origin),
          Store.migrated c (opened p c (p.draws unseeded) g origin).store d) := by
      rw [startSession, bind_apply_ok step]
      rfl
    rw [bind_apply_ok session]

variable {σ : Type} [DrawSource σ]

theorem act_export (s : Session σ) (d : δ) : (act s .exportText : Running (StateM δ) (List String)) d =
    (.ok [], Files.Reliable.put d (Format.text.path s.store.path)
      (Format.text.encode s.store.compress (Snapshot.capture s.store.grid s.catalog))) := by
  have saved : (s.save .text : StateM δ Bool) d = _ := Files.Reliable.save_eq _ _ _
  have settled : (settle (.save s .text) : Running (StateM δ) Unit) d = (.ok (), Files.Reliable.put d
      (Format.text.path s.store.path) (Format.text.encode s.store.compress (Snapshot.capture s.store.grid s.catalog))) := by
    rw [settle, bind_apply_ok (by rw [lift_apply, saved])]
    rfl
  have chosen : (effect s .exportText : Running (StateM δ) (Effect σ)) d = (.ok (.save s .text), d) := rfl
  rw [act, bind_apply_ok chosen, bind_apply_ok settled]
  rfl

/-- A process faults where the session does, and otherwise saves the map that the session comes to, if it is another. -/
theorem Comes.act_apply {s : Session σ} {action : Action} {result : Checked Grid} (comes : Comes s d action result) :
    (∃ cause, result = .error cause ∧
      (act s action : Running (StateM δ) (List String)) d = (.error (.fault cause), d)) ∨
    ∃ k outcome after, result = .ok k ∧ (act s action : Running (StateM δ) (List String)) d = (outcome, after) ∧
      (∀ cause, outcome ≠ .error (.fault cause)) ∧
      ((k = s.store.grid ∧ after = d) ∨ after = Files.Reliable.put d s.store.path
        (Archive.encode (Snapshot.capture k s.catalog) s.store.compress)) := by
  obtain ⟨x, chosen, agrees⟩ := comes.effect
  cases agrees with
  | unchanged =>
    have acted : (act s action : Running (StateM δ) (List String)) d = _ := bind_apply_ok chosen _
    exact .inr ⟨_, _, d, rfl, acted, nofun, .inl ⟨rfl, rfl⟩⟩
  | refused usual =>
    refine .inr ⟨_, _, d, rfl, bind_apply_error chosen _, ?_, .inl ⟨rfl, rfl⟩⟩
    rintro cause ⟨⟩
    exact usual cause rfl
  | saved k =>
    have saved := (s.withGrid k).store.save_compact (s.withGrid k).catalog d
    have settled : (settle (.save (s.withGrid k) .compact) : Running (StateM δ) Unit) d =
        (.ok (), Files.Reliable.put d s.store.path
          (Archive.encode (Snapshot.capture k s.catalog) s.store.compress)) := by
      rw [settle, bind_apply_ok (by rw [lift_apply, Session.save, saved])]
      rfl
    have acted : (act s action : Running (StateM δ) (List String)) d = _ :=
      (bind_apply_ok chosen _).trans (bind_apply_ok settled _)
    exact .inr ⟨k, _, _, rfl, acted, nofun, .inr rfl⟩
  | faulted cause => exact .inl ⟨cause, rfl, bind_apply_error chosen _⟩

end Runs

end Command

end Tilework
