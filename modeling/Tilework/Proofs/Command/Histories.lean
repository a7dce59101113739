import Tilework.Proofs.Autotile.Settled
import Tilework.Proofs.Command.Processes

namespace Tilework.Command

def Ending.ofOutcome : Except Failure (List String) → Ending
  | .ok lines => .done lines
  | .error cause => .failed cause

theorem Ending.code_ofOutcome {outcome : Except Failure (List String)} :
    (ofOutcome outcome).code = 101 ↔ ∃ cause, outcome = .error (.fault cause) := by
  cases outcome with
  | ok lines => exact iff_of_false (by simp [ofOutcome, done]) nofun
  | error failure => cases failure <;> simp [ofOutcome, failed]

theorem execute_apply {δ : Type} [Files (StateM δ)] {unseeded : Xoshiro} {arguments : List String} {i : Invocation}
    {d after : δ} {outcome : Except Failure (List String)} (parsed : Invocation.ofArguments? arguments = some i)
    (ran : (i.run unseeded : Running (StateM δ) (List String)) d = (outcome, after)) :
    (execute unseeded arguments : StateM δ Ending) d = (.ofOutcome outcome, after) := by
  have step : ((i.run unseeded : Running (StateM δ) (List String)).run : StateM δ _) d = (outcome, after) := ran
  rw [execute, parsed]
  dsimp only
  rw [state_bind_apply step]
  cases outcome <;> rfl

def executeAll {m : Type → Type} [Monad m] [Files m] (commands : List (Xoshiro × List String)) : m (List Ending) :=
  commands.mapM fun command => execute command.1 command.2

section Histories

def Apart (projectPath : String) (p : Project) : Prop :=
  ∀ f : Format, projectPath ≠ f.path p.mapPath ∧ p.catalogPath ≠ f.path p.mapPath

inductive Saves (p : Project) (d : Ledger) : Ledger → Prop
  | refl : Saves p d d
  | put {e : Ledger} (saved : Saves p d e) (f : Format) (bytes : Bytes) : Saves p d (e.put (f.path p.mapPath) bytes)

variable {projectPath : String} {p : Project} {c : Catalog} {d e after : Ledger}

theorem Saves.trans (first : Saves p d e) (second : Saves p e after) : Saves p d after := by
  induction second with
  | refl => exact first
  | put _ f bytes ih => exact ih.put f bytes

theorem Saves.writes (saved : Saves p d e) : d.writes ⊆ e.writes := by
  induction saved with
  | refl => exact List.Subset.refl _
  | put _ f bytes ih => exact List.subset_append_of_subset_left _ ih

theorem Saves.standing (apart : Apart projectPath p) (saved : Saves p d e) (standing : Standing projectPath p c d) :
    Standing projectPath p c e := by
  induction saved with
  | refl => exact standing
  | put _ f bytes ih =>
    refine ⟨(congrArg _ ?_).trans ih.project, (congrArg _ ?_).trans ih.catalog⟩
    · exact Files.Reliable.content_put_of_ne (apart f).1
    · exact Files.Reliable.content_put_of_ne (apart f).2

theorem saves_migrated (s : Store) (path : s.path = p.mapPath) : Saves p d (Store.migrated c s d) := by
  unfold Store.migrated
  rw [path]
  split
  · exact Saves.refl.put .compact _
  · exact .refl
  · exact .refl

theorem executeAll_cons (command : Xoshiro × List String) (rest : List (Xoshiro × List String)) (d : Ledger) :
    (executeAll (command :: rest) : StateM Ledger (List Ending)) d =
      (((execute command.1 command.2 : StateM Ledger Ending) d).1 ::
          ((executeAll rest : StateM Ledger (List Ending))
            ((execute command.1 command.2 : StateM Ledger Ending) d).2).1,
        ((executeAll rest : StateM Ledger (List Ending))
          ((execute command.1 command.2 : StateM Ledger Ending) d).2).2) := by
  rw [executeAll, List.mapM_cons]
  rfl

def Parsed (projectPath : String) (commands : List (Xoshiro × List String)) (actions : List Action) : Prop :=
  List.Forall₂ (fun command action => Invocation.ofArguments? command.2 = some ⟨projectPath, action⟩) commands actions

variable {σ : Type} [DrawSource σ]

section Saved

variable (determined : c.Determined) (ordered : c.Ordered) (numbered : c.Numbered)

include determined ordered numbered

theorem act_saves {s : Session σ} (catalog : s.catalog = c) (path : s.store.path = p.mapPath) (action : Action)
    (d : Ledger) : Saves p d ((act s action : Running (StateM Ledger) (List String)) d).2 := by
  by_cases exported : action = .exportText
  · rw [exported, act_export, path]
    exact Saves.refl.put .text _
  · obtain ⟨result, comes⟩ := exists_comes (σ := σ) (δ := Ledger) determined ordered numbered s.store.grid
      (content d (Format.text.path s.store.path)) exported
    rcases (comes s d catalog rfl rfl).act_apply with ⟨cause, -, acted⟩ | ⟨k, outcome, after, -, acted, -, kept⟩
    · rw [acted]
      exact .refl
    · rw [acted]
      rcases kept with ⟨-, rfl⟩ | rfl
      · exact .refl
      · rw [path]
        exact Saves.refl.put .compact _

theorem execute_saves (standing : Standing projectPath p c d) (unseeded : Xoshiro) {arguments : List String}
    {action : Action} (parsed : Invocation.ofArguments? arguments = some ⟨projectPath, action⟩) :
    Saves p d ((execute unseeded arguments : StateM Ledger Ending) d).2 := by
  by_cases checks : action = .check
  · subst checks
    rw [execute_apply parsed (standing.run_check unseeded)]
    exact .refl
  · have ran := standing.run_apply checks unseeded
    cases found : Store.opening c p.mapPath p.defaultSize d with
    | error cause =>
      rw [found] at ran
      rw [execute_apply parsed ran]
      exact .refl
    | ok map =>
      rw [found] at ran
      rw [execute_apply parsed ran]
      have migrated := saves_migrated (d := d) (c := c) (opened p c (p.draws unseeded) map.1 map.2).store rfl
      exact migrated.trans (act_saves determined ordered numbered rfl rfl action _)

theorem executeAll_saves (apart : Apart projectPath p) (standing : Standing projectPath p c d)
    {commands : List (Xoshiro × List String)} {actions : List Action} (parsed : Parsed projectPath commands actions) :
    Saves p d ((executeAll commands : StateM Ledger (List Ending)) d).2 := by
  induction parsed generalizing d with
  | nil => exact .refl
  | @cons command action _ _ first _ ih =>
    rw [executeAll_cons]
    have saved := execute_saves determined ordered numbered standing command.1 first
    exact saved.trans (ih (saved.standing apart standing))

end Saved

/-- The processes find the map of the session in their files, and export to where it imports from. -/
structure Mirrors (p : Project) (c : Catalog) (d e : Ledger) (s : Session σ) : Prop where
  catalog : s.catalog = c
  path : s.store.path = p.mapPath
  text : content d (Format.text.path p.mapPath) = content e (Format.text.path p.mapPath)
  opens : ∃ origin, Store.opening c p.mapPath p.defaultSize d = .ok (s.store.grid, origin)

/-- Every map that was saved in the compact form can be read back. -/
def Recoverable (p : Project) (c : Catalog) (writes : List (String × Bytes)) : Prop :=
  ∀ g, (p.mapPath, Archive.encode (Snapshot.capture g c) p.compress) ∈ writes →
    Archive.Storable (Snapshot.capture g c) p.compress

theorem content_text_put_compact (d : Ledger) (path : String) (bytes : Bytes) :
    content (Files.Reliable.put d path bytes) (Format.text.path path) = content d (Format.text.path path) :=
  Files.Reliable.content_put_of_ne (Format.path_ne path)

theorem content_text_migrated (s : Store) (c : Catalog) (d : Ledger) :
    content (Store.migrated c s d) (Format.text.path s.path) = content d (Format.text.path s.path) := by
  unfold Store.migrated
  split
  · exact content_text_put_compact d s.path _
  · rfl
  · rfl

theorem Recoverable.of_subset {writes others : List (String × Bytes)} (recoverable : Recoverable p c others)
    (among : writes ⊆ others) : Recoverable p c writes := fun g member => recoverable g (among member)

theorem Recoverable.put {bytes : Bytes} {g : Grid} (recoverable : Recoverable p c (d.put p.mapPath bytes).writes)
    (saved : bytes = Archive.encode (Snapshot.capture g c) p.compress) :
    Archive.Storable (Snapshot.capture g c) p.compress := by
  subst saved
  exact recoverable g (List.mem_append_right _ (List.mem_singleton.mpr rfl))

theorem recoverable_uncompressed {p : Project} {c : Catalog} (plain : p.compress = false)
    (names : (Archive.writeList Archive.writeString (c.infos.toList.map TileInfo.tileName)).length +
      (Archive.writeList Archive.writeString (c.infos.toList.map TileInfo.variantName)).length < 0x8000000000000000)
    (writes : List (String × Bytes)) : Recoverable p c writes := by
  intro g _
  rw [plain]
  exact g.capture_storable names

omit [DrawSource σ] in
theorem Mirrors.migrated (ordered : c.Ordered) (numbered : c.Numbered) {s : Session σ} (mirrors : Mirrors p c d e s)
    {origin : Origin} (found : Store.opening c p.mapPath p.defaultSize d = .ok (s.store.grid, origin))
    (recoverable : Recoverable p c (Store.migrated c ⟨s.store.grid, p.mapPath, p.compress, origin⟩ d).writes) :
    Mirrors p c (Store.migrated c ⟨s.store.grid, p.mapPath, p.compress, origin⟩ d) e s := by
  refine ⟨mirrors.catalog, mirrors.path, ?_, origin.again, Store.opening_migrated ordered numbered ?_ found⟩
  · rw [← mirrors.text]
    exact content_text_migrated ⟨s.store.grid, p.mapPath, p.compress, origin⟩ c d
  · rintro rfl
    exact recoverable.put rfl

section Steps

variable (determined : c.Determined) (ordered : c.Ordered) (numbered : c.Numbered)

include determined ordered numbered

theorem Mirrors.act {s : Session σ} (mirrors : Mirrors p c d e s) (draws : σ) (origin : Origin) (action : Action)
    {outcome : Except Failure (List String)} {after : Ledger}
    (acted : (Command.act (opened p c draws s.store.grid origin) action : Running (StateM Ledger) (List String)) d =
      (outcome, after)) (recoverable : Recoverable p c after.writes) :
    (∃ cause, (s.perform action : Faulting (StateM Ledger) (Session σ)) e = (.error cause, e) ∧
      outcome = .error (.fault cause)) ∨
    ∃ t later, (s.perform action : Faulting (StateM Ledger) (Session σ)) e = (.ok t, later) ∧
      (∀ cause, outcome ≠ .error (.fault cause)) ∧ Mirrors p c after later t := by
  obtain ⟨before, found⟩ := mirrors.opens
  by_cases exported : action = .exportText
  · subst exported
    rw [act_export] at acted
    cases acted
    refine .inr ⟨s, _, s.perform_export e, nofun, mirrors.catalog, mirrors.path, ?_, ?_⟩
    · -- The text form does not depend on whether the compact one is compressed.
      have session : content (Files.Reliable.put e (Format.text.path s.store.path)
            (Format.text.encode s.store.compress (Snapshot.capture s.store.grid s.catalog)))
          (Format.text.path p.mapPath) =
          some (Format.text.encode p.compress (Snapshot.capture s.store.grid c)) := by
        rw [mirrors.path, mirrors.catalog, Files.Reliable.content_put_self]
        rfl
      exact Files.Reliable.content_put_self.trans session.symm
    · exact Store.opening_put_text ordered numbered p.compress found
  · obtain ⟨result, comes⟩ := exists_comes (σ := σ) (δ := Ledger) determined ordered numbered s.store.grid
      (content d (Format.text.path p.mapPath)) exported
    have process := comes (opened p c draws s.store.grid origin) d rfl rfl rfl
    have session := comes s e mirrors.catalog rfl (by rw [mirrors.path, mirrors.text])
    rcases process.act_apply with ⟨cause, rfl, faulted⟩ | ⟨k, outcome, files, rfl, ended, usual, kept⟩
    · rw [acted] at faulted
      cases faulted
      exact .inl ⟨cause, session.perform, rfl⟩
    · rw [acted] at ended
      cases ended
      refine .inr ⟨s.withGrid k, e, session.perform, usual, mirrors.catalog, mirrors.path, ?_, ?_⟩
      · rcases kept with ⟨-, rfl⟩ | rfl
        · exact mirrors.text
        · rw [← mirrors.text]
          exact content_text_put_compact d p.mapPath _
      · rcases kept with ⟨rfl, rfl⟩ | rfl
        · exact ⟨before, found⟩
        · have known := process.known (Store.opening_known ordered numbered found) k rfl
          exact ⟨.compact, Store.opening_put_compact ordered numbered known (recoverable.put rfl) d⟩

theorem Mirrors.step (standing : Standing projectPath p c d) {s : Session Xoshiro} (mirrors : Mirrors p c d e s)
    {unseeded : Xoshiro} {arguments : List String} {action : Action}
    (parsed : Invocation.ofArguments? arguments = some ⟨projectPath, action⟩) {ending : Ending} {after : Ledger}
    (ran : (execute unseeded arguments : StateM Ledger Ending) d = (ending, after))
    (recoverable : Recoverable p c after.writes) :
    (∃ cause, (s.perform action : Faulting (StateM Ledger) (Session Xoshiro)) e = (.error cause, e) ∧
      ending.code = 101) ∨
    ∃ t later, (s.perform action : Faulting (StateM Ledger) (Session Xoshiro)) e = (.ok t, later) ∧
      ending.code ≠ 101 ∧ Mirrors p c after later t := by
  by_cases checks : action = .check
  · subst checks
    rw [execute_apply parsed (standing.run_check unseeded)] at ran
    cases ran
    exact .inr ⟨s, e, rfl, by simp [Ending.code_ofOutcome], mirrors⟩
  obtain ⟨origin, found⟩ := mirrors.opens
  have run := standing.run_apply checks unseeded
  rw [found] at run
  rw [execute_apply parsed run] at ran
  obtain ⟨rfl, rfl⟩ := Prod.mk.inj ran
  have saved := act_saves determined ordered numbered (s := opened p c (p.draws unseeded) s.store.grid origin) rfl rfl
    action (Store.migrated c ⟨s.store.grid, p.mapPath, p.compress, origin⟩ d)
  have between := mirrors.migrated ordered numbered found (recoverable.of_subset saved.writes)
  rcases between.act determined ordered numbered (p.draws unseeded) origin action rfl recoverable with
    ⟨cause, performed, faulted⟩ | ⟨t, later, performed, usual, after⟩
  · exact .inl ⟨cause, performed, Ending.code_ofOutcome.mpr ⟨cause, faulted⟩⟩
  · refine .inr ⟨t, later, performed, ?_, after⟩
    intro code
    obtain ⟨cause, faulted⟩ := Ending.code_ofOutcome.mp code
    exact usual cause faulted

/-- The processes fault where the session does, and else leave the map of the session to be opened. -/
theorem Mirrors.run (apart : Apart projectPath p) {commands : List (Xoshiro × List String)} {actions : List Action}
    (parsed : Parsed projectPath commands actions) (standing : Standing projectPath p c d) {s : Session Xoshiro}
    (mirrors : Mirrors p c d e s) {endings : List Ending} {final : Ledger}
    (ran : (executeAll commands : StateM Ledger (List Ending)) d = (endings, final))
    (recoverable : Recoverable p c final.writes) (g : Grid) :
    ((∀ ending ∈ endings, ending.code ≠ 101) ∧
      ∃ origin, Store.opening c p.mapPath p.defaultSize final = .ok (g, origin)) ↔
    ∃ t last, (s.performAll actions : Faulting (StateM Ledger) (Session Xoshiro)) e = (.ok t, last) ∧
      t.store.grid = g := by
  induction parsed generalizing d e s endings with
  | nil =>
    cases ran
    obtain ⟨origin, found⟩ := mirrors.opens
    -- Opening has one result only, which is the map of the session.
    constructor
    · rintro ⟨-, other, again⟩
      rw [found] at again
      cases again
      exact ⟨s, e, rfl, rfl⟩
    · rintro ⟨t, last, performed, rfl⟩
      cases performed
      exact ⟨by simp, origin, found⟩
  | @cons command action commands actions first parsed ih =>
    rw [executeAll_cons] at ran
    obtain ⟨rfl, rfl⟩ := Prod.mk.inj ran
    have saved := execute_saves determined ordered numbered standing command.1 first
    have others := executeAll_saves determined ordered numbered apart (saved.standing apart standing) parsed
    rw [Session.performAll_cons]
    -- What the first process saves is among what all of them save.
    have shorter := recoverable.of_subset others.writes
    rcases mirrors.step determined ordered numbered standing first Prod.mk.eta.symm shorter with
      ⟨cause, performed, code⟩ | ⟨t, later, performed, code, after⟩
    · rw [bind_apply_error performed]
      constructor
      · rintro ⟨usual, -⟩
        exact absurd code (usual _ (.head _))
      · rintro ⟨t, last, impossible, -⟩
        cases impossible
    · rw [bind_apply_ok performed, ← ih (saved.standing apart standing) after Prod.mk.eta.symm, List.forall_mem_cons,
        and_iff_right code]

end Steps

theorem executeAll_faulted {commands : List (Xoshiro × List String)} {actions : List Action}
    (parsed : Parsed projectPath commands actions) (standing : Standing projectPath p c d) {cause : Fault}
    (found : Store.opening c p.mapPath p.defaultSize d = .error cause) {endings : List Ending} {final : Ledger}
    (ran : (executeAll commands : StateM Ledger (List Ending)) d = (endings, final))
    (usual : ∀ ending ∈ endings, ending.code ≠ 101) : final = d := by
  -- Only checks end well then, and they write nothing.
  induction parsed generalizing endings with
  | nil =>
    cases ran
    rfl
  | @cons command action commands actions first parsed ih =>
    rw [executeAll_cons] at ran
    by_cases checks : action = .check
    · subst checks
      rw [execute_apply first (standing.run_check command.1)] at ran
      obtain ⟨rfl, rfl⟩ := Prod.mk.inj ran
      exact ih Prod.mk.eta.symm fun ending member => usual ending (.tail _ member)
    · have run := standing.run_apply checks command.1
      rw [found] at run
      rw [execute_apply first run] at ran
      obtain ⟨rfl, rfl⟩ := Prod.mk.inj ran
      exact absurd rfl (usual _ (.head _))

end Histories

/-- Where no process faults, the map that they leave is the one that the session comes to, whatever is drawn, and the
other way round. The first files are any, as long as the project and its catalog can be read from them. -/
theorem processes_match_session {projectPath : String} {p : Project} {c : Catalog} {shelf : Shelf}
    (project : (Project.load projectPath : StateM Ledger (Except ProjectError Project)) ⟨shelf, []⟩ =
      (.ok p, ⟨shelf, []⟩))
    (catalog : (Catalog.load p.catalogPath : Faulting (StateM Ledger) (Except LoadError Catalog)) ⟨shelf, []⟩ =
      (.ok (.ok c), ⟨shelf, []⟩))
    (few : c.infos.size < 0x100000000) (determined : c.Determined) (apart : Apart projectPath p)
    {commands : List (Xoshiro × List String)} {actions : List Action} (parsed : Parsed projectPath commands actions)
    {endings : List Ending} {final : Ledger}
    (ran : (executeAll commands : StateM Ledger (List Ending)) ⟨shelf, []⟩ = (endings, final))
    (recoverable : Recoverable p c final.writes) (draws : Xoshiro) (g : Grid) :
    ((∀ ending ∈ endings, ending.code ≠ 101) ∧
      ∃ s last, (Store.openAt c p.mapPath p.defaultSize p.compress : Faulting (StateM Ledger) Store) final =
        (.ok s, last) ∧ s.grid = g) ↔
    ∃ s between t last,
      (Session.start p draws : Faulting (StateM Ledger) (Except LoadError (Session Xoshiro))) ⟨shelf, []⟩ =
        (.ok (.ok s), between) ∧
      (s.performAll actions : Faulting (StateM Ledger) (Session Xoshiro)) between = (.ok t, last) ∧
      t.store.grid = g := by
  have standing : Standing projectPath p c (⟨shelf, []⟩ : Ledger) := by
    rw [Project.load_apply] at project
    rw [Catalog.load_apply] at catalog
    exact ⟨congrArg Prod.fst project, congrArg Prod.fst catalog⟩
  obtain ⟨config, compiled⟩ := Catalog.ofContent_eq_ok standing.catalog
  obtain ⟨stages⟩ := compile_eq_ok compiled
  have ordered := stages.ordered
  have numbered := stages.numbered few
  have started := standing.start_apply draws
  rw [Store.opens_iff]
  cases found : Store.opening c p.mapPath p.defaultSize (⟨shelf, []⟩ : Ledger) with
  | error cause =>
    rw [found] at started
    constructor
    · rintro ⟨usual, origin, later⟩
      rw [executeAll_faulted parsed standing found ran usual, found] at later
      cases later
    · rintro ⟨s, between, t, last, first, -⟩
      rw [started] at first
      cases first
  | ok map =>
    obtain ⟨k, origin⟩ := map
    rw [found] at started
    have mirrors : Mirrors p c ⟨shelf, []⟩ (Store.migrated c (opened p c draws k origin).store ⟨shelf, []⟩)
        (opened p c draws k origin) :=
      ⟨rfl, rfl, (content_text_migrated (opened p c draws k origin).store c ⟨shelf, []⟩).symm, origin, found⟩
    rw [mirrors.run determined ordered numbered apart parsed standing ran recoverable]
    constructor
    · rintro ⟨t, last, performed, same⟩
      exact ⟨_, _, t, last, started, performed, same⟩
    · rintro ⟨s, between, t, last, first, performed, same⟩
      rw [started] at first
      cases first
      exact ⟨t, last, performed, same⟩

open Json in
def wallJson : Json :=
  .object [(some "tiles", .array [.object [
    (some "name", ofString "wall"), (some "layer", ofString "back"), (some "default", ofString "alone"),
    (some "display", ofString "alone"),
    (some "variants", .array [
      .object [(some "name", ofString "alone"), (some "texture", ofVec ⟨0, 0⟩)],
      .object [(some "name", ofString "joined"), (some "texture", ofVec ⟨1, 0⟩)]]),
    (some "rules", .array [.object [
      (some "results", .array [.object [(some "name", ofString "joined")]]),
      (some "requires", .array [.object [(some "name", ofString "wall"), (some "offset", ofVec ⟨1, 0⟩)]])]])]])]

def wallProject : Project := { compress := false, defaultSize := ⟨3, 1⟩ }

def wallProjectText : String := "[map]\ncompress = false\ndefault_size = [3, 1]\n"

def wallShelf : Shelf :=
  (Shelf.empty.put "tessera.toml" (Bytes.ofText wallProjectText)).put "tiling.json" (Bytes.ofText wallJson.pretty)

theorem wallShelf_standing : Standing "tessera.toml" wallProject wallCatalog (⟨wallShelf, []⟩ : Ledger) := by
  have project : content (⟨wallShelf, []⟩ : Ledger) "tessera.toml" = some (Bytes.ofText wallProjectText) := rfl
  have catalog : content (⟨wallShelf, []⟩ : Ledger) wallProject.catalogPath = some (Bytes.ofText wallJson.pretty) := rfl
  constructor
  · have parsed : Project.parse? wallProjectText = some wallProject := by decide +kernel
    have directory : Path.parent? "tessera.toml" = some "" := by decide +kernel
    rw [project, Project.ofContent_ofText parsed directory]
    decide +kernel
  · have legible : wallJson.Legible := by
      simp [wallJson, Json.Legible, Json.MembersLegible, Json.ItemsLegible, Json.ofString, Json.ofVec, Json.ofInt,
        Json.Numeral.ofInt_legible]
    have read : Config.ofJson? wallJson = some wallConfig := by decide +kernel
    rw [catalog]
    exact Catalog.ofContent_ofText (Config.parse?_pretty legible read) wallConfig_compile

/-- A wall is painted and exported, taken away, and comes back with the import. One command fails. -/
def wallCommands : List (Xoshiro × List String) :=
  [["paint", "1", "0", "wall"], ["export-compat"], ["erase", "1", "0", "1", "0"], ["paint", "9", "0", "wall"],
    ["import-compat"]].map fun arguments => (Xoshiro.ofSeed 1, arguments)

def wallActions : List Action :=
  [.paint ⟨1, 0⟩ "wall", .exportText, .erase ⟨1, 0⟩ ⟨1, 0⟩ .all, .paint ⟨9, 0⟩ "wall", .importText]

theorem wallCommands_parsed : Parsed "tessera.toml" wallCommands wallActions := by
  refine .cons ?_ (.cons ?_ (.cons ?_ (.cons ?_ (.cons ?_ .nil)))) <;> decide +kernel

def wallText : Bytes := Format.text.encode false (Snapshot.capture (wallRow none (some ⟨0⟩) none) wallCatalog)

def wallSession (g : Grid) : Session Xoshiro := opened wallProject wallCatalog (Xoshiro.ofSeed 2) g .blank

theorem wallSession_performAll (e : Ledger) :
    ∃ last,
      ((wallSession (wallRow none none none)).performAll wallActions : Faulting (StateM Ledger) (Session Xoshiro)) e =
      (.ok (wallSession (wallRow none (some ⟨0⟩) none)), last) := by
  have index : wallCatalog.tileIndex? "wall" = some 0 := by decide +kernel
  have painted (e : Ledger) : ((wallSession (wallRow none none none)).perform (.paint ⟨1, 0⟩ "wall") :
      Faulting (StateM Ledger) (Session Xoshiro)) e = (.ok (wallSession (wallRow none (some ⟨0⟩) none)), e) := by
    simp only [Session.perform, wallSession, opened, index]
    rfl
  have erased (e : Ledger) : ((wallSession (wallRow none (some ⟨0⟩) none)).perform (.erase ⟨1, 0⟩ ⟨1, 0⟩ .all) :
      Faulting (StateM Ledger) (Session Xoshiro)) e = (.ok (wallSession (wallRow none none none)), e) := rfl
  have missed (e : Ledger) : ((wallSession (wallRow none none none)).perform (.paint ⟨9, 0⟩ "wall") :
      Faulting (StateM Ledger) (Session Xoshiro)) e = (.ok (wallSession (wallRow none none none)), e) := by
    simp only [Session.perform, wallSession, opened, index]
    rfl
  have exported (e : Ledger) : ((wallSession (wallRow none (some ⟨0⟩) none)).perform .exportText :
      Faulting (StateM Ledger) (Session Xoshiro)) e = (.ok (wallSession (wallRow none (some ⟨0⟩) none)),
        e.put (Format.text.path "map.tsm") wallText) := Session.perform_export _ e
  have imported (e : Ledger) (stored : content e (Format.text.path "map.tsm") = some wallText) :
      ((wallSession (wallRow none none none)).perform .importText : Faulting (StateM Ledger) (Session Xoshiro)) e =
        (.ok (wallSession (wallRow none (some ⟨0⟩) none)), e) := by
    have loaded := (wallSession (wallRow none none none)).load_apply .text e
    rw [show (wallSession (wallRow none none none)).store.path = "map.tsm" from rfl, stored,
      show (wallSession (wallRow none none none)).catalog = wallCatalog from rfl, wallText, Format.gridIn_text,
      wallRow_rename] at loaded
    exact bind_apply_ok loaded _
  have stored : content (e.put (Format.text.path "map.tsm") wallText) (Format.text.path "map.tsm") = some wallText :=
    Files.Reliable.content_put_self (d := e)
  simp only [wallActions, Session.performAll_cons]
  refine ⟨e.put (Format.text.path "map.tsm") wallText, ?_⟩
  rw [bind_apply_ok (painted e), bind_apply_ok (exported e), bind_apply_ok (erased _), bind_apply_ok (missed _),
    bind_apply_ok (imported _ stored)]
  rfl

theorem processes_match_session_wallShelf :
    ∃ endings final s last,
      (executeAll wallCommands : StateM Ledger (List Ending)) ⟨wallShelf, []⟩ = (endings, final) ∧
      (∀ ending ∈ endings, ending.code ≠ 101) ∧
      (Store.openAt wallCatalog "map.tsm" ⟨3, 1⟩ false : Faulting (StateM Ledger) Store) final = (.ok s, last) ∧
      s.grid = wallRow none (some ⟨0⟩) none := by
  have project := Project.load_apply "tessera.toml" (⟨wallShelf, []⟩ : Ledger)
  have catalog := Catalog.load_apply wallProject.catalogPath (⟨wallShelf, []⟩ : Ledger)
  rw [wallShelf_standing.project] at project
  rw [wallShelf_standing.catalog] at catalog
  have apart : Apart "tessera.toml" wallProject := by
    intro f
    cases f <;> decide +kernel
  have recoverable := recoverable_uncompressed (p := wallProject) (c := wallCatalog) rfl (by decide +kernel)
  have started := wallShelf_standing.start_apply (Xoshiro.ofSeed 2)
  have blank : Store.opening wallCatalog "map.tsm" ⟨3, 1⟩ (⟨wallShelf, []⟩ : Ledger) =
      .ok (wallRow none none none, .blank) := rfl
  rw [show wallProject.mapPath = "map.tsm" from rfl, show wallProject.defaultSize = ⟨3, 1⟩ from rfl, blank] at started
  obtain ⟨last, performed⟩ := wallSession_performAll ⟨wallShelf, []⟩
  cases ran : (executeAll wallCommands : StateM Ledger (List Ending)) ⟨wallShelf, []⟩ with
  | mk endings final =>
    have history := processes_match_session project catalog (by decide) wallCatalog_determined apart wallCommands_parsed
      ran (recoverable final.writes) (Xoshiro.ofSeed 2) (wallRow none (some ⟨0⟩) none)
    obtain ⟨usual, s, after, reopened, grid⟩ := history.mpr ⟨_, _, _, last, started, performed, rfl⟩
    exact ⟨endings, final, s, after, rfl, usual, reopened, grid⟩

end Tilework.Command
