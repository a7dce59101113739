import Tilework.Proofs.Catalog.Overflow
import Tilework.Proofs.Command.Processes

namespace Tilework

theorem Config.load_eq_error_iff {config : Config} {cause : Fault} :
    config.load = .error cause ↔ config.compile = .error (.fault cause) := by
  unfold load
  cases config.compile with
  | ok c => simp
  | error e => cases e <;> simp

namespace Catalog

def ofStored : Option String → Checked (Except LoadError Catalog)
  | none => .ok (.error .io)
  | some text => ofText text

theorem ofStored_eq_error_iff {stored : Option String} {cause : Fault} : ofStored stored = .error cause ↔
    ∃ text config, stored = some text ∧ Config.parse? text = some config ∧ config.compile = .error (.fault cause) := by
  constructor
  · intro faulted
    cases stored with
    | none => cases faulted
    | some text =>
      rw [ofStored, ofText] at faulted
      cases parsed : Config.parse? text with
      | none =>
        rw [parsed] at faulted
        cases faulted
      | some config =>
        rw [parsed] at faulted
        exact ⟨text, config, rfl, parsed, Config.load_eq_error_iff.mp faulted⟩
  · rintro ⟨text, config, rfl, parsed, faulted⟩
    rw [ofStored, ofText, parsed]
    exact Config.load_eq_error_iff.mpr faulted

theorem ofStored_invalid {text : String} {config : Config} {reason : Invalid}
    (parsed : Config.parse? text = some config) (refused : config.compile = .error (.invalid reason)) :
    ofStored (some text) = .ok (.error (.invalid reason)) := by
  simp only [ofStored, ofText, parsed, Config.load, refused]

theorem ofStored_eq_ok {stored : Option String} {c : Catalog} (h : ofStored stored = .ok (.ok c)) :
    ∃ config : Config, config.compile = .ok c := by
  cases stored with
  | none => cases h
  | some text => exact ofText_eq_ok h

theorem ofStored_compiled {text : String} {config : Config} {c : Catalog} (parsed : Config.parse? text = some config)
    (compiled : config.compile = .ok c) : ofStored (some text) = .ok (.ok c) := by
  simp only [ofStored, ofText, parsed, Config.load, compiled]

variable {δ : Type} [Files (StateM δ)]

theorem load_eq {path : String} {stored : Option String} {d e : δ}
    (held : (Files.readText? path : StateM δ (Option String)) d = (stored, e)) :
    (Catalog.load path : Faulting (StateM δ) (Except LoadError Catalog)) d = (ofStored stored, e) := by
  have asked : (liftM (Files.readText? path : StateM δ (Option String)) : Faulting (StateM δ) _) d =
      (.ok stored, e) := by
    rw [lift_apply, held]
  rw [Catalog.load, bind_apply_ok asked]
  cases stored <;> rfl

end Catalog

namespace Session

variable {σ δ : Type} [DrawSource σ] [Files (StateM δ)] {s t : Session σ} {d e : δ}

theorem reload_eq_ok
    (h : (s.reload : Faulting (StateM δ) (Except LoadError (Session σ))) d = (.ok (.ok t), e)) :
    ∃ c, (∃ config : Config, config.compile = .ok c) ∧ s.rebind c = .ok t := by
  obtain ⟨found, between, loaded, h⟩ := Faulting.bind_eq_ok.mp h
  rw [Catalog.load_eq rfl, Prod.mk.injEq] at loaded
  obtain ⟨loaded, -⟩ := loaded
  cases found with
  | error refusal => cases (Faulting.pure_eq_ok.mp h).1
  | ok c =>
    obtain ⟨rebound, last, rebinds, h⟩ := Faulting.bind_eq_ok.mp h
    cases (Faulting.pure_eq_ok.mp h).1
    exact ⟨c, Catalog.ofStored_eq_ok loaded, (Faulting.checked_eq_ok.mp rebinds).1⟩

theorem reload_of_parsed {text : String} {config : Config} {c : Catalog}
    (held : (Files.readText? s.catalogPath : StateM δ (Option String)) d = (some text, e))
    (parsed : Config.parse? text = some config) (compiled : config.compile = .ok c) (rebound : s.rebind c = .ok t) :
    (s.reload : Faulting (StateM δ) (Except LoadError (Session σ))) d = (.ok (.ok t), e) := by
  have loaded := Catalog.load_eq held
  rw [Catalog.ofStored_compiled parsed compiled] at loaded
  apply Faulting.bind_eq_ok.mpr
  refine ⟨.ok c, e, loaded, ?_⟩
  apply Faulting.bind_eq_ok.mpr
  exact ⟨t, e, Faulting.checked_eq_ok.mpr ⟨rebound, rfl⟩, Faulting.pure_eq_ok.mpr ⟨rfl, rfl⟩⟩

end Session

/-- A file that holds no catalog is an error of the start and of the reload. Only an overflow of its arithmetic is
neither that nor a catalog. A start that has no catalog looks at no map. -/
theorem catalogs_answered_unless_overflow {σ δ : Type} [DrawSource σ] [Files (StateM δ)] (p : Project) (s : Session σ)
    (draws : σ) {stored : Option String} {d e : δ} (same : s.catalogPath = p.catalogPath)
    (held : (Files.readText? p.catalogPath : StateM δ (Option String)) d = (stored, e)) :
    (∀ (config : Config) (cause : Fault), config.compile = .error (.fault cause) ↔
      cause = .overflow ∧ ¬config.Fits ∧ ∀ reason, config.compile ≠ .error (.invalid reason)) ∧
    (∀ cause, Catalog.ofStored stored = .error cause ↔
      ∃ text config, stored = some text ∧ Config.parse? text = some config ∧
        config.compile = .error (.fault cause)) ∧
    (∀ refusal, Catalog.ofStored stored = .ok (.error refusal) →
      (Session.start p draws : Faulting (StateM δ) (Except LoadError (Session σ))) d = (.ok (.error refusal), e) ∧
      (s.reload : Faulting (StateM δ) (Except LoadError (Session σ))) d = (.ok (.error refusal), e)) ∧
    ∀ cause, Catalog.ofStored stored = .error cause →
      (Session.start p draws : Faulting (StateM δ) (Except LoadError (Session σ))) d = (.error cause, e) ∧
      (s.reload : Faulting (StateM δ) (Except LoadError (Session σ))) d = (.error cause, e) := by
  have loaded := Catalog.load_eq held
  rw [Session.start, Session.reload, same]
  refine ⟨fun _ _ => Config.compile_eq_fault_iff, fun _ => Catalog.ofStored_eq_error_iff, ?_, ?_⟩
  · intro refusal refused
    rw [refused] at loaded
    exact ⟨bind_apply_ok loaded _, bind_apply_ok loaded _⟩
  · intro cause faulted
    rw [faulted] at loaded
    exact ⟨bind_apply_error loaded _, bind_apply_error loaded _⟩

def sheetConfig (texture : Vec) : Config := {
  tiles := [{
    name := "t"
    layer := "mid"
    defaultVariant := "v"
    displayVariant := "v"
    variants := [{ name := "v", texture := texture }] }] }

open Json in
def sheetJson (texture : Vec) : Json :=
  .object [(some "tiles", .array [.object [
    (some "name", ofString "t"), (some "layer", ofString "mid"), (some "default", ofString "v"),
    (some "display", ofString "v"),
    (some "variants", .array [.object [(some "name", ofString "v"), (some "texture", ofVec texture)]])]])]

theorem sheetJson_parsed {texture : Vec} (read : Config.ofJson? (sheetJson texture) = some (sheetConfig texture)) :
    Config.parse? (sheetJson texture).pretty = some (sheetConfig texture) := by
  have legible : (sheetJson texture).Legible := by
    simp [sheetJson, Json.Legible, Json.MembersLegible, Json.ItemsLegible, Json.ofString, Json.ofVec, Json.ofInt,
      Json.Numeral.ofInt_legible]
  exact Config.parse?_pretty legible read

def sheetShelf (texture : Vec) : Shelf := Shelf.empty.put "tiling.json" (Bytes.ofText (sheetJson texture).pretty)

theorem sheetShelf_text (texture : Vec) :
    (Files.readText? "tiling.json" : StateM Shelf (Option String)) (sheetShelf texture) =
      (some (sheetJson texture).pretty, sheetShelf texture) := by
  have held : content (sheetShelf texture) "tiling.json" = some (Bytes.ofText (sheetJson texture).pretty) :=
    Files.Reliable.content_put_self (d := Shelf.empty)
  rw [Files.Reliable.readText?_eq, held, Option.bind_some, Bytes.text?_ofText]

def fenceSession : Session Scripted := ⟨"tiling.json", fenceCatalog, Store.ofGrid fenceGrid "map", ⟨#[], 0⟩⟩

theorem catalogs_answered_unless_overflow_sheet :
    (∀ cause, (sheetConfig ⟨40, 0⟩).compile ≠ .error (.fault cause)) ∧
    (Session.start {} (Scripted.mk #[] 0) : Faulting (StateM Shelf) (Except LoadError (Session Scripted)))
      (sheetShelf ⟨40, 0⟩) = (.ok (.error (.invalid (.textureRange "v" "t"))), sheetShelf ⟨40, 0⟩) ∧
    (fenceSession.reload : Faulting (StateM Shelf) (Except LoadError (Session Scripted)))
      (sheetShelf ⟨40, 0⟩) = (.ok (.error (.invalid (.textureRange "v" "t"))), sheetShelf ⟨40, 0⟩) := by
  have modest : ∀ t ∈ (sheetConfig ⟨40, 0⟩).tiles, t.Modest := by
    intro t member
    obtain rfl := List.mem_singleton.mp member
    constructor
    · intro v among
      obtain rfl := List.mem_singleton.mp among
      exact ⟨by decide, by decide, by decide, by decide⟩
    · intro rule among
      cases among
  have parsed : Config.parse? (sheetJson ⟨40, 0⟩).pretty = some (sheetConfig ⟨40, 0⟩) :=
    sheetJson_parsed (by decide +kernel)
  have compiled : (sheetConfig ⟨40, 0⟩).compile = .error (.invalid (.textureRange "v" "t")) := by decide +kernel
  have refused := Catalog.ofStored_invalid parsed compiled
  obtain ⟨faults, -, refusals, -⟩ := catalogs_answered_unless_overflow {} fenceSession (Scripted.mk #[] 0) rfl
    (sheetShelf_text ⟨40, 0⟩)
  refine ⟨?_, refusals _ refused⟩
  intro cause faulted
  exact ((faults _ cause).mp faulted).2.1 (Config.fits_of_modest modest)

/-- The sheet ends long before, but that is looked at only once the far corner has been computed. -/
theorem sheetConfig_overflow :
    Config.parse? (sheetJson ⟨2147483647, 0⟩).pretty = some (sheetConfig ⟨2147483647, 0⟩) ∧
    (sheetConfig ⟨2147483647, 0⟩).compile = .error (.fault .overflow) ∧
    (Session.start {} (Scripted.mk #[] 0) : Faulting (StateM Shelf) (Except LoadError (Session Scripted)))
      (sheetShelf ⟨2147483647, 0⟩) = (.error .overflow, sheetShelf ⟨2147483647, 0⟩) ∧
    (fenceSession.reload : Faulting (StateM Shelf) (Except LoadError (Session Scripted)))
      (sheetShelf ⟨2147483647, 0⟩) = (.error .overflow, sheetShelf ⟨2147483647, 0⟩) := by
  have parsed : Config.parse? (sheetJson ⟨2147483647, 0⟩).pretty = some (sheetConfig ⟨2147483647, 0⟩) :=
    sheetJson_parsed (by decide +kernel)
  have overflow : (sheetConfig ⟨2147483647, 0⟩).compile = .error (.fault .overflow) := by decide +kernel
  have loaded := Catalog.load_eq (sheetShelf_text ⟨2147483647, 0⟩)
  rw [Catalog.ofStored_eq_error_iff.mpr ⟨_, _, rfl, parsed, overflow⟩] at loaded
  exact ⟨parsed, overflow, bind_apply_error loaded _, bind_apply_error loaded _⟩

end Tilework
