import Tilework.Proofs.Archive.RoundTrip
import Tilework.Proofs.Files.Reliable
import Tilework.Proofs.Snapshot.Rename
import Tilework.Proofs.Snapshot.Text

namespace Tilework

namespace Format

/-- The map that the content of a file in this form holds under a catalog. -/
def gridIn (f : Format) (c : Catalog) : Option Bytes → Checked (Except ArchiveError Grid)
  | none => .ok (.error .io)
  | some bytes => (f.decode bytes).map fun found =>
      found.bind fun snapshot => (snapshot.restore c).mapError .inconsistent

theorem path_ne (base : String) : text.path base ≠ compact.path base := by
  intro same
  have lengths := congrArg String.length same
  simp [path] at lengths

theorem gridIn_encode {f : Format} {old new : Catalog} {g : Grid} {compress : Bool}
    (decoded : f.decode (f.encode compress (Snapshot.capture g old)) = .ok (.ok (Snapshot.capture g old))) :
    f.gridIn new (some (f.encode compress (Snapshot.capture g old))) = .ok (.ok (g.rename old new)) := by
  simp only [gridIn, decoded, Except.map, Except.bind, Snapshot.restore_capture, Except.mapError]

theorem gridIn_text (old new : Catalog) (g : Grid) (compress : Bool) :
    text.gridIn new (some (text.encode compress (Snapshot.capture g old))) = .ok (.ok (g.rename old new)) := by
  have read : decodeText (Bytes.ofText (Snapshot.capture g old).encodeText) = .ok (Snapshot.capture g old) := by
    simp [decodeText, Bytes.text?_ofText, Snapshot.decodeText?_encodeText (s := Snapshot.capture g old) g.size_fits]
  refine gridIn_encode ?_
  rw [decode, encode, read]
  rfl

theorem gridIn_compact {old : Catalog} (new : Catalog) {g : Grid} {compress : Bool}
    (storable : Archive.Storable (Snapshot.capture g old) compress) :
    compact.gridIn new (some (compact.encode compress (Snapshot.capture g old))) = .ok (.ok (g.rename old new)) :=
  gridIn_encode (Archive.decode_encode (storable.writable g.size_fits) storable)

theorem gridIn_eq_ok {f : Format} {c : Catalog} {stored : Option Bytes} {g : Grid}
    (h : f.gridIn c stored = .ok (.ok g)) :
    ∃ bytes snapshot, stored = some bytes ∧ f.decode bytes = .ok (.ok snapshot) ∧ snapshot.restore c = .ok g := by
  cases stored with
  | none => cases h
  | some bytes =>
    rw [gridIn] at h
    cases decoded : f.decode bytes with
    | error cause =>
      rw [decoded] at h
      cases h
    | ok found =>
      rw [decoded] at h
      cases found with
      | error e => cases h
      | ok snapshot =>
        cases restored : snapshot.restore c with
        | error cause =>
          simp only [Except.map, Except.bind, restored, Except.mapError] at h
          cases h
        | ok g =>
          simp only [Except.map, Except.bind, restored, Except.mapError] at h
          cases h
          exact ⟨bytes, snapshot, rfl, decoded, restored⟩

theorem gridIn_known {f : Format} {c : Catalog} {stored : Option Bytes} {g : Grid} (ordered : c.Ordered)
    (numbered : c.Numbered) (h : f.gridIn c stored = .ok (.ok g)) : g.Known c := by
  obtain ⟨bytes, snapshot, -, -, restored⟩ := gridIn_eq_ok h
  exact Snapshot.restore_known ordered numbered restored

end Format

theorem Grid.capture_storable (g : Grid) {c : Catalog}
    (names : (Archive.writeList Archive.writeString (c.infos.toList.map TileInfo.tileName)).length +
      (Archive.writeList Archive.writeString (c.infos.toList.map TileInfo.variantName)).length < 0x8000000000000000) :
    Archive.Storable (Snapshot.capture g c) false := by
  have cells := g.size_cells_le
  have layers : ∀ layer, (Archive.writeList (Archive.writeOption Archive.writeWord)
      ((g.layerIds layer).map fun slot => slot.map TileId.number)).length ≤ 8 + 5 * g.cells.size := by
    intro layer
    refine (Archive.length_writeSlots _).trans ?_
    simp [Grid.layerIds]
  have front := layers .front
  have mid := layers .mid
  have back := layers .back
  refine ⟨?_, fun compressed => by cases compressed⟩
  simp only [Archive.storedPayload, Archive.writeSnapshot, Snapshot.capture, Archive.lengthLimit, Coord.greatest] at *
  simp only [Bool.false_eq_true, if_false, List.length_append, Archive.writeCoordinate, Archive.length_littleEndian]
  omega

def Origin.again : Origin → Origin
  | .compact | .text => .compact
  | .blank => .blank

namespace Store

variable {δ : Type} [Files (StateM δ)] [Files.Reliable δ] {c : Catalog} {path : String} {size : Vec} {d : δ}

omit [Files.Reliable δ] in
theorem load_eq (s : Store) (c : Catalog) {f : Format} {stored : Option Bytes} {e : δ}
    (held : (Files.read? (f.path s.path) : StateM δ (Option Bytes)) d = (stored, e)) :
    (s.load c f : Faulting (StateM δ) (Except ArchiveError Store)) d =
      ((f.gridIn c stored).map fun found => found.map fun g => { s with grid := g }, e) := by
  have asked : (liftM (Files.read? (f.path s.path) : StateM δ (Option Bytes)) : Faulting (StateM δ) _) d =
      (.ok stored, e) := by
    rw [lift_apply, held]
  have read : (f.read s.path : Faulting (StateM δ) (Except ArchiveError Snapshot)) d =
      (match stored with
        | none => .ok (.error .io)
        | some bytes => f.decode bytes, e) := by
    rw [Format.read, bind_apply_ok asked]
    cases stored <;> rfl
  unfold load
  cases stored with
  | none =>
    rw [bind_apply_ok read]
    rfl
  | some bytes =>
    cases decoded : f.decode bytes with
    | error cause =>
      simp only [decoded] at read
      rw [bind_apply_error read, Format.gridIn, decoded]
      rfl
    | ok found =>
      simp only [decoded] at read
      rw [bind_apply_ok read, Format.gridIn, decoded]
      cases found with
      | error e => rfl
      | ok snapshot =>
        simp only [Except.map, Except.bind]
        cases snapshot.restore c <;> rfl

theorem load_apply (s : Store) (c : Catalog) (f : Format) (d : δ) :
    (s.load c f : Faulting (StateM δ) (Except ArchiveError Store)) d =
      ((f.gridIn c (content d (f.path s.path))).map fun found => found.map fun g => { s with grid := g }, d) :=
  s.load_eq c (Files.Reliable.read?_eq _ d)

def opened (c : Catalog) (path : String) (size : Vec) (compress : Bool) (compact text : Option Bytes) (d e : δ) :
    Except Fault Store × δ :=
  match Format.compact.gridIn c compact with
  | .error cause => (.error cause, d)
  | .ok (.ok g) => (.ok ⟨g, path, compress, .compact⟩, d)
  | .ok (.error _) =>
    match Format.text.gridIn c text with
    | .error cause => (.error cause, e)
    | .ok (.ok g) =>
      (.ok ⟨g, path, compress, .text⟩, ((save ⟨g, path, compress, .text⟩ c .compact : StateM δ Bool) e).2)
    | .ok (.error _) => (.ok ⟨blankGrid size, path, compress, .blank⟩, e)

omit [Files.Reliable δ] in
theorem openAt_eq (c : Catalog) {path : String} (size : Vec) (compress : Bool) {compact text : Option Bytes} {e f : δ}
    (first : (Files.read? (Format.compact.path path) : StateM δ (Option Bytes)) d = (compact, e))
    (second : (Files.read? (Format.text.path path) : StateM δ (Option Bytes)) e = (text, f)) :
    (openAt c path size compress : Faulting (StateM δ) Store) d = opened c path size compress compact text e f := by
  have loaded := load_eq (f := .compact) ⟨blankGrid size, path, compress, .blank⟩ c first
  have fallback := load_eq (f := .text) ⟨blankGrid size, path, compress, .blank⟩ c second
  unfold openAt opened
  cases inCompact : Format.compact.gridIn c compact with
  | error cause =>
    rw [inCompact] at loaded
    rw [bind_apply_error loaded]
  | ok found =>
    rw [inCompact] at loaded
    rw [bind_apply_ok loaded]
    cases found with
    | ok g => rfl
    | error cause =>
      cases inText : Format.text.gridIn c text with
      | error cause =>
        rw [inText] at fallback
        simp only [Except.map]
        rw [bind_apply_error fallback]
      | ok found =>
        rw [inText] at fallback
        simp only [Except.map]
        rw [bind_apply_ok fallback]
        cases found <;> rfl

/-- The map that opening finds in the files, and in which of them. -/
def opening (c : Catalog) (path : String) (size : Vec) (d : δ) : Checked (Grid × Origin) := do
  match ← Format.compact.gridIn c (content d (Format.compact.path path)) with
  | .ok g => return (g, .compact)
  | .error _ =>
    match ← Format.text.gridIn c (content d (Format.text.path path)) with
    | .ok g => return (g, .text)
    | .error _ => return (blankGrid size, .blank)

def migrated (c : Catalog) (s : Store) (d : δ) : δ :=
  match s.origin with
  | .text => Files.Reliable.put d s.path (Archive.encode (Snapshot.capture s.grid c) s.compress)
  | .compact | .blank => d

theorem save_compact (s : Store) (c : Catalog) (d : δ) : (s.save c .compact : StateM δ Bool) d =
    (true, Files.Reliable.put d s.path (Archive.encode (Snapshot.capture s.grid c) s.compress)) :=
  Files.Reliable.save_eq _ _ _

theorem openAt_apply (c : Catalog) (path : String) (size : Vec) (compress : Bool) (d : δ) :
    (openAt c path size compress : Faulting (StateM δ) Store) d = match opening c path size d with
      | .error cause => (.error cause, d)
      | .ok (g, origin) => (.ok ⟨g, path, compress, origin⟩, migrated c ⟨g, path, compress, origin⟩ d) := by
  rw [openAt_eq c size compress (Files.Reliable.read?_eq _ d) (Files.Reliable.read?_eq _ d)]
  unfold opened opening
  cases Format.compact.gridIn c (content d (Format.compact.path path)) with
  | error cause => rfl
  | ok found =>
    cases found with
    | ok g => rfl
    | error e =>
      simp only [bind, Except.bind]
      cases Format.text.gridIn c (content d (Format.text.path path)) with
      | error cause => rfl
      | ok found =>
        cases found with
        | error e => rfl
        | ok g =>
          simp only [save_compact]
          rfl

theorem opens_iff {compress : Bool} {g : Grid} :
    (∃ s e, (openAt c path size compress : Faulting (StateM δ) Store) d = (.ok s, e) ∧ s.grid = g) ↔
      ∃ origin, opening c path size d = .ok (g, origin) := by
  rw [openAt_apply]
  constructor
  · rintro ⟨s, e, opened, rfl⟩
    split at opened
    · cases opened
    · rename_i k origin found
      cases opened
      exact ⟨origin, found⟩
  · rintro ⟨origin, found⟩
    rw [found]
    exact ⟨_, _, rfl, rfl⟩

theorem blankGrid_known (c : Catalog) (size : Vec) : (blankGrid size).Known c := by
  unfold blankGrid
  cases made : Grid.blank? size with
  | none =>
    rw [Option.getD_none, Grid.Known, Grid.upholds_iff_mem]
    intro cell member
    rw [(Array.mem_replicate.mp member).2]
    exact Cell.upholds_empty
  | some g => exact Grid.blank?_upholds made

theorem opening_known (ordered : c.Ordered) (numbered : c.Numbered) {g : Grid} {origin : Origin}
    (h : opening c path size d = .ok (g, origin)) : g.Known c := by
  obtain ⟨compact, first, h⟩ := bind_eq_ok.mp h
  cases compact with
  | ok found =>
    cases h
    exact Format.gridIn_known ordered numbered first
  | error e =>
    obtain ⟨text, second, h⟩ := bind_eq_ok.mp h
    cases text with
    | ok found =>
      cases h
      exact Format.gridIn_known ordered numbered second
    | error e =>
      cases h
      exact blankGrid_known c size

theorem opening_put_compact (ordered : c.Ordered) (numbered : c.Numbered) {g : Grid} (known : g.Known c)
    {compress : Bool} (storable : Archive.Storable (Snapshot.capture g c) compress) (d : δ) :
    opening c path size (Files.Reliable.put d path (Archive.encode (Snapshot.capture g c) compress)) =
      .ok (g, .compact) := by
  have written :
      Files.Reliable.content (Files.Reliable.put d path (Archive.encode (Snapshot.capture g c) compress)) path =
        some (Archive.encode (Snapshot.capture g c) compress) :=
    Files.Reliable.content_put_self
  have found := Format.gridIn_compact c storable
  rw [Grid.rename_self ordered numbered known] at found
  apply bind_eq_ok.mpr
  refine ⟨.ok g, ?_, rfl⟩
  rw [show Format.compact.path path = path from rfl, written]
  exact found

theorem opening_migrated (ordered : c.Ordered) (numbered : c.Numbered) {g : Grid} {origin : Origin} {compress : Bool}
    (storable : origin = .text → Archive.Storable (Snapshot.capture g c) compress)
    (h : opening c path size d = .ok (g, origin)) :
    opening c path size (migrated c ⟨g, path, compress, origin⟩ d) = .ok (g, origin.again) := by
  cases origin with
  | compact => exact h
  | text => exact opening_put_compact ordered numbered (opening_known ordered numbered h) (storable rfl) d
  | blank => exact h

end Store

/-- A map that was opened or saved is opened again as it is, and from then on the files stay as they are. -/
theorem openAt_again {config : Config} {c : Catalog} (compiled : config.compile = .ok c)
    (few : c.infos.size < 0x100000000) {δ : Type} [Files (StateM δ)] [Files.Reliable δ] (path : String) (size : Vec)
    (compress : Bool) :
    (∀ (files between : δ) (first : Store),
      (Store.openAt c path size compress : Faulting (StateM δ) Store) files = (.ok first, between) →
      (first.origin = .text → Archive.Storable (Snapshot.capture first.grid c) compress) →
      (Store.openAt c path size compress : Faulting (StateM δ) Store) between =
        (.ok { first with origin := first.origin.again }, between)) ∧
    ∀ (s : Store) (files : δ), s.grid.Known c → Archive.Storable (Snapshot.capture s.grid c) s.compress →
      ∃ between, (s.save c .compact : StateM δ Bool) files = (true, between) ∧
        (Store.openAt c s.path size compress : Faulting (StateM δ) Store) between =
          (.ok ⟨s.grid, s.path, compress, .compact⟩, between) := by
  obtain ⟨stages⟩ := compile_eq_ok compiled
  have ordered := stages.ordered
  have numbered := stages.numbered few
  constructor
  · intro files between first opened storable
    rw [Store.openAt_apply] at opened
    cases found : Store.opening c path size files with
    | error cause =>
      rw [found] at opened
      cases opened
    | ok map =>
      obtain ⟨g, origin⟩ := map
      rw [found] at opened
      cases opened
      have again := Store.opening_migrated ordered numbered storable found
      rw [Store.openAt_apply, again]
      cases origin <;> rfl
  · intro s files known storable
    refine ⟨_, s.save_compact c files, ?_⟩
    rw [Store.openAt_apply, Store.opening_put_compact ordered numbered known storable]
    rfl

def fenceRow : Grid :=
  ⟨⟨3, 2⟩, #[{ mid := some ⟨1⟩ }, { mid := some ⟨1⟩ }, { mid := some ⟨0⟩ }, {}, {}, {}], by decide⟩

theorem fenceGrid_rename : fenceGrid.rename fenceCatalog fenceCatalog = fenceRow :=
  Grid.ext_cells rfl (by decide +kernel)

/-- The fences in text form, and no compact file. -/
def fenceShelf : Shelf :=
  Shelf.empty.put (Format.text.path "yard") (Format.text.encode false (Snapshot.capture fenceGrid fenceCatalog))

theorem openAt_again_fenceShelf :
    ∃ between after,
      (Store.openAt fenceCatalog "yard" ⟨4, 4⟩ false : Faulting (StateM Shelf) Store) fenceShelf =
        (.ok ⟨fenceRow, "yard", false, .text⟩, between) ∧
      (Store.openAt fenceCatalog "yard" ⟨4, 4⟩ false : Faulting (StateM Shelf) Store) between =
        (.ok ⟨fenceRow, "yard", false, .compact⟩, between) ∧
      (Store.save ⟨fenceRow, "yard", false, .blank⟩ fenceCatalog .compact : StateM Shelf Bool) .empty = (true, after) ∧
      (Store.openAt fenceCatalog "yard" ⟨4, 4⟩ false : Faulting (StateM Shelf) Store) after =
        (.ok ⟨fenceRow, "yard", false, .compact⟩, after) := by
  have known : fenceRow.Known fenceCatalog := by decide +kernel
  have storable : Archive.Storable (Snapshot.capture fenceRow fenceCatalog) false :=
    ⟨by decide +kernel, fun impossible => nomatch impossible⟩
  have found : Store.opening fenceCatalog "yard" ⟨4, 4⟩ fenceShelf = .ok (fenceRow, .text) := by
    have none : content fenceShelf (Format.compact.path "yard") = none := by decide
    have text : content fenceShelf (Format.text.path "yard") =
        some (Format.text.encode false (Snapshot.capture fenceGrid fenceCatalog)) :=
      Files.Reliable.content_put_self (d := Shelf.empty)
    rw [Store.opening, none, text, Format.gridIn_text, fenceGrid_rename]
    rfl
  obtain ⟨twice, saved⟩ :=
    @openAt_again _ _ fenceConfig_compile (by decide) Shelf _ _ "yard" ⟨4, 4⟩ false
  have first := Store.openAt_apply fenceCatalog "yard" ⟨4, 4⟩ false fenceShelf
  rw [found] at first
  obtain ⟨after, written, reopened⟩ := saved ⟨fenceRow, "yard", false, .blank⟩ .empty known storable
  exact ⟨_, after, first, twice _ _ _ first fun _ => storable, written, reopened⟩

end Tilework
