import Tilework.Proofs.Archive.Countable
import Tilework.Proofs.Store.Open

namespace Tilework

namespace Format

theorem gridIn_eq_error_iff {f : Format} {c : Catalog} {stored : Option Bytes} {cause : Fault} :
    f.gridIn c stored = .error cause ↔ ∃ bytes, stored = some bytes ∧ f.decode bytes = .error cause := by
  cases stored with
  | none => exact iff_of_false (fun h => nomatch h) fun ⟨_, h, _⟩ => nomatch h
  | some bytes =>
    rw [gridIn]
    constructor
    · intro h
      cases decoded : f.decode bytes with
      | error other =>
        rw [decoded] at h
        cases h
        exact ⟨bytes, rfl, decoded⟩
      | ok found =>
        rw [decoded] at h
        cases h
    · rintro ⟨_, ⟨⟩, decoded⟩
      rw [decoded]
      rfl

theorem gridIn_text_ok (c : Catalog) (stored : Option Bytes) : ∃ found, text.gridIn c stored = .ok found := by
  cases stored <;> exact ⟨_, rfl⟩

theorem gridIn_compact_eq_error_iff {c : Catalog} {stored : Option Bytes} {cause : Fault} :
    compact.gridIn c stored = .error cause ↔
      cause = .overflow ∧ ∃ bytes, stored = some bytes ∧ Archive.Uncountable bytes := by
  rw [gridIn_eq_error_iff]
  constructor
  · rintro ⟨bytes, held, decoded⟩
    obtain ⟨overflow, uncountable⟩ := Archive.decode_eq_error_iff.mp decoded
    exact ⟨overflow, bytes, held, uncountable⟩
  · rintro ⟨overflow, bytes, held, uncountable⟩
    exact ⟨bytes, held, Archive.decode_eq_error_iff.mpr ⟨overflow, uncountable⟩⟩

end Format

namespace Store

/-- Which map is opened, and as what it counts, given what the two files hold. -/
inductive Found (c : Catalog) (size : Vec) (compact text : Option Bytes) : Grid → Origin → Prop where
  | compact {g : Grid} (held : Format.compact.gridIn c compact = .ok (.ok g)) : Found c size compact text g .compact
  | text {g : Grid} {e : ArchiveError} (malformed : Format.compact.gridIn c compact = .ok (.error e))
      (held : Format.text.gridIn c text = .ok (.ok g)) : Found c size compact text g .text
  | blank {e d : ArchiveError} (malformed : Format.compact.gridIn c compact = .ok (.error e))
      (illegible : Format.text.gridIn c text = .ok (.error d)) : Found c size compact text (blankGrid size) .blank

variable {δ : Type} [Files (StateM δ)] {c : Catalog} {path : String} {size : Vec} {compress : Bool}
  {compact text : Option Bytes} {d e : δ}

theorem opened_of_uncountable {bytes : Bytes} (held : compact = some bytes) (uncountable : Archive.Uncountable bytes) :
    opened c path size compress compact text d e = (.error .overflow, d) := by
  have faulted : Format.compact.gridIn c compact = .error .overflow :=
    Format.gridIn_compact_eq_error_iff.mpr ⟨rfl, bytes, held, uncountable⟩
  rw [opened, faulted]

theorem opened_found (countable : ∀ bytes, compact = some bytes → ¬Archive.Uncountable bytes) :
    ∃ g origin after, opened c path size compress compact text d e = (.ok ⟨g, path, compress, origin⟩, after) ∧
      Found c size compact text g origin := by
  obtain ⟨inText, second⟩ := Format.gridIn_text_ok c text
  cases first : Format.compact.gridIn c compact with
  | error cause =>
    obtain ⟨-, bytes, held, uncountable⟩ := Format.gridIn_compact_eq_error_iff.mp first
    exact absurd uncountable (countable bytes held)
  | ok inCompact =>
    simp only [opened, first, second]
    cases inCompact with
    | ok g => exact ⟨g, .compact, _, rfl, .compact first⟩
    | error cause =>
      cases inText with
      | ok g => exact ⟨g, .text, _, rfl, .text first second⟩
      | error reason => exact ⟨_, .blank, _, rfl, .blank first second⟩

end Store

/-- A form that holds no map gives way to the next one, and only a compact file whose length cannot be counted keeps the
map from being opened. A file that cannot be read counts as none, and a save that fails changes nothing of what is
opened. -/
theorem opens_unless_uncountable {δ : Type} [Files (StateM δ)] (c : Catalog) {path : String} (size : Vec)
    (compress : Bool) {compact text : Option Bytes} {d e f : δ}
    (first : (Files.read? (Format.compact.path path) : StateM δ (Option Bytes)) d = (compact, e))
    (second : (Files.read? (Format.text.path path) : StateM δ (Option Bytes)) e = (text, f)) :
    (∀ bytes, (∃ found, Archive.decode bytes = .ok found) ↔ ¬Archive.Uncountable bytes) ∧
    ((∀ bytes, compact = some bytes → ¬Archive.Uncountable bytes) →
      ∃ g origin after, (Store.openAt c path size compress : Faulting (StateM δ) Store) d =
        (.ok ⟨g, path, compress, origin⟩, after) ∧ Store.Found c size compact text g origin) ∧
    ∀ bytes, compact = some bytes → Archive.Uncountable bytes →
      (Store.openAt c path size compress : Faulting (StateM δ) Store) d = (.error .overflow, e) := by
  rw [Store.openAt_eq c size compress first second]
  exact ⟨fun _ => Archive.decode_ok_iff, Store.opened_found, fun _ => Store.opened_of_uncountable⟩

/-- A header whose length runs over once the header is counted in, with nothing after it. -/
def tornHeader : Bytes :=
  Archive.littleEndian 4 Archive.magic ++ [0] ++ List.replicate 4 0 ++ List.replicate 8 255

def cutShelf : Shelf := fenceShelf.put "yard" (tornHeader.take 16)

def tornShelf : Shelf := fenceShelf.put "yard" tornHeader

theorem content_beside (bytes : Bytes) : content (fenceShelf.put "yard" bytes) (Format.text.path "yard") =
    some (Format.text.encode false (Snapshot.capture fenceGrid fenceCatalog)) := by
  have apart : Format.text.path "yard" ≠ "yard" := by decide
  exact (Files.Reliable.content_put_of_ne (d := fenceShelf) apart).trans
    (Files.Reliable.content_put_self (d := Shelf.empty))

theorem opens_unless_uncountable_cutShelf :
    (∃ after, (Store.openAt fenceCatalog "yard" ⟨4, 4⟩ false : Faulting (StateM Shelf) Store) cutShelf =
      (.ok ⟨fenceRow, "yard", false, .text⟩, after)) ∧
    (Store.openAt fenceCatalog "yard" ⟨4, 4⟩ false : Faulting (StateM Shelf) Store) tornShelf =
      (.error .overflow, tornShelf) := by
  have cut : content cutShelf (Format.compact.path "yard") = some (tornHeader.take 16) :=
    Files.Reliable.content_put_self (d := fenceShelf)
  have torn : content tornShelf (Format.compact.path "yard") = some tornHeader :=
    Files.Reliable.content_put_self (d := fenceShelf)
  have malformed : Format.compact.gridIn fenceCatalog (some (tornHeader.take 16)) =
      .ok (.error (.lengthMismatch 17 16)) := rfl
  obtain ⟨-, falls, -⟩ := opens_unless_uncountable fenceCatalog ⟨4, 4⟩ false (d := cutShelf)
    (Files.Reliable.read?_eq _ _) (Files.Reliable.read?_eq _ _)
  obtain ⟨-, -, faults⟩ := opens_unless_uncountable fenceCatalog ⟨4, 4⟩ false (d := tornShelf)
    (Files.Reliable.read?_eq _ _) (Files.Reliable.read?_eq _ _)
  have countable : ∀ bytes, content cutShelf (Format.compact.path "yard") = some bytes → ¬Archive.Uncountable bytes := by
    intro bytes held uncountable
    rw [cut, Option.some.injEq] at held
    subst held
    exact absurd uncountable.whole (by decide +kernel)
  have uncountable : Archive.Uncountable tornHeader :=
    ⟨by decide +kernel, by decide +kernel, by decide +kernel, by decide +kernel, by decide +kernel⟩
  constructor
  · obtain ⟨g, origin, after, opened, found⟩ := falls countable
    rw [cut, show cutShelf = fenceShelf.put "yard" _ from rfl, content_beside] at found
    refine ⟨after, ?_⟩
    cases found with
    | compact held =>
      rw [malformed] at held
      cases held
    | text _ held =>
      rw [Format.gridIn_text, fenceGrid_rename] at held
      cases held
      exact opened
    | blank _ illegible =>
      rw [Format.gridIn_text] at illegible
      cases illegible
  · exact faults tornHeader torn uncountable

/-- Nothing of the map is opened, although its text form is whole. -/
theorem tornHeader_overflow :
    Archive.decode tornHeader = .error .overflow ∧
    Format.text.gridIn fenceCatalog (content tornShelf (Format.text.path "yard")) = .ok (.ok fenceRow) ∧
    (Store.openAt fenceCatalog "yard" ⟨4, 4⟩ false : Faulting (StateM Shelf) Store) tornShelf =
      (.error .overflow, tornShelf) := by
  refine ⟨by rfl, ?_, by rfl⟩
  rw [tornShelf, content_beside, Format.gridIn_text, fenceGrid_rename]

end Tilework
