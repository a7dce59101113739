import Tilework.Proofs.Store.Open
import Tilework.Session

namespace Tilework

/-- A text in memory has fewer bytes than can be counted in sixty-four bits. -/
def Catalog.NamesCounted (c : Catalog) : Prop :=
  ∀ info ∈ c.infos, (Bytes.ofText info.tileName).length < Archive.lengthLimit ∧
    (Bytes.ofText info.variantName).length < Archive.lengthLimit

namespace Grid

theorem capture_writable (g : Grid) {c : Catalog} (few : c.infos.size < 0x100000000) (counted : c.NamesCounted) :
    (Snapshot.capture g c).Writable := by
  have cells := g.size_cells_le
  have slots : ∀ layer, ((g.layerIds layer).map fun slot => slot.map TileId.number).length < Archive.lengthLimit := by
    intro layer
    simp only [layerIds, List.length_map, Array.length_toList, Archive.lengthLimit, Coord.greatest] at cells ⊢
    omega
  have names : c.infos.toList.length < Archive.lengthLimit := by
    simp only [Array.length_toList, Archive.lengthLimit]
    omega
  constructor
  · exact g.size_fits
  · simpa [Snapshot.capture] using names
  · simpa [Snapshot.capture] using names
  · intro name member
    obtain ⟨info, among, rfl⟩ := List.mem_map.mp member
    exact (counted info (Array.mem_toList_iff.mp among)).1
  · intro name member
    obtain ⟨info, among, rfl⟩ := List.mem_map.mp member
    exact (counted info (Array.mem_toList_iff.mp among)).2
  · exact slots .front
  · exact slots .mid
  · exact slots .back

end Grid

namespace Format

def Encodes (f : Format) (compress : Bool) (s : Snapshot) : Prop := f = .compact → Archive.Storable s compress

variable {f : Format} {compress : Bool} {s t : Snapshot}

theorem decode_encode (writable : s.Writable) (encodes : f.Encodes compress s) :
    f.decode (f.encode compress s) = .ok (.ok s) := by
  cases f with
  | compact => exact Archive.decode_encode writable (encodes rfl)
  | text =>
    have read : decodeText (Bytes.ofText s.encodeText) = .ok s := by
      simp [decodeText, Bytes.text?_ofText, Snapshot.decodeText?_encodeText writable.size]
    rw [decode, encode, read]
    rfl

theorem eq_of_decode_encode (writable : s.Writable) (h : f.decode (f.encode compress s) = .ok (.ok t)) : t = s := by
  by_cases encodes : f.Encodes compress s
  · rw [decode_encode writable encodes] at h
    cases h
    rfl
  · obtain ⟨rfl, unfit⟩ := Classical.not_imp.mp encodes
    exact absurd h (Archive.decode_of_not_storable unfit)

end Format

namespace Session

variable {σ δ : Type} [Files (StateM δ)]

/-- Saves the map and, if that succeeds, loads it again. A map that does not load stays as it is. -/
def reopen (s : Session σ) (f : Format) (files : δ) : Checked (Session σ × δ) :=
  match (s.save f : StateM δ Bool) files with
  | (false, files) => .ok (s, files)
  | (true, files) =>
    match (s.load f : Faulting (StateM δ) (Except ArchiveError (Session σ))) files with
    | (.error cause, _) => .error cause
    | (.ok (.error _), files) => .ok (s, files)
    | (.ok (.ok loaded), files) => .ok (loaded, files)

theorem load_eq_ok {s loaded : Session σ} {f : Format} {files after : δ}
    (h : (s.load f : Faulting (StateM δ) (Except ArchiveError (Session σ))) files = (.ok (.ok loaded), after)) :
    ∃ bytes snapshot g, ((Files.read? (f.path s.store.path) : StateM δ (Option Bytes)) files).1 = some bytes ∧
      f.decode bytes = .ok (.ok snapshot) ∧ snapshot.restore s.catalog = .ok g ∧
      loaded = { s with store := { s.store with grid := g } } := by
  obtain ⟨found, between, opened, h⟩ := Faulting.bind_eq_ok.mp h
  obtain ⟨same, -⟩ := Faulting.pure_eq_ok.mp h
  cases asked : (Files.read? (f.path s.store.path) : StateM δ (Option Bytes)) files with | mk stored rest =>
  rw [Store.load_eq s.store s.catalog asked, Prod.mk.injEq] at opened
  obtain ⟨opened, -⟩ := opened
  cases read : f.gridIn s.catalog stored with
  | error cause =>
    rw [read] at opened
    cases opened
  | ok answer =>
    rw [read] at opened
    cases opened
    cases answer with
    | error e => cases same
    | ok g =>
      cases same
      obtain ⟨bytes, snapshot, same, decoded, restored⟩ := Format.gridIn_eq_ok read
      exact ⟨bytes, snapshot, g, same, decoded, restored, rfl⟩

theorem load_known {s loaded : Session σ} {f : Format} {files after : δ} (ordered : s.catalog.Ordered)
    (numbered : s.catalog.Numbered)
    (h : (s.load f : Faulting (StateM δ) (Except ArchiveError (Session σ))) files = (.ok (.ok loaded), after)) :
    ∃ g, g.Known s.catalog ∧ loaded = { s with store := { s.store with grid := g } } := by
  obtain ⟨_, _, g, -, -, restored, same⟩ := load_eq_ok h
  exact ⟨g, Snapshot.restore_known ordered numbered restored, same⟩

theorem reopen_eq_ok (faithful : Files.Faithful δ) {s t : Session σ} {f : Format} {files after : δ}
    (few : s.catalog.infos.size < 0x100000000) (counted : s.catalog.NamesCounted)
    (h : s.reopen f files = .ok (t, after)) :
    t = s ∨ t = { s with store := { s.store with grid := s.store.grid.rename s.catalog s.catalog } } := by
  unfold reopen at h
  split at h
  · cases h
    exact .inl rfl
  · rename_i between saved
    split at h
    · cases h
    · cases h
      exact .inl rfl
    · rename_i loaded last opened
      cases h
      obtain ⟨bytes, snapshot, g, stored, decoded, restored, rfl⟩ := load_eq_ok opened
      cases stored.symm.trans (faithful.read_save saved)
      have same := Format.eq_of_decode_encode (s.store.grid.capture_writable few counted) decoded
      rw [same, Snapshot.restore_capture] at restored
      cases restored
      exact .inr rfl

theorem load_of_decode {s : Session σ} {f : Format} {files after : δ} {bytes : Bytes} {snapshot : Snapshot} {g : Grid}
    (stored : (Files.read? (f.path s.store.path) : StateM δ (Option Bytes)) files = (some bytes, after))
    (decoded : f.decode bytes = .ok (.ok snapshot)) (restored : snapshot.restore s.catalog = .ok g) :
    (s.load f : Faulting (StateM δ) (Except ArchiveError (Session σ))) files =
      (.ok (.ok { s with store := { s.store with grid := g } }), after) := by
  have opened := Store.load_eq s.store s.catalog stored
  simp only [Format.gridIn, decoded, Except.map, Except.bind, restored, Except.mapError] at opened
  apply Faulting.bind_eq_ok.mpr
  exact ⟨.ok { s.store with grid := g }, after, opened, Faulting.pure_eq_ok.mpr ⟨rfl, rfl⟩⟩

theorem reopen_shelf (s : Session σ) {f : Format} (shelf : Shelf) (few : s.catalog.infos.size < 0x100000000)
    (counted : s.catalog.NamesCounted)
    (encodes : f.Encodes s.store.compress (Snapshot.capture s.store.grid s.catalog)) :
    s.reopen f shelf =
      .ok ({ s with store := { s.store with grid := s.store.grid.rename s.catalog s.catalog } },
        shelf.put (f.path s.store.path) (f.encode s.store.compress (Snapshot.capture s.store.grid s.catalog))) := by
  have writable := s.store.grid.capture_writable few counted
  have saved : (s.save f : StateM Shelf Bool) shelf =
      (true, shelf.put (f.path s.store.path) (f.encode s.store.compress (Snapshot.capture s.store.grid s.catalog))) :=
    shelf.save_eq
  have loaded := load_of_decode (s := s) (f := f) shelf.read?_put
    (Format.decode_encode writable encodes) (Snapshot.restore_capture s.store.grid s.catalog s.catalog)
  simp only [reopen, saved, loaded]

end Session

end Tilework
