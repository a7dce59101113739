import Mathlib.Tactic.Linarith
import Tilework.Proofs.Archive.Record
import Tilework.Proofs.Archive.Stored

namespace Tilework

/-- The size is one of coordinates, and every length can be counted in sixty-four bits. -/
structure Snapshot.Writable (s : Snapshot) : Prop where
  size : s.size.Fits
  tileNames : s.tileNames.length < Archive.lengthLimit
  variantNames : s.variantNames.length < Archive.lengthLimit
  tileName : ∀ name ∈ s.tileNames, (Bytes.ofText name).length < Archive.lengthLimit
  variantName : ∀ name ∈ s.variantNames, (Bytes.ofText name).length < Archive.lengthLimit
  front : s.front.length < Archive.lengthLimit
  mid : s.mid.length < Archive.lengthLimit
  back : s.back.length < Archive.lengthLimit

namespace Archive

theorem readSnapshot?_writeSnapshot {s : Snapshot} (writable : s.Writable) :
    readSnapshot? (writeSnapshot s) = some s := by
  have slots : ∀ items : List (Option UInt32), items.length < lengthLimit →
      ReadsBack (writeList (writeOption writeWord)) (readList (readOption readWord)) items := by
    intro items short
    refine readList_writeList short fun slot _ => readOption_writeOption fun n _ => readWord_writeWord n
  have x := readCoordinate_writeCoordinate writable.size.1
  have y := readCoordinate_writeCoordinate writable.size.2
  have tiles := readList_writeList writable.tileNames fun name member =>
    readString_writeString (writable.tileName name member)
  have variants := readList_writeList writable.variantNames fun name member =>
    readString_writeString (writable.variantName name member)
  have front := slots s.front writable.front
  have mid := slots s.mid writable.mid
  have back := slots s.back writable.back []
  rw [List.append_nil] at back
  simp only [readSnapshot?, writeSnapshot, List.append_assoc, Option.bind_eq_bind]
  rw [x, Option.bind_some, y, Option.bind_some, tiles, Option.bind_some, variants, Option.bind_some]
  rw [front, Option.bind_some, mid, Option.bind_some, back]
  rfl

theorem readSnapshot?_eq_some {bytes : Bytes} {s : Snapshot} (h : readSnapshot? bytes = some s) :
    bytes = writeSnapshot s := by
  have slots : Canonical (writeList (writeOption writeWord)) (readList (readOption readWord)) :=
    readList_canonical (readOption_canonical readWord_canonical)
  have names := readList_canonical readString_canonical
  unfold readSnapshot? at h
  obtain ⟨⟨x, bytes₁⟩, first, h⟩ := Option.bind_eq_some_iff.mp h
  obtain ⟨⟨y, bytes₂⟩, second, h⟩ := Option.bind_eq_some_iff.mp h
  obtain ⟨⟨tiles, bytes₃⟩, third, h⟩ := Option.bind_eq_some_iff.mp h
  obtain ⟨⟨variants, bytes₄⟩, fourth, h⟩ := Option.bind_eq_some_iff.mp h
  obtain ⟨⟨front, bytes₅⟩, fifth, h⟩ := Option.bind_eq_some_iff.mp h
  obtain ⟨⟨mid, bytes₆⟩, sixth, h⟩ := Option.bind_eq_some_iff.mp h
  obtain ⟨⟨back, last⟩, seventh, h⟩ := Option.bind_eq_some_iff.mp h
  simp only [List.isEmpty_iff, Option.ite_none_right_eq_some, Option.some.injEq] at h
  obtain ⟨rfl, rfl⟩ := h
  rw [readCoordinate_canonical first, readCoordinate_canonical second, names third, names fourth, slots fifth,
    slots sixth, slots seventh]
  simp only [writeSnapshot, List.append_assoc, List.append_nil]

def storedPayload (s : Snapshot) (compress : Bool) : Bytes :=
  if compress then deflate (writeSnapshot s) else writeSnapshot s

theorem inflate?_storedPayload (s : Snapshot) : inflate? (storedPayload s true) = some (writeSnapshot s) := by
  rw [storedPayload, if_pos rfl, inflate?_deflate]

theorem encode_eq (s : Snapshot) (compress : Bool) :
    encode s compress = withHeader (if compress then 1 else 0) (storedPayload s compress) := by
  unfold encode storedPayload
  cases compress
  · rw [if_neg Bool.false_ne_true, if_neg Bool.false_ne_true, if_neg Bool.false_ne_true]
  · rw [if_pos rfl, if_pos rfl, if_pos rfl]

theorem flags_withHeader (flags : UInt8) (payload : Bytes) : (withHeader flags payload)[4]? = some flags := rfl

theorem payload_withHeader (flags : UInt8) (payload : Bytes) : (withHeader flags payload).drop headerLength = payload :=
  rfl

def header (flags : UInt8) (payload : Bytes) : Bytes :=
  littleEndian 4 magic ++ [flags] ++ littleEndian 4 (crc32 payload).toNat ++ littleEndian 8 payload.length

theorem decode_withHeader {flags : UInt8} (known : flags = 0 ∨ flags = 1) {payload : Bytes}
    (short : payload.length < lengthLimit) :
    decode (withHeader flags payload) = .ok (decodeBody inflationLimit flags (crc32 payload).toNat payload) := by
  have first : (header flags payload).take 4 = littleEndian 4 magic := rfl
  have second : ((header flags payload)[4]?).getD 0 = flags := rfl
  have third : ((header flags payload).drop 5).take 4 = littleEndian 4 (crc32 payload).toNat := rfl
  have fourth : (header flags payload).drop 9 = littleEndian 8 payload.length := rfl
  have mark : ofLittleEndian (littleEndian 4 magic) = magic := ofLittleEndian_littleEndian (by decide)
  have checksum := ofLittleEndian_littleEndian (k := 4) (crc32 payload).toNat_lt
  have length := ofLittleEndian_littleEndian (k := 8) short
  have flagged : ¬(flags ≠ 0 ∧ flags ≠ 1) := by
    rcases known with rfl | rfl <;> decide
  show decode (header flags payload ++ payload) = _
  rw [decode, decodeWithin, show headerLength = (header flags payload).length from rfl, splitBytes?_append]
  simp only [first, second, third, fourth, mark, checksum, length]
  rw [if_neg (by simp), if_neg flagged, if_neg (by simp)]
  rfl

theorem eq_withHeader {word payload : Bytes} (count : word.length = 17)
    (mark : ofLittleEndian (word.take 4) = magic)
    (sum : (crc32 payload).toNat = ofLittleEndian ((word.drop 5).take 4))
    (length : payload.length = ofLittleEndian (word.drop 9)) :
    word ++ payload = withHeader ((word[4]?).getD 0) payload := by
  have first := littleEndian_ofLittleEndian (word.take 4)
  have second := littleEndian_ofLittleEndian ((word.drop 5).take 4)
  have third := littleEndian_ofLittleEndian (word.drop 9)
  rw [List.length_take_of_le (by omega), mark] at first
  rw [List.length_take_of_le (by rw [List.length_drop]; omega), ← sum] at second
  rw [List.length_drop, count, ← length] at third
  have flags : (word[4]?).getD 0 = word[4] := by
    rw [List.getElem?_eq_getElem (by omega)]
    rfl
  have later := List.take_append_drop 4 (word.drop 5)
  rw [List.drop_drop] at later
  have parts : word.take 4 ++ [word[4]] ++ (word.drop 5).take 4 ++ word.drop 9 = word := by
    rw [List.append_assoc, later, List.append_assoc, List.singleton_append, ← List.drop_eq_getElem_cons,
      List.take_append_drop]
  rw [withHeader, first, second, third, flags, parts]

theorem decode_eq_ok {bytes : Bytes} {s : Snapshot} (h : decode bytes = .ok (.ok s)) :
    ∃ flags payload, bytes = withHeader flags payload ∧ payload.length < lengthLimit ∧
      decodeBody inflationLimit flags (crc32 payload).toNat payload = .ok s := by
  unfold decode decodeWithin at h
  split at h
  · cases h
  rename_i word payload split
  obtain ⟨rfl, count⟩ := splitBytes?_eq_some split
  have count : word.length = 17 := count
  simp only at h
  have mark : ofLittleEndian (word.take 4) = magic := by
    by_contra different
    rw [if_pos different] at h
    cases h
  rw [if_neg (not_not.mpr mark)] at h
  split at h
  · cases h
  have length : payload.length = ofLittleEndian (word.drop 9) := by
    by_contra different
    rw [if_pos different] at h
    split at h <;> cases h
  rw [if_neg (not_not.mpr length)] at h
  have sum : (crc32 payload).toNat = ofLittleEndian ((word.drop 5).take 4) := by
    by_contra different
    simp only [decodeBody, if_pos different] at h
    cases h
  rw [← sum] at h
  have bound := ofLittleEndian_lt (word.drop 9)
  rw [List.length_drop, count, ← length] at bound
  exact ⟨_, payload, eq_withHeader count mark sum length, bound, Except.ok.inj h⟩

/-- The payload can be counted, and one that is compressed is not made from more bytes than may be read. -/
def Storable (s : Snapshot) (compress : Bool) : Prop :=
  (storedPayload s compress).length < lengthLimit ∧
    (compress = true → (writeSnapshot s).length ≤ inflationLimit)

theorem Storable.length_lt {s : Snapshot} {compress : Bool} (storable : Storable s compress) :
    (writeSnapshot s).length < lengthLimit := by
  obtain ⟨short, within⟩ := storable
  cases compress with
  | true =>
    have small := within rfl
    simp only [inflationLimit, lengthLimit] at small ⊢
    omega
  | false => exact short

theorem Storable.writable {s : Snapshot} {compress : Bool} (storable : Storable s compress) (fits : s.size.Fits) :
    s.Writable := by
  have short := storable.length_lt
  have names : ∀ name, (Bytes.ofText name).length ≤ (writeString name).length ∧ 1 ≤ (writeString name).length := by
    intro name
    rw [writeString_eq, List.length_append, writeCount, length_littleEndian]
    omega
  have slots : ∀ slot : Option UInt32, 1 ≤ (writeOption writeWord slot).length := by
    intro slot
    cases slot <;> simp [writeOption]
  have table : ∀ items : List String, items.length ≤ (writeList writeString items).length :=
    fun _ => length_le_writeList fun name _ => (names name).2
  have layer : ∀ items : List (Option UInt32), items.length ≤ (writeList (writeOption writeWord) items).length :=
    fun _ => length_le_writeList fun slot _ => slots slot
  have tiles := table s.tileNames
  have variants := table s.variantNames
  have front := layer s.front
  have mid := layer s.mid
  have back := layer s.back
  simp only [writeSnapshot, List.length_append] at short
  refine ⟨fits, by omega, by omega, ?_, ?_, by omega, by omega, by omega⟩
  · intro name member
    have inside : (writeString name).length ≤ _ := length_le_of_mem_writeList member
    have content := (names name).1
    omega
  · intro name member
    have inside : (writeString name).length ≤ _ := length_le_of_mem_writeList member
    have content := (names name).1
    omega

theorem decode_compressed {s : Snapshot} (writable : s.Writable) {payload : Bytes}
    (short : payload.length < lengthLimit) (inflated : inflate? payload = some (writeSnapshot s))
    (within : (writeSnapshot s).length ≤ inflationLimit) : decode (withHeader 1 payload) = .ok (.ok s) := by
  have read := readSnapshot?_writeSnapshot writable
  have body : decodeBody inflationLimit 1 (crc32 payload).toNat payload = .ok s := by
    rw [decodeBody, if_neg (by simp), if_pos rfl]
    simp only [inflated, if_neg (Nat.not_lt.mpr within), decodePayload, read]
  rw [decode_withHeader (.inr rfl) short, body]

theorem decode_encode {s : Snapshot} (writable : s.Writable) {compress : Bool} (storable : Storable s compress) :
    decode (encode s compress) = .ok (.ok s) := by
  obtain ⟨short, within⟩ := storable
  rw [encode_eq]
  cases compress with
  | true => exact decode_compressed writable short (inflate?_storedPayload s) (within rfl)
  | false =>
    have body : decodeBody inflationLimit 0 (crc32 (writeSnapshot s)).toNat (writeSnapshot s) = .ok s := by
      simp [decodeBody, decodePayload, readSnapshot?_writeSnapshot writable]
    exact (decode_withHeader (.inl rfl) short).trans (congrArg Except.ok body)

/-- The length of a payload that is too long is not written as it is, and is found out. -/
theorem decode_of_not_storable {s t : Snapshot} {compress : Bool} (unfit : ¬Storable s compress) :
    decode (encode s compress) ≠ .ok (.ok t) := by
  intro h
  obtain ⟨flags, payload, same, short, body⟩ := decode_eq_ok h
  rw [encode_eq] at same
  have payloads := congrArg (List.drop headerLength) same
  rw [payload_withHeader, payload_withHeader] at payloads
  apply unfit
  rw [Storable, payloads]
  refine ⟨short, ?_⟩
  rintro rfl
  have compressed := congrArg (fun bytes => bytes[4]?) same
  rw [flags_withHeader, flags_withHeader, if_pos rfl, Option.some.injEq] at compressed
  subst compressed
  by_contra long
  rw [decodeBody, if_neg (by simp), if_pos rfl, ← payloads] at body
  simp only [inflate?_storedPayload, if_pos (Nat.lt_of_not_le long)] at body
  cases body

theorem encode_of_decode {bytes : Bytes} {s : Snapshot} (plain : bytes[4]? = some 0)
    (h : decode bytes = .ok (.ok s)) : encode s false = bytes := by
  obtain ⟨flags, payload, rfl, -, body⟩ := decode_eq_ok h
  rw [flags_withHeader, Option.some.injEq] at plain
  subst plain
  have read : readSnapshot? payload = some s := by
    rw [decodeBody, if_neg (by simp), if_neg (by decide), decodePayload] at body
    split at body
    · cases body
      assumption
    · cases body
  rw [encode_eq, readSnapshot?_eq_some read]
  rfl

end Archive

/-- The compact form loses nothing, and without compression it is the only form of its snapshot. -/
theorem compact_lossless_canonical :
    (∀ (s : Snapshot) (compress : Bool), s.Writable → Archive.Storable s compress →
      Archive.decode (Archive.encode s compress) = .ok (.ok s)) ∧
    (∀ (s : Snapshot) (payload : Bytes), s.Writable → payload.length < Archive.lengthLimit →
      Archive.inflate? payload = some (Archive.writeSnapshot s) →
      (Archive.writeSnapshot s).length ≤ Archive.inflationLimit →
      Archive.decode (Archive.withHeader 1 payload) = .ok (.ok s)) ∧
    (∀ (bytes : Bytes) (s : Snapshot), bytes[4]? = some 0 → Archive.decode bytes = .ok (.ok s) →
      Archive.encode s false = bytes) ∧
    ∀ (a b : Bytes) (s : Snapshot), a[4]? = some 0 → b[4]? = some 0 → Archive.decode a = .ok (.ok s) →
      Archive.decode b = .ok (.ok s) → a = b := by
  refine ⟨?_, ?_, ?_, ?_⟩
  · intro s compress writable storable
    exact Archive.decode_encode writable storable
  · intro s payload writable short inflated within
    exact Archive.decode_compressed writable short inflated within
  · intro bytes s plain decoded
    exact Archive.encode_of_decode plain decoded
  · intro a b s plainA plainB decodedA decodedB
    rw [← Archive.encode_of_decode plainA decodedA, Archive.encode_of_decode plainB decodedB]

/-- One cell, whose tile has a name of two bytes. -/
def moatSnapshot : Snapshot := ⟨⟨1, -1⟩, ["é"], [], [none], [some 7], []⟩

def moatPayload : Bytes := [
  1, 0, 0, 0, 255, 255, 255, 255,
  1, 0, 0, 0, 0, 0, 0, 0, 2, 0, 0, 0, 0, 0, 0, 0, 195, 169,
  0, 0, 0, 0, 0, 0, 0, 0,
  1, 0, 0, 0, 0, 0, 0, 0, 0,
  1, 0, 0, 0, 0, 0, 0, 0, 1, 7, 0, 0, 0,
  0, 0, 0, 0, 0, 0, 0, 0]

theorem compact_lossless_canonical_moat :
    moatSnapshot.Writable ∧ Archive.decode (Archive.encode moatSnapshot false) = .ok (.ok moatSnapshot) ∧
    Archive.decode (Archive.withHeader 1 (Archive.store moatPayload)) = .ok (.ok moatSnapshot) ∧
    Archive.decode (Archive.withHeader 0 moatPayload) = .ok (.ok moatSnapshot) ∧
    Archive.encode moatSnapshot false = Archive.withHeader 0 moatPayload := by
  have writable : moatSnapshot.Writable := by
    constructor <;> decide +kernel
  have payload : Archive.writeSnapshot moatSnapshot = moatPayload := by decide +kernel
  obtain ⟨lossless, compressed, canonical, unique⟩ := compact_lossless_canonical
  have storable : Archive.Storable moatSnapshot false := ⟨by decide +kernel, fun impossible => nomatch impossible⟩
  have written := lossless moatSnapshot false writable storable
  have stored := compressed moatSnapshot (Archive.store moatPayload) writable (by decide +kernel)
    (by rw [payload, Archive.inflate?_store]) (by rw [payload]; decide)
  have read : Archive.readSnapshot? moatPayload = some moatSnapshot := by decide +kernel
  have decoded : Archive.decode (Archive.withHeader 0 moatPayload) = .ok (.ok moatSnapshot) := by
    rw [Archive.decode_withHeader (.inl rfl) (by decide)]
    simp [Archive.decodeBody, Archive.decodePayload, read]
  exact ⟨writable, written, stored, decoded, canonical _ _ rfl decoded⟩

end Tilework
