import Tilework.Proofs.Archive.Checksum
import Tilework.Proofs.Archive.Countable
import Tilework.Proofs.Archive.RoundTrip

namespace Tilework.Archive

section Fields

def fieldOf (bytes : Bytes) (first width : Nat) : Nat := ofLittleEndian ((bytes.drop first).take width)

variable {bytes : Bytes} {first width i : Nat} {b : UInt8}

theorem fieldOf_append (inside : first + width ≤ bytes.length) (more : Bytes) :
    fieldOf (bytes ++ more) first width = fieldOf bytes first width := by
  have long : width ≤ (bytes.drop first).length := by
    rw [List.length_drop]
    omega
  rw [fieldOf, List.drop_append_of_le_length (by omega), List.take_append_of_le_length long, fieldOf]

theorem fieldOf_set_outside (apart : i < first ∨ first + width ≤ i) (b : UInt8) :
    fieldOf (bytes.set i b) first width = fieldOf bytes first width := by
  rw [fieldOf, List.drop_set]
  split
  · rfl
  · rename_i later
    rw [List.take_set, List.set_eq_of_length_le, fieldOf]
    rw [List.length_take]
    omega

theorem fieldOf_set_inside (within : first ≤ i) (b : UInt8) :
    fieldOf (bytes.set i b) first width = ofLittleEndian (((bytes.drop first).take width).set (i - first) b) := by
  rw [fieldOf, List.drop_set, if_neg (by omega), List.take_set]

theorem fieldOf_set_ne (long : first + width ≤ bytes.length) (within : first ≤ i ∧ i < first + width)
    (other : bytes[i]? ≠ some b) : fieldOf (bytes.set i b) first width ≠ fieldOf bytes first width := by
  rw [fieldOf_set_inside within.1, fieldOf]
  intro same
  have equal := ofLittleEndian_inj (List.length_set ..) same
  have place : i - first < ((bytes.drop first).take width).length := by
    rw [List.length_take, List.length_drop]
    omega
  have read := List.getElem?_set_self (a := b) place
  rw [equal, List.getElem?_take_of_lt (by omega), List.getElem?_drop, Nat.add_sub_cancel' within.1] at read
  exact other read

theorem ofLittleEndian_set_le (word : Bytes) (i : Nat) (b : UInt8) :
    ofLittleEndian (word.set i b) ≤ ofLittleEndian word + 255 <<< (8 * i) := by
  induction word generalizing i with
  | nil => exact Nat.le_add_right _ _
  | cons c rest ih =>
    have byte := b.toNat_lt
    cases i with
    | zero =>
      simp only [List.set_cons_zero, ofLittleEndian, Nat.mul_zero, Nat.shiftLeft_zero]
      omega
    | succ i =>
      have later := ih i
      rw [Nat.mul_succ, Nat.shiftLeft_add, Nat.shiftLeft_eq _ 8]
      simp only [List.set_cons_succ, ofLittleEndian]
      omega

end Fields

theorem decode_of_short {bytes : Bytes} (short : bytes.length < headerLength) :
    decode bytes = .ok (.error (.lengthMismatch headerLength bytes.length)) := by
  unfold decode decodeWithin
  cases split : splitBytes? headerLength bytes with
  | none => rfl
  | some parts =>
    obtain ⟨rfl, count⟩ := splitBytes?_eq_some split
    rw [List.length_append] at short
    omega

theorem decode_eq {bytes : Bytes} (whole : headerLength ≤ bytes.length) :
    decode bytes =
      if fieldOf bytes 0 4 ≠ magic then .ok (.error (.badMagic (fieldOf bytes 0 4)))
      else if (bytes[4]?).getD 0 ≠ 0 ∧ (bytes[4]?).getD 0 ≠ 1 then .ok (.error (.unknownFlags ((bytes[4]?).getD 0)))
      else if bytes.length ≠ headerLength + givenLength bytes then
        if lengthLimit ≤ headerLength + givenLength bytes then .error .overflow
        else .ok (.error (.lengthMismatch (headerLength + givenLength bytes) bytes.length))
      else .ok (decodeBody inflationLimit ((bytes[4]?).getD 0) (fieldOf bytes 5 4) (bytes.drop headerLength)) := by
  obtain ⟨word, payload, count, rfl⟩ : ∃ word payload, word.length = headerLength ∧ bytes = word ++ payload :=
    ⟨bytes.take headerLength, bytes.drop headerLength, List.length_take_of_le whole, (List.take_append_drop ..).symm⟩
  obtain ⟨mark, flags, length⟩ := header_append count payload
  have width : word.length = 17 := count
  have sum : fieldOf (word ++ payload) 5 4 = ofLittleEndian ((word.drop 5).take 4) := fieldOf_append (by omega) payload
  have total : (word ++ payload).length = headerLength + payload.length := by rw [List.length_append, count]
  have split : splitBytes? headerLength (word ++ payload) = some (word, payload) := count ▸ splitBytes?_append word payload
  have first : fieldOf (word ++ payload) 0 4 = ofLittleEndian (word.take 4) := congrArg ofLittleEndian mark
  have left : (word ++ payload).drop headerLength = payload := List.drop_left' count
  rw [decode, decodeWithin, split]
  simp only [first, flags, sum, length, total, left, Option.getD_some, ne_eq, Nat.add_left_cancel_iff]
  rfl

structure Announces (bytes : Bytes) (flags : UInt8) (sum length : Nat) : Prop where
  whole : headerLength ≤ bytes.length
  mark : fieldOf bytes 0 4 = magic
  flags : bytes[4]? = some flags
  sum : fieldOf bytes 5 4 = sum
  length : givenLength bytes = length

namespace Announces

variable {bytes more : Bytes} {flags b : UInt8} {sum length i : Nat}

theorem append_iff (whole : headerLength ≤ bytes.length) (more : Bytes) :
    Announces (bytes ++ more) flags sum length ↔ Announces bytes flags sum length := by
  have width : 17 ≤ bytes.length := whole
  have mark : fieldOf (bytes ++ more) 0 4 = fieldOf bytes 0 4 := fieldOf_append (by omega) more
  have checksum : fieldOf (bytes ++ more) 5 4 = fieldOf bytes 5 4 := fieldOf_append (by omega) more
  have given : givenLength (bytes ++ more) = givenLength bytes := fieldOf_append (by omega) more
  have flag : (bytes ++ more)[4]? = bytes[4]? := List.getElem?_append_left (Nat.lt_of_lt_of_le (by decide) width)
  have long : headerLength ≤ (bytes ++ more).length := by
    rw [List.length_append]
    omega
  constructor
  · rintro ⟨-, a, b, c, d⟩
    exact ⟨whole, mark ▸ a, flag ▸ b, checksum ▸ c, given ▸ d⟩
  · rintro ⟨-, a, b, c, d⟩
    exact ⟨long, mark ▸ a, flag ▸ b, checksum ▸ c, given ▸ d⟩

theorem of_withHeader (flags : UInt8) {payload : Bytes} (short : payload.length < lengthLimit) :
    Announces (withHeader flags payload) flags (crc32 payload).toNat payload.length := by
  have mark : ((header flags payload).drop 0).take 4 = littleEndian 4 magic := rfl
  have checksum : ((header flags payload).drop 5).take 4 = littleEndian 4 (crc32 payload).toNat := rfl
  have length : ((header flags payload).drop 9).take 8 = littleEndian 8 payload.length := rfl
  have plain : Announces (header flags payload) flags (crc32 payload).toNat payload.length := by
    refine ⟨Nat.le_refl _, ?_, rfl, ?_, ?_⟩
    · rw [fieldOf, mark, ofLittleEndian_littleEndian (by decide)]
    · rw [fieldOf, checksum, ofLittleEndian_littleEndian (crc32 payload).toNat_lt]
    · rw [givenLength, length, ofLittleEndian_littleEndian short]
  exact (append_iff plain.whole payload).mpr plain

theorem set_sum (given : Announces bytes flags sum length) (within : 5 ≤ i ∧ i < 9) (b : UInt8) :
    Announces (bytes.set i b) flags (fieldOf (bytes.set i b) 5 4) length := by
  refine ⟨?_, ?_, ?_, rfl, ?_⟩
  · rw [List.length_set]
    exact given.whole
  · rw [fieldOf_set_outside (by omega), given.mark]
  · rw [List.getElem?_set_ne (by omega), given.flags]
  · exact (fieldOf_set_outside (by omega) b).trans given.length

theorem set_length (given : Announces bytes flags sum length) (within : 9 ≤ i) (b : UInt8) :
    Announces (bytes.set i b) flags sum (givenLength (bytes.set i b)) := by
  refine ⟨?_, ?_, ?_, ?_, rfl⟩
  · rw [List.length_set]
    exact given.whole
  · rw [fieldOf_set_outside (by omega), given.mark]
  · rw [List.getElem?_set_ne (by omega), given.flags]
  · rw [fieldOf_set_outside (by omega), given.sum]

variable (given : Announces bytes flags sum length) (known : flags = 0 ∨ flags = 1)

include given known

theorem decode_of_length (differs : bytes.length ≠ headerLength + length) (counted : headerLength + length < lengthLimit) :
    decode bytes = .ok (.error (.lengthMismatch (headerLength + length) bytes.length)) := by
  have flagged : ¬(flags ≠ 0 ∧ flags ≠ 1) := Decidable.or_iff_not_not_and_not.mp known
  rw [decode_eq given.whole, given.flags, given.length, if_neg (not_not.mpr given.mark), Option.getD_some, if_neg flagged,
    if_pos differs, if_neg (Nat.not_le.mpr counted)]

theorem decode_of_checksum (same : bytes.length = headerLength + length)
    (other : (crc32 (bytes.drop headerLength)).toNat ≠ sum) : decode bytes = .ok (.error .checksum) := by
  have flagged : ¬(flags ≠ 0 ∧ flags ≠ 1) := Decidable.or_iff_not_not_and_not.mp known
  rw [decode_eq given.whole, given.flags, given.length, given.sum, if_neg (not_not.mpr given.mark), Option.getD_some,
    if_neg flagged, if_neg (not_not.mpr same), decodeBody, if_pos other]

end Announces

theorem length_withHeader (flags : UInt8) (payload : Bytes) :
    (withHeader flags payload).length = headerLength + payload.length := by
  rw [show withHeader flags payload = header flags payload ++ payload from rfl, List.length_append]
  rfl

theorem headerLength_le (flags : UInt8) (payload : Bytes) : headerLength ≤ (withHeader flags payload).length := by
  rw [length_withHeader]
  exact Nat.le_add_right _ _

/-- How a compact form may come to be damaged, and what the damage is found out by. -/
inductive Damage (whole : Bytes) : Bytes → ArchiveError → Prop where
  | cut {kept lost : Bytes} (parts : whole = kept ++ lost) (missing : lost ≠ []) :
    Damage whole kept
      (.lengthMismatch (if kept.length < headerLength then headerLength else whole.length) kept.length)
  | grown {more : Bytes} (added : more ≠ []) :
    Damage whole (whole ++ more) (.lengthMismatch whole.length (whole ++ more).length)
  | mark {i : Nat} {b : UInt8} (within : i < 4) (other : whole[i]? ≠ some b) :
    Damage whole (whole.set i b) (.badMagic (fieldOf (whole.set i b) 0 4))
  | flags {b : UInt8} (unknown : b ≠ 0 ∧ b ≠ 1) : Damage whole (whole.set 4 b) (.unknownFlags b)
  | checksum {i : Nat} {b : UInt8} (within : 5 ≤ i ∧ i < 9) (other : whole[i]? ≠ some b) :
    Damage whole (whole.set i b) .checksum
  | length {i : Nat} {b : UInt8} (within : 9 ≤ i ∧ i < 17) (other : whole[i]? ≠ some b) :
    Damage whole (whole.set i b) (.lengthMismatch (headerLength + givenLength (whole.set i b)) whole.length)
  /-- Up to four bytes in a row of the payload are others. -/
  | payload {before old new after : Bytes} (parts : whole = before ++ old ++ after)
    (beyond : headerLength ≤ before.length) (width : new.length = old.length) (few : old.length ≤ 4)
    (other : new ≠ old) : Damage whole (before ++ new ++ after) .checksum

section Detection

variable {flags b : UInt8} {payload : Bytes} {i : Nat}

theorem decode_mark (within : i < 4) (other : (withHeader flags payload)[i]? ≠ some b) :
    decode ((withHeader flags payload).set i b) =
      .ok (.error (.badMagic (fieldOf ((withHeader flags payload).set i b) 0 4))) := by
  have mark : fieldOf (withHeader flags payload) 0 4 = magic := ofLittleEndian_littleEndian (k := 4) (by decide)
  have differs : fieldOf ((withHeader flags payload).set i b) 0 4 ≠ fieldOf (withHeader flags payload) 0 4 :=
    fieldOf_set_ne (Nat.le_trans (by decide) (headerLength_le flags payload)) ⟨i.zero_le, by omega⟩ other
  have whole : headerLength ≤ ((withHeader flags payload).set i b).length := by
    rw [List.length_set]
    exact headerLength_le flags payload
  rw [mark] at differs
  rw [decode_eq whole, if_pos differs]

theorem decode_flags (unknown : b ≠ 0 ∧ b ≠ 1) :
    decode ((withHeader flags payload).set 4 b) = .ok (.error (.unknownFlags b)) := by
  have whole : headerLength ≤ ((withHeader flags payload).set 4 b).length := by
    rw [List.length_set]
    exact headerLength_le flags payload
  have flag : ((withHeader flags payload).set 4 b)[4]? = some b := rfl
  have mark : fieldOf ((withHeader flags payload).set 4 b) 0 4 = magic :=
    ofLittleEndian_littleEndian (k := 4) (by decide)
  rw [decode_eq whole, if_neg (not_not.mpr mark), flag, Option.getD_some, if_pos unknown]

variable (known : flags = 0 ∨ flags = 1) (short : payload.length < 0x100000000)

include known short

theorem decode_resized {bytes : Bytes} (given : Announces bytes flags (crc32 payload).toNat payload.length)
    (differs : bytes.length ≠ (withHeader flags payload).length) :
    decode bytes = .ok (.error (.lengthMismatch (withHeader flags payload).length bytes.length)) := by
  rw [length_withHeader] at differs ⊢
  refine given.decode_of_length known differs ?_
  simp only [headerLength, lengthLimit]
  omega

theorem decode_cut {kept lost : Bytes} (parts : withHeader flags payload = kept ++ lost) (missing : lost ≠ []) :
    decode kept = .ok (.error (.lengthMismatch
      (if kept.length < headerLength then headerLength else (withHeader flags payload).length) kept.length)) := by
  have given := Announces.of_withHeader flags (Nat.lt_trans short (by decide))
  have missed := List.length_pos_iff.mpr missing
  have lengths := congrArg List.length parts
  rw [List.length_append] at lengths
  by_cases less : kept.length < headerLength
  · rw [if_pos less]
    exact decode_of_short less
  · rw [if_neg less]
    rw [parts, Announces.append_iff (Nat.le_of_not_lt less)] at given
    exact decode_resized known short given (by omega)

theorem decode_grown {more : Bytes} (added : more ≠ []) :
    decode (withHeader flags payload ++ more) = .ok (.error (.lengthMismatch (withHeader flags payload).length
      (withHeader flags payload ++ more).length)) := by
  have given := Announces.of_withHeader flags (Nat.lt_trans short (by decide))
  have extra := List.length_pos_iff.mpr added
  refine decode_resized known short ((Announces.append_iff given.whole more).mpr given) ?_
  rw [List.length_append]
  omega

theorem decode_checksum (within : 5 ≤ i ∧ i < 9) (other : (withHeader flags payload)[i]? ≠ some b) :
    decode ((withHeader flags payload).set i b) = .ok (.error .checksum) := by
  have given := Announces.of_withHeader flags (Nat.lt_trans short (by decide))
  have differs : fieldOf ((withHeader flags payload).set i b) 5 4 ≠ fieldOf (withHeader flags payload) 5 4 :=
    fieldOf_set_ne (Nat.le_trans (by decide) given.whole) within other
  rw [given.sum] at differs
  refine (given.set_sum within b).decode_of_checksum known ?_ ?_
  · rw [List.length_set, length_withHeader]
  · rw [List.drop_set_of_lt (Nat.lt_of_lt_of_le within.2 (by decide)), payload_withHeader]
    exact differs.symm

/-- Even with another highest byte, a length below 2^32 can be counted together with the header. -/
theorem decode_length (within : 9 ≤ i ∧ i < 17) (other : (withHeader flags payload)[i]? ≠ some b) :
    decode ((withHeader flags payload).set i b) = .ok (.error (.lengthMismatch
      (headerLength + givenLength ((withHeader flags payload).set i b)) (withHeader flags payload).length)) := by
  have given := Announces.of_withHeader flags (Nat.lt_trans short (by decide))
  have differs : givenLength ((withHeader flags payload).set i b) ≠ givenLength (withHeader flags payload) :=
    fieldOf_set_ne given.whole within other
  have bound := ofLittleEndian_set_le (((withHeader flags payload).drop 9).take 8) (i - 9) b
  have greatest : ∀ k : Fin 8, 255 <<< (8 * k.val) ≤ 0xFF00000000000000 := by decide
  have step := greatest ⟨i - 9, by omega⟩
  rw [← fieldOf_set_inside within.1] at bound
  rw [given.length] at differs
  have small : givenLength ((withHeader flags payload).set i b) ≤ payload.length + 0xFF00000000000000 :=
    Nat.le_trans bound (Nat.add_le_add (Nat.le_of_eq given.length) step)
  have size : ((withHeader flags payload).set i b).length = (withHeader flags payload).length := List.length_set
  rw [← size]
  refine (given.set_length within.1 b).decode_of_length known ?_ ?_
  · rw [size, length_withHeader]
    omega
  · simp only [headerLength, lengthLimit]
    omega

theorem decode_payload {before old new after : Bytes} (parts : withHeader flags payload = before ++ old ++ after)
    (beyond : headerLength ≤ before.length) (width : new.length = old.length) (few : old.length ≤ 4)
    (other : new ≠ old) : decode (before ++ new ++ after) = .ok (.error .checksum) := by
  have given := Announces.of_withHeader flags (Nat.lt_trans short (by decide))
  have lengths := congrArg List.length parts
  have content := congrArg (List.drop headerLength) parts
  rw [payload_withHeader, List.append_assoc, List.drop_append_of_le_length beyond, ← List.append_assoc] at content
  -- The header lies before the change.
  rw [parts, List.append_assoc, Announces.append_iff beyond, ← Announces.append_iff beyond (new ++ after),
    ← List.append_assoc] at given
  refine given.decode_of_checksum known ?_ ?_
  · rw [← length_withHeader flags payload, lengths]
    simp only [List.length_append, width]
  · rw [List.append_assoc, List.drop_append_of_le_length beyond, ← List.append_assoc, content]
    exact fun same => crc32_ne_of_burst width few other (UInt32.toNat_inj.mp same)

end Detection

end Archive

/-- It does not matter whether the payload is compressed: nothing is inflated before its checksum is right. -/
theorem damage_detected {s : Snapshot} {compress : Bool}
    (short : (Archive.storedPayload s compress).length < 0x100000000) {damaged : Bytes} {cause : ArchiveError}
    (damage : Archive.Damage (Archive.encode s compress) damaged cause) :
    Archive.decode damaged = .ok (.error cause) := by
  have known : (if compress then 1 else 0 : UInt8) = 0 ∨ (if compress then 1 else 0 : UInt8) = 1 := by
    cases compress
    · exact .inl rfl
    · exact .inr rfl
  rw [Archive.encode_eq] at damage
  cases damage with
  | cut parts missing => exact Archive.decode_cut known short parts missing
  | grown added => exact Archive.decode_grown known short added
  | mark within other => exact Archive.decode_mark within other
  | flags unknown => exact Archive.decode_flags unknown
  | checksum within other => exact Archive.decode_checksum known short within other
  | length within other => exact Archive.decode_length known short within other
  | payload parts beyond width few other => exact Archive.decode_payload known short parts beyond width few other

theorem moatSnapshot_encode : Archive.encode moatSnapshot false = Archive.withHeader 0 moatPayload := by
  have payload : Archive.writeSnapshot moatSnapshot = moatPayload := by decide +kernel
  rw [Archive.encode_eq, Archive.storedPayload, if_neg Bool.false_ne_true, if_neg Bool.false_ne_true, payload]

def moatSum : UInt8 := UInt8.ofNat ((Archive.crc32 moatPayload).toNat / 256 / 256 / 256)

theorem damage_detected_moat :
    Archive.encode moatSnapshot false = Archive.withHeader 0 moatPayload ∧
    Archive.decode ((Archive.withHeader 0 moatPayload).take 3) = .ok (.error (.lengthMismatch 17 3)) ∧
    Archive.decode ((Archive.withHeader 0 moatPayload).take 80) = .ok (.error (.lengthMismatch 81 80)) ∧
    Archive.decode (Archive.withHeader 0 moatPayload ++ [0]) = .ok (.error (.lengthMismatch 81 82)) ∧
    Archive.decode ((Archive.withHeader 0 moatPayload).set 0 3) = .ok (.error (.badMagic 0x54534D03)) ∧
    Archive.decode ((Archive.withHeader 0 moatPayload).set 4 2) = .ok (.error (.unknownFlags 2)) ∧
    Archive.decode ((Archive.withHeader 0 moatPayload).set 8 (moatSum ^^^ 1)) = .ok (.error .checksum) ∧
    Archive.decode ((Archive.withHeader 0 moatPayload).set 16 255) =
      .ok (.error (.lengthMismatch 0xFF00000000000051 81)) ∧
    Archive.decode (Archive.header 0 moatPayload ++ [0, 1, 0, 0] ++ moatPayload.drop 4) = .ok (.error .checksum) := by
  have short : (Archive.storedPayload moatSnapshot false).length < 0x100000000 := by decide +kernel
  have detected := fun {damaged cause} => @damage_detected moatSnapshot false short damaged cause
  rw [moatSnapshot_encode] at detected
  have total : (Archive.withHeader 0 moatPayload).length = 81 := by
    rw [Archive.length_withHeader]
    rfl
  have others : moatSum ^^^ 1 ≠ moatSum := by
    intro same
    have none := (UInt8.xor_right_inj moatSum).mp (same.trans UInt8.xor_zero.symm)
    exact absurd none (by decide)
  refine ⟨moatSnapshot_encode, ?_, ?_, ?_, ?_, ?_, ?_, ?_, ?_⟩
  · have damage := detected (.cut (List.take_append_drop 3 _).symm (List.cons_ne_nil _ _))
    rw [total] at damage
    exact damage
  · have damage := detected (.cut (List.take_append_drop 80 _).symm (List.cons_ne_nil _ _))
    rw [total] at damage
    exact damage
  · have damage := detected (.grown (List.cons_ne_nil 0 []))
    rw [total] at damage
    exact damage
  · exact detected (.mark (by decide) (by decide))
  · exact detected (.flags (by decide))
  · exact detected (.checksum (by decide) fun same => others (Option.some.inj same).symm)
  · have damage := detected (.length (i := 16) (b := 255) (by decide) (by decide))
    rw [total] at damage
    exact damage
  · have parts : Archive.withHeader 0 moatPayload =
        Archive.header 0 moatPayload ++ [1, 0, 0, 0] ++ moatPayload.drop 4 := rfl
    exact detected (.payload parts (by decide) rfl (by decide) (by decide))

end Tilework
