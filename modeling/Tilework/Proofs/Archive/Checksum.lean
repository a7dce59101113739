import Mathlib.Logic.Function.Iterate
import Tilework.Archive.Checksum
import Tilework.Proofs.Archive.Record

namespace Tilework.Archive

section Shift

theorem and_one_eq_one_iff (r : UInt32) : r &&& 1 = 1 ↔ r.toNat % 2 = 1 := by
  rw [← UInt32.toNat_inj, UInt32.toNat_and, UInt32.toNat_one, Nat.and_one_is_mod]

theorem toNat_half (r : UInt32) : (r >>> 1).toNat = r.toNat / 2 := by
  rw [UInt32.toNat_shiftRight, UInt32.toNat_one, Nat.shiftRight_eq_div_pow, Nat.pow_one]

def crcCarry (r : UInt32) : UInt32 := if r.toNat % 2 = 1 then 0xEDB88320 else 0

theorem crcShift_eq (r : UInt32) : crcShift r = (r >>> 1) ^^^ crcCarry r := by
  unfold crcShift crcCarry
  simp only [and_one_eq_one_iff]
  split
  · rfl
  · exact UInt32.xor_zero.symm

theorem crcCarry_xor (a b : UInt32) : crcCarry (a ^^^ b) = crcCarry a ^^^ crcCarry b := by
  simp only [crcCarry, UInt32.toNat_xor, Nat.xor_mod_two_eq_one]
  by_cases oddA : a.toNat % 2 = 1
  · by_cases oddB : b.toNat % 2 = 1
    · simp [oddA, oddB]
    · simp [oddA, oddB]
  · by_cases oddB : b.toNat % 2 = 1
    · simp [oddA, oddB]
    · simp [oddA, oddB]

theorem crcShift_xor (a b : UInt32) : crcShift (a ^^^ b) = crcShift a ^^^ crcShift b := by
  rw [crcShift_eq, crcShift_eq, crcShift_eq, UInt32.shiftRight_xor, crcCarry_xor]
  ac_rfl

/-- What is added has its highest bit set, and a halved remainder has not. -/
theorem eq_zero_of_crcShift {r : UInt32} (h : crcShift r = 0) : r = 0 := by
  have small := r.toNat_lt
  rw [crcShift_eq, UInt32.xor_eq_zero_iff] at h
  have equal := congrArg UInt32.toNat h
  rw [toNat_half, crcCarry] at equal
  apply UInt32.toNat_inj.mp
  split at equal
  · have impossible : r.toNat / 2 = 0xEDB88320 := equal
    omega
  · have half : r.toNat / 2 = 0 := equal
    rw [UInt32.toNat_zero]
    omega

theorem crcShift_injective : Function.Injective crcShift := by
  intro a b same
  apply UInt32.xor_eq_zero_iff.mp
  apply eq_zero_of_crcShift
  rw [crcShift_xor, same, UInt32.xor_self]

theorem crcShift_double {n : Nat} (small : 2 * n < 0x100000000) : crcShift (UInt32.ofNat (2 * n)) = UInt32.ofNat n := by
  have whole : (UInt32.ofNat (2 * n)).toNat = 2 * n := UInt32.toNat_ofNat_of_lt' small
  have half : (UInt32.ofNat n).toNat = n := UInt32.toNat_ofNat_of_lt' (Nat.lt_of_le_of_lt (by omega) small)
  have even : crcCarry (UInt32.ofNat (2 * n)) = 0 := by
    rw [crcCarry, whole, if_neg (by omega)]
  apply UInt32.toNat_inj.mp
  rw [crcShift_eq, even, UInt32.xor_zero, toNat_half, whole, half]
  omega

end Shift

section Shifts

def crcShifts (n : Nat) : UInt32 → UInt32 := crcShift^[n]

theorem crcShifts_add (m n : Nat) (r : UInt32) : crcShifts (m + n) r = crcShifts m (crcShifts n r) :=
  Function.iterate_add_apply crcShift m n r

theorem crcShifts_xor (n : Nat) (a b : UInt32) : crcShifts n (a ^^^ b) = crcShifts n a ^^^ crcShifts n b := by
  induction n generalizing a b with
  | zero => rfl
  | succ n ih => rw [crcShifts_add, crcShifts_add, crcShifts_add, ← ih]; exact congrArg _ (crcShift_xor a b)

theorem crcShifts_injective (n : Nat) : Function.Injective (crcShifts n) := crcShift_injective.iterate n

theorem crcShifts_eight {n : Nat} (small : 256 * n < 0x100000000) :
    crcShifts 8 (UInt32.ofNat (256 * n)) = UInt32.ofNat n := by
  have each : ∀ k m, m <<< k < 0x100000000 → crcShifts k (UInt32.ofNat (m <<< k)) = UInt32.ofNat m := by
    intro k
    induction k with
    | zero => exact fun _ _ => rfl
    | succ k ih =>
      intro m fits
      rw [Nat.shiftLeft_succ] at fits ⊢
      have first : crcShifts 1 (UInt32.ofNat (2 * m <<< k)) = UInt32.ofNat (m <<< k) := crcShift_double fits
      rw [crcShifts_add, first]
      exact ih m (by omega)
  have moved := each 8 n
  rw [Nat.shiftLeft_eq, Nat.mul_comm] at moved
  exact moved small

theorem crcByte_eq (r : UInt32) (b : UInt8) : crcByte r b = crcShifts 8 (r ^^^ b.toUInt32) := rfl

theorem crcByte_injective (b : UInt8) : Function.Injective fun r => crcByte r b := by
  intro r s same
  exact (UInt32.xor_left_inj _).mp (crcShifts_injective 8 same)

end Shifts

section Bytes

theorem xor_low_byte (b : UInt8) (n : Nat) : b.toUInt32 ^^^ UInt32.ofNat (256 * n) = UInt32.ofNat (b.toNat + 256 * n) := by
  have small := b.toNat_lt
  have low := Nat.xor_mod_two_pow (a := b.toNat) (b := 256 * n) (n := 8)
  have high := Nat.xor_div_two_pow (a := b.toNat) (b := 256 * n) (n := 8)
  rw [Nat.mod_eq_of_lt small, Nat.mul_mod_right, Nat.xor_zero] at low
  rw [Nat.div_eq_of_lt small, Nat.mul_div_cancel_left n (by decide), Nat.zero_xor] at high
  simp only [Nat.reducePow] at low high
  have parts := Nat.mod_add_div (b.toNat ^^^ 256 * n) 256
  rw [low, high] at parts
  rw [parts, UInt32.ofNat_xor, UInt32.ofNat_uInt8ToNat]

/-- Up to four bytes go in as the number that they spell. -/
theorem foldl_crcByte (r : UInt32) {bytes : Bytes} (few : bytes.length ≤ 4) :
    bytes.foldl crcByte r = crcShifts (8 * bytes.length) (r ^^^ UInt32.ofNat (ofLittleEndian bytes)) := by
  induction bytes generalizing r with
  | nil => exact UInt32.xor_zero.symm
  | cons b rest ih =>
    rw [List.length_cons] at few
    have bound := ofLittleEndian_lt rest
    have small : 256 * ofLittleEndian rest < 0x100000000 := by
      have width : 1 <<< (8 * rest.length) ≤ 1 <<< 24 := by
        rw [Nat.one_shiftLeft, Nat.one_shiftLeft]
        exact Nat.pow_le_pow_right (by decide) (by omega)
      have limit : 1 <<< 24 = 0x1000000 := rfl
      omega
    have later := crcShifts_eight small
    rw [List.foldl_cons, ih _ (by omega), crcByte_eq, ← later, ← crcShifts_xor, UInt32.xor_assoc, xor_low_byte,
      ← crcShifts_add]
    rfl

theorem ofLittleEndian_inj {a b : Bytes} (width : a.length = b.length) (same : ofLittleEndian a = ofLittleEndian b) :
    a = b := by
  rw [← littleEndian_ofLittleEndian a, width, same, littleEndian_ofLittleEndian]

theorem foldl_crcByte_injective (bytes : Bytes) : Function.Injective fun r => bytes.foldl crcByte r := by
  induction bytes with
  | nil => exact fun _ _ same => same
  | cons b rest ih => exact ih.comp (crcByte_injective b)

theorem foldl_crcByte_inj (r : UInt32) {a b : Bytes} (width : a.length = b.length) (few : b.length ≤ 4)
    (same : a.foldl crcByte r = b.foldl crcByte r) : a = b := by
  have fits : ∀ {word : Bytes}, word.length ≤ 4 → ofLittleEndian word < 0x100000000 := by
    intro word short
    refine Nat.lt_of_lt_of_le (ofLittleEndian_lt word) ?_
    rw [Nat.one_shiftLeft]
    exact Nat.pow_le_pow_right (by decide) (show 8 * word.length ≤ 32 by omega)
  rw [foldl_crcByte r (width ▸ few), foldl_crcByte r few, width] at same
  have numbers := (UInt32.xor_right_inj r).mp (crcShifts_injective _ same)
  have values := congrArg UInt32.toNat numbers
  rw [UInt32.toNat_ofNat_of_lt' (fits (width ▸ few)), UInt32.toNat_ofNat_of_lt' (fits few)] at values
  exact ofLittleEndian_inj width values

/-- A change within four bytes in a row is always seen. -/
theorem crc32_ne_of_burst {before old new after : Bytes} (width : new.length = old.length) (few : old.length ≤ 4)
    (other : new ≠ old) : crc32 (before ++ new ++ after) ≠ crc32 (before ++ old ++ after) := by
  intro same
  have remainders := (UInt32.xor_left_inj _).mp same
  simp only [List.foldl_append] at remainders
  exact other (foldl_crcByte_inj _ width few (foldl_crcByte_injective after remainders))

end Bytes

end Tilework.Archive
