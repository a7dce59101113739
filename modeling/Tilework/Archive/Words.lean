import Tilework.Bytes

namespace Tilework.Archive

def littleEndian : Nat → Nat → Bytes
  | 0, _ => []
  | k + 1, n => UInt8.ofNat n :: littleEndian k (n / 256)

def ofLittleEndian : Bytes → Nat
  | [] => 0
  | b :: rest => b.toNat + 256 * ofLittleEndian rest

def splitBytes? : Nat → Bytes → Option (Bytes × Bytes)
  | 0, bytes => some ([], bytes)
  | _ + 1, [] => none
  | k + 1, b :: rest => (splitBytes? k rest).map fun (word, rest) => (b :: word, rest)

def number? (k : Nat) (bytes : Bytes) : Option (Nat × Bytes) :=
  (splitBytes? k bytes).map fun (word, rest) => (ofLittleEndian word, rest)

theorem length_littleEndian (k n : Nat) : (littleEndian k n).length = k := by
  induction k generalizing n with
  | zero => rfl
  | succ k ih => simp [littleEndian, ih]

theorem ofLittleEndian_littleEndian {k n : Nat} (h : n < 1 <<< (8 * k)) : ofLittleEndian (littleEndian k n) = n := by
  induction k generalizing n with
  | zero => simp only [Nat.mul_zero, Nat.shiftLeft_zero] at h; simp [littleEndian, ofLittleEndian]; omega
  | succ k ih =>
    have small : n / 256 < 1 <<< (8 * k) := by
      rw [Nat.mul_succ, Nat.shiftLeft_add, Nat.shiftLeft_eq _ 8] at h
      omega
    simp only [littleEndian, ofLittleEndian, ih small, UInt8.toNat_ofNat']
    omega

theorem splitBytes?_append (bytes rest : Bytes) :
    splitBytes? bytes.length (bytes ++ rest) = some (bytes, rest) := by
  induction bytes with
  | nil => rfl
  | cons b bytes ih => simp [splitBytes?, ih]

theorem number?_littleEndian {k n : Nat} (h : n < 1 <<< (8 * k)) (rest : Bytes) :
    number? k (littleEndian k n ++ rest) = some (n, rest) := by
  have split := splitBytes?_append (littleEndian k n) rest
  rw [length_littleEndian] at split
  simp [number?, split, ofLittleEndian_littleEndian h]

end Tilework.Archive
