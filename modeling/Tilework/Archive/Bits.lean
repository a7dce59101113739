import Tilework.Archive.Words

namespace Tilework.Archive

abbrev Bits := List Bool

/-- The `k` low bits of `n`, the least significant one first. -/
def lowBits : Nat → Nat → Bits
  | 0, _ => []
  | k + 1, n => (n % 2 == 1) :: lowBits k (n / 2)

def ofBits : Bits → Nat
  | [] => 0
  | b :: rest => b.toNat + 2 * ofBits rest

def bytesToBits (bytes : Bytes) : Bits := bytes.flatMap fun b => lowBits 8 b.toNat

def bitsToBytes : Bits → Bytes
  | a :: b :: c :: d :: e :: f :: g :: h :: rest => UInt8.ofNat (ofBits [a, b, c, d, e, f, g, h]) :: bitsToBytes rest
  | [] => []
  | bits => [UInt8.ofNat (ofBits bits)]

def takeBits? : Nat → Bits → Option (Nat × Bits)
  | 0, bits => some (0, bits)
  | _ + 1, [] => none
  | k + 1, b :: rest => (takeBits? k rest).map fun (n, rest) => (b.toNat + 2 * n, rest)

/-- Drops the bits up to the end of a byte, where the bits end with one. -/
def alignBits (bits : Bits) : Bits := bits.drop (bits.length % 8)

theorem takeBits?_lowBits (k n : Nat) (rest : Bits) :
    takeBits? k (lowBits k n ++ rest) = some (n % (1 <<< k), rest) := by
  induction k generalizing n with
  | zero => simp [lowBits, takeBits?, Nat.mod_one]
  | succ k ih =>
    simp only [lowBits, List.cons_append, takeBits?, ih, Option.map_some, Option.some.injEq, Prod.mk.injEq,
      and_true]
    rw [Nat.shiftLeft_succ, Nat.mod_mul]
    rcases Nat.mod_two_eq_zero_or_one n with even | odd
    · simp [even]
    · simp [odd]

end Tilework.Archive
