import Tilework.Archive.Zlib

namespace Tilework.Archive

theorem lowBits_add (j k n : Nat) : lowBits (j + k) n = lowBits j n ++ lowBits k (n >>> j) := by
  induction j generalizing n with
  | zero => simp [lowBits]
  | succ j ih =>
    have shifted : n >>> (j + 1) = (n / 2) >>> j := by
      rw [Nat.add_comm, Nat.shiftRight_add]
      rfl
    rw [show j + 1 + k = j + k + 1 by omega, lowBits, lowBits, ih, shifted, List.cons_append]

theorem length_lowBits (k n : Nat) : (lowBits k n).length = k := by
  induction k generalizing n with
  | zero => rfl
  | succ k ih => rw [lowBits, List.length_cons, ih]

theorem lowBits_mod (k n : Nat) : lowBits k (n % (1 <<< k)) = lowBits k n := by
  induction k generalizing n with
  | zero => rfl
  | succ k ih =>
    have first : n % (1 <<< (k + 1)) % 2 = n % 2 := by
      rw [Nat.shiftLeft_succ]
      exact Nat.mod_mul_right_mod n 2 (1 <<< k)
    have later : n % (1 <<< (k + 1)) / 2 = n / 2 % (1 <<< k) := by
      rw [Nat.shiftLeft_succ]
      exact Nat.mod_mul_right_div_self n 2 (1 <<< k)
    rw [lowBits, first, later, ih, lowBits]

theorem bytesToBits_cons (b : UInt8) (rest : Bytes) : bytesToBits (b :: rest) = lowBits 8 b.toNat ++ bytesToBits rest :=
  rfl

theorem bytesToBits_append (a b : Bytes) : bytesToBits (a ++ b) = bytesToBits a ++ bytesToBits b :=
  List.flatMap_append

theorem length_bytesToBits (bytes : Bytes) : (bytesToBits bytes).length = 8 * bytes.length := by
  induction bytes with
  | nil => rfl
  | cons b rest ih =>
    rw [bytesToBits_cons, List.length_append, length_lowBits, ih, List.length_cons]
    omega

theorem bytesToBits_littleEndian (k n : Nat) : bytesToBits (littleEndian k n) = lowBits (8 * k) n := by
  induction k generalizing n with
  | zero => rfl
  | succ k ih =>
    have byte : lowBits 8 (UInt8.ofNat n).toNat = lowBits 8 n := by
      rw [UInt8.toNat_ofNat']
      exact lowBits_mod 8 n
    have rest : n >>> 8 = n / 256 := Nat.shiftRight_eq_div_pow n 8
    rw [littleEndian, bytesToBits_cons, byte, ih, show 8 * (k + 1) = 8 + 8 * k by omega, lowBits_add, rest]

theorem takeBits?_littleEndian {k n : Nat} (small : n < 1 <<< (8 * k)) (rest : Bits) :
    takeBits? (8 * k) (bytesToBits (littleEndian k n) ++ rest) = some (n, rest) := by
  rw [bytesToBits_littleEndian, takeBits?_lowBits, Nat.mod_eq_of_lt small]

theorem takeBits?_byte (b : UInt8) (rest : Bits) : takeBits? 8 (lowBits 8 b.toNat ++ rest) = some (b.toNat, rest) := by
  have small : b.toNat < 1 <<< 8 := b.toNat_lt
  rw [takeBits?_lowBits, Nat.mod_eq_of_lt small]

theorem alignBits_append (bits : Bits) (partly : bits.length < 8) (bytes : Bytes) :
    alignBits (bits ++ bytesToBits bytes) = bytesToBits bytes := by
  have beyond : (bits ++ bytesToBits bytes).length % 8 = bits.length := by
    rw [List.length_append, length_bytesToBits]
    omega
  rw [alignBits, beyond, List.drop_left]

section Pieces

def literals (bytes : Bytes) : List Piece := bytes.map .literal

theorem readBytes?_bytesToBits (bytes : Bytes) (pieces : Array Piece) (rest : Bits) :
    readBytes? bytes.length pieces (bytesToBits bytes ++ rest) = some (pieces ++ (literals bytes).toArray, rest) := by
  induction bytes generalizing pieces with
  | nil => simp [readBytes?, literals, bytesToBits]
  | cons b bytes ih =>
    rw [bytesToBits_cons, List.append_assoc, List.length_cons, readBytes?, takeBits?_byte]
    simp only [Option.bind_eq_bind, Option.bind_some, UInt8.ofNat_toNat, ih]
    simp [literals]

theorem unfoldPieces_literals (bytes : Bytes) : (unfoldPieces (literals bytes)).toList = bytes := by
  have pushed : ∀ out : Array UInt8, ((literals bytes).foldl Piece.append out).toList = out.toList ++ bytes := by
    induction bytes with
    | nil => simp [literals]
    | cons b bytes ih =>
      intro out
      have step := ih (out.push b)
      simp only [literals] at step
      simp [literals, Piece.append, step]
  have all := pushed #[]
  simpa [unfoldPieces] using all

end Pieces

section Blocks

def storedBlock (mark : UInt8) (chunk : Bytes) : Bytes :=
  mark :: (littleEndian 2 chunk.length ++ littleEndian 2 (storedLimit - chunk.length)) ++ chunk

theorem storedBlocks_of_le {bytes : Bytes} (short : bytes.length ≤ storedLimit) (limit : Nat) :
    storedBlocks (limit + 1) bytes = storedBlock 1 bytes := by
  have whole : bytes.take storedLimit = bytes := List.take_of_length_le short
  have all : bytes.drop storedLimit = [] := List.drop_eq_nil_of_le short
  simp only [storedBlocks, whole, all, List.isEmpty_nil, if_true]
  rfl

theorem storedBlocks_of_lt {bytes : Bytes} (long : storedLimit < bytes.length) (limit : Nat) :
    storedBlocks (limit + 1) bytes =
      storedBlock 0 (bytes.take storedLimit) ++ storedBlocks limit (bytes.drop storedLimit) := by
  have more : ¬(bytes.drop storedLimit).isEmpty := by
    rw [List.isEmpty_iff, List.drop_eq_nil_iff]
    omega
  simp only [storedBlocks, if_neg more]
  rfl

theorem readStored?_storedBlock {chunk : Bytes} (short : chunk.length ≤ storedLimit) (bits : Bits)
    (partly : bits.length < 8) (pieces : Array Piece) (after : Bytes) :
    readStored? pieces (bits ++ bytesToBits (littleEndian 2 chunk.length ++
      littleEndian 2 (storedLimit - chunk.length) ++ chunk ++ after)) =
        some (pieces ++ (literals chunk).toArray, bytesToBits after) := by
  have count : chunk.length < 1 <<< (8 * 2) := Nat.lt_succ_of_le short
  have complement : storedLimit - chunk.length < 1 <<< (8 * 2) := Nat.lt_succ_of_le (Nat.sub_le _ _)
  have total : chunk.length + (storedLimit - chunk.length) = 65535 := Nat.add_sub_of_le short
  rw [readStored?, alignBits_append bits partly]
  simp only [List.append_assoc, bytesToBits_append]
  rw [takeBits?_littleEndian (k := 2) count]
  simp only [Option.bind_eq_bind, Option.bind_some]
  rw [takeBits?_littleEndian (k := 2) complement]
  simp only [Option.bind_some, total]
  exact readBytes?_bytesToBits chunk pieces _

theorem readBlocks?_storedBlock {mark : UInt8} (known : mark = 0 ∨ mark = 1) {chunk : Bytes}
    (short : chunk.length ≤ storedLimit) (fuel : Nat) (pieces : Array Piece) (after : Bytes) :
    readBlocks? (fuel + 1) pieces (bytesToBits (storedBlock mark chunk ++ after)) =
      if mark = 1 then some (pieces ++ (literals chunk).toArray, bytesToBits after)
      else readBlocks? fuel (pieces ++ (literals chunk).toArray) (bytesToBits after) := by
  have filled := readStored?_storedBlock short (List.replicate 5 false) (by decide) pieces after
  rw [storedBlock, List.cons_append, List.cons_append, bytesToBits_cons]
  generalize bytesToBits (_ ++ chunk ++ after) = bits at filled ⊢
  rcases known with rfl | rfl
  · show (readStored? pieces (List.replicate 5 false ++ bits)).bind _ = _
    rw [filled]
    rfl
  · show (readStored? pieces (List.replicate 5 false ++ bits)).bind _ = _
    rw [filled]
    rfl

theorem readBlocks?_storedBlocks {limit : Nat} {bytes : Bytes} (enough : bytes.length ≤ storedLimit * (limit + 1))
    {fuel : Nat} (fueled : limit < fuel) (pieces : Array Piece) (after : Bytes) :
    readBlocks? fuel pieces (bytesToBits (storedBlocks (limit + 1) bytes ++ after)) =
      some (pieces ++ (literals bytes).toArray, bytesToBits after) := by
  induction limit generalizing bytes fuel pieces with
  | zero =>
    obtain ⟨fuel, rfl⟩ := Nat.exists_eq_succ_of_ne_zero (Nat.ne_of_gt fueled)
    have short : bytes.length ≤ storedLimit := by omega
    rw [storedBlocks_of_le short, readBlocks?_storedBlock (.inr rfl) short, if_pos rfl]
  | succ limit ih =>
    obtain ⟨fuel, rfl⟩ := Nat.exists_eq_succ_of_ne_zero (Nat.ne_of_gt (Nat.zero_lt_of_lt fueled))
    by_cases short : bytes.length ≤ storedLimit
    · rw [storedBlocks_of_le short, readBlocks?_storedBlock (.inr rfl) short, if_pos rfl]
    · rw [Nat.mul_succ] at enough
      have fewer : (bytes.drop storedLimit).length ≤ storedLimit * (limit + 1) := by
        rw [List.length_drop]
        omega
      have first : (bytes.take storedLimit).length ≤ storedLimit := List.length_take_le _ _
      have both : (literals (bytes.take storedLimit)).toArray ++ (literals (bytes.drop storedLimit)).toArray =
          (literals bytes).toArray := by
        rw [List.append_toArray, literals, literals, ← List.map_append, List.take_append_drop, literals]
      rw [storedBlocks_of_lt (Nat.lt_of_not_le short), List.append_assoc, readBlocks?_storedBlock (.inl rfl) first]
      rw [if_neg (by decide), ih fewer (Nat.lt_of_succ_lt_succ fueled), Array.append_assoc, both]

theorem length_storedBlocks {limit : Nat} {bytes : Bytes} (enough : bytes.length ≤ storedLimit * (limit + 1)) :
    bytes.length < (storedBlocks (limit + 1) bytes).length := by
  have longer : ∀ mark chunk, List.length chunk < (storedBlock mark chunk).length := by
    intro mark chunk
    simp only [storedBlock, List.cons_append, List.length_cons, List.length_append]
    omega
  induction limit generalizing bytes with
  | zero =>
    have short : bytes.length ≤ storedLimit := by omega
    rw [storedBlocks_of_le short]
    exact longer 1 bytes
  | succ limit ih =>
    by_cases short : bytes.length ≤ storedLimit
    · rw [storedBlocks_of_le short]
      exact longer 1 bytes
    · rw [Nat.mul_succ] at enough
      have fewer : (bytes.drop storedLimit).length ≤ storedLimit * (limit + 1) := by
        rw [List.length_drop]
        omega
      have first := longer 0 (bytes.take storedLimit)
      have later := ih fewer
      have split : (bytes.take storedLimit ++ bytes.drop storedLimit).length = _ := List.length_append
      rw [List.take_append_drop] at split
      rw [storedBlocks_of_lt (Nat.lt_of_not_le short), List.length_append]
      omega

end Blocks

section Streams

theorem adler32_lt (bytes : Bytes) : adler32 bytes < 1 <<< 32 := by
  have sums : (adlerSums bytes).1 < adlerModulus ∧ (adlerSums bytes).2 < adlerModulus := by
    refine List.foldlRecOn (motive := fun s : Nat × Nat => s.1 < adlerModulus ∧ s.2 < adlerModulus) bytes _ ?_ ?_
    · decide
    · intro _ _ byte _
      exact ⟨Nat.mod_lt _ (by decide), Nat.mod_lt _ (by decide)⟩
  obtain ⟨first, second⟩ := sums
  show (adlerSums bytes).2 * 65536 + (adlerSums bytes).1 < 4294967296
  simp only [adlerModulus] at first second
  omega

theorem bigNumber?_littleEndian {n : Nat} (small : n < 1 <<< 32) :
    bigNumber? (bytesToBits (littleEndian 4 n).reverse) = some n := by
  have bits : bytesToBits (littleEndian 4 n).reverse = lowBits 8 (UInt8.ofNat (n / 256 / 256 / 256)).toNat ++
      (lowBits 8 (UInt8.ofNat (n / 256 / 256)).toNat ++ (lowBits 8 (UInt8.ofNat (n / 256)).toNat ++
        (lowBits 8 (UInt8.ofNat n).toNat ++ []))) := rfl
  rw [bits, bigNumber?]
  simp only [takeBits?_byte, Option.bind_eq_bind, Option.bind_some, Option.pure_def, Option.some.injEq]
  simp only [UInt8.toNat_ofNat', Nat.reducePow]
  simp only [Nat.reduceShiftLeft] at small
  omega

theorem inflate?_of_read {method flags : UInt8} (known : methodKnown method.toNat flags.toNat = true) {rest : Bytes}
    {pieces : Array Piece} {bits : Bits}
    (read : readBlocks? (bytesToBits rest).length #[] (bytesToBits rest) = some (pieces, bits))
    (sum : bigNumber? (alignBits bits) = some (adler32 (unfoldPieces pieces.toList).toList)) :
    inflate? (method :: flags :: rest) = some (unfoldPieces pieces.toList).toList := by
  unfold inflate?
  simp only [known, Bool.not_true, Bool.false_eq_true, if_false]
  rw [read, Option.bind_eq_bind, Option.bind_some, sum, Option.bind_eq_bind, Option.bind_some, if_pos rfl]

theorem inflate?_store (bytes : Bytes) : inflate? (store bytes) = some bytes := by
  have enough : bytes.length ≤ storedLimit * (bytes.length / storedLimit + 1) := by
    simp only [storedLimit]
    omega
  have filled := length_storedBlocks enough
  have fueled : bytes.length / storedLimit < (bytesToBits (storedBlocks (bytes.length / storedLimit + 1) bytes ++
      (littleEndian 4 (adler32 bytes)).reverse)).length := by
    rw [length_bytesToBits, List.length_append]
    simp only [storedLimit] at *
    omega
  have read := readBlocks?_storedBlocks enough fueled #[] (littleEndian 4 (adler32 bytes)).reverse
  have unfolded : (unfoldPieces (#[] ++ (literals bytes).toArray).toList).toList = bytes := by
    rw [Array.empty_append]
    exact unfoldPieces_literals bytes
  have aligned := alignBits_append [] (by decide) (littleEndian 4 (adler32 bytes)).reverse
  have sum := bigNumber?_littleEndian (adler32_lt bytes)
  rw [List.nil_append] at aligned
  have known : methodKnown (UInt8.toNat 0x78) (UInt8.toNat 0x9C) = true := by decide
  have inflated := inflate?_of_read known read (by rw [aligned, sum, unfolded])
  rw [store, withChecksum, List.append_assoc, List.cons_append, List.cons_append, List.nil_append, inflated, unfolded]

theorem inflate?_deflate (bytes : Bytes) : inflate? (deflate bytes) = some bytes := by
  rw [deflate]
  split
  · assumption
  · exact inflate?_store bytes

end Streams

end Tilework.Archive
