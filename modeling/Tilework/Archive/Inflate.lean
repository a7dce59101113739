import Tilework.Archive.Copies
import Tilework.Archive.Huffman

namespace Tilework.Archive

def lengthClasses : Array (Nat × Nat) := #[
  (3, 0), (4, 0), (5, 0), (6, 0), (7, 0), (8, 0), (9, 0), (10, 0), (11, 1), (13, 1), (15, 1), (17, 1),
  (19, 2), (23, 2), (27, 2), (31, 2), (35, 3), (43, 3), (51, 3), (59, 3), (67, 4), (83, 4), (99, 4), (115, 4),
  (131, 5), (163, 5), (195, 5), (227, 5), (258, 0)]

def distanceClasses : Array (Nat × Nat) := #[
  (1, 0), (2, 0), (3, 0), (4, 0), (5, 1), (7, 1), (9, 2), (13, 2), (17, 3), (25, 3), (33, 4), (49, 4),
  (65, 5), (97, 5), (129, 6), (193, 6), (257, 7), (385, 7), (513, 8), (769, 8), (1025, 9), (1537, 9),
  (2049, 10), (3073, 10), (4097, 11), (6145, 11), (8193, 12), (12289, 12), (16385, 13), (24577, 13)]

def classNumber? (classes : Array (Nat × Nat)) (i : Nat) (bits : Bits) : Option (Nat × Bits) := do
  let (start, extra) ← classes[i]?
  let (more, bits) ← takeBits? extra bits
  return (start + more, bits)

structure CodePair where
  literals : Huffman
  distances : Huffman

def endOfBlock : Nat := 256

/-- Splits off the pieces up to the end of the block. Each takes at least one bit, so `fuel` need not exceed
the number of bits. -/
def readPieces? (codes : CodePair) : Nat → Array Piece → Bits → Option (Array Piece × Bits)
  | 0, _, _ => none
  | fuel + 1, pieces, bits => do
    let (symbol, bits) ← codes.literals.symbol? bits
    if symbol < endOfBlock then
      readPieces? codes fuel (pieces.push (.literal (UInt8.ofNat symbol))) bits
    else if symbol = endOfBlock then
      some (pieces, bits)
    else
      let (length, bits) ← classNumber? lengthClasses (symbol - 257) bits
      let (symbol, bits) ← codes.distances.symbol? bits
      let (distance, bits) ← classNumber? distanceClasses symbol bits
      readPieces? codes fuel (pieces.push (.copy length distance)) bits

def fixedLengths : List Nat :=
  List.replicate 144 8 ++ List.replicate 112 9 ++ List.replicate 24 7 ++ List.replicate 8 8

def fixedCodes? : Option CodePair := do
  let literals ← Huffman.ofLengths? fixedLengths
  let distances ← Huffman.ofLengths? (List.replicate 32 5)
  return ⟨literals, distances⟩

def lengthOrder : List Nat := [16, 17, 18, 0, 8, 7, 9, 6, 10, 5, 11, 4, 12, 3, 13, 2, 14, 1, 15]

def readThrees? : Nat → Bits → Option (List Nat × Bits)
  | 0, bits => some ([], bits)
  | n + 1, bits => do
    let (k, bits) ← takeBits? 3 bits
    let (rest, bits) ← readThrees? n bits
    return (k :: rest, bits)

def lengthsOfLengths (given : List Nat) : List Nat :=
  (List.range 19).map fun symbol =>
    match lengthOrder.findIdx? (· == symbol) with
    | some place => given[place]?.getD 0
    | none => 0

/-- Splits off `total` code lengths, of which runs are shortened: the last length again, or zeros. -/
def readLengths? (h : Huffman) (total : Nat) : Nat → Array Nat → Bits → Option (Array Nat × Bits)
  | 0, _, _ => none
  | fuel + 1, lengths, bits =>
    if lengths.size = total then some (lengths, bits)
    else if total < lengths.size then none
    else do
      let (symbol, bits) ← h.symbol? bits
      let run (extra start length : Nat) (bits : Bits) := do
        let (more, bits) ← takeBits? extra bits
        readLengths? h total fuel (lengths ++ Array.replicate (start + more) length) bits
      if symbol < 16 then readLengths? h total fuel (lengths.push symbol) bits
      else if symbol = 16 then
        match lengths.back? with
        | none => none
        | some last => run 2 3 last bits
      else if symbol = 17 then run 3 3 0 bits
      else run 7 11 0 bits

def readCodes? (bits : Bits) : Option (CodePair × Bits) := do
  let (literalCount, bits) ← takeBits? 5 bits
  let (distanceCount, bits) ← takeBits? 5 bits
  let (givenCount, bits) ← takeBits? 4 bits
  let literalCount := literalCount + 257
  let distanceCount := distanceCount + 1
  if 286 < literalCount ∨ 30 < distanceCount then
    none
  let (given, bits) ← readThrees? (givenCount + 4) bits
  let forLengths ← Huffman.ofLengths? (lengthsOfLengths given)
  let total := literalCount + distanceCount
  let (lengths, bits) ← readLengths? forLengths total (total + 1) #[] bits
  let literals ← Huffman.ofLengths? (lengths.toList.take literalCount)
  let distances ← Huffman.ofLengths? (lengths.toList.drop literalCount)
  return (⟨literals, distances⟩, bits)

def readBytes? : Nat → Array Piece → Bits → Option (Array Piece × Bits)
  | 0, pieces, bits => some (pieces, bits)
  | n + 1, pieces, bits => do
    let (b, bits) ← takeBits? 8 bits
    readBytes? n (pieces.push (.literal (UInt8.ofNat b))) bits

def readStored? (pieces : Array Piece) (bits : Bits) : Option (Array Piece × Bits) := do
  let bits := alignBits bits
  let (length, bits) ← takeBits? 16 bits
  let (complement, bits) ← takeBits? 16 bits
  if length + complement ≠ 65535 then
    none
  readBytes? length pieces bits

def readBlock? (kind : Nat) (pieces : Array Piece) (bits : Bits) : Option (Array Piece × Bits) :=
  match kind with
  | 0 => readStored? pieces bits
  | 1 => do
    let codes ← fixedCodes?
    readPieces? codes bits.length pieces bits
  | 2 => do
    let (codes, bits) ← readCodes? bits
    readPieces? codes bits.length pieces bits
  | _ => none

/-- Splits off the blocks up to the one that is marked as the last. Each takes at least three bits, so `fuel`
need not exceed the number of bits. -/
def readBlocks? : Nat → Array Piece → Bits → Option (Array Piece × Bits)
  | 0, _, _ => none
  | fuel + 1, pieces, bits => do
    let (last, bits) ← takeBits? 1 bits
    let (kind, bits) ← takeBits? 2 bits
    let (pieces, bits) ← readBlock? kind pieces bits
    if last = 1 then some (pieces, bits) else readBlocks? fuel pieces bits

end Tilework.Archive
