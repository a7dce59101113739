import Tilework.Archive.CodeLengths
import Tilework.Archive.Inflate
import Tilework.Archive.Matches

namespace Tilework.Archive

def classOf (classes : Array (Nat × Nat)) (n : Nat) : Nat :=
  (classes.toList.takeWhile fun (start, _) => start ≤ n).length - 1

def extraBits (classes : Array (Nat × Nat)) (n : Nat) : Bits :=
  match classes[classOf classes n]? with
  | some (start, extra) => lowBits extra (n - start)
  | none => []

def lengthSymbol (length : Nat) : Nat := endOfBlock + 1 + classOf lengthClasses length

structure WordPair where
  literals : Array Bits
  distances : Array Bits

def wordAt (words : Array Bits) (symbol : Nat) : Bits := (words[symbol]?).getD []

def pieceBits (w : WordPair) : Piece → Bits
  | .literal b => wordAt w.literals b.toNat
  | .copy length distance =>
    wordAt w.literals (lengthSymbol length) ++ extraBits lengthClasses length ++
      wordAt w.distances (classOf distanceClasses distance) ++ extraBits distanceClasses distance

def piecesBits (w : WordPair) (pieces : Array Piece) : Bits :=
  pieces.toList.flatMap (pieceBits w) ++ wordAt w.literals endOfBlock

def fixedBits (pieces : Array Piece) : Bits :=
  lowBits 2 1 ++ piecesBits ⟨codeWords fixedLengths, codeWords (List.replicate 32 5)⟩ pieces

def literalFrequencies (pieces : Array Piece) : List Nat :=
  let symbols := pieces.map fun
    | .literal b => b.toNat
    | .copy length _ => lengthSymbol length
  let counts := symbols.foldl (fun counts symbol => counts.modify symbol (· + 1)) (Array.replicate 286 0)
  (counts.modify endOfBlock (· + 1)).toList

def distanceFrequencies (pieces : Array Piece) : List Nat :=
  let counts := pieces.foldl (fun counts piece =>
    match piece with
    | .literal _ => counts
    | .copy _ distance => counts.modify (classOf distanceClasses distance) (· + 1)) (Array.replicate 30 0)
  counts.toList

def dropZeros (least : Nat) (lengths : List Nat) : List Nat :=
  lengths.take least ++ ((lengths.drop least).reverse.dropWhile (· = 0)).reverse

structure LengthStep where
  symbol : Nat
  extra : Nat
  more : Nat
  deriving DecidableEq, Repr

namespace LengthStep

def plain (length : Nat) : LengthStep := ⟨length, 0, 0⟩

def zeros (n : Nat) : List LengthStep :=
  if n < 3 then List.replicate n (plain 0)
  else if n ≤ 10 then [⟨17, 3, n - 3⟩]
  else [⟨18, 7, n - 11⟩]

/-- `n` times the length before, which is this one, where `n` is at most six. -/
def again (length n : Nat) : List LengthStep :=
  if n < 3 then List.replicate n (plain length) else [⟨16, 2, n - 3⟩]

def ofRun (length n : Nat) : List LengthStep :=
  if length = 0 then (List.replicate (n / 138) (zeros 138)).flatten ++ zeros (n % 138)
  else
    plain length :: (List.replicate ((n - 1) / 6) (again length 6)).flatten ++ again length ((n - 1) % 6)

def ofLengthsAfter (length n : Nat) : List Nat → List LengthStep
  | [] => ofRun length n
  | next :: rest =>
    if next = length then ofLengthsAfter length (n + 1) rest else ofRun length n ++ ofLengthsAfter next 1 rest

def ofLengths : List Nat → List LengthStep
  | [] => []
  | length :: rest => ofLengthsAfter length 1 rest

end LengthStep

def dynamicBits (pieces : Array Piece) : Bits :=
  let literals := dropZeros 257 (codeLengths codeLengthLimit (literalFrequencies pieces))
  let distances := dropZeros 1 (codeLengths codeLengthLimit (distanceFrequencies pieces))
  let steps := LengthStep.ofLengths (literals ++ distances)
  let frequencies := steps.foldl (fun counts step => counts.modify step.symbol (· + 1)) (Array.replicate 19 0)
  let forLengths := codeLengths 7 frequencies.toList
  let given := dropZeros 4 (lengthOrder.map fun symbol => (forLengths[symbol]?).getD 0)
  let words := codeWords forLengths
  lowBits 2 2 ++ lowBits 5 (literals.length - 257) ++ lowBits 5 (distances.length - 1) ++
    lowBits 4 (given.length - 4) ++ given.flatMap (lowBits 3) ++
    steps.flatMap (fun step => wordAt words step.symbol ++ lowBits step.extra step.more) ++
    piecesBits ⟨codeWords literals, codeWords distances⟩ pieces

def padding (used : Nat) : Bits := List.replicate ((8 - used % 8) % 8) false

def storedBits (used : Nat) (bytes : Bytes) : Bits :=
  lowBits 2 0 ++ padding (used + 2) ++ lowBits 16 bytes.length ++ lowBits 16 (65535 - bytes.length) ++
    bytesToBits bytes

namespace Block

def dynamicLeast : Nat := 48

def codedBits (b : Block) : Bits := if b.size < dynamicLeast then fixedBits b.pieces else dynamicBits b.pieces

/-- A short block uses the codes that are known beforehand, a longer one brings its own, and one that would not become
shorter holds its bytes as they are. -/
def bits (data : Array UInt8) (used : Nat) (b : Block) : Bits :=
  let coded := b.codedBits
  if 32 < b.size ∧ b.size ≤ (used % 8 + coded.length) / 8 + 1 ∧ b.isHeld then
    storedBits used (data.extract b.start (b.start + b.size)).toList
  else coded

end Block

def blocksBits (data : Array UInt8) (used : Nat) : List Block → Bits
  | [] => []
  | b :: rest =>
    let bits := rest.isEmpty :: b.bits data (used + 1)
    bits ++ blocksBits data (used + bits.length) rest

end Tilework.Archive
