import Tilework.Archive.Bits

namespace Tilework.Archive

def codeLengthLimit : Nat := 15

/-- How many codes of each length there are, from length one on, and the symbols in the order of codes. -/
structure Huffman where
  counts : List Nat
  symbols : Array Nat
  deriving Repr

namespace Huffman

def symbolsOfLength (lengths : List Nat) (k : Nat) : List Nat :=
  (lengths.zipIdx.filter fun (length, _) => length = k).map fun (_, symbol) => symbol

def allLengths : List Nat := (List.range codeLengthLimit).map (· + 1)

def space (counts : List Nat) : Nat :=
  (counts.zip allLengths).foldl (fun total (count, k) => total + (count <<< (codeLengthLimit - k))) 0

/-- The code of these lengths. The codes have to take up the whole space, unless there is at most one and it
has one bit. -/
def ofLengths? (lengths : List Nat) : Option Huffman :=
  let bySize := allLengths.map (symbolsOfLength lengths)
  let counts := bySize.map List.length
  if lengths.foldl (· + ·) 0 ≤ 1 ∨ space counts = 1 <<< codeLengthLimit then
    some ⟨counts, bySize.flatten.toArray⟩
  else
    none

/-- Follows a code bit by bit. Of the codes of the present length, the first is `first` and stands at
`index` among all symbols; `code` is what has been read. -/
def follow (symbols : Array Nat) : List Nat → Nat → Nat → Nat → Bits → Option (Nat × Bits)
  | [], _, _, _, _ => none
  | _ :: _, _, _, _, [] => none
  | count :: rest, code, first, index, bit :: bits =>
    let code := 2 * code + bit.toNat
    let first := 2 * first
    if code < first + count then (symbols[index + (code - first)]?).map fun symbol => (symbol, bits)
    else follow symbols rest code (first + count) (index + count) bits

def symbol? (h : Huffman) (bits : Bits) : Option (Nat × Bits) := follow h.symbols h.counts 0 0 0 bits

end Huffman

end Tilework.Archive
