import Tilework.Archive.Huffman
import Tilework.Sorted

namespace Tilework.Archive

/-- Symbols under a common node: how frequent they are together, and how deep each lies. -/
structure Cluster where
  weight : Nat
  depths : List Nat
  deriving Repr

namespace Cluster

def leaf (weight : Nat) : Cluster := ⟨weight, [0]⟩

def merge (a b : Cluster) : Cluster := ⟨a.weight + b.weight, (a.depths ++ b.depths).map (· + 1)⟩

def lightest? : List Cluster → List Cluster → Option (Cluster × List Cluster × List Cluster)
  | [], [] => none
  | a :: leaves, [] => some (a, leaves, [])
  | [], b :: merged => some (b, [], merged)
  | a :: leaves, b :: merged =>
    if b.weight < a.weight then some (b, a :: leaves, merged) else some (a, leaves, b :: merged)

/-- Merges the two lightest clusters until one is left. Both lists ascend by weight. A merger takes one of
`fuel`. -/
def mergeAll : Nat → List Cluster → List Cluster → List Nat
  | 0, _, _ => []
  | fuel + 1, leaves, merged =>
    match lightest? leaves merged with
    | none => []
    | some (a, leaves, merged) =>
      match lightest? leaves merged with
      | none => a.depths
      | some (b, leaves, merged) => mergeAll fuel leaves (merged ++ [merge a b])

end Cluster

def depthCounts (limit : Nat) (depths : List Nat) : Array Nat :=
  depths.foldl (fun counts depth => counts.modify (min limit depth) (· + 1)) (Array.replicate (limit + 1) 0)

def spaceTaken (limit : Nat) (counts : Array Nat) : Nat :=
  (List.range limit).foldl (fun total i => total + (counts[i + 1]?).getD 0 <<< (limit - (i + 1))) 0

/-- Frees one part of the space: a longest code moves beside the longest of the others, which grows for it. -/
def freeOne (limit : Nat) (counts : Array Nat) : Array Nat :=
  let counts := counts.modify limit (· - 1)
  match (List.range limit).reverse.find? fun i => 0 < i && 0 < (counts[i]?).getD 0 with
  | none => counts
  | some i => (counts.modify i (· - 1)).modify (i + 1) (· + 2)

def freeParts (limit : Nat) : Nat → Array Nat → Array Nat
  | 0, counts => counts
  | excess + 1, counts => freeParts limit excess (freeOne limit counts)

def limitedLengths (limit : Nat) (depths : List Nat) : List Nat :=
  let counts := depthCounts limit depths
  let counts := freeParts limit (spaceTaken limit counts - 1 <<< limit) counts
  (List.range limit).flatMap fun i => List.replicate ((counts[i + 1]?).getD 0) (i + 1)

/-- The length of each symbol's code. Symbols that do not occur have none, and a lone one has length one. -/
def codeLengths (limit : Nat) (frequencies : List Nat) : List Nat :=
  let used := frequencies.zipIdx.filter fun entry => 0 < entry.1
  let ascending := Sorted.sort (fun a b => a.1 ≤ b.1) used
  let depths := Cluster.mergeAll used.length (ascending.map fun entry => .leaf entry.1) []
  let lengths := limitedLengths limit (depths.map (max 1))
  let assigned := (ascending.reverse.zip lengths).foldl
    (fun found (entry, length) => found.setIfInBounds entry.2 length) (Array.replicate frequencies.length 0)
  assigned.toList

def firstCodes (lengths : List Nat) : Nat → List Nat
  | 0 => [0]
  | k + 1 =>
    match firstCodes lengths k with
    | [] => []
    | first :: rest =>
      (2 * (first + if k = 0 then 0 else lengths.count k)) :: first :: rest

/-- The code of each symbol, the most significant bit first, given the next code of each length. -/
def assignCodes (next : Array Nat) : List Nat → List Bits
  | [] => []
  | length :: rest =>
    let code := (next[length]?).getD 0
    (lowBits length code).reverse :: assignCodes (next.modify length (· + 1)) rest

def codeWords (lengths : List Nat) : Array Bits :=
  (assignCodes (firstCodes lengths codeLengthLimit).reverse.toArray lengths).toArray

end Tilework.Archive
