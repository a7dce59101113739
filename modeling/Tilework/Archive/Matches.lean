import Tilework.Archive.Copies

namespace Tilework.Archive

def copyLeast : Nat := 3

def copyMost : Nat := 258

def windowSize : Nat := 32768

def placeCycle : Nat := 65536

def byteAt (data : Array UInt8) (i : Nat) : UInt8 := (data[i]?).getD 0

def trigram (data : Array UInt8) (i : Nat) : Nat :=
  let byte (k : Nat) := (byteAt data (i + k)).toNat
  ((byte 0 <<< 10) ^^^ (byte 1 <<< 5) ^^^ byte 2) % windowSize

def linkFrom (data : Array UInt8) (latest links : Array Nat) (i : Nat) : Nat → Array Nat
  | 0 => links
  | count + 1 =>
    let key := trigram data i
    let before := (latest[key]?).getD 0
    linkFrom data (latest.setIfInBounds key (i % placeCycle)) (links.push before) (i + 1) count

def links (data : Array UInt8) : Array Nat :=
  linkFrom data (Array.replicate windowSize 0) #[] 0 (data.size + 1 - copyLeast)

def matchLength (data : Array UInt8) (i j : Nat) : Nat → Nat
  | 0 => 0
  | limit + 1 => if byteAt data i = byteAt data j then matchLength data (i + 1) (j + 1) limit + 1 else 0

structure Copy where
  length : Nat
  distance : Nat
  deriving DecidableEq, Repr

namespace Copy

def none : Copy := ⟨0, 0⟩

def piece (c : Copy) : Piece := .copy c.length c.distance

end Copy

structure Spot where
  data : Array UInt8
  links : Array Nat
  pos : Nat
  reach : Nat
  limit : Nat

namespace Spot

def samePair (s : Spot) (i j : Nat) : Bool :=
  byteAt s.data i = byteAt s.data j && byteAt s.data (i + 1) = byteAt s.data (j + 1)

inductive Look where
  | ended
  | candidate (place : Nat)
  | passed (place : Nat)

/-- Follows up to this many links from a place, to the first one that may continue more than `length` bytes. -/
def look (s : Spot) (length : Nat) : Nat → Nat → Look
  | 0, place => .passed place
  | steps + 1, place =>
    let before := (s.links[place]?).getD 0
    let distance := (s.pos + placeCycle - before) % placeCycle
    if before = 0 ∨ s.reach < distance then .ended
    else
      let place := s.pos - distance
      if s.samePair (place + length - 1) (s.pos + length - 1) then .candidate place else s.look length steps place

/-- The longest copy, and of those the first to be found, in this many rounds of three links from a place. -/
def longest (s : Spot) : Nat → Nat → Copy → Copy
  | 0, _, best => best
  | rounds + 1, place, best =>
    match s.look best.length 3 place with
    | .ended => best
    | .passed place => s.longest rounds place best
    | .candidate place =>
      if place = s.pos then best
      else
        let length := if s.samePair place s.pos then matchLength s.data s.pos place s.limit else 0
        if length ≤ best.length then s.longest rounds place best
        else if length = s.limit then ⟨length, s.pos - place⟩
        else s.longest rounds place ⟨length, s.pos - place⟩

def goodLength : Nat := 32

/-- A copy that is longer than `waiting`, if one is found. A short one is not worth a long distance. -/
def copy (s : Spot) (waiting : Nat) : Copy :=
  let start : Copy := ⟨max waiting (copyLeast - 1), 0⟩
  let rounds := if start.length < goodLength then 43 else 11
  let found := if s.limit ≤ start.length then start else s.longest rounds s.pos start
  if (found.length = copyLeast ∧ 8192 ≤ found.distance) ∨ s.pos % windowSize = found.distance then .none
  else found

end Spot

structure Waiting where
  copy : Copy
  byte : UInt8
  deriving DecidableEq, Repr

structure Move where
  pieces : List Piece
  advance : Nat
  waiting : Option Waiting

def longLength : Nat := 128

/-- Weighs the copy found at a place against the one that waits from the place before it. -/
def Move.choose (waiting : Option Waiting) (found : Copy) (byte : UInt8) : Move :=
  match waiting with
  | some w =>
    if found.length ≤ w.copy.length then ⟨[w.copy.piece], w.copy.length - 1, none⟩
    else if longLength ≤ found.length then ⟨[.literal w.byte, found.piece], found.length, none⟩
    else ⟨[.literal w.byte], 1, some ⟨found, byte⟩⟩
  | none =>
    if found.distance = 0 then ⟨[.literal byte], 1, none⟩
    else if longLength ≤ found.length then ⟨[found.piece], found.length, none⟩
    else ⟨[], 1, some ⟨found, byte⟩⟩

structure Block where
  pieces : Array Piece
  start : Nat
  size : Nat
  room : Nat
  isHeld : Bool

def Piece.room : Piece → Nat
  | literal _ => 1
  | copy _ _ => 3

namespace Block

def opened (start : Nat) : Block := ⟨#[], start, 0, 1, true⟩

def add (b : Block) (piece : Piece) : Block :=
  let room := b.room + piece.room + if (b.pieces.size + 1) % 8 = 0 then 1 else 0
  { b with pieces := b.pieces.push piece, size := b.size + piece.size, room }

def isFull (b : Block) : Bool :=
  65528 < b.room || (31 * 1024 < b.size && b.size ≤ b.room * 115 / 128)

end Block

structure Splitting where
  pos : Nat
  reach : Nat
  waiting : Option Waiting
  block : Block

/-- The blocks from a place on. Each move goes on by at least one byte, so `fuel` need only exceed the number of
bytes. -/
def splitFrom (data : Array UInt8) (links : Array Nat) : Nat → Splitting → List Block
  | 0, s => [s.block]
  | fuel + 1, s =>
    if data.size ≤ s.pos then [{ s.block with isHeld := s.pos - s.block.start ≤ s.reach }]
    else
      let limit := min copyMost (data.size - s.pos)
      let reach := min (windowSize - limit) s.reach
      let waitingLength := (s.waiting.map fun w => w.copy.length).getD 0
      let found := Spot.copy ⟨data, links, s.pos, reach, limit⟩ waitingLength
      let move := Move.choose s.waiting found (byteAt data s.pos)
      let pos := s.pos + move.advance
      let reach := min (reach + move.advance) windowSize
      let block := move.pieces.foldl Block.add s.block
      if block.isFull then
        { block with isHeld := pos - block.start ≤ reach } ::
          splitFrom data links fuel ⟨pos, reach, move.waiting, .opened (block.start + block.size)⟩
      else splitFrom data links fuel ⟨pos, reach, move.waiting, block⟩

/-- At each place, earlier places with the same three bytes are tried from the latest on, and a copy that is found waits
for a longer one at the next place. -/
def split (data : Array UInt8) : List Block :=
  splitFrom data (links data) (data.size + 1) ⟨0, 0, none, .opened 0⟩

end Tilework.Archive
