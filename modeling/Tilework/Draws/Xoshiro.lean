import Tilework.Draws.Basic

namespace Tilework

def rotateLeft (w : UInt64) (k : UInt64) : UInt64 := (w <<< k) ||| (w >>> (64 - k))

def rotateRight (w k : UInt32) : UInt32 := (w >>> k) ||| (w <<< ((32 - k) % 32))

/-- The xoshiro256++ generator, seeded from a number by a permuted congruential generator. -/
structure Xoshiro where
  s0 : UInt64
  s1 : UInt64
  s2 : UInt64
  s3 : UInt64
  deriving DecidableEq, Repr

namespace Xoshiro

def seedStep (state : UInt64) : UInt32 × UInt64 :=
  let state := state * 6364136223846793005 + 11634580027462260723
  let bits := (((state >>> 18) ^^^ state) >>> 27).toUInt32
  (rotateRight bits (state >>> 59).toUInt32, state)

def seedWord (state : UInt64) : UInt64 × UInt64 :=
  let (low, state) := seedStep state
  let (high, state) := seedStep state
  (low.toUInt64 ||| (high.toUInt64 <<< 32), state)

def ofSeed (seed : UInt64) : Xoshiro :=
  let (s0, state) := seedWord seed
  let (s1, state) := seedWord state
  let (s2, state) := seedWord state
  let (s3, _) := seedWord state
  ⟨s0, s1, s2, s3⟩

def next (x : Xoshiro) : UInt64 × Xoshiro :=
  let result := rotateLeft (x.s0 + x.s3) 23 + x.s0
  let t := x.s1 <<< 17
  let s2 := x.s2 ^^^ x.s0
  let s3 := x.s3 ^^^ x.s1
  let s1 := x.s1 ^^^ s2
  let s0 := x.s0 ^^^ s3
  (result, ⟨s0, s1, s2 ^^^ t, rotateLeft s3 45⟩)

def draw (x : Xoshiro) : Single × Xoshiro :=
  let (word, x) := x.next
  (Single.ofDraw (word >>> 40).toNat, x)

instance : DrawSource Xoshiro := ⟨draw⟩

end Xoshiro

end Tilework
