import Tilework.Archive.Blocks
import Tilework.Archive.Checksum

namespace Tilework.Archive

/-- The method is the known one, its window is not too large, no dictionary is asked for, and the check bits
fit. -/
def methodKnown (method flags : Nat) : Bool :=
  method % 16 = 8 && method / 16 ≤ 7 && (method * 256 + flags) % 31 = 0 && flags / 32 % 2 = 0

def bigNumber? (bits : Bits) : Option Nat := do
  let (a, bits) ← takeBits? 8 bits
  let (b, bits) ← takeBits? 8 bits
  let (c, bits) ← takeBits? 8 bits
  let (d, _) ← takeBits? 8 bits
  return ((a * 256 + b) * 256 + c) * 256 + d

/-- The bytes that a stream stands for. What follows the stream is ignored. -/
def inflate? (bytes : Bytes) : Option Bytes :=
  match bytes with
  | method :: flags :: rest => do
    if !methodKnown method.toNat flags.toNat then
      none
    let bits := bytesToBits rest
    let (pieces, bits) ← readBlocks? bits.length #[] bits
    let found := (unfoldPieces pieces.toList).toList
    let sum ← bigNumber? (alignBits bits)
    if sum = adler32 found then some found else none
  | _ => none

def withChecksum (blocks bytes : Bytes) : Bytes :=
  [0x78, 0x9C] ++ blocks ++ (littleEndian 4 (adler32 bytes)).reverse

def pack (bytes : Bytes) : Bytes :=
  let data := bytes.toArray
  withChecksum (bitsToBytes (blocksBits data 0 (split data))) bytes

def storedLimit : Nat := 65535

def storedBlocks : Nat → Bytes → Bytes
  | 0, _ => []
  | limit + 1, bytes =>
    let chunk := bytes.take storedLimit
    let rest := bytes.drop storedLimit
    let header := littleEndian 2 chunk.length ++ littleEndian 2 (storedLimit - chunk.length)
    if rest.isEmpty then 1 :: header ++ chunk
    else 0 :: header ++ chunk ++ storedBlocks limit rest

def store (bytes : Bytes) : Bytes :=
  withChecksum (storedBlocks (bytes.length / storedLimit + 1) bytes) bytes

/-- A stream for the bytes. The compressed one is read back before it is used. -/
def deflate (bytes : Bytes) : Bytes :=
  let packed := pack bytes
  if inflate? packed = some bytes then packed else store bytes

end Tilework.Archive
