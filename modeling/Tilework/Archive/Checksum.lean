import Tilework.Archive.Words

namespace Tilework.Archive

/-- One place of the division by the reversed polynomial. -/
def crcShift (r : UInt32) : UInt32 := if r &&& 1 = 1 then (r >>> 1) ^^^ 0xEDB88320 else r >>> 1

def crcByte (r : UInt32) (b : UInt8) : UInt32 :=
  crcShift (crcShift (crcShift (crcShift (crcShift (crcShift (crcShift (crcShift (r ^^^ b.toUInt32))))))))

def crc32 (bytes : Bytes) : UInt32 := bytes.foldl crcByte 0xFFFFFFFF ^^^ 0xFFFFFFFF

def adlerModulus : Nat := 65521

def adlerSums (bytes : Bytes) : Nat × Nat :=
  bytes.foldl (fun (a, b) byte =>
    let a := (a + byte.toNat) % adlerModulus
    (a, (b + a) % adlerModulus)) (1, 0)

def adler32 (bytes : Bytes) : Nat :=
  let (a, b) := adlerSums bytes
  b * 65536 + a

end Tilework.Archive
