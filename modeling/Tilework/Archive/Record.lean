import Tilework.Archive.Words
import Tilework.Snapshot

namespace Tilework.Archive

def writeCount (n : Nat) : Bytes := littleEndian 8 n

def writeList {α : Type} (write : α → Bytes) (items : List α) : Bytes :=
  writeCount items.length ++ items.flatMap write

def writeString (s : String) : Bytes := writeList (fun b => [b]) (Bytes.ofText s)

def writeCoordinate (n : Int) : Bytes := littleEndian 4 (n % 0x100000000).toNat

def writeWord (n : UInt32) : Bytes := littleEndian 4 n.toNat

def writeOption {α : Type} (write : α → Bytes) : Option α → Bytes
  | none => [0]
  | some a => 1 :: write a

def writeSnapshot (s : Snapshot) : Bytes :=
  writeCoordinate s.size.x ++ writeCoordinate s.size.y ++ writeList writeString s.tileNames ++
    writeList writeString s.variantNames ++ writeList (writeOption writeWord) s.front ++
    writeList (writeOption writeWord) s.mid ++ writeList (writeOption writeWord) s.back

abbrev Reader (α : Type) := Bytes → Option (α × Bytes)

def readItems {α : Type} (read : Reader α) : Nat → Reader (List α)
  | 0, bytes => some ([], bytes)
  | n + 1, bytes => do
    let (item, bytes) ← read bytes
    let (items, bytes) ← readItems read n bytes
    return (item :: items, bytes)

def readList {α : Type} (read : Reader α) : Reader (List α) := fun bytes => do
  let (n, bytes) ← number? 8 bytes
  readItems read n bytes

def readString : Reader String := fun bytes => do
  let (n, bytes) ← number? 8 bytes
  let (text, bytes) ← splitBytes? n bytes
  let s ← Bytes.text? text
  return (s, bytes)

def readCoordinate : Reader Int := fun bytes => do
  let (n, bytes) ← number? 4 bytes
  return (if n < 0x80000000 then n else n - 0x100000000, bytes)

def readWord : Reader UInt32 := fun bytes => do
  let (n, bytes) ← number? 4 bytes
  return (UInt32.ofNat n, bytes)

def readOption {α : Type} (read : Reader α) : Reader (Option α)
  | 0 :: bytes => some (none, bytes)
  | 1 :: bytes => do
    let (a, bytes) ← read bytes
    return (some a, bytes)
  | _ => none

def readSnapshot? (bytes : Bytes) : Option Snapshot := do
  let (x, bytes) ← readCoordinate bytes
  let (y, bytes) ← readCoordinate bytes
  let (tileNames, bytes) ← readList readString bytes
  let (variantNames, bytes) ← readList readString bytes
  let (front, bytes) ← readList (readOption readWord) bytes
  let (mid, bytes) ← readList (readOption readWord) bytes
  let (back, bytes) ← readList (readOption readWord) bytes
  if bytes.isEmpty then some ⟨⟨x, y⟩, tileNames, variantNames, front, mid, back⟩ else none

end Tilework.Archive
