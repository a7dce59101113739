import Tilework.Archive.Record
import Tilework.Archive.Zlib

namespace Tilework

namespace Archive

def magic : Nat := 0x54534D02

def headerLength : Nat := 17

def lengthLimit : Nat := 0x10000000000000000

def inflationLimit : Nat := 0x40000000

end Archive

inductive ArchiveError where
  | io
  | badMagic (found : Nat)
  | lengthMismatch (expected found : Nat)
  | checksum
  | decode
  | text
  | unknownFlags (flags : UInt8)
  | inconsistent (cause : Snapshot.Inconsistency)
  deriving DecidableEq, Repr

namespace ArchiveError

def hexadecimal (width n : Nat) : String :=
  let digits := Nat.toDigits 16 n
  "0x" ++ String.ofList (List.replicate (width - digits.length) '0' ++ digits)

def message : ArchiveError → String
  | io => "Map file I/O failed"
  | badMagic found =>
    "Unknown compact map version " ++ hexadecimal 8 found ++ " (expected " ++ hexadecimal 8 Archive.magic ++ ")"
  | lengthMismatch expected found =>
    "Compact map length mismatch: expected " ++ toString expected ++ " bytes, found " ++ toString found
  | checksum => "Compact map checksum mismatch"
  | decode => "Invalid compact map payload"
  | text => "Invalid text map"
  | unknownFlags flags => "Inconsistent map data: unknown header flags " ++ hexadecimal 2 flags.toNat
  | inconsistent cause => "Inconsistent map data: " ++ cause.message

end ArchiveError

namespace Archive

def withHeader (flags : UInt8) (payload : Bytes) : Bytes :=
  littleEndian 4 magic ++ [flags] ++ littleEndian 4 (crc32 payload).toNat ++ littleEndian 8 payload.length ++
    payload

def encode (s : Snapshot) (compress : Bool) : Bytes :=
  let payload := writeSnapshot s
  if compress then withHeader 1 (deflate payload) else withHeader 0 payload

def decodePayload (payload : Bytes) : Except ArchiveError Snapshot :=
  match readSnapshot? payload with
  | some s => .ok s
  | none => .error .decode

/-- The snapshot that a payload with these flags and this checksum stands for. Of a stream that goes wrong it does
not matter how much it inflates to. -/
def decodeBody (limit : Nat) (flags : UInt8) (checksum : Nat) (payload : Bytes) : Except ArchiveError Snapshot :=
  if (crc32 payload).toNat ≠ checksum then .error .checksum
  else if flags = 1 then
    match inflate? payload with
    | some inflated =>
      if limit < inflated.length then .error (.inconsistent (.inflated limit)) else decodePayload inflated
    | none => .error .io
  else decodePayload payload

/-- The snapshot of a compact form whose payload inflates to at most `limit` bytes. The length that a wrong one
should have may exceed what can be counted. -/
def decodeWithin (limit : Nat) (bytes : Bytes) : Checked (Except ArchiveError Snapshot) :=
  match splitBytes? headerLength bytes with
  | none => return .error (.lengthMismatch headerLength bytes.length)
  | some (header, payload) =>
    let found := ofLittleEndian (header.take 4)
    let flags := (header[4]?).getD 0
    let checksum := ofLittleEndian ((header.drop 5).take 4)
    let length := ofLittleEndian (header.drop 9)
    if found ≠ magic then return .error (.badMagic found)
    else if flags ≠ 0 ∧ flags ≠ 1 then return .error (.unknownFlags flags)
    else if payload.length ≠ length then
      if lengthLimit ≤ headerLength + length then throw .overflow
      else return .error (.lengthMismatch (headerLength + length) bytes.length)
    else return decodeBody limit flags checksum payload

def decode (bytes : Bytes) : Checked (Except ArchiveError Snapshot) := decodeWithin inflationLimit bytes

end Archive

end Tilework
