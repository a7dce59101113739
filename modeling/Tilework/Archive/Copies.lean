import Tilework.Archive.Words

namespace Tilework.Archive

inductive Piece where
  | literal (b : UInt8)
  | copy (length distance : Nat)
  deriving DecidableEq, Repr

def lookBack (out : Array UInt8) (distance : Nat) : UInt8 :=
  if distance ≤ out.size then out[out.size - distance]?.getD 0 else 0

def copyBytes (out : Array UInt8) (distance : Nat) : Nat → Array UInt8
  | 0 => out
  | n + 1 => copyBytes (out.push (lookBack out distance)) distance n

def Piece.append (out : Array UInt8) : Piece → Array UInt8
  | literal b => out.push b
  | copy length distance => copyBytes out distance length

def unfoldPieces (pieces : List Piece) : Array UInt8 := pieces.foldl Piece.append #[]

def Piece.size : Piece → Nat
  | literal _ => 1
  | copy length _ => length

end Tilework.Archive
