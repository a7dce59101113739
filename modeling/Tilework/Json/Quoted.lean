import Tilework.Number.Hexadecimal

namespace Tilework.Json.Quoted

inductive Piece where
  | char (c : Char)
  | half (unit : Nat)
  deriving DecidableEq, Repr

def Piece.ofUnit (unit : Nat) : Piece :=
  if 0xD800 ≤ unit ∧ unit ≤ 0xDFFF then .half unit else .char (Char.ofNat unit)

def unit? (a b c d : Char) : Option Nat := do
  let a ← Hexadecimal.digitValue? a
  let b ← Hexadecimal.digitValue? b
  let c ← Hexadecimal.digitValue? c
  let d ← Hexadecimal.digitValue? d
  return ((a * 16 + b) * 16 + c) * 16 + d

def escaped? : Char → Option Char
  | '"' => some '"'
  | '\\' => some '\\'
  | '/' => some '/'
  | 'b' => some '\x08'
  | 'f' => some '\x0c'
  | 'n' => some '\n'
  | 'r' => some '\r'
  | 't' => some '\t'
  | _ => none

def pieces? : List Char → Option (List Piece × List Char)
  | [] => none
  | '"' :: rest => some ([], rest)
  | '\\' :: 'u' :: a :: b :: c :: d :: rest => do
    let unit ← unit? a b c d
    let (pieces, after) ← pieces? rest
    return (Piece.ofUnit unit :: pieces, after)
  | '\\' :: letter :: rest => do
    let char ← escaped? letter
    let (pieces, after) ← pieces? rest
    return (.char char :: pieces, after)
  | c :: rest =>
    if c = '\\' ∨ c.toNat < 0x20 then none
    else do
      let (pieces, after) ← pieces? rest
      return (.char c :: pieces, after)

def pair? (high low : Nat) : Option Char :=
  if high < 0xDC00 ∧ 0xDC00 ≤ low then
    some (Char.ofNat (0x10000 + (high - 0xD800) * 0x400 + (low - 0xDC00)))
  else none

def assemble? : List Piece → Option (List Char)
  | [] => some []
  | .char c :: rest => (assemble? rest).map (c :: ·)
  | .half high :: .half low :: rest => do
    let c ← pair? high low
    let text ← assemble? rest
    return c :: text
  | .half _ :: _ => none

theorem length_lt_of_pieces? {chars after : List Char} {pieces : List Piece}
    (h : pieces? chars = some (pieces, after)) : after.length < chars.length := by
  fun_induction pieces? chars generalizing pieces after with
  | case1 => simp at h
  | case2 rest => simp at h; simp [← h.2]
  | case3 a b c d rest ih =>
    simp only [Option.bind_eq_bind, Option.bind_eq_some_iff, Option.pure_def, Option.some.injEq,
      Prod.mk.injEq, Prod.exists] at h
    obtain ⟨_, _, _, _, found, _, rfl⟩ := h
    have := ih found
    simp only [List.length_cons]
    omega
  | case4 letter rest _ ih =>
    simp only [Option.bind_eq_bind, Option.bind_eq_some_iff, Option.pure_def, Option.some.injEq,
      Prod.mk.injEq, Prod.exists] at h
    obtain ⟨_, _, _, _, found, _, rfl⟩ := h
    have := ih found
    simp only [List.length_cons]
    omega
  | case5 c rest => simp at h
  | case6 c rest _ _ _ _ ih =>
    simp only [Option.bind_eq_bind, Option.bind_eq_some_iff, Option.pure_def, Option.some.injEq,
      Prod.mk.injEq, Prod.exists] at h
    obtain ⟨_, _, found, _, rfl⟩ := h
    have := ih found
    simp only [List.length_cons]
    omega

/-- A character as written in a literal: only quotes, backslashes and control characters are escaped. -/
def writeChar (c : Char) : List Char :=
  if c = '"' then ['\\', '"']
  else if c = '\\' then ['\\', '\\']
  else if c = '\x08' then ['\\', 'b']
  else if c = '\x0c' then ['\\', 'f']
  else if c = '\n' then ['\\', 'n']
  else if c = '\r' then ['\\', 'r']
  else if c = '\t' then ['\\', 't']
  else if c.toNat < 0x20 then ['\\', 'u', '0', '0', Hexadecimal.digit (c.toNat / 16), Hexadecimal.digit (c.toNat % 16)]
  else [c]

def write (text : List Char) : List Char := '"' :: text.flatMap writeChar ++ ['"']

def unpaired : List Char := ['"', '\\', 'u', 'd', '8', '0', '0', '"']

end Tilework.Json.Quoted
