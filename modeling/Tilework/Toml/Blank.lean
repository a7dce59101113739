namespace Tilework.Toml

/-- Splits a value off the front of the characters. -/
abbrev Scan (α : Type) := List Char → Option (α × List Char)

def isBlank (c : Char) : Bool := c = ' ' || c = '\t'

/-- The characters that may stand for themselves: all but control characters, and tabs. -/
def isPlain (c : Char) : Bool := c = '\t' || (0x20 ≤ c.toNat && c.toNat ≠ 0x7F)

def dropBlanks (chars : List Char) : List Char := chars.dropWhile isBlank

def newline? : List Char → Option (List Char)
  | [] => some []
  | '\n' :: rest => some rest
  | '\r' :: '\n' :: rest => some rest
  | _ => none

def lineEnd? (chars : List Char) : Option (List Char) :=
  match dropBlanks chars with
  | '#' :: rest => newline? (rest.dropWhile isPlain)
  | chars => newline? chars

def dropLines (comment : Bool) : List Char → List Char
  | '\r' :: '\n' :: rest => dropLines false rest
  | '\n' :: rest => dropLines false rest
  | c :: rest =>
    if comment then if isPlain c then dropLines true rest else c :: rest
    else if isBlank c then dropLines false rest
    else if c = '#' then dropLines true rest
    else c :: rest
  | [] => []

end Tilework.Toml
