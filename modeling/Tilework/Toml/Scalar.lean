import Tilework.Number.Decimal
import Tilework.Toml.Quoted
import Tilework.Toml.Value

namespace Tilework.Toml

def moreDigits (isDigit : Char → Bool) : List Char → List Char × List Char
  | '_' :: c :: rest =>
    if isDigit c then
      let (digits, rest) := moreDigits isDigit rest
      (c :: digits, rest)
    else ([], '_' :: c :: rest)
  | c :: rest =>
    if isDigit c then
      let (digits, rest) := moreDigits isDigit rest
      (c :: digits, rest)
    else ([], c :: rest)
  | [] => ([], [])

def digits? (isDigit : Char → Bool) : Scan (List Char)
  | c :: rest =>
    if isDigit c then
      let (digits, rest) := moreDigits isDigit rest
      some (c :: digits, rest)
    else none
  | [] => none

def whole? : Scan (List Char)
  | '0' :: rest => some (['0'], rest)
  | chars => digits? Char.isDigit chars

def sign : List Char → Bool × List Char
  | '-' :: rest => (true, rest)
  | '+' :: rest => (false, rest)
  | rest => (false, rest)

def ofInteger? (n : Int) : Option Value :=
  if -0x8000000000000000 ≤ n ∧ n < 0x8000000000000000 then some (.integer n) else none

def isDigitOf (base : Nat) (c : Char) : Bool :=
  match Hexadecimal.digitValue? c with
  | some k => k < base
  | none => false

def valueIn (base : Nat) (digits : List Char) : Nat :=
  digits.foldl (fun n c => n * base + (Hexadecimal.digitValue? c).getD 0) 0

def integerIn? (base : Nat) (chars : List Char) : Option (Value × List Char) := do
  let (digits, rest) ← digits? (isDigitOf base) chars
  let value ← ofInteger? (valueIn base digits)
  return (value, rest)

def integer? : Scan Value
  | '0' :: 'x' :: rest => integerIn? 16 rest
  | '0' :: 'o' :: rest => integerIn? 8 rest
  | '0' :: 'b' :: rest => integerIn? 2 rest
  | chars => do
    let (negative, chars) := sign chars
    let (digits, rest) ← whole? chars
    let n := valueIn 10 digits
    let value ← ofInteger? (if negative then -n else n)
    return (value, rest)

def fraction? : Scan (Option (List Char))
  | '.' :: rest => (digits? Char.isDigit rest).map fun (digits, rest) => (some digits, rest)
  | chars => some (none, chars)

def exponent? : Scan (Option Int)
  | c :: rest =>
    if c = 'e' || c = 'E' then do
      let (negative, rest) := sign rest
      let (digits, rest) ← digits? Char.isDigit rest
      let n := valueIn 10 digits
      return (some (if negative then -n else n), rest)
    else some (none, c :: rest)
  | [] => some (none, [])

def special? (chars : List Char) : Option (Value × List Char) :=
  match (sign chars).2 with
  | 'i' :: 'n' :: 'f' :: rest => some (.float, rest)
  | 'n' :: 'a' :: 'n' :: rest => some (.float, rest)
  | _ => none

/-- A number with a fraction or an exponent. A positive one must be finite in double precision. -/
def decimal? (chars : List Char) : Option (Value × List Char) := do
  let (negative, chars) := sign chars
  let (whole, chars) ← whole? chars
  let (fraction, chars) ← fraction? chars
  let (exponent, chars) ← exponent? chars
  if fraction.isNone && exponent.isNone then
    none
  let places := fraction.getD []
  if !negative && Decimal.exceedsDouble (whole ++ places) (exponent.getD 0 - places.length) then
    none
  return (.float, chars)

def field? (k lo hi : Nat) (chars : List Char) : Option (Nat × List Char) :=
  let digits := chars.take k
  if digits.length = k ∧ digits.all Char.isDigit then
    let n := valueIn 10 digits
    if lo ≤ n ∧ n ≤ hi then some (n, chars.drop k) else none
  else none

def after? (c : Char) : List Char → Option (List Char)
  | d :: rest => if d = c then some rest else none
  | [] => none

def isLeap (year : Nat) : Bool := year % 4 = 0 && (year % 100 ≠ 0 || year % 400 = 0)

def daysIn (year month : Nat) : Nat :=
  if month = 2 then if isLeap year then 29 else 28
  else if month = 4 ∨ month = 6 ∨ month = 9 ∨ month = 11 then 30
  else 31

def day? (chars : List Char) : Option (List Char) := do
  let (year, chars) ← field? 4 0 9999 chars
  let chars ← after? '-' chars
  let (month, chars) ← field? 2 1 12 chars
  let chars ← after? '-' chars
  let (_, chars) ← field? 2 1 (daysIn year month) chars
  return chars

def dropSecondFraction (chars : List Char) : List Char :=
  match chars with
  | '.' :: c :: rest => if c.isDigit then rest.dropWhile Char.isDigit else chars
  | _ => chars

def time? (chars : List Char) : Option (List Char) := do
  let (_, chars) ← field? 2 0 23 chars
  let chars ← after? ':' chars
  let (_, chars) ← field? 2 0 59 chars
  let chars ← after? ':' chars
  let (_, chars) ← field? 2 0 60 chars
  return dropSecondFraction chars

def offset? : List Char → Option (List Char)
  | c :: rest =>
    if c = 'Z' || c = 'z' then some rest
    else if c = '+' || c = '-' then do
      let (_, rest) ← field? 2 0 23 rest
      let rest ← after? ':' rest
      let (_, rest) ← field? 2 0 59 rest
      return rest
    else none
  | [] => none

def dropTime (chars : List Char) : List Char :=
  match chars with
  | [] => []
  | c :: rest =>
    if c = 'T' || c = 't' || c = ' ' then
      match time? rest with
      | some rest => (offset? rest).getD rest
      | none => chars
    else chars

def date? (chars : List Char) : Option (Value × List Char) :=
  match day? chars with
  | some rest => some (.date, dropTime rest)
  | none => (time? chars).map fun rest => (.date, rest)

def scalar? : Scan Value
  | 't' :: 'r' :: 'u' :: 'e' :: rest => some (.boolean true, rest)
  | 'f' :: 'a' :: 'l' :: 's' :: 'e' :: rest => some (.boolean false, rest)
  | chars =>
    ((Quoted.string? chars).map fun (text, rest) => (.string text, rest)) <|> date? chars <|> decimal? chars <|>
      special? chars <|> integer? chars

end Tilework.Toml
