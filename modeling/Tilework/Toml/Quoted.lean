import Tilework.Number.Hexadecimal
import Tilework.Toml.Blank

namespace Tilework.Toml.Quoted

def escaped? : Char → Option Char
  | 'b' => some '\x08'
  | 't' => some '\t'
  | 'n' => some '\n'
  | 'f' => some '\x0c'
  | 'r' => some '\r'
  | '"' => some '"'
  | '\\' => some '\\'
  | _ => none

def coded? (digits : List Char) : Option Char := do
  let values ← digits.mapM Hexadecimal.digitValue?
  let code := values.foldl (fun n k => n * 16 + k) 0
  if code.isValidChar then some (Char.ofNat code) else none

def prepend (c : Char) : Option (List Char × List Char) → Option (List Char × List Char) :=
  Option.map fun (text, rest) => (c :: text, rest)

def basic? : Scan (List Char)
  | [] => none
  | '"' :: rest => some ([], rest)
  | '\\' :: 'u' :: a :: b :: c :: d :: rest =>
    (coded? [a, b, c, d]).bind fun code => prepend code (basic? rest)
  | '\\' :: 'U' :: a :: b :: c :: d :: e :: f :: g :: h :: rest =>
    (coded? [a, b, c, d, e, f, g, h]).bind fun code => prepend code (basic? rest)
  | '\\' :: letter :: rest => (escaped? letter).bind fun c => prepend c (basic? rest)
  | c :: rest => if isPlain c && c ≠ '\\' then prepend c (basic? rest) else none

def literal? : Scan (List Char)
  | [] => none
  | '\'' :: rest => some ([], rest)
  | c :: rest => if isPlain c then prepend c (literal? rest) else none

/-- After three quotes: up to two more belong to the text. -/
def closing (quote : Char) : List Char → List Char × List Char
  | a :: b :: rest =>
    if a ≠ quote then ([], a :: b :: rest)
    else if b ≠ quote then ([a], b :: rest)
    else ([a, b], rest)
  | [a] => if a = quote then ([a], []) else ([], [a])
  | [] => ([], [])

def endsLine (chars : List Char) : Bool :=
  match dropBlanks chars with
  | '\n' :: _ | '\r' :: '\n' :: _ => true
  | _ => false

/-- The text up to three double quotes. After a backslash that ends its line, `trim` holds until something
other than blanks and line ends comes. -/
def basicLines? (trim : Bool) : Scan (List Char)
  | [] => none
  | '"' :: '"' :: '"' :: rest => some (closing '"' rest)
  | '\r' :: '\n' :: rest => if trim then basicLines? true rest else prepend '\n' (basicLines? false rest)
  | '\n' :: rest => if trim then basicLines? true rest else prepend '\n' (basicLines? false rest)
  | '\\' :: 'u' :: a :: b :: c :: d :: rest =>
    (coded? [a, b, c, d]).bind fun code => prepend code (basicLines? false rest)
  | '\\' :: 'U' :: a :: b :: c :: d :: e :: f :: g :: h :: rest =>
    (coded? [a, b, c, d, e, f, g, h]).bind fun code => prepend code (basicLines? false rest)
  | '\\' :: letter :: rest =>
    if endsLine (letter :: rest) then basicLines? true (letter :: rest)
    else (escaped? letter).bind fun c => prepend c (basicLines? false rest)
  | c :: rest =>
    if trim && isBlank c then basicLines? true rest
    else if isPlain c && c ≠ '\\' then prepend c (basicLines? false rest)
    else none

def literalLines? : Scan (List Char)
  | [] => none
  | '\'' :: '\'' :: '\'' :: rest => some (closing '\'' rest)
  | '\r' :: '\n' :: rest => prepend '\n' (literalLines? rest)
  | '\n' :: rest => prepend '\n' (literalLines? rest)
  | c :: rest => if isPlain c then prepend c (literalLines? rest) else none

def dropNewline (chars : List Char) : List Char := (newline? chars).getD chars

def line? : Scan String
  | '"' :: rest => (basic? rest).map fun (text, rest) => (String.ofList text, rest)
  | '\'' :: rest => (literal? rest).map fun (text, rest) => (String.ofList text, rest)
  | _ => none

def string? : Scan String
  | '"' :: '"' :: '"' :: rest =>
    (basicLines? false (dropNewline rest)).map fun (text, rest) => (String.ofList text, rest)
  | '\'' :: '\'' :: '\'' :: rest =>
    (literalLines? (dropNewline rest)).map fun (text, rest) => (String.ofList text, rest)
  | chars => line? chars

end Tilework.Toml.Quoted
