import Tilework.Toml.Scalar

namespace Tilework.Toml

structure Path where
  parents : List String
  key : String
  deriving DecidableEq, Repr

namespace Path

def isBare (c : Char) : Bool := c.isAlphanum || c = '_' || c = '-'

def part? (chars : List Char) : Option (String × List Char) :=
  match Quoted.line? chars with
  | some found => some found
  | none =>
    match chars.takeWhile isBare with
    | [] => none
    | key => some (String.ofList key, chars.dropWhile isBare)

def read? : Nat → Scan Path
  | 0, _ => none
  | limit + 1, chars => do
    let (key, chars) ← part? (dropBlanks chars)
    match dropBlanks chars with
    | '.' :: rest =>
      let (path, rest) ← read? limit rest
      return ({ path with parents := key :: path.parents }, rest)
    | rest => return (⟨[], key⟩, rest)

def limit : Nat := 79

end Path

def entry? (value : Scan Value) (chars : List Char) : Option ((Path × Value) × List Char) := do
  let (path, chars) ← Path.read? Path.limit chars
  let chars ← after? '=' chars
  let (v, chars) ← value (dropBlanks chars)
  return ((path, v), chars)

def items? (value : Scan Value) : Nat → Scan (List Value)
  | 0, _ => none
  | fuel + 1, chars =>
    match dropLines false chars with
    | ']' :: rest => some ([], rest)
    | chars => do
      let (v, chars) ← value chars
      match dropLines false chars with
      | ',' :: rest =>
        let (items, rest) ← items? value fuel rest
        return (v :: items, rest)
      | ']' :: rest => return ([v], rest)
      | _ => none

def entries? (value : Scan Value) : Nat → Table → Scan Table
  | 0, _, _ => none
  | fuel + 1, t, chars => do
    let ((path, v), chars) ← entry? value chars
    let t ← t.define path.parents path.key v
    match dropBlanks chars with
    | ',' :: rest => entries? value fuel t rest
    | '}' :: rest => return (t, rest)
    | _ => none

def braced? (value : Scan Value) (chars : List Char) : Option (Value × List Char) :=
  match dropBlanks chars with
  | '}' :: rest => some (.table .inline [], rest)
  | chars => (entries? value chars.length ⟨.inline, []⟩ chars).map fun (t, rest) => (.table .inline t.entries, rest)

def value? : Nat → Scan Value
  | 0, chars => scalar? chars
  | depth + 1, chars =>
    match chars with
    | '[' :: rest => (items? (value? depth) chars.length rest).map fun (items, rest) => (.array items, rest)
    | '{' :: rest => braced? (value? depth) rest
    | _ => scalar? chars

def depthLimit : Nat := 79

inductive Line where
  | define (path : Path) (v : Value)
  | openTable (path : Path)
  | openElement (path : Path)
  deriving Repr

def line? : Scan Line
  | '[' :: '[' :: rest => do
    let (path, rest) ← Path.read? Path.limit rest
    let rest ← after? ']' rest
    let rest ← after? ']' rest
    return (.openElement path, rest)
  | '[' :: rest => do
    let (path, rest) ← Path.read? Path.limit rest
    let rest ← after? ']' rest
    return (.openTable path, rest)
  | chars => do
    let ((path, v), rest) ← entry? (value? depthLimit) chars
    return (.define path v, rest)

/-- What the lines of a text say. Each takes at least one character, so `fuel` need only exceed the number of
characters. -/
def lines? : Nat → List Char → Option (List Line)
  | 0, _ => none
  | fuel + 1, chars =>
    match dropBlanks chars with
    | [] => some []
    | chars =>
      match lineEnd? chars with
      | some rest => lines? fuel rest
      | none => do
        let (line, rest) ← line? chars
        let rest ← lineEnd? rest
        let lines ← lines? fuel rest
        return line :: lines

/-- The whole table as far as it is known, and the path to the table that lines now add to. -/
structure Draft where
  whole : Table
  current : List String

def Draft.add (d : Draft) : Line → Option Draft
  | .define path v =>
    (d.whole.update false (Table.define path.parents path.key v) d.current).map fun whole => { d with whole := whole }
  | .openTable path =>
    (d.whole.openTable path.parents path.key).map fun whole => ⟨whole, path.parents ++ [path.key]⟩
  | .openElement path =>
    (d.whole.openElement path.parents path.key).map fun whole => ⟨whole, path.parents ++ [path.key]⟩

def parse? (text : String) : Option Table := do
  let chars := match text.toList with
    | '\ufeff' :: rest => rest
    | chars => chars
  let lines ← lines? (chars.length + 1) chars
  let draft ← lines.foldlM Draft.add ⟨⟨.header, []⟩, []⟩
  return draft.whole

end Tilework.Toml
