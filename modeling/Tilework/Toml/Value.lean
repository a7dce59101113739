namespace Tilework.Toml

inductive Kind where
  /-- Opened by a header, or the whole text. -/
  | header
  /-- Passed through on the way to the table of a header. -/
  | implied
  /-- Passed through by a dotted key. -/
  | dotted
  /-- Written within braces, and complete. -/
  | inline
  deriving DecidableEq, Repr

inductive Value where
  | string (text : String)
  | integer (n : Int)
  | boolean (b : Bool)
  | float
  | date
  | array (items : List Value)
  | table (kind : Kind) (entries : List (String × Value))
  | tables (elements : List (List (String × Value)))
  deriving Repr

structure Table where
  kind : Kind
  entries : List (String × Value)
  deriving Repr

/-- Changes the table within a value, or the last one of several. An inline table stays as it is written, and a
dotted key adds to no table that a header has opened. -/
def Value.change? (dotted : Bool) (f : Table → Option Table) : Value → Option Value
  | .table .inline _ => none
  | .table kind entries =>
    if dotted && kind = .header then none else (f ⟨kind, entries⟩).map fun t => .table t.kind t.entries
  | .tables elements => do
    let last ← elements.getLast?
    let t ← f ⟨.header, last⟩
    return .tables (elements.dropLast ++ [t.entries])
  | _ => none

namespace Table

def find? (t : Table) (key : String) : Option Value := t.entries.lookup key

def put (t : Table) (key : String) (v : Value) : Table :=
  let entries := if (t.find? key).isSome then
      t.entries.map fun entry => if entry.1 = key then (key, v) else entry
    else t.entries ++ [(key, v)]
  { t with entries := entries }

def update (dotted : Bool) (f : Table → Option Table) : List String → Table → Option Table
  | [], t => f t
  | key :: path, t => do
    let child := (t.find? key).getD (.table (if dotted then .dotted else .implied) [])
    let child ← child.change? dotted (update dotted f path)
    return t.put key child

def define (path : List String) (key : String) (v : Value) (t : Table) : Option Table :=
  t.update true (fun t =>
    if (!path.isEmpty && t.kind ≠ .dotted) || (t.find? key).isSome then none else some (t.put key v)) path

def openTable (path : List String) (key : String) (t : Table) : Option Table :=
  t.update false (fun t =>
    match t.find? key with
    | none => some (t.put key (.table .header []))
    | some (.table .implied entries) => some (t.put key (.table .header entries))
    | some _ => none) path

def openElement (path : List String) (key : String) (t : Table) : Option Table :=
  t.update false (fun t =>
    match t.find? key with
    | none => some (t.put key (.tables [[]]))
    | some (.tables elements) => some (t.put key (.tables (elements ++ [[]])))
    | some _ => none) path

end Table

end Tilework.Toml
