import Tilework.Json.Token

namespace Tilework

inductive Json where
  | null
  | bool (value : Bool)
  | number (n : Json.Numeral)
  | text (t : Option String)
  | array (items : List Json)
  | object (members : List (Option String × Json))
  deriving Repr, Inhabited

namespace Json

/-- An array or object that is still open, with what it holds so far, the latest first. -/
inductive Frame where
  | array (items : List Json)
  | object (members : List (Option String × Json)) (key : Option String)

inductive State where
  | value (stack : List Frame)
  | firstItem (stack : List Frame)
  | firstKey (stack : List Frame)
  | key (members : List (Option String × Json)) (stack : List Frame)
  | colon (members : List (Option String × Json)) (key : Option String) (stack : List Frame)
  | complete (value : Json) (stack : List Frame)

namespace State

def startValue? (stack : List Frame) : Token → Option State
  | .null => some (.complete .null stack)
  | .bool b => some (.complete (.bool b) stack)
  | .number n => some (.complete (.number n) stack)
  | .text t => some (.complete (.text t) stack)
  | .openArray => some (.firstItem stack)
  | .openObject => some (.firstKey stack)
  | _ => none

def step? : State → Token → Option State
  | value stack, token => startValue? stack token
  | firstItem stack, .closeArray => some (.complete (.array []) stack)
  | firstItem stack, token => startValue? (.array [] :: stack) token
  | firstKey stack, .closeObject => some (.complete (.object []) stack)
  | firstKey stack, .text k => some (.colon [] k stack)
  | key members stack, .text k => some (.colon members k stack)
  | colon members k stack, .colon => some (.value (.object members k :: stack))
  | complete v (.array items :: stack), .comma => some (.value (.array (v :: items) :: stack))
  | complete v (.array items :: stack), .closeArray => some (.complete (.array (v :: items).reverse) stack)
  | complete v (.object members k :: stack), .comma => some (.key ((k, v) :: members) stack)
  | complete v (.object members k :: stack), .closeObject =>
    some (.complete (.object ((k, v) :: members).reverse) stack)
  | _, _ => none

end State

def ofTokens? (tokens : List Token) : Option Json :=
  match tokens.foldlM State.step? (.value []) with
  | some (.complete value []) => some value
  | _ => none

def parse? (text : String) : Option Json := (tokens? text.toList).bind ofTokens?

end Json

end Tilework
