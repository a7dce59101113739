namespace Tilework.Command

structure OptionKind where
  name : String
  letter : Option Char
  takesDashes : Bool
  deriving DecidableEq, Repr

inductive Piece where
  | plain
  | separator
  | whole (kind : OptionKind) (value : String)
  | awaiting (kind : OptionKind)
  | unknown
  deriving DecidableEq, Repr

namespace Piece

def ofLong (kinds : List OptionKind) (chars : List Char) : Piece :=
  let name := String.ofList (chars.takeWhile (· ≠ '='))
  match kinds.find? fun kind => kind.name = name with
  | none => unknown
  | some kind =>
    match chars.dropWhile (· ≠ '=') with
    | _ :: value => whole kind (String.ofList value)
    | [] => awaiting kind

def ofLetter (kinds : List OptionKind) (letter : Char) (attached : List Char) : Piece :=
  match kinds.find? fun kind => kind.letter = some letter with
  | none => unknown
  | some kind =>
    match attached with
    | [] => awaiting kind
    | '=' :: value => whole kind (String.ofList value)
    | value => whole kind (String.ofList value)

def ofArgument (kinds : List OptionKind) (argument : String) : Piece :=
  match argument.toList with
  | ['-', '-'] => separator
  | '-' :: '-' :: chars => ofLong kinds chars
  | '-' :: letter :: attached => ofLetter kinds letter attached
  | _ => plain

end Piece

def OptionKind.accepts (kind : OptionKind) (argument : String) : Bool :=
  kind.takesDashes || argument = "-" || !argument.startsWith "-"

structure Given where
  options : List (OptionKind × String)
  words : List String
  deriving Repr

namespace Given

def addOption (kind : OptionKind) (value : String) (g : Given) : Given :=
  { g with options := (kind, value) :: g.options }

def addWord (word : String) (g : Given) : Given := { g with words := word :: g.words }

/-- Sorts arguments into options and words. An option is written `--name value`, `--name=value` or, where it has a
letter, `-lvalue`, `-l=value` or `-l value`. After two dashes all are words. -/
def ofArguments? (kinds : List OptionKind) : Option OptionKind → List String → Option Given
  | none, [] => some ⟨[], []⟩
  | some _, [] => none
  | some kind, argument :: rest =>
    if kind.accepts argument then (ofArguments? kinds none rest).map (addOption kind argument) else none
  | none, argument :: rest =>
    match Piece.ofArgument kinds argument with
    | .plain => (ofArguments? kinds none rest).map (addWord argument)
    | .separator => some ⟨[], rest⟩
    | .whole kind value => (ofArguments? kinds none rest).map (addOption kind value)
    | .awaiting kind => ofArguments? kinds (some kind) rest
    | .unknown => none

def valuesOf (g : Given) (name : String) : List String :=
  (g.options.filter fun option => option.1.name = name).map Prod.snd

end Given

structure Leading where
  given : Given
  word : String
  rest : List String

def Leading.ofArguments? (kinds : List OptionKind) : Option OptionKind → List String → Option Leading
  | _, [] => none
  | some kind, argument :: rest =>
    if kind.accepts argument then
      (ofArguments? kinds none rest).map fun l => { l with given := l.given.addOption kind argument }
    else none
  | none, argument :: rest =>
    match Piece.ofArgument kinds argument with
    | .plain => some ⟨⟨[], []⟩, argument, rest⟩
    | .whole kind value =>
      (ofArguments? kinds none rest).map fun l => { l with given := l.given.addOption kind value }
    | .awaiting kind => ofArguments? kinds (some kind) rest
    | .separator | .unknown => none

end Tilework.Command
