import Tilework.Files.Basic

namespace Tilework

inductive Node where
  | directory (entries : List (String × Node))
  | file (bytes : Bytes)

abbrev Entries := List (String × Node)

namespace Entries

def erase (entries : Entries) (name : String) : Entries := entries.filter fun entry => entry.1 ≠ name

def put (entries : Entries) (name : String) (node : Node) : Entries := (name, node) :: entries.erase name

end Entries

namespace Node

def empty : Node := .directory []

def isDirectory : Node → Bool
  | directory _ => true
  | file _ => false

def bytes? : Node → Option Bytes
  | directory _ => none
  | file bytes => some bytes

mutual

def trails : Node → List (List String)
  | directory entries => trailsAmong entries
  | file _ => [[]]

def trailsAmong : Entries → List (List String)
  | [] => []
  | (name, node) :: rest => node.trails.map (name :: ·) ++ trailsAmong rest

end

end Node

structure Place where
  node? : Option Node
  /-- The name of the place and those of the places above it, the innermost one first, each among the entries
  of its directory. -/
  above : List (String × Entries)

namespace Place

def isDirectory (p : Place) : Bool := p.node?.any Node.isDirectory

def step (p : Place) (entries : Entries) (segment : String) : Place :=
  if segment = "" ∨ segment = "." then p
  else if segment = ".." then
    match p.above with
    | [] => p
    | (_, entries) :: above => ⟨some (.directory entries), above⟩
  else ⟨entries.lookup segment, (segment, entries) :: p.above⟩

def rootWith (above : List (String × Entries)) (node : Node) : Node :=
  above.foldl (fun node (name, entries) => .directory (entries.put name node)) node

end Place

structure Disk where
  root : Node
  current : List String

namespace Disk

def empty : Disk := ⟨.empty, []⟩

inductive Route where
  | toPlace (place : Place)
  | missing
  | barred

def nameLimit : Nat := 255

def pathLimit : Nat := 4096

/-- Where segments lead. Each has to start from a directory. -/
def walk : Place → List String → Route
  | place, [] => .toPlace place
  | place, segment :: rest =>
    match place.node? with
    | none => .missing
    | some (.file _) => .barred
    | some (.directory entries) =>
      if segment.utf8ByteSize ≤ nameLimit then walk (place.step entries segment) rest else .barred

def route (d : Disk) (path : String) : Route :=
  let segments := Path.segments path
  if path.isEmpty || path.contains '\x00' || pathLimit ≤ path.utf8ByteSize then .barred
  else walk ⟨d.root, []⟩ (if Path.isAbsolute path then segments else d.current ++ segments)

def locate? (d : Disk) (path : String) : Option Place :=
  match d.route path with
  | .toPlace place => some place
  | .missing | .barred => none

def find? (d : Disk) (path : String) : Option Node := (d.locate? path).bind Place.node?

def read? (d : Disk) (path : String) : Option Bytes := (d.find? path).bind Node.bytes?

def isDirectory (d : Disk) (path : String) : Bool := (d.find? path).any Node.isDirectory

def put (d : Disk) (place : Place) (node : Node) : Disk := { d with root := Place.rootWith place.above node }

def write? (d : Disk) (path : String) (bytes : Bytes) : Option Disk := do
  let place ← d.locate? path
  if place.isDirectory then none else some (d.put place (.file bytes))

def makeDirectory (d : Disk) (path : String) : Making × Disk :=
  match d.route path with
  | .toPlace place => if place.node?.isNone then (.made, d.put place .empty) else (.refused, d)
  | .missing => (.lacking, d)
  | .barred => (.refused, d)

def delete? (d : Disk) (path : String) : Option Disk := do
  let place ← d.locate? path
  match place with
  | ⟨some (.file _), (name, entries) :: above⟩ =>
    some { d with root := Place.rootWith above (.directory (entries.erase name)) }
  | _ => none

def attempt (change : Disk → Option Disk) : StateM Disk Bool := fun d =>
  match change d with
  | some changed => (true, changed)
  | none => (false, d)

instance : Files (StateM Disk) where
  read? path := fun d => (d.read? path, d)
  write path bytes := attempt fun d => d.write? path bytes
  isPresent path := fun d => ((d.find? path).isSome, d)
  isDirectory path := fun d => (d.isDirectory path, d)
  makeDirectory path := fun d => d.makeDirectory path

end Disk

end Tilework
