namespace Tilework.Path

def isAbsolute (path : String) : Bool := path.startsWith "/"

def cut : List Char → List (List Char)
  | [] => [[]]
  | '/' :: rest => [] :: cut rest
  | c :: rest =>
    match cut rest with
    | segment :: segments => (c :: segment) :: segments
    | [] => [[c]]

def segments (path : String) : List String :=
  match path.toList with
  | '/' :: rest => (cut rest).map String.ofList
  | chars => (cut chars).map String.ofList

/-- The path that leads from `dir` along `path`. An absolute path leads from anywhere to the same place. -/
def join (dir path : String) : String :=
  if isAbsolute path || dir.isEmpty then path
  else if dir.endsWith "/" then dir ++ path
  else dir ++ "/" ++ path

/-- Whether a segment is empty or a single dot. A dot that starts a relative path is not idle. -/
def isIdle (absolute : Bool) (segment : String) (before : List String) : Bool :=
  segment = "" || (segment = "." && (absolute || !before.isEmpty))

def dropIdle (absolute : Bool) : List String → List String
  | [] => []
  | segment :: before => if isIdle absolute segment before then dropIdle absolute before else segment :: before

def ofReversed (absolute : Bool) (segments : List String) : String :=
  let text := "/".intercalate segments.reverse
  if absolute then "/" ++ text else text

/-- The path to the directory that holds what the path leads to, as far as the text tells. -/
def parent? (path : String) : Option String :=
  let absolute := isAbsolute path
  match dropIdle absolute (segments path).reverse with
  | [] => none
  | _ :: before => some (ofReversed absolute (dropIdle absolute before))

/-- The paths that these segments pass, the innermost one first, if the last segment is given first. The empty
path is left out. -/
def passed (absolute : Bool) : List String → List String
  | [] => if absolute then ["/"] else []
  | segment :: before =>
    if isIdle absolute segment before then passed absolute before
    else ofReversed absolute (segment :: before) :: passed absolute before

def above (path : String) : List String :=
  let absolute := isAbsolute path
  match dropIdle absolute (segments path).reverse with
  | [] => []
  | _ :: before => passed absolute before

end Tilework.Path
