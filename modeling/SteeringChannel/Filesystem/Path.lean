/-!
Paths as texts: their components, and the normal form in which messages show them. The normal form
drops empty and single-dot components and keeps double dots and a leading double slash.
-/

namespace SteeringChannel.Path

def splitSlash : List Char → List (List Char)
  | [] => [[]]
  | letter :: rest =>
      if letter = '/' then [] :: splitSlash rest
      else match splitSlash rest with
        | [] => [[letter]]
        | part :: others => (letter :: part) :: others

def parts (path : String) : List String :=
  ((splitSlash path.toList).filter fun part => !part.isEmpty).map String.ofList

def isAbsolute (path : String) : Bool := path.toList.head? == some '/'

/-- Two leading slashes are kept apart from one; three or more count as one. -/
def root (path : String) : String :=
  match path.toList with
  | '/' :: '/' :: '/' :: _ => "/"
  | '/' :: '/' :: _ => "//"
  | '/' :: _ => "/"
  | _ => ""

def names (path : String) : List String := (parts path).filter (· != ".")

def render (root : String) (names : List String) : String :=
  if root = "" && names.isEmpty then "." else root ++ String.intercalate "/" names

def normalize (path : String) : String := render (root path) (names path)

def parent (path : String) : String := render (root path) (names path).dropLast

/-- The components to walk. A slash at the end asks for a directory, as a dot does. -/
def steps (path : String) : List String :=
  parts path ++ if path.toList.getLast? == some '/' then ["."] else []

/-- Double dots taken back against the name before them; above the root they mean nothing. -/
def collapse : List String → List String → List String
  | done, [] => done.reverse
  | done, name :: rest =>
      if name = ".." then collapse done.tail rest else collapse (name :: done) rest

def absolute (working : List String) (path : String) : String :=
  if isAbsolute path then render (root path) (collapse [] (names path))
  else render "/" (collapse [] (working ++ names path))

def hasNul (path : String) : Bool := path.toList.contains '\x00'

end SteeringChannel.Path
