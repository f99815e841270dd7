import SteeringChannel.Filesystem.Path
import SteeringChannel.SystemError

/-!
The part of the file system that the program can reach: nodes at places, the walk from a path to
a place through symbolic links, and the changes the program makes.
-/

namespace SteeringChannel

abbrev Place := List String

inductive SocketKind where
  | refusing
  | unattended
  | datagram
  | served (server : Nat)
  deriving DecidableEq, Repr

inductive Node where
  | directory
  | file (content : String)
  | link (target : String)
  | pipe
  | socket (kind : SocketKind)
  deriving DecidableEq, Repr

def Node.isSocket : Node → Bool
  | socket _ => true
  | _ => false

structure Entry where
  place : Place
  node : Node
  mode : Int
  deriving DecidableEq, Repr

structure Filesystem where
  entries : List Entry
  deriving DecidableEq, Repr

namespace Filesystem

def workingPlace : Place := ["tmp", "swi-control-working-directory"]

def directoryMode : Int := 493

def fileMode : Int := 420

def privateMode : Int := 448

/-- An empty working directory, and the two directories outside it that paths may name. -/
def empty : Filesystem :=
  ⟨[⟨[], .directory, directoryMode⟩, ⟨["tmp"], .directory, directoryMode⟩,
    ⟨["dev"], .directory, directoryMode⟩, ⟨workingPlace, .directory, privateMode⟩]⟩

def entry? (tree : Filesystem) (place : Place) : Option Entry :=
  tree.entries.find? fun entry => entry.place == place

def node? (tree : Filesystem) (place : Place) : Option Node :=
  (tree.entry? place).map Entry.node

def nameLimit : Nat := 255

def pathLimit : Nat := 4095

def linkLimit : Nat := 40

inductive Found where
  | node (place : Place)
  | free (place : Place)
  deriving DecidableEq, Repr

def startOf (place : Place) (path : String) : Place :=
  if Path.isAbsolute path then [] else place

/-- Walks the names one by one. Links in the middle are always followed, the last one on demand;
`follow` goes on where a link leads. -/
def walkWith (tree : Filesystem) (followLast : Bool)
    (follow : Place → List String → Except Int Found) (place : Place) :
    List String → Except Int Found
  | [] => .ok (.node place)
  | name :: rest =>
      match tree.node? place with
      | none => .error SystemError.notFound
      | some .directory =>
          if nameLimit < name.utf8ByteSize then .error SystemError.nameTooLong
          else if name = "." then walkWith tree followLast follow place rest
          else if name = ".." then walkWith tree followLast follow place.dropLast rest
          else
            let next := place ++ [name]
            match tree.node? next with
            | none => if rest.isEmpty then .ok (.free next) else .error SystemError.notFound
            | some (.link target) =>
                if rest.isEmpty && !followLast then .ok (.node next)
                else follow (startOf place target) (Path.steps target ++ rest)
            | some _ => walkWith tree followLast follow next rest
      | some _ => .error SystemError.notADirectory

def walk (tree : Filesystem) (followLast : Bool) : Nat → Place → List String → Except Int Found
  | 0 => tree.walkWith followLast fun _ _ => .error SystemError.tooManyLinks
  | links + 1 => tree.walkWith followLast (walk tree followLast links)

def locate (tree : Filesystem) (followLast : Bool) (path : String) : Except Int Found :=
  if path = "" then .error SystemError.notFound
  else if pathLimit < path.utf8ByteSize then .error SystemError.nameTooLong
  else tree.walk followLast linkLimit (startOf workingPlace path) (Path.steps path)

def lookup (tree : Filesystem) (followLast : Bool) (path : String) :
    Except Int (Place × Entry) :=
  match tree.locate followLast path with
  | .error number => .error number
  | .ok (.free _) => .error SystemError.notFound
  | .ok (.node place) =>
      match tree.entry? place with
      | some entry => .ok (place, entry)
      | none => .error SystemError.notFound

def nodeAt (tree : Filesystem) (path : String) : Except Int Node :=
  (tree.lookup false path).map fun found => found.2.node

def target (tree : Filesystem) (path : String) : Except Int Node :=
  (tree.lookup true path).map fun found => found.2.node

def meansAbsent (number : Int) : Bool :=
  number == SystemError.notFound || number == SystemError.notADirectory ||
    number == SystemError.badHandle || number == SystemError.tooManyLinks

def leadsSomewhere (tree : Filesystem) (path : String) : Except Int Bool :=
  match tree.target path with
  | .ok _ => .ok true
  | .error number => if meansAbsent number then .ok false else .error number

def isDirectory (tree : Filesystem) (path : String) : Except Int Bool :=
  match tree.target path with
  | .ok node => .ok (node == .directory)
  | .error number => if meansAbsent number then .ok false else .error number

def isThere (tree : Filesystem) (path : String) : Bool := (tree.target path).isOk

def isThereItself (tree : Filesystem) (path : String) : Bool := (tree.nodeAt path).isOk

def add (tree : Filesystem) (place : Place) (node : Node) (mode : Int) : Filesystem :=
  ⟨tree.entries ++ [⟨place, node, mode⟩]⟩

def remove (tree : Filesystem) (place : Place) : Filesystem :=
  ⟨tree.entries.filter fun entry => entry.place != place⟩

def modify (tree : Filesystem) (place : Place) (change : Entry → Entry) : Filesystem :=
  ⟨tree.entries.map fun entry => if entry.place == place then change entry else entry⟩

def create (tree : Filesystem) (path : String) (node : Node) (mode : Int) :
    Except Int Filesystem :=
  match tree.locate false path with
  | .error number => .error number
  | .ok (.node _) => .error SystemError.fileExists
  | .ok (.free place) => .ok (tree.add place node mode)

def unlink (tree : Filesystem) (path : String) : Except Int Filesystem :=
  match tree.lookup false path with
  | .error number => .error number
  | .ok (place, entry) =>
      if entry.node = .directory then .error SystemError.isADirectory
      else .ok (tree.remove place)

def changeMode (tree : Filesystem) (path : String) (mode : Int) : Except Int Filesystem :=
  match tree.lookup true path with
  | .error number => .error number
  | .ok (place, _) => .ok (tree.modify place fun entry => { entry with mode := mode })

/-- Sockets of a server that no longer listens refuse connections from then on. -/
def retire (tree : Filesystem) (server : Nat) : Filesystem :=
  ⟨tree.entries.map fun entry =>
    if entry.node = .socket (.served server) then { entry with node := .socket .refusing }
    else entry⟩

def openAppend (tree : Filesystem) (path : String) : Except Int (Filesystem × Place) :=
  match tree.locate true path with
  | .error number => .error number
  | .ok (.free place) => .ok (tree.add place (.file "") fileMode, place)
  | .ok (.node place) =>
      match tree.node? place with
      | some .directory => .error SystemError.isADirectory
      | some (.socket _) => .error SystemError.noDevice
      | _ => .ok (tree, place)

def append (tree : Filesystem) (place : Place) (text : String) : Filesystem :=
  tree.modify place fun entry =>
    match entry.node with
    | .file content => { entry with node := .file (content ++ text) }
    | _ => entry

def files (tree : Filesystem) : List (String × String) :=
  tree.entries.filterMap fun entry =>
    match entry.node, entry.place.getLast? with
    | .file content, some name =>
        if entry.place.dropLast == workingPlace then some (name, content) else none
    | _, _ => none

end Filesystem
end SteeringChannel
