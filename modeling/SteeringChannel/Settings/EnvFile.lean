import SteeringChannel.Settings.Source
import SteeringChannel.SystemError
import SteeringChannel.Text.Blank
import SteeringChannel.Text.Utf8

/-!
Env files: lines that assign values to variables which are not set yet. The first assignment to a
name wins, and a line that cannot take effect ends the loading.
-/

namespace SteeringChannel.EnvFile

inductive Failure where
  | emptyName
  | embeddedNul
  | undecodable (fault : Text.Utf8.Fault)
  deriving DecidableEq, Repr

def Failure.message : Failure → String
  | .emptyName => (SystemError.mk SystemError.invalid none).message
  | .embeddedNul => "embedded null byte"
  | .undecodable fault => fault.message

def splitLines : List Char → List (List Char)
  | [] => []
  | '\r' :: '\n' :: rest => [] :: splitLines rest
  | letter :: rest =>
      if letter = '\n' || letter = '\r' then [] :: splitLines rest
      else match splitLines rest with
        | [] => [[letter]]
        | line :: others => (letter :: line) :: others

/-- The text up to its last finished line. A carriage return at the very end may still be half of
a line end, so it finishes nothing. -/
def finishedPart (text : List Char) : List Char :=
  let text := if text.getLast? == some '\r' then text.dropLast else text
  (text.reverse.dropWhile fun letter => letter != '\n' && letter != '\r').reverse

def pieceSize : Nat := 8192

/-- The text of a file as far as it could be decoded piece by piece. Bytes of a character cut off
at the end of a piece are carried over to the next one; positions in a fault count from there. -/
def decodePieces (pending : List UInt8) : Nat → List UInt8 → List Char × Option Text.Utf8.Fault
  | 0, _ => ([], none)
  | fuel + 1, bytes =>
      let last := bytes.isEmpty
      let piece := pending ++ bytes.take pieceSize
      let (text, fault) := Text.Utf8.decodeFrom 0 piece
      match fault with
      | none =>
          if last then (text, none)
          else
            let (more, fault) := decodePieces [] fuel (bytes.drop pieceSize)
            (text ++ more, fault)
      | some fault =>
          if fault.cause = .truncated && !last then
            let (more, later) :=
              decodePieces (piece.drop fault.position) fuel (bytes.drop pieceSize)
            (text ++ more, later)
          else ([], some fault)

def readLines (bytes : List UInt8) : List (List Char) × Option Text.Utf8.Fault :=
  match decodePieces [] (bytes.length / pieceSize + 2) bytes with
  | (text, none) => (splitLines text, none)
  | (text, some fault) => (splitLines (finishedPart text), some fault)

def isQuoteMark (letter : Char) : Bool := letter == '\'' || letter == '"'

def assignment? (line : List Char) : Option (List Char × List Char) :=
  let line := Text.strip line
  if line.head? == some '#' || !line.contains '=' then none
  else
    some (Text.strip (line.takeWhile (· != '=')),
      Text.trimBoth isQuoteMark (Text.strip ((line.dropWhile (· != '=')).drop 1)))

def isSet (environment : Environment) (name : String) : Bool :=
  environment.any fun entry => entry.1 == name

def setVariable (environment : Environment) (name value : List Char) :
    Except Failure Environment :=
  if isSet environment (String.ofList name) then .ok environment
  else if name.contains '\x00' || value.contains '\x00' then .error .embeddedNul
  else if name.isEmpty then .error .emptyName
  else .ok (environment ++ [(String.ofList name, String.ofList value)])

def loadLines (environment : Environment) : List (List Char) → Environment × Option Failure
  | [] => (environment, none)
  | line :: rest =>
      match assignment? line with
      | none => loadLines environment rest
      | some (name, value) =>
          match setVariable environment name value with
          | .ok extended => loadLines extended rest
          | .error failure => (environment, some failure)

def load (environment : Environment) (bytes : List UInt8) : Environment × Option Failure :=
  let (lines, fault) := readLines bytes
  match loadLines environment lines with
  | (loaded, some failure) => (loaded, some failure)
  | (loaded, none) => (loaded, fault.map Failure.undecodable)

end SteeringChannel.EnvFile
