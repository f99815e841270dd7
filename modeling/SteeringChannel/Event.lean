import SteeringChannel.Text.Blank
import SteeringChannel.Text.Quoted

/-!
Events of the subsystem and the lines that announce them. A line is searched for the keywords in a
fixed order, and only its first 64 bytes count.
-/

namespace SteeringChannel

inductive Event where
  | keyDown (code : UInt8)
  | keyUp (code : UInt8)
  | pinInput (raw : List UInt8)
  | debugMessage (text : String)
  deriving DecidableEq, Repr

namespace Event

def lineLimit : Nat := 64

def keyDownWord : List UInt8 := [0x4b, 0x45, 0x59, 0x44, 0x4f, 0x57, 0x4e]

def keyUpWord : List UInt8 := [0x4b, 0x45, 0x59, 0x55, 0x50]

def pinInputWord : List UInt8 := [0x50, 0x49, 0x4e, 0x50, 0x55, 0x54]

def debugWord : List UInt8 := [0x44, 0x45, 0x42, 0x55, 0x47]

def seek (word : List UInt8) : List UInt8 → Option (List UInt8)
  | [] => none
  | byte :: rest => if word.isPrefixOf (byte :: rest) then some (byte :: rest) else seek word rest

/-- One separator byte follows the keyword, then the code. -/
def keyCode (word found : List UInt8) : Option UInt8 := (found.drop (word.length + 1)).head?

def isTerminator (byte : UInt8) : Bool := byte == 0x0a || byte == 0x0d

def ofLine (line : List UInt8) : Option Event :=
  let line := line.take lineLimit
  match seek keyDownWord line with
  | some found => (keyCode keyDownWord found).map keyDown
  | none =>
  match seek keyUpWord line with
  | some found => (keyCode keyUpWord found).map keyUp
  | none =>
  match seek pinInputWord line with
  | some found => some (pinInput (Text.trimEnd isTerminator found))
  | none =>
  match seek debugWord line with
  | some found =>
      some (debugMessage
        (String.ofList (Text.Utf8.decodeLossy (Text.trimEnd isTerminator found))))
  | none => none

end Event
end SteeringChannel
