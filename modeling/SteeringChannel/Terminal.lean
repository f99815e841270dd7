import SteeringChannel.SystemError

/-!
Terminal lines. A line is first made raw and then set to eight data bits, no parity, one stop bit,
no flow control and the speed asked for.
-/

namespace SteeringChannel.Terminal

abbrev FlagWord := BitVec 32

structure Attributes where
  input : FlagWord := 0
  output : FlagWord := 0
  control : FlagWord := 0
  mode : FlagWord := 0
  inputSpeed : Nat := 13
  outputSpeed : Nat := 13
  minimum : Nat := 0
  time : Nat := 0
  deriving DecidableEq, Repr

namespace Input

def breakInterrupt : FlagWord := 0x2

def checkParity : FlagWord := 0x10

def strip : FlagWord := 0x20

def newlineToReturn : FlagWord := 0x40

def ignoreReturn : FlagWord := 0x80

def returnToNewline : FlagWord := 0x100

def flowOut : FlagWord := 0x400

def flowAny : FlagWord := 0x800

def flowIn : FlagWord := 0x1000

end Input

namespace Output

def process : FlagWord := 0x1

end Output

namespace Control

def sizeMask : FlagWord := 0x30

def eightBits : FlagWord := 0x30

def twoStopBits : FlagWord := 0x40

def receiver : FlagWord := 0x80

def parity : FlagWord := 0x100

def oddParity : FlagWord := 0x200

def ignoreModem : FlagWord := 0x800

def hardwareFlow : FlagWord := 0x80000000

end Control

namespace Mode

def signals : FlagWord := 0x1

def canonical : FlagWord := 0x2

def echo : FlagWord := 0x8

def extended : FlagWord := 0x8000

end Mode

def clear (word mask : FlagWord) : FlagWord := word &&& ~~~mask

def raw (attributes : Attributes) : Attributes :=
  { attributes with
    input := clear attributes.input (Input.breakInterrupt ||| Input.returnToNewline |||
      Input.checkParity ||| Input.strip ||| Input.flowOut)
    output := clear attributes.output Output.process
    control := clear attributes.control (Control.sizeMask ||| Control.parity) |||
      Control.eightBits
    mode := clear attributes.mode (Mode.echo ||| Mode.canonical ||| Mode.extended |||
      Mode.signals)
    minimum := 1
    time := 0 }

def lineSettings (speed : Nat) (attributes : Attributes) : Attributes :=
  { attributes with
    input := clear attributes.input (Input.flowOut ||| Input.flowIn ||| Input.flowAny)
    control := clear attributes.control (Control.parity ||| Control.oddParity |||
      Control.twoStopBits ||| Control.hardwareFlow) ||| (Control.ignoreModem ||| Control.receiver)
    inputSpeed := speed
    outputSpeed := speed
    minimum := 1
    time := 0 }

def speeds : List (Int × Nat) :=
  [(0, 0), (50, 1), (75, 2), (110, 3), (134, 4), (150, 5), (200, 6), (300, 7), (600, 8),
    (1200, 9), (1800, 10), (2400, 11), (4800, 12), (9600, 13), (19200, 14), (38400, 15),
    (57600, 4097), (115200, 4098), (230400, 4099), (460800, 4100), (500000, 4101),
    (576000, 4102), (921600, 4103), (1000000, 4104), (1152000, 4105), (1500000, 4106),
    (2000000, 4107), (2500000, 4108), (3000000, 4109), (3500000, 4110), (4000000, 4111)]

structure Change where
  flushing : Bool
  attributes : Attributes
  deriving DecidableEq, Repr

inductive LineError where
  | unsupportedSpeed (baudrate : Int)
  | attributes (number : Int)
  deriving DecidableEq, Repr

def LineError.message : LineError → String
  | .unsupportedSpeed baudrate => "Unsupported baudrate: " ++ toString baudrate
  | .attributes number =>
      "(" ++ toString number ++ ", " ++ Text.quote (SystemError.description number) ++ ")"

structure Line where
  attributes : Option Attributes := none
  failure : Option Int := none
  deriving DecidableEq, Repr

/-- The changes that set up a line. The speed is looked up before anything is touched. -/
def configure (baudrate : Int) (line : Line) : Except LineError (List Change) :=
  match speeds.lookup baudrate with
  | none => .error (.unsupportedSpeed baudrate)
  | some speed =>
      match line.failure, line.attributes with
      | some number, _ => .error (.attributes number)
      | none, none => .error (.attributes SystemError.notATerminal)
      | none, some attributes =>
          let made := raw attributes
          .ok [⟨true, made⟩, ⟨false, lineSettings speed made⟩]

def settle (attributes : Attributes) (changes : List Change) : Attributes :=
  changes.foldl (fun _ change => change.attributes) attributes

end SteeringChannel.Terminal
