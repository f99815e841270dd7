import SteeringChannel.Usage.Argument

/-!
Invocations of the program: what its arguments ask for, read from left to right. Help ends the
reading where it is met, and arguments that nothing takes are reported at the end.
-/

namespace SteeringChannel

inductive Request where
  | serve
  | start
  | stop
  | set (text : String)
  deriving DecidableEq, Repr

structure Invocation where
  socket : Option String := none
  verbose : Bool := false
  request : Request := .serve
  deriving DecidableEq, Repr

namespace Usage

structure Reading where
  socket : Option String := none
  verbose : Bool := false
  operands : List String := []
  extras : List String := []
  deriving DecidableEq, Repr

def Reading.skip (reading : Reading) (text : String) : Reading :=
  { reading with extras := reading.extras ++ [text] }

def Reading.setSocket (reading : Reading) (value : String) : Reading :=
  { reading with socket := if value = "--" then none else some value }

namespace Form

def refuse {α : Type} (form : Form) (cause : Problem) : Except Refusal α :=
  .error (.problem form cause)

def cluster (form : Form) (switch : Switch) : List Char → Except Problem (List Switch)
  | [] => .ok [switch]
  | letter :: rest =>
      match form.switch? (String.ofList ['-', letter]) with
      | none => .error (.unusedValue switch (String.ofList (letter :: rest)))
      | some next => (form.cluster next rest).map (switch :: ·)

def turnOn (form : Form) (reading : Reading) : List Switch → Except Refusal Reading
  | [] => .ok reading
  | .help :: _ => .error (.help form)
  | .verbose :: rest => form.turnOn { reading with verbose := true } rest
  | .socket :: rest => form.turnOn reading rest

def takeOption (form : Form) (reading : Reading) (switch : Switch) (isLetter : Bool) :
    Option String → Except Refusal Reading
  | none =>
      if switch.takesValue then form.refuse (.missingValue switch)
      else form.turnOn reading [switch]
  | some value =>
      if switch.takesValue then .ok (reading.setSocket value)
      else if isLetter && value != "" then
        match form.cluster switch value.toList with
        | .ok switches => form.turnOn reading switches
        | .error problem => form.refuse problem
      else form.refuse (.unusedValue switch value)

def wantsOperand (form : Form) (reading : Reading) : Bool :=
  form.operand != .nothing && reading.operands.isEmpty

/-- The separator goes with the operand beside it, and a request takes everything after it. -/
def read (form : Form) (reading : Reading) : List Argument → Except Refusal Reading
  | [] => .ok reading
  | ⟨text, .unknownOption⟩ :: rest => form.read (reading.skip text) rest
  | ⟨_, .option switch isLetter value⟩ :: rest =>
      match value, rest with
      | none, ⟨next, .operand⟩ :: others =>
          if switch.takesValue then form.read (reading.setSocket next) others
          else do
            let reading ← form.turnOn reading [switch]
            form.read reading (⟨next, .operand⟩ :: others)
      | value, rest => do
          let reading ← form.takeOption reading switch isLetter value
          form.read reading rest
  | ⟨text, .separator⟩ :: ⟨next, .operand⟩ :: rest =>
      if form.wantsOperand reading then
        if form.operand = .request then
          .ok { reading with operands := text :: next :: rest.map Argument.text }
        else form.read { reading with operands := [next] } rest
      else form.read (reading.skip text) (⟨next, .operand⟩ :: rest)
  | ⟨text, .operand⟩ :: rest =>
      if form.wantsOperand reading then
        if form.operand = .request then
          .ok { reading with operands := text :: rest.map Argument.text }
        else
          match rest with
          | ⟨_, .separator⟩ :: others => form.read { reading with operands := [text] } others
          | rest => form.read { reading with operands := [text] } rest
      else form.read (reading.skip text) rest
  | ⟨text, .separator⟩ :: rest => form.read (reading.skip text) rest

def readAll (form : Form) (arguments : List String) : Except Refusal Reading :=
  match form.sort arguments with
  | .ok sorted => form.read {} sorted
  | .error problem => form.refuse problem

end Form

def readRequest (name : String) (arguments : List String) :
    Except Refusal (Request × List String) := do
  match name with
  | "serve" => pure (.serve, (← (plainForm name).readAll arguments).extras)
  | "start" => pure (.start, (← (plainForm name).readAll arguments).extras)
  | "stop" => pure (.stop, (← (plainForm name).readAll arguments).extras)
  | "set" =>
      let reading ← setForm.readAll arguments
      match reading.operands with
      | value :: _ => pure (.set value, reading.extras)
      | [] => setForm.refuse .missingOperand
  | name => mainForm.refuse (.unknownRequest name)

end Usage

open Usage in
def Invocation.read (arguments : List String) : Except Refusal Invocation := do
  let reading ← mainForm.readAll arguments
  let (request, extras) ←
    match reading.operands with
    | [] => pure (.serve, [])
    | name :: rest => readRequest name rest
  match reading.extras ++ extras with
  | [] => pure ⟨reading.socket, reading.verbose, request⟩
  | extras => mainForm.refuse (.unrecognized extras)

end SteeringChannel
