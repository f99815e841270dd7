import SteeringChannel.Settings
import SteeringChannel.Settings.Coercion

/-!
Where settings come from: explicit overrides first, then the environment, then the defaults.
Names in the environment carry a prefix and are matched without regard to case.
-/

namespace SteeringChannel

/-- Variables in the order in which they were set; no name occurs twice. -/
abbrev Environment := List (String × String)

namespace Settings

inductive Field where
  | socketPath
  | socketMode
  | readTimeoutSeconds
  | rejectConcurrent
  | initialValue
  | relayDevice
  | relayBaudrate
  | logFile
  | logColor
  deriving DecidableEq, Repr

namespace Field

def all : List Field :=
  [socketPath, socketMode, readTimeoutSeconds, rejectConcurrent, initialValue, relayDevice,
    relayBaudrate, logFile, logColor]

def name : Field → String
  | socketPath => "socket_path"
  | socketMode => "socket_mode"
  | readTimeoutSeconds => "read_timeout_seconds"
  | rejectConcurrent => "reject_concurrent"
  | initialValue => "initial_value"
  | relayDevice => "relay_device"
  | relayBaudrate => "relay_baudrate"
  | logFile => "log_file"
  | logColor => "log_color"

def variableName (field : Field) : String := "swi_control_" ++ field.name

end Field

structure FieldFault where
  name : String
  fault : Fault
  deriving DecidableEq, Repr

/-- Lower case of ASCII letters; the Kelvin sign is the one other letter whose lower case is an
ASCII letter. -/
def lowerLetter (letter : Char) : Char :=
  if letter.toNat = 0x212a then 'k' else letter.toLower

def lowerName (name : String) : List Char := name.toList.map lowerLetter

/-- Of several spellings of a name the one that was set last counts. -/
def fromEnvironment (environment : Environment) (field : Field) : Option String :=
  let found := environment.reverse.find? fun entry =>
    lowerName entry.1 == field.variableName.toList
  found.map Prod.snd

def source (environment : Environment) (overrides : List (String × Value)) (field : Field) :
    Option Value :=
  match overrides.find? fun entry => entry.1 == field.name with
  | some entry => some entry.2
  | none => (fromEnvironment environment field).map Value.text

def assign (settings : Settings) (field : Field) (value : Value) : Except Fault Settings :=
  match field with
  | .socketPath => (asText value).map fun text => { settings with socketPath := text }
  | .socketMode => (asWhole value).map fun whole => { settings with socketMode := whole }
  | .readTimeoutSeconds =>
      (asDuration value).map fun number => { settings with readTimeoutSeconds := number }
  | .rejectConcurrent => (asFlag value).map fun flag => { settings with rejectConcurrent := flag }
  | .initialValue => (asByte value).map fun whole => { settings with initialValue := whole }
  | .relayDevice => (asText value).map fun text => { settings with relayDevice := text }
  | .relayBaudrate => (asWhole value).map fun whole => { settings with relayBaudrate := whole }
  | .logFile => (asText value).map fun text => { settings with logFile := text }
  | .logColor => (asFlag value).map fun flag => { settings with logColor := flag }

def load (environment : Environment) (overrides : List (String × Value)) :
    List Field → Settings → Settings × List FieldFault
  | [], settings => (settings, [])
  | field :: rest, settings =>
      match source environment overrides field with
      | none => load environment overrides rest settings
      | some value =>
          match settings.assign field value with
          | .ok assigned => load environment overrides rest assigned
          | .error fault =>
              let (loaded, faults) := load environment overrides rest settings
              (loaded, ⟨field.name, fault⟩ :: faults)

def unknownNames (overrides : List (String × Value)) : List FieldFault :=
  (overrides.filter fun entry => !(Field.all.any fun field => field.name == entry.1)).map
    fun entry => ⟨entry.1, .unknownName⟩

/-- All faults are reported together: those of the fields in their order, then unknown names. -/
def build (environment : Environment) (overrides : List (String × Value)) :
    Except (List FieldFault) Settings :=
  let (settings, faults) := load environment overrides Field.all {}
  match faults ++ unknownNames overrides with
  | [] => .ok settings
  | faults => .error faults

end Settings
end SteeringChannel
