import SteeringChannel.Text.Quoted

/-!
The forms of the command line: the options each one knows, its usage and help texts, and the ways
in which arguments can fail to fit it.
-/

namespace SteeringChannel.Usage

inductive Switch where
  | help
  | socket
  | verbose
  deriving DecidableEq, Repr

def Switch.title : Switch → String
  | help => "-h/--help"
  | socket => "--socket"
  | verbose => "--verbose/-v"

def Switch.takesValue : Switch → Bool
  | socket => true
  | help => false
  | verbose => false

inductive Operand where
  | nothing
  | value
  | request
  deriving DecidableEq, Repr

structure Form where
  program : String
  options : List (String × Switch)
  operand : Operand
  summary : String
  details : String
  deriving DecidableEq, Repr

def Form.switch? (form : Form) (spelling : String) : Option Switch := form.options.lookup spelling

def programName : String := "swi-control"

def requestNames : List String := ["serve", "start", "stop", "set"]

def choices : String := "\x7b" ++ String.intercalate "," requestNames ++ "\x7d"

def mainForm : Form :=
  { program := programName
    options := [("-h", .help), ("--help", .help), ("--socket", .socket), ("--verbose", .verbose),
      ("-v", .verbose)]
    operand := .request
    summary :=
      "usage: " ++ programName ++ " [-h] [--socket SOCKET] [--verbose]\n" ++
      "                   " ++ choices ++ " ...\n"
    details :=
      "\nSteering wheel interface control channel\n" ++
      "\npositional arguments:\n" ++
      "  " ++ choices ++ "\n" ++
      "    serve               Run the control daemon (default)\n" ++
      "    start               Send START\n" ++
      "    stop                Send STOP\n" ++
      "    set                 Send SET with a value from 0 to 255\n" ++
      "\noptions:\n" ++
      "  -h, --help            show this help message and exit\n" ++
      "  --socket SOCKET       Control socket path\n" ++
      "  --verbose, -v         Verbose logging\n" }

def helpOptions : List (String × Switch) := [("-h", .help), ("--help", .help)]

def helpDetails : String := "\noptions:\n  -h, --help  show this help message and exit\n"

def plainForm (name : String) : Form :=
  { program := programName ++ " " ++ name
    options := helpOptions
    operand := .nothing
    summary := "usage: " ++ programName ++ " " ++ name ++ " [-h]\n"
    details := helpDetails }

def setForm : Form :=
  { program := programName ++ " set"
    options := helpOptions
    operand := .value
    summary := "usage: " ++ programName ++ " set [-h] value\n"
    details := "\npositional arguments:\n  value       Value to set\n" ++ helpDetails }

inductive Problem where
  | ambiguous (argument : String) (candidates : List String)
  | unusedValue (switch : Switch) (value : String)
  | missingValue (switch : Switch)
  | unknownRequest (name : String)
  | missingOperand
  | unrecognized (arguments : List String)
  deriving DecidableEq, Repr

def Problem.message : Problem → String
  | ambiguous argument candidates =>
      "ambiguous option: " ++ argument ++ " could match " ++ String.intercalate ", " candidates
  | unusedValue switch value =>
      "argument " ++ switch.title ++ ": ignored explicit argument " ++ Text.quote value
  | missingValue switch => "argument " ++ switch.title ++ ": expected one argument"
  | unknownRequest name =>
      "argument command: invalid choice: " ++ Text.quote name ++ " (choose from " ++
        String.intercalate ", " (requestNames.map Text.quote) ++ ")"
  | missingOperand => "the following arguments are required: value"
  | unrecognized arguments => "unrecognized arguments: " ++ String.intercalate " " arguments

inductive Refusal where
  | help (form : Form)
  | problem (form : Form) (problem : Problem)
  deriving DecidableEq, Repr

namespace Refusal

def status : Refusal → Nat
  | help _ => 0
  | problem _ _ => 2

def output : Refusal → String
  | help form => form.summary ++ form.details
  | problem _ _ => ""

def errors : Refusal → String
  | help _ => ""
  | problem form cause => form.summary ++ form.program ++ ": error: " ++ cause.message ++ "\n"

end Refusal
end SteeringChannel.Usage
