import SteeringChannel.Errand
import SteeringChannel.Invocation
import SteeringChannel.Journal.Output
import SteeringChannel.Settings.EnvFile

/-!
The program as it is called: from arguments, environment and env file to a plan, or to the reason
why there is none.
-/

namespace SteeringChannel

inductive Halt where
  | envFile (failure : EnvFile.Failure)
  | usage (refusal : Usage.Refusal)
  | settings (faults : List Settings.FieldFault)
  | journal (error : PathError)
  deriving Repr

inductive Task where
  | daemon
  | errand (errand : Errand)
  deriving DecidableEq, Repr

def Request.task : Request → Task
  | .serve => .daemon
  | .start => .errand .start
  | .stop => .errand .stop
  | .set text => .errand (.set text)

structure Plan where
  task : Task
  verbose : Bool
  settings : Settings
  journal : Journal.Output
  deriving Repr

namespace Plan

def withSocket (settings : Settings) : Option String → Settings
  | none => settings
  | some path => if path = "" then settings else { settings with socketPath := path }

def loadEnvFile (environment : Environment) : Option (List UInt8) → Except Halt Environment
  | none => .ok environment
  | some bytes =>
      match EnvFile.load environment bytes with
      | (loaded, none) => .ok loaded
      | (_, some failure) => .error (.envFile failure)

/-- The env file comes first, then the arguments, then the settings, then the journal. -/
def make (environment : Environment) (envFile : Option (List UInt8)) (arguments : List String)
    (tree : Filesystem) (terminal : Bool) : Except Halt Plan := do
  let environment ← loadEnvFile environment envFile
  let invocation ← (Invocation.read arguments).mapError Halt.usage
  let settings ← (Settings.build environment []).mapError Halt.settings
  match ({ tree := tree } : Journal.Output).setUp invocation.verbose terminal settings.logColor
      settings.logFile with
  | (_, some error) => .error (.journal error)
  | (journal, none) =>
      .ok ⟨invocation.request.task, invocation.verbose,
        withSocket settings invocation.socket, journal⟩

def consoleText (plan : Plan) (records : List Journal.Record) : String :=
  (records.foldl Journal.Output.write plan.journal).console

end Plan
end SteeringChannel
