import SteeringChannel.Filesystem
import SteeringChannel.Journal.Layout

/-!
Where records go: the console, and a file that is only ever appended to. Setting up replaces the
handlers of the set-up before.
-/

namespace SteeringChannel.Journal

inductive Handler where
  | console (colored : Bool)
  | file (place : Place)
  deriving DecidableEq, Repr

structure Output where
  level : Int := warning
  handlers : List Handler := []
  console : String := ""
  tree : Filesystem := .empty
  deriving Repr

def consolePattern : String := "%H:%M:%S"

namespace Output

def openFile (tree : Filesystem) (path : String) : Except PathError (Filesystem × Place) :=
  let absolute := Path.absolute Filesystem.workingPlace path
  if Path.hasNul path then .error .embeddedNul
  else match tree.openAppend absolute with
    | .ok opened => .ok opened
    | .error number => .error (.system ⟨number, some absolute⟩)

/-- The console handler is in place even when the file cannot be opened. -/
def setUp (output : Output) (verbose terminal color : Bool) (path : String) :
    Output × Option PathError :=
  let output :=
    { output with
      level := if verbose then debug else info
      handlers := [.console (color && terminal)] }
  if path = "" then (output, none)
  else match openFile output.tree path with
    | .ok (tree, place) =>
        ({ output with tree := tree, handlers := output.handlers ++ [.file place] }, none)
    | .error error => (output, some error)

def enabled (output : Output) (record : Record) : Bool :=
  0 < record.level && output.level ≤ record.level

def line (colored : Bool) (pattern : Option String) (record : Record) : String :=
  String.ofList
    ((if colored then coloredLine pattern record else plainLine pattern record) ++ ['\n'])

def handle (output : Output) (record : Record) : Handler → Output
  | .console colored =>
      { output with console := output.console ++ line colored (some consolePattern) record }
  | .file place => { output with tree := output.tree.append place (line false none record) }

def write (output : Output) (record : Record) : Output :=
  if !output.enabled record then output
  else if output.handlers.isEmpty then
    if warning ≤ record.level then
      { output with console := output.console ++ String.ofList (bareLine record ++ ['\n']) }
    else output
  else output.handlers.foldl (fun output handler => output.handle record handler) output

end Output
end SteeringChannel.Journal
