import SteeringChannel.Journal.Record
import SteeringChannel.SystemError
import SteeringChannel.Value

/-!
Failures put together from a kind and its details, as records report them.
-/

namespace SteeringChannel.Journal

def systemKinds : List String :=
  ["OSError", "PermissionError", "FileNotFoundError", "ProcessLookupError", "InterruptedError",
    "ChildProcessError", "BlockingIOError", "FileExistsError", "NotADirectoryError",
    "IsADirectoryError", "BrokenPipeError", "ConnectionAbortedError", "ConnectionResetError",
    "TimeoutError", "ConnectionRefusedError"]

def detailsText : List Value → String
  | [] => ""
  | [detail] => detail.written
  | details => "(" ++ String.intercalate ", " (details.map Value.shown) ++ ")"

/-- A number and a description make a failure of the system, which is named after its number
where only the general kind was given. -/
def Failure.describe (kind : String) (details : List Value) : Failure :=
  if systemKinds.contains kind then
    match details with
    | .whole number :: description :: rest =>
        { kind := if kind = "OSError" then SystemError.kind number else kind
          text := "[Errno " ++ toString number ++ "] " ++ description.written ++
            match rest with
            | [] => ""
            | .none :: _ => ""
            | path :: _ => ": " ++ path.shown }
    | details => ⟨kind, detailsText details⟩
  else if kind = "BindError" then ⟨"swi_control.ports.control.BindError", detailsText details⟩
  else ⟨kind, detailsText details⟩

end SteeringChannel.Journal
