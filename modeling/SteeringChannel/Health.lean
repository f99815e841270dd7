import SteeringChannel.Filesystem
import SteeringChannel.Journal.Record
import SteeringChannel.Settings

/-!
Checks before the start: the directory of the socket, the place of the socket, and the relay
device. The first two are critical.
-/

namespace SteeringChannel.Health

structure Finding where
  name : String
  passed : Bool
  detail : String
  deriving DecidableEq, Repr

structure Surroundings where
  tree : Filesystem
  denied : List String := []
  deriving Repr

def Surroundings.accessible (surroundings : Surroundings) (path : String) : Bool :=
  surroundings.tree.isThere path && !surroundings.denied.contains path

def directoryName : String := "socket_dir"

def pathName : String := "socket_path"

def deviceName : String := "relay_device"

def checkDirectory (surroundings : Surroundings) (settings : Settings) :
    Except PathError Finding :=
  let parent := Path.parent settings.socketPath
  let found :=
    if Path.hasNul parent then .ok false else surroundings.tree.isDirectory parent
  match found with
  | .error number => .error (.system ⟨number, some parent⟩)
  | .ok false => .ok ⟨directoryName, false, parent ++ " does not exist"⟩
  | .ok true =>
      if surroundings.accessible parent then .ok ⟨directoryName, true, parent ++ " is writable"⟩
      else .ok ⟨directoryName, false, parent ++ " is not writable"⟩

def checkPath (surroundings : Surroundings) (settings : Settings) : Except PathError Finding :=
  let path := Path.normalize settings.socketPath
  if Path.hasNul path then .error .embeddedNul
  else match surroundings.tree.nodeAt path with
    | .error number =>
        if number = SystemError.notFound then .ok ⟨pathName, true, path ++ " is free"⟩
        else .ok ⟨pathName, false, (SystemError.mk number (some path)).message⟩
    | .ok node =>
        if node.isSocket then
          .ok ⟨pathName, true,
            "Existing socket at " ++ path ++ ", bind checks whether it is still served"⟩
        else .ok ⟨pathName, false, path ++ " exists and is not a socket"⟩

def checkDevice (surroundings : Surroundings) (settings : Settings) : Finding :=
  let device := settings.relayDevice
  if device = "" then ⟨deviceName, true, "Skipped (no relay configured)"⟩
  else if Path.hasNul device || !surroundings.tree.isThere device then
    ⟨deviceName, false, device ++ " not found, commands will not be relayed"⟩
  else if !surroundings.accessible device then
    ⟨deviceName, false, device ++ " is not readable and writable"⟩
  else
    ⟨deviceName, true,
      device ++ " available (" ++ toString settings.relayBaudrate ++ " baud)"⟩

def check (surroundings : Surroundings) (settings : Settings) :
    Except PathError (List Finding) := do
  let directory ← checkDirectory surroundings settings
  let path ← checkPath surroundings settings
  pure [directory, path, checkDevice surroundings settings]

def hasCriticalFailure (findings : List Finding) : Bool :=
  findings.any fun finding =>
    !finding.passed && (finding.name == directoryName || finding.name == pathName)

def record (level : Int) (message : String) : Journal.Record :=
  { level := level, source := Journal.Source.health, message := message }

def findingRecord (finding : Finding) : Journal.Record :=
  let symbol := if finding.passed then "OK" else "FAIL"
  record (if finding.passed then Journal.info else Journal.warning)
    ("  [" ++ symbol ++ "] " ++ finding.name ++ ": " ++ finding.detail)

def records (findings : List Finding) : List Journal.Record :=
  let passed := (findings.filter Finding.passed).length
  record Journal.info
      ("Health check: " ++ toString passed ++ "/" ++ toString findings.length ++ " passed") ::
    findings.map findingRecord

end SteeringChannel.Health
