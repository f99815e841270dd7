import SteeringChannel.Filesystem

/-!
Paths as addresses of sockets: reaching the listener behind one, and making a new one. An address
has room for 107 bytes and ends at its first zero byte.
-/

namespace SteeringChannel.Address

inductive Failure where
  | tooLong
  | inUse (path : String)
  | system (number : Int)
  deriving DecidableEq, Repr

def Failure.message : Failure → String
  | .tooLong => "AF_UNIX path too long"
  | .inUse path =>
      "[Errno " ++ toString SystemError.addressInUse ++ "] Address " ++ Text.quote path ++
        " is already in use"
  | .system number => (SystemError.mk number none).message

def Failure.meansNobody : Failure → Bool
  | .system number => number == SystemError.connectionRefused || number == SystemError.notFound
  | _ => false

inductive Listener where
  | server (index : Nat)
  | unattended
  deriving DecidableEq, Repr

def limit : Nat := 107

def uptoNul (path : String) : String := String.ofList (path.toList.takeWhile (· != '\x00'))

def ofNode : Node → Except Failure Listener
  | .socket (.served index) => .ok (.server index)
  | .socket .unattended => .ok .unattended
  | .socket .datagram => .error (.system SystemError.wrongProtocol)
  | _ => .error (.system SystemError.connectionRefused)

def dial (tree : Filesystem) (path : String) : Except Failure Listener :=
  if limit < path.utf8ByteSize then .error .tooLong
  else if path = "" then .error (.system SystemError.invalid)
  else if path.toList.head? == some '\x00' then .error (.system SystemError.connectionRefused)
  else match tree.target (uptoNul path) with
    | .error number => .error (.system number)
    | .ok node => ofNode node

def bind (tree : Filesystem) (path : String) (server : Nat) : Except Failure Filesystem :=
  if limit < path.utf8ByteSize then .error .tooLong
  else match tree.locate false path with
    | .error number => .error (.system number)
    | .ok (.node _) => .error (.inUse path)
    | .ok (.free place) =>
        .ok (tree.add place (.socket (.served server)) Filesystem.directoryMode)

end SteeringChannel.Address
