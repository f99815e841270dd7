/-!
Records of the journal: a level, the part of the program that wrote it, the message, and the
failure it reports, if any.
-/

namespace SteeringChannel.Journal

def debug : Int := 10

def info : Int := 20

def warning : Int := 30

def error : Int := 40

def critical : Int := 50

def levelName (level : Int) : String :=
  if level = 50 then "CRITICAL"
  else if level = 40 then "ERROR"
  else if level = 30 then "WARNING"
  else if level = 20 then "INFO"
  else if level = 10 then "DEBUG"
  else if level = 0 then "NOTSET"
  else "Level " ++ toString level

structure Failure where
  kind : String
  text : String
  deriving DecidableEq, Repr

def Failure.line (failure : Failure) : String :=
  if failure.text = "" then failure.kind else failure.kind ++ ": " ++ failure.text

structure Record where
  level : Int
  source : String
  message : String
  failure : Option Failure := none
  created : Int := 0
  deriving DecidableEq, Repr

namespace Source

def root : String := "root"

def control : String := "swi_control.adapters.unix_control"

def relay : String := "swi_control.adapters.serial_relay"

def dispatcher : String := "swi_control.domain.dispatcher"

def health : String := "swi_control.health"

def transport : String := "asyncio"

end Source

end SteeringChannel.Journal
