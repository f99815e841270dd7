import SteeringChannel.Journal.Clock
import SteeringChannel.Journal.Record
import SteeringChannel.SystemError
import SteeringChannel.Value

/-!
Layouts of journal lines: a plain one, and a coloured one for terminals. Every colour that a part
of a coloured line turns on is turned off at the end of that part.
-/

namespace SteeringChannel.Journal

inductive Style where
  | reset
  | bold
  | dim
  | red
  | green
  | yellow
  | magenta
  | cyan
  deriving DecidableEq, Repr

def Style.code : Style → Nat
  | reset => 0
  | bold => 1
  | dim => 2
  | red => 31
  | green => 32
  | yellow => 33
  | magenta => 35
  | cyan => 36

def Style.sequence (style : Style) : List Char :=
  '\x1b' :: '[' :: (Nat.toDigits 10 style.code ++ ['m'])

def sequences (styles : List Style) : List Char := styles.flatMap Style.sequence

def painted (styles : List Style) (text : List Char) : List Char :=
  sequences styles ++ text ++ Style.reset.sequence

def levelStyles (level : Int) : List Style :=
  if level = debug then [.dim]
  else if level = info then [.green]
  else if level = warning then [.yellow]
  else if level = error then [.red]
  else if level = critical then [.red, .bold]
  else []

def contains (word text : List Char) : Bool :=
  match text with
  | [] => word.isEmpty
  | letter :: rest => word.isPrefixOf (letter :: rest) || contains word rest

def messageStyles (level : Int) (message : List Char) : Option (List Style) :=
  if contains "State:".toList message && contains "->".toList message then some [.bold, .cyan]
  else if contains "connected".toList message && "Client".toList.isPrefixOf message then
    some [.magenta]
  else if "Subsystem key".toList.isPrefixOf message then some [.bold, .green]
  else if level = debug then some [.dim]
  else if warning ≤ level then some (levelStyles level)
  else none

def padEnd (width : Nat) (text : List Char) : List Char :=
  text ++ List.replicate (width - text.length) ' '

def lastComponent (source : List Char) : List Char :=
  (source.reverse.takeWhile (· != '.')).reverse

def withFailure (line : List Char) (failure : Option Failure) : List Char :=
  match failure with
  | some failure => line ++ '\n' :: failure.line.toList
  | none => line

def coloredLine (pattern : Option String) (record : Record) : List Char :=
  let message := record.message.toList
  let line :=
    painted [.dim] (timeText pattern record.created).toList ++
      ' ' :: painted (levelStyles record.level) (padEnd 5 (levelName record.level).toList) ++
      ' ' :: painted [.dim] (padEnd 16 (lastComponent record.source.toList)) ++
      ' ' :: (match messageStyles record.level message with
        | some styles => painted styles message
        | none => message)
  withFailure line record.failure

def plainLine (pattern : Option String) (record : Record) : List Char :=
  let line :=
    (timeText pattern record.created).toList ++ ' ' :: record.source.toList ++
      ' ' :: (levelName record.level).toList ++ ' ' :: record.message.toList
  match record.failure with
  | some failure =>
      (if line.getLast? == some '\n' then line else line ++ ['\n']) ++ failure.line.toList
  | none => line

def bareLine (record : Record) : List Char :=
  let line := record.message.toList
  match record.failure with
  | some failure =>
      (if line.getLast? == some '\n' then line else line ++ ['\n']) ++ failure.line.toList
  | none => line

end SteeringChannel.Journal
