/-!
UTF-8. Reading goes unit by unit: a unit is one character or one maximal ill-formed part, so the
lossy reader puts one replacement character for each part and the strict reader names the first.
-/

namespace SteeringChannel.Text.Utf8

inductive Malformation where
  | start
  | continuation
  | truncated
  deriving DecidableEq, Repr

def Malformation.message : Malformation → String
  | .start => "invalid start byte"
  | .continuation => "invalid continuation byte"
  | .truncated => "unexpected end of data"

inductive Reading where
  | letter (value : Char) (width : Nat)
  | malformed (cause : Malformation) (width : Nat)
  deriving DecidableEq, Repr

def Reading.width : Reading → Nat
  | .letter _ width => width
  | .malformed _ width => width

def isContinuation (byte : UInt8) : Bool := 0x80 ≤ byte && byte < 0xc0

def tailBits (byte : UInt8) : Nat := byte.toNat % 64

/-- The second byte of a long form is held to a narrower range after 0xe0, 0xed, 0xf0 and 0xf4:
overlong forms, surrogates and code points above U+10FFFF are ill-formed. -/
def secondAllowed (lead second : UInt8) : Bool :=
  isContinuation second &&
    !(lead == 0xe0 && second < 0xa0) && !(lead == 0xed && second ≥ 0xa0) &&
    !(lead == 0xf0 && second < 0x90) && !(lead == 0xf4 && second ≥ 0x90)

def readTwo (lead : UInt8) : List UInt8 → Reading
  | [] => .malformed .truncated 1
  | second :: _ =>
      if isContinuation second then
        .letter (Char.ofNat ((lead.toNat % 32) * 64 + tailBits second)) 2
      else .malformed .continuation 1

def readThree (lead : UInt8) : List UInt8 → Reading
  | [] => .malformed .truncated 1
  | second :: rest =>
      if !secondAllowed lead second then .malformed .continuation 1
      else match rest with
        | [] => .malformed .truncated 2
        | third :: _ =>
            if isContinuation third then
              .letter (Char.ofNat
                (((lead.toNat % 16) * 64 + tailBits second) * 64 + tailBits third)) 3
            else .malformed .continuation 2

def readFour (lead : UInt8) : List UInt8 → Reading
  | [] => .malformed .truncated 1
  | second :: rest =>
      if !secondAllowed lead second then .malformed .continuation 1
      else match rest with
        | [] => .malformed .truncated 2
        | third :: rest =>
            if !isContinuation third then .malformed .continuation 2
            else match rest with
              | [] => .malformed .truncated 3
              | fourth :: _ =>
                  if isContinuation fourth then
                    .letter (Char.ofNat
                      ((((lead.toNat % 8) * 64 + tailBits second) * 64 + tailBits third) * 64 +
                        tailBits fourth)) 4
                  else .malformed .continuation 3

def read (lead : UInt8) (rest : List UInt8) : Reading :=
  if lead < 0x80 then .letter (Char.ofNat lead.toNat) 1
  else if lead < 0xc2 then .malformed .start 1
  else if lead < 0xe0 then readTwo lead rest
  else if lead < 0xf0 then readThree lead rest
  else if lead < 0xf5 then readFour lead rest
  else .malformed .start 1

def encode (text : List Char) : List UInt8 := text.flatMap String.utf8EncodeChar

def size (text : String) : Nat := text.utf8ByteSize

def decodeLossy : List UInt8 → List Char
  | [] => []
  | lead :: rest =>
      match read lead rest with
      | .letter value width => value :: decodeLossy (rest.drop (width - 1))
      | .malformed _ width => Char.ofNat 0xfffd :: decodeLossy (rest.drop (width - 1))
termination_by bytes => bytes.length
decreasing_by all_goals simp only [List.length_drop, List.length_cons]; omega

/-- Where strict reading stopped: the part from `position` on, `width` bytes long. -/
structure Fault where
  cause : Malformation
  position : Nat
  width : Nat
  first : UInt8
  deriving DecidableEq, Repr

def hexByte (byte : UInt8) : String :=
  String.ofList [Nat.digitChar (byte.toNat / 16), Nat.digitChar (byte.toNat % 16)]

def Fault.message (fault : Fault) : String :=
  let place :=
    if fault.width = 1 then
      "byte 0x" ++ hexByte fault.first ++ " in position " ++ toString fault.position
    else
      "bytes in position " ++ toString fault.position ++ "-" ++
        toString (fault.position + fault.width - 1)
  "'utf-8' codec can't decode " ++ place ++ ": " ++ fault.cause.message

def decodeFrom (position : Nat) : List UInt8 → List Char × Option Fault
  | [] => ([], none)
  | lead :: rest =>
      match read lead rest with
      | .letter value width =>
          let (tail, fault) := decodeFrom (position + width) (rest.drop (width - 1))
          (value :: tail, fault)
      | .malformed cause width => ([], some ⟨cause, position, width, lead⟩)
termination_by bytes => bytes.length
decreasing_by simp only [List.length_drop, List.length_cons]; omega

end SteeringChannel.Text.Utf8
