import SteeringChannel.Text.Printable
import SteeringChannel.Text.Utf8

/-!
Quotations of texts and of bytes, as messages show them. Single quotes are used unless the text
holds a single quote and no double one.
-/

namespace SteeringChannel.Text

def hexDigits (width value : Nat) : List Char :=
  let digits := Nat.toDigits 16 value
  List.replicate (width - digits.length) '0' ++ digits

def chooseQuote (letters : List Char) : Char :=
  if letters.contains '\'' && !letters.contains '"' then '"' else '\''

def escapeCode (code : Nat) : List Char :=
  if code < 0x100 then '\\' :: 'x' :: hexDigits 2 code
  else if code < 0x10000 then '\\' :: 'u' :: hexDigits 4 code
  else '\\' :: 'U' :: hexDigits 8 code

def escapeLetter (shown : Char → Bool) (mark letter : Char) : List Char :=
  if letter = mark || letter = '\\' then ['\\', letter]
  else if letter = '\t' then ['\\', 't']
  else if letter = '\n' then ['\\', 'n']
  else if letter = '\r' then ['\\', 'r']
  else if shown letter then [letter]
  else escapeCode letter.toNat

def quoteLetters (shown : Char → Bool) (letters : List Char) : List Char :=
  let mark := chooseQuote letters
  mark :: letters.flatMap (escapeLetter shown mark) ++ [mark]

def quote (text : String) : String := String.ofList (quoteLetters isPrintable text.toList)

def quoteBytes (bytes : List UInt8) : String :=
  let letters := bytes.map fun byte => Char.ofNat byte.toNat
  String.ofList
    ('b' :: quoteLetters (fun letter => 0x20 ≤ letter.toNat && letter.toNat < 0x7f) letters)

end SteeringChannel.Text
