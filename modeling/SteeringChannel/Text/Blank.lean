/-!
White space of every script, and taking it off both ends of a text.
-/

namespace SteeringChannel.Text

/-- The information separators U+001C to U+001F and the next-line control count as blank. -/
def isBlank (letter : Char) : Bool :=
  let code := letter.toNat
  (0x09 ≤ code && code ≤ 0x0d) || (0x1c ≤ code && code ≤ 0x20) || code == 0x85 || code == 0xa0 ||
    code == 0x1680 || (0x2000 ≤ code && code ≤ 0x200a) || code == 0x2028 || code == 0x2029 ||
    code == 0x202f || code == 0x205f || code == 0x3000

def isWhiteSpace (letter : Char) : Bool :=
  isBlank letter && !(0x1c ≤ letter.toNat && letter.toNat ≤ 0x1f)

def trimEnd {α : Type} (drop : α → Bool) (items : List α) : List α :=
  (items.reverse.dropWhile drop).reverse

def trimBoth {α : Type} (drop : α → Bool) (items : List α) : List α :=
  trimEnd drop (items.dropWhile drop)

def strip (text : List Char) : List Char := trimBoth isBlank text

end SteeringChannel.Text
