import Mathlib.Data.List.Induction
import Mathlib.Data.Nat.Digits.Defs
import SteeringChannel.Number.Whole

/-!
The whole numbers that can be typed: a sign or none, then digits of any script, with at most one
underscore between two of them. The reader accepts just these, and reads the number they denote.
-/

namespace SteeringChannel

theorem isDigit_of_mem_toString {value : Int} {letter : Char}
    (member : letter ∈ (toString value).toList) : letter.isDigit = true ∨ letter = '-' := by
  have digit {number : Nat} (member : letter ∈ number.repr.toList) : letter.isDigit = true := by
    rw [Nat.toList_repr] at member
    exact Nat.isDigit_of_mem_toDigits (by decide) (by decide) member
  rw [Int.toString_eq_repr, Int.repr_eq_if] at member
  split at member
  · exact Or.inl (digit member)
  · rw [String.toList_append, List.mem_append] at member
    exact member.elim (fun sign => Or.inr (by simpa using sign)) fun rest => Or.inl (digit rest)

theorem eq_of_repr_eq {number other : Nat} (same : number.repr = other.repr) : number = other := by
  have read (number : Nat) : Nat.ofDigitChars 10 number.repr.toList 0 = number := by
    rw [Nat.toList_repr, Nat.ofDigitChars_toDigits (by decide) (by decide)]
  rw [← read number, same, read]

theorem eq_of_toString_eq {value other : Int} (same : toString value = toString other) :
    value = other := by
  have unsigned (number magnitude : Nat) : number.repr ≠ "-" ++ magnitude.repr := by
    intro same
    have sign : '-' ∈ number.repr.toList := by simp [same]
    rw [Nat.toList_repr] at sign
    exact absurd (Nat.isDigit_of_mem_toDigits (by decide) (by decide) sign) (by decide)
  rw [Int.toString_eq_repr, Int.toString_eq_repr, Int.repr_eq_if, Int.repr_eq_if] at same
  split_ifs at same
  · have equal := eq_of_repr_eq same
    omega
  · exact absurd same (unsigned _ _)
  · exact absurd same.symm (unsigned _ _)
  · have equal := eq_of_repr_eq (by simpa using same)
    omega

namespace Text

def IsDigit (letter : Char) (digit : Nat) : Prop :=
  digit < 10 ∧ ∃ base ∈ zeroDigits, letter.toNat = base + digit

theorem zeroDigits_apart : ∀ first ∈ zeroDigits, ∀ second ∈ zeroDigits,
    first = second ∨ first + 10 ≤ second ∨ second + 10 ≤ first := by
  decide +kernel

theorem decimalDigit?_eq_some {letter : Char} {digit : Nat} :
    decimalDigit? letter = some digit ↔ IsDigit letter digit := by
  rw [decimalDigit?, Option.map_eq_some_iff]
  constructor
  · rintro ⟨base, found, rfl⟩
    have within := List.find?_some found
    simp only [Bool.and_eq_true, decide_eq_true_eq] at within
    exact ⟨by omega, base, List.mem_of_find?_eq_some found, by omega⟩
  · rintro ⟨small, base, member, same⟩
    cases found : zeroDigits.find? fun base => base ≤ letter.toNat && letter.toNat < base + 10 with
    | none =>
        have outside := List.find?_eq_none.mp found base member
        simp only [Bool.and_eq_true, decide_eq_true_eq] at outside
        omega
    | some other =>
        have within := List.find?_some found
        simp only [Bool.and_eq_true, decide_eq_true_eq] at within
        have apart := zeroDigits_apart _ member _ (List.mem_of_find?_eq_some found)
        exact ⟨other, rfl, by omega⟩

end Text

namespace Whole

open Text (IsDigit decimalDigit?_eq_some)

inductive Digits : List Char → List Nat → Prop
  | last {letter digit} : IsDigit letter digit → Digits [letter] [digit]
  | next {letter digit text digits} : IsDigit letter digit → Digits text digits →
      Digits (letter :: text) (digit :: digits)
  | underscore {letter digit text digits} : IsDigit letter digit → Digits text digits →
      Digits (letter :: '_' :: text) (digit :: digits)

inductive Sign : List Char → Int → Prop
  | absent : Sign [] 1
  | plus : Sign ['+'] 1
  | minus : Sign ['-'] (-1)

/-- A text denotes a whole number. The digits stand with the most significant one first. -/
def Denotes (text : List Char) (value : Int) : Prop :=
  ∃ sign factor body digits, Sign sign factor ∧ text = sign ++ body ∧ Digits body digits ∧
    digits.length ≤ 4300 ∧ value = factor * (Nat.ofDigits 10 digits.reverse : Nat)

variable {text : List Char} {digits : List Nat} {value : Int}

theorem Digits.exists_head (reads : Digits text digits) :
    ∃ letter digit rest, text = letter :: rest ∧ IsDigit letter digit := by
  cases reads with
  | last digit => exact ⟨_, _, _, rfl, digit⟩
  | next digit _ => exact ⟨_, _, _, rfl, digit⟩
  | underscore digit _ => exact ⟨_, _, _, rfl, digit⟩

theorem not_isDigit {letter : Char} (unread : Text.decimalDigit? letter = none) (digit : Nat) :
    ¬ IsDigit letter digit := by
  intro isDigit
  rw [decimalDigit?_eq_some.mpr isDigit] at unread
  cases unread

theorem readDigits_eq_some : readDigits text = some digits ↔ Digits text digits := by
  constructor
  · intro reads
    fun_induction readDigits text generalizing digits with
    | case1 => cases reads
    | case2 letter =>
        obtain ⟨digit, isDigit, rfl⟩ := Option.map_eq_some_iff.mp reads
        exact .last (decimalDigit?_eq_some.mp isDigit)
    | case3 letter rest digit digits rest' isDigit ih =>
        obtain rfl := Option.some.inj reads
        exact .underscore (decimalDigit?_eq_some.mp isDigit) (ih rest')
    | case4 => cases reads
    | case5 letter next rest _ digit digits rest' isDigit ih =>
        obtain rfl := Option.some.inj reads
        exact .next (decimalDigit?_eq_some.mp isDigit) (ih rest')
    | case6 => cases reads
  · intro reads
    induction reads with
    | last digit => simp [readDigits, decimalDigit?_eq_some.mpr digit]
    | @next letter digit text digits isDigit rest ih =>
        obtain ⟨next, other, tail, rfl, isNext⟩ := rest.exists_head
        rw [readDigits, ih, decimalDigit?_eq_some.mpr isDigit]
        rintro rfl
        exact not_isDigit (by decide) other isNext
    | underscore isDigit _ ih => rw [readDigits, ih, decimalDigit?_eq_some.mpr isDigit]

theorem valueOf_eq_ofDigits (digits : List Nat) :
    valueOf digits = Nat.ofDigits 10 digits.reverse := by
  induction digits using List.reverseRecOn with
  | nil => rfl
  | append_singleton digits digit ih =>
      rw [valueOf, List.foldl_append, ← valueOf, ih, List.reverse_append, List.reverse_singleton,
        List.singleton_append, Nat.ofDigits_cons, List.foldl_cons, List.foldl_nil, Nat.add_comm]

theorem readUnsigned_eq_some {total : Nat} :
    readUnsigned text = some total ↔ ∃ digits, Digits text digits ∧ digits.length ≤ 4300 ∧
      total = Nat.ofDigits 10 digits.reverse := by
  simp only [← readDigits_eq_some, ← valueOf_eq_ofDigits, readUnsigned, digitLimit]
  cases readDigits text with
  | none => simp
  | some digits => by_cases short : digits.length ≤ 4300 <;> simp [short, eq_comm]

def Unsigned (text : List Char) : Prop := text.head? ≠ some '+' ∧ text.head? ≠ some '-'

theorem Digits.unsigned (reads : Digits text digits) : Unsigned text := by
  obtain ⟨letter, digit, rest, rfl, isDigit⟩ := reads.exists_head
  have other {mark : Char} (unread : Text.decimalDigit? mark = none) :
      (letter :: rest).head? ≠ some mark := by
    rintro ⟨⟩
    exact not_isDigit unread digit isDigit
  exact ⟨other (by decide), other (by decide)⟩

theorem read_signed {sign body : List Char} {factor : Int} (signs : Sign sign factor)
    (only : sign = [] → Unsigned body) :
    read (sign ++ body) = (readUnsigned body).map fun total : Nat => factor * (total : Int) := by
  cases signs with
  | absent =>
      obtain ⟨plus, minus⟩ := only rfl
      rw [List.nil_append, read]
      · cases readUnsigned body <;> simp
      · rintro rest rfl
        exact plus rfl
      · rintro rest rfl
        exact minus rfl
  | plus =>
      change read ('+' :: body) = _
      rw [read]
      cases readUnsigned body <;> simp
  | minus =>
      change read ('-' :: body) = _
      rw [read]
      cases readUnsigned body <;> simp

theorem exists_sign (text : List Char) : ∃ sign factor body, Sign sign factor ∧
    text = sign ++ body ∧ (sign = [] → Unsigned body) := by
  by_cases plus : text.head? = some '+'
  · obtain ⟨body, rfl⟩ := List.head?_eq_some_iff.mp plus
    exact ⟨['+'], 1, body, .plus, rfl, nofun⟩
  · by_cases minus : text.head? = some '-'
    · obtain ⟨body, rfl⟩ := List.head?_eq_some_iff.mp minus
      exact ⟨['-'], -1, body, .minus, rfl, nofun⟩
    · exact ⟨[], 1, text, .absent, rfl, fun _ => ⟨plus, minus⟩⟩

theorem read_eq_some : read text = some value ↔ Denotes text value := by
  constructor
  · obtain ⟨sign, factor, body, signs, rfl, only⟩ := exists_sign text
    rw [read_signed signs only, Option.map_eq_some_iff]
    rintro ⟨total, reads, rfl⟩
    obtain ⟨digits, denoted, short, rfl⟩ := readUnsigned_eq_some.mp reads
    exact ⟨sign, factor, body, digits, signs, rfl, denoted, short, rfl⟩
  · rintro ⟨sign, factor, body, digits, signs, rfl, reads, short, rfl⟩
    rw [read_signed signs fun _ => reads.unsigned,
      readUnsigned_eq_some.mpr ⟨digits, reads, short, rfl⟩, Option.map_some]

end Whole
end SteeringChannel
