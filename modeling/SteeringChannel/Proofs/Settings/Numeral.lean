import Mathlib.Tactic.FieldSimp
import SteeringChannel.Proofs.Number.Rounding
import SteeringChannel.Proofs.Text.Trim
import SteeringChannel.Settings.Coercion

/-!
Numbers as settings spell them. Blanks and underscores aside, a numeral is a sign, digits, a point
with more digits, and a power of ten. Where one is read, its value is, rounded if it is to be a
float.
-/

namespace SteeringChannel.Settings

open Binary64 (signed Rounds)

def counts (letter : Char) : Bool := !(Text.isWhiteSpace letter || letter == '_')

inductive Sign : List Char → Bool → Prop
  | absent : Sign [] false
  | plus : Sign ['+'] false
  | minus : Sign ['-'] true

def Digits (text : List Char) : Prop := ∀ letter ∈ text, letter.isDigit = true

inductive Places : List Char → List Char → Prop
  | absent : Places [] []
  | point {digits : List Char} : Digits digits → Places ('.' :: digits) digits

inductive Power : List Char → Int → Prop
  | absent : Power [] 0
  | mark {letter : Char} {sign digits : List Char} {negative : Bool} :
      letter = 'e' ∨ letter = 'E' → Sign sign negative → Digits digits → digits ≠ [] →
        Power (letter :: (sign ++ digits))
          (if negative then -(Nat.ofDigitChars 10 digits 0 : Int) else Nat.ofDigitChars 10 digits 0)

inductive Size : List Char → Nat → Int → Prop
  | parts {whole point places mark : List Char} {power : Int} :
      Digits whole → Places point places → Power mark power → whole ++ places ≠ [] →
        Size (whole ++ (point ++ mark)) (Nat.ofDigitChars 10 (whole ++ places) 0)
          (power - places.length)

def Spells (text : List Char) (negative : Bool) (coefficient : Nat) (power : Int) : Prop :=
  ∃ sign body, Sign sign negative ∧ text = sign ++ body ∧ Size body coefficient power

/-- A text is a numeral of this value, once blanks and underscores are left out. -/
def Denotes (text : List Char) (value : ℚ) : Prop :=
  ∃ negative coefficient power, Spells (text.filter counts) negative coefficient power ∧
    value = signed negative (coefficient * 10 ^ power)

variable {text digits rest sign body : List Char} {negative : Bool} {coefficient : Nat}
  {power : Int} {value : ℚ}

def Stops (rest : List Char) : Prop := ∀ letter, rest.head? = some letter → letter.isDigit = false

theorem takeWhile_digits (all : Digits digits) (stops : Stops rest) :
    (digits ++ rest).takeWhile Char.isDigit = digits := by
  have none : rest.takeWhile Char.isDigit = [] := by
    cases rest with
    | nil => rfl
    | cons letter rest => exact List.takeWhile_cons_of_neg (by simp [stops letter rfl])
  rw [List.takeWhile_append_of_pos all, none, List.append_nil]

theorem dropWhile_digits (all : Digits digits) (stops : Stops rest) :
    (digits ++ rest).dropWhile Char.isDigit = rest := by
  have kept : rest.dropWhile Char.isDigit = rest := by
    cases rest with
    | nil => rfl
    | cons letter rest => exact List.dropWhile_cons_of_neg (by simp [stops letter rfl])
  rw [List.dropWhile_append_of_pos all, kept]

theorem Power.stops {mark : List Char} (marks : Power mark power) : Stops mark := by
  cases marks with
  | absent => exact nofun
  | mark letter =>
      rintro _ ⟨⟩
      rcases letter with rfl | rfl <;> rfl

theorem Places.stops {point places mark : List Char} (points : Places point places)
    (marks : Power mark power) : Stops (point ++ mark) := by
  cases points with
  | absent => exact marks.stops
  | point =>
      rintro _ ⟨⟩
      rfl

def Unsigned (text : List Char) : Prop := ∀ sign, text.head? = some sign → sign ≠ '+' ∧ sign ≠ '-'

theorem Digits.unsigned (all : Digits digits) : Unsigned digits := by
  intro letter starts
  have digit := all letter (List.mem_of_mem_head? starts)
  constructor <;> rintro rfl <;> exact absurd digit (by decide)

def splitSign : List Char → Bool × List Char
  | '-' :: rest => (true, rest)
  | '+' :: rest => (false, rest)
  | text => (false, text)

theorem splitSign_of_sign (signs : Sign sign negative) (unsigned : Unsigned body) :
    splitSign (sign ++ body) = (negative, body) := by
  cases signs with
  | absent =>
      rw [List.nil_append, splitSign]
      · rintro rest rfl
        exact (unsigned '-' rfl).2 rfl
      · rintro rest rfl
        exact (unsigned '+' rfl).1 rfl
  | plus => rfl
  | minus => rfl

theorem readPlainNumber_eq (text : List Char) :
    readPlainNumber text = readUnsignedNumber (splitSign text).1 (splitSign text).2 := by
  fun_cases splitSign text
  · rfl
  · rfl
  next minus plus => rw [readPlainNumber] <;> assumption

theorem readPower_cons (mark : Char) (rest : List Char) :
    readPower (mark :: rest) =
      if mark = 'e' || mark = 'E' then
        if (splitSign rest).2.isEmpty || !(splitSign rest).2.all Char.isDigit then none
        else
          some (if (splitSign rest).1 then -(digitsValue (splitSign rest).2 : Int)
            else digitsValue (splitSign rest).2)
      else none := rfl

theorem readPower_of_power {mark : List Char} (marks : Power mark power) :
    readPower mark = some power := by
  cases marks with
  | absent => rfl
  | @mark letter sign digits negative named signs all filled =>
      have marked : (letter = 'e' || letter = 'E') = true := by simpa using named
      have reads : ¬(digits.isEmpty || !digits.all Char.isDigit) = true := by
        rw [List.all_eq_true.mpr all]
        simpa using filled
      rw [readPower_cons, if_pos marked, splitSign_of_sign signs all.unsigned, if_neg reads]
      rfl

def splitPoint : List Char → List Char × List Char
  | '.' :: rest => (rest.takeWhile Char.isDigit, rest.dropWhile Char.isDigit)
  | rest => ([], rest)

theorem splitPoint_of_places {point places mark : List Char} (points : Places point places)
    (marks : Power mark power) : splitPoint (point ++ mark) = (places, mark) := by
  cases points with
  | absent =>
      cases marks with
      | absent => rfl
      | mark named => rcases named with rfl | rfl <;> rfl
  | point digits =>
      rw [List.cons_append, splitPoint, takeWhile_digits digits marks.stops,
        dropWhile_digits digits marks.stops]

def size? (text : List Char) : Option (Nat × Int) :=
  let whole := text.takeWhile Char.isDigit
  let (places, rest) := splitPoint (text.dropWhile Char.isDigit)
  if whole.isEmpty && places.isEmpty then none
  else (readPower rest).map fun power => (digitsValue (whole ++ places), power - places.length)

theorem size?_of_size (sizes : Size text coefficient power) :
    size? text = some (coefficient, power) := by
  cases sizes with
  | @parts whole point places mark power all points marks filled =>
      have reads : ¬(whole.isEmpty && places.isEmpty) = true := by
        simpa [← List.append_eq_nil_iff] using filled
      have stops := points.stops marks
      simp only [size?, takeWhile_digits all stops, dropWhile_digits all stops,
        splitPoint_of_places points marks]
      rw [if_neg reads, readPower_of_power marks]
      rfl

theorem Size.starts (sizes : Size text coefficient power) :
    ∃ letter, text.head? = some letter ∧ (letter.isDigit = true ∨ letter = '.') := by
  cases sizes with
  | @parts whole point places mark power all points marks filled =>
      cases whole with
      | cons letter whole => exact ⟨letter, rfl, .inl (all letter List.mem_cons_self)⟩
      | nil =>
          cases points with
          | absent => exact absurd rfl filled
          | point => exact ⟨'.', rfl, .inr rfl⟩

theorem Size.unsigned (sizes : Size text coefficient power) : Unsigned text := by
  obtain ⟨letter, starts, kind⟩ := sizes.starts
  intro sign starts'
  obtain rfl : letter = sign := Option.some.inj (starts.symm.trans starts')
  constructor <;> rintro rfl <;> revert kind <;> decide

theorem Spells.unique {other : Bool} {coefficient' : Nat} {power' : Int}
    (spells : Spells text negative coefficient power)
    (also : Spells text other coefficient' power') :
    negative = other ∧ coefficient = coefficient' ∧ power = power' := by
  obtain ⟨sign, body, signs, rfl, sizes⟩ := spells
  obtain ⟨sign', body', signs', same, sizes'⟩ := also
  -- The reader finds the parts of either spelling, and it finds one thing only.
  have split := splitSign_of_sign signs sizes.unsigned
  rw [same, splitSign_of_sign signs' sizes'.unsigned] at split
  obtain ⟨rfl, rfl⟩ := Prod.mk.inj split
  have read := size?_of_size sizes
  rw [size?_of_size sizes'] at read
  obtain ⟨rfl, rfl⟩ := Prod.mk.inj (Option.some.inj read)
  exact ⟨rfl, rfl, rfl⟩

theorem Denotes.unique {other : ℚ} (denotes : Denotes text value) (also : Denotes text other) :
    value = other := by
  obtain ⟨_, _, _, spells, rfl⟩ := denotes
  obtain ⟨_, _, _, spells', rfl⟩ := also
  obtain ⟨rfl, rfl, rfl⟩ := spells.unique spells'
  rfl

/-! Reading a float. -/

theorem isAlpha_iff {letter : Char} : letter.isAlpha = true ↔
    (65 ≤ letter.toNat ∧ letter.toNat ≤ 90) ∨ 97 ≤ letter.toNat ∧ letter.toNat ≤ 122 := by
  delta Char.isAlpha Char.isUpper Char.isLower
  simp only [Bool.or_eq_true, Bool.and_eq_true, decide_eq_true_eq, ge_iff_le,
    UInt32.le_iff_toNat_le]
  rfl

theorem not_alpha_of_digit {letter : Char} (digit : letter.isDigit = true) :
    ¬letter.isAlpha = true := by
  rw [isAlpha_iff]
  simp only [Char.isDigit_iff_toNat, Char.reduceToNat] at digit
  omega

theorem counts_of_code {letter : Char} (code : 48 ≤ letter.toNat ∧ letter.toNat ≤ 122)
    (mark : letter ≠ '_') : counts letter = true := by
  simp only [counts, Text.isWhiteSpace, Text.isBlank]
  simp [mark]
  omega

theorem counts_of_alpha {letter : Char} (alpha : letter.isAlpha = true) : counts letter = true := by
  refine counts_of_code ?_ fun mark => absurd (mark ▸ alpha) (by decide)
  rw [isAlpha_iff] at alpha
  omega

theorem counts_of_digit {letter : Char} (digit : letter.isDigit = true) : counts letter = true := by
  refine counts_of_code ?_ fun mark => absurd (mark ▸ digit) (by decide)
  simp only [Char.isDigit_iff_toNat, Char.reduceToNat] at digit
  omega

def Counted (text : List Char) : Prop := ∀ letter ∈ text, counts letter = true

theorem counted_cons {letter : Char} :
    Counted (letter :: text) ↔ counts letter = true ∧ Counted text :=
  List.forall_mem_cons

theorem Digits.counted (all : Digits digits) : Counted digits :=
  fun letter member => counts_of_digit (all letter member)

theorem counted_of_dropWhile (ends : Counted (text.dropWhile Char.isDigit)) : Counted text := by
  rw [← text.takeWhile_append_dropWhile (p := Char.isDigit)]
  intro letter member
  rcases List.mem_append.mp member with first | last
  · exact counts_of_digit (List.mem_takeWhile_imp first)
  · exact ends letter last

theorem counted_of_splitSign (ends : Counted (splitSign text).2) : Counted text := by
  fun_cases splitSign text
  · exact counted_cons.mpr ⟨by decide, ends⟩
  · exact counted_cons.mpr ⟨by decide, ends⟩
  next minus plus => rwa [splitSign] at ends <;> assumption

theorem counted_of_splitPoint (ends : Counted (splitPoint text).2) : Counted text := by
  fun_cases splitPoint text
  · exact counted_cons.mpr ⟨by decide, counted_of_dropWhile ends⟩
  next point => rwa [splitPoint] at ends; assumption

theorem counted_of_readPower (reads : readPower text = some power) : Counted text := by
  cases text with
  | nil => exact List.forall_mem_nil _
  | cons letter rest =>
      rw [readPower_cons] at reads
      split at reads
      next named =>
        split at reads
        next => cases reads
        next digits =>
          have all : Digits (splitSign rest).2 := by
            rw [Bool.or_eq_true, not_or, Bool.not_eq_true', Bool.not_eq_false] at digits
            exact List.all_eq_true.mp digits.2
          refine counted_cons.mpr ⟨?_, counted_of_splitSign all.counted⟩
          rw [Bool.or_eq_true, decide_eq_true_iff, decide_eq_true_iff] at named
          rcases named with rfl | rfl <;> decide
      next => cases reads

theorem counted_of_size? {found : Nat × Int} (reads : size? text = some found) : Counted text := by
  simp only [size?] at reads
  split_ifs at reads
  obtain ⟨power, reads, _⟩ := Option.map_eq_some_iff.mp reads
  exact counted_of_dropWhile (counted_of_splitPoint (counted_of_readPower reads))

def Special (text : List Char) : Prop :=
  (lower text = "inf".toList ∨ lower text = "infinity".toList) ∨ lower text = "nan".toList

theorem isAlpha_of_isAlpha_toLower {letter : Char} (alpha : letter.toLower.isAlpha = true) :
    letter.isAlpha = true := by
  unfold Char.toLower at alpha
  split at alpha
  next upper =>
    have capital : letter.isUpper = true := by
      delta Char.isUpper
      simpa using upper
    exact Bool.or_eq_true_iff.mpr (Or.inl capital)
  next => exact alpha

theorem Special.alpha (special : Special text) : ∀ letter ∈ text, letter.isAlpha = true := by
  have small : ∀ letter ∈ lower text, letter.isAlpha = true := by
    rcases special with (word | word) | word <;> rw [word] <;> exact List.all_eq_true.mp rfl
  intro letter member
  exact isAlpha_of_isAlpha_toLower (small letter.toLower (List.mem_map_of_mem member))

theorem readUnsignedNumber_eq (negative : Bool) (plain : ¬Special text) :
    readUnsignedNumber negative text =
      (size? text).map fun found => .ofDecimal negative found.1 found.2 := by
  obtain ⟨finite, known⟩ := not_or.mp plain
  unfold readUnsignedNumber size? splitPoint
  simp only [not_or.mp finite, known]
  rw [if_neg (by decide), if_neg (by decide), apply_ite (Option.map _), Option.map_map]
  rfl

theorem counted_of_readPlainNumber {float : Binary64} (reads : readPlainNumber text = some float) :
    Counted text := by
  rw [readPlainNumber_eq] at reads
  refine counted_of_splitSign ?_
  by_cases special : Special (splitSign text).2
  · exact fun letter member => counts_of_alpha (special.alpha letter member)
  · rw [readUnsignedNumber_eq _ special] at reads
    obtain ⟨found, reads, _⟩ := Option.map_eq_some_iff.mp reads
    exact counted_of_size? reads

theorem readPlainNumber_of_spells (spells : Spells text negative coefficient power) :
    readPlainNumber text = some (.ofDecimal negative coefficient power) := by
  obtain ⟨sign, body, signs, rfl, sizes⟩ := spells
  have plain : ¬Special body := by
    intro special
    obtain ⟨letter, starts, kind⟩ := sizes.starts
    have alpha := special.alpha letter (List.mem_of_mem_head? starts)
    rcases kind with digit | rfl
    · exact absurd alpha (not_alpha_of_digit digit)
    · exact absurd alpha (by decide)
  rw [readPlainNumber_eq, splitSign_of_sign signs sizes.unsigned, readUnsignedNumber_eq _ plain,
    size?_of_size sizes]
  rfl

theorem filter_trim (text : List Char) : (trim text).filter counts = text.filter counts := by
  have none {blanks : List Char} (all : ∀ letter ∈ blanks, Text.isWhiteSpace letter = true) :
      blanks.filter counts = [] :=
    List.filter_eq_nil_iff.mpr fun letter member => by simp [counts, all letter member]
  obtain ⟨lead, tail, cut, leads, tails⟩ :=
    (Text.trimmed_trimBoth Text.isWhiteSpace text).between
  conv_rhs => rw [cut]
  rw [List.filter_append, List.filter_append, none leads, none tails, List.nil_append,
    List.append_nil, trim]

theorem filter_dropUnderscores {kept : List Char} (drops : dropUnderscores text = some kept) :
    kept.filter counts = text.filter counts := by
  rw [dropUnderscores] at drops
  split_ifs at drops
  obtain rfl := Option.some.inj drops
  rw [List.filter_filter]
  congr 1
  funext letter
  by_cases mark : letter = '_' <;> simp [counts, mark]

theorem readPlainNumber_of_readNumber {float : Binary64} (reads : readNumber text = .ok float) :
    readPlainNumber (text.filter counts) = some float := by
  have same {read : List Char} (plain : readPlainNumber read = some float)
      (kept : read.filter counts = text.filter counts) :
      readPlainNumber (text.filter counts) = some float := by
    rwa [← kept, List.filter_eq_self.mpr (counted_of_readPlainNumber plain)]
  rw [readNumber] at reads
  -- A text with underscores is not trimmed, but then it has no blanks or it is not read.
  split at reads
  next trimmed =>
    obtain rfl := Except.ok.inj reads
    exact same trimmed (filter_trim text)
  next =>
    split at reads
    next cleaned =>
      obtain rfl := Except.ok.inj reads
      obtain ⟨kept, drops, plain⟩ := Option.bind_eq_some_iff.mp cleaned
      exact same plain (filter_dropUnderscores drops)
    next => cases reads

theorem readNumber_rounds {float : Binary64} (denotes : Denotes text value)
    (reads : readNumber text = .ok float) :
    ∃ negative size, 0 ≤ size ∧ value = signed negative size ∧ Rounds negative size float := by
  obtain ⟨negative, coefficient, power, spells, rfl⟩ := denotes
  have plain := readPlainNumber_of_readNumber reads
  rw [readPlainNumber_of_spells spells] at plain
  obtain rfl := Option.some.inj plain
  exact ⟨negative, _, by positivity, rfl, Binary64.rounds_ofDecimal negative coefficient power⟩

/-! Reading a whole number. -/

theorem readStrictUnsigned_ok {total : Nat} (reads : readStrictUnsigned text = .ok total) :
    Digits text ∧ text ≠ [] ∧ total = Nat.ofDigitChars 10 text 0 := by
  simp only [readStrictUnsigned] at reads
  split_ifs at reads with none long short
  have whole : text.takeWhile Char.isDigit = text :=
    (List.takeWhile_prefix _).eq_of_length_le (Nat.le_of_not_lt short)
  rw [whole] at reads none
  refine ⟨fun letter member => ?_, ?_, (Except.ok.inj reads).symm⟩
  · rw [← whole] at member
    exact List.mem_takeWhile_imp member
  · rintro rfl
    exact none rfl

structure Strict (text digits : List Char) (negative : Bool) : Prop where
  cut : text = (if negative then ['-'] else []) ++ digits
  all : Digits digits
  filled : digits ≠ []

theorem readStrictUnsigned_map {put : Int → Int} {whole : Int}
    (reads : Except.map put (do
      let total ← readStrictUnsigned text
      pure (total : Int)) = .ok whole) :
    Digits text ∧ text ≠ [] ∧ whole = put (Nat.ofDigitChars 10 text 0 : Nat) := by
  cases unsigned : readStrictUnsigned text with
  | error fault =>
      rw [unsigned] at reads
      cases reads
  | ok total =>
      rw [unsigned] at reads
      obtain rfl := Except.ok.inj reads
      obtain ⟨all, filled, rfl⟩ := readStrictUnsigned_ok unsigned
      exact ⟨all, filled, rfl⟩

theorem readStrict_ok {whole : Int} (reads : readStrict text = .ok whole) :
    ∃ digits negative, Strict text digits negative ∧
      (whole : ℚ) = signed negative (Nat.ofDigitChars 10 digits 0 : Nat) := by
  fun_cases readStrict text
  next rest =>
    rw [readStrict] at reads
    obtain ⟨all, filled, rfl⟩ := readStrictUnsigned_map reads
    exact ⟨rest, true, ⟨rfl, all, filled⟩, by simp [signed]⟩
  next positive =>
    rw [readStrict] at reads
    · obtain ⟨all, filled, rfl⟩ := readStrictUnsigned_map reads
      exact ⟨text, false, ⟨rfl, all, filled⟩, by simp [signed]⟩
    · exact positive

theorem Strict.counted (strict : Strict text digits negative) : Counted text := by
  rw [strict.cut]
  cases negative with
  | false => exact strict.all.counted
  | true => exact counted_cons.mpr ⟨by decide, strict.all.counted⟩

theorem Strict.head_of_negative (strict : Strict text digits true) : text.head? = some '-' := by
  rw [strict.cut]
  rfl

def Zeros (text : List Char) : Prop := ∀ letter ∈ text, letter = '0'

theorem Zeros.all_digits {zeros : List Char} (none : Zeros zeros) : Digits zeros := by
  intro letter member
  rw [none letter member]
  rfl

theorem dropPlus_some {kept : List Char} (drops : dropPlus text = some kept) :
    text = kept ∨ text = '+' :: kept ∧ kept.head? ≠ some '-' := by
  fun_cases dropPlus text
  next => cases drops
  next rest unsigned =>
    rw [dropPlus] at drops
    · obtain rfl := Option.some.inj drops
      refine .inr ⟨rfl, fun negative => ?_⟩
      obtain ⟨others, rfl⟩ := List.head?_eq_some_iff.mp negative
      exact unsigned others rfl
    · exact unsigned
  next =>
    rw [dropPlus] at drops
    · exact .inl (Option.some.inj drops)
    all_goals assumption

def Lead (text : List Char) : Prop := ∀ letter ∈ text, letter = '0' ∨ letter = '_'

theorem afterZeros_some {last : Char} {kept : List Char} (zero : last = '0' ∨ last = '_')
    (drops : afterZeros last text = some kept) :
    kept.head? ≠ some '-' ∧ ∃ lead, last :: text = lead ++ kept ∧ Lead lead := by
  have unsigned {rest : List Char} : (last :: rest).head? ≠ some '-' := by
    rintro ⟨⟩
    revert zero
    decide
  fun_induction afterZeros last text with
  | case1 last =>
      obtain rfl := Option.some.inj drops
      exact ⟨unsigned, [], rfl, List.forall_mem_nil _⟩
  | case2 last letter rest more ih =>
      have next : letter = '0' ∨ letter = '_' := by simpa using more
      have unsigned {others : List Char} : (letter :: others).head? ≠ some '-' := by
        rintro ⟨⟩
        exact absurd next (by decide)
      obtain ⟨kept, lead, cut, leads⟩ := ih next drops unsigned
      exact ⟨kept, last :: lead, congrArg (last :: ·) cut, List.forall_mem_cons.mpr ⟨zero, leads⟩⟩
  | case3 last letter rest more digit =>
      obtain rfl := Option.some.inj drops
      refine ⟨?_, [last], rfl, List.forall_mem_singleton.mpr zero⟩
      rintro ⟨⟩
      exact absurd digit (by decide)
  | case4 =>
      obtain rfl := Option.some.inj drops
      exact ⟨unsigned, [], rfl, List.forall_mem_nil _⟩
  | case5 => cases drops

theorem dropLeadingZeros_some {kept : List Char} (drops : dropLeadingZeros text = some kept) :
    ∃ lead, text = lead ++ kept ∧ Lead lead ∧ (kept.head? = some '-' → lead = []) := by
  cases text with
  | nil => cases drops
  | cons letter rest =>
      rw [dropLeadingZeros] at drops
      split at drops
      next zero =>
        obtain ⟨unsigned, lead, cut, leads⟩ := afterZeros_some (.inl zero) drops
        exact ⟨lead, cut, leads, fun negative => absurd negative unsigned⟩
      next =>
        split at drops
        next =>
          obtain rfl := Option.some.inj drops
          exact ⟨[], rfl, List.forall_mem_nil _, fun _ => rfl⟩
        next => cases drops

theorem dropZeroDecimals_cases (text : List Char) :
    dropZeroDecimals text = text ∨
      ∃ zeros, Zeros zeros ∧ text = dropZeroDecimals text ++ '.' :: zeros := by
  have cut := text.takeWhile_append_dropWhile (p := fun letter => letter != '.')
  have point := List.head?_dropWhile_not (fun letter => letter != '.') text
  rw [dropZeroDecimals]
  generalize text.dropWhile (fun letter => letter != '.') = rest at *
  split
  next first decimals =>
    split
    next zeros =>
      rw [Bool.and_eq_true, List.all_eq_true] at zeros
      refine .inr ⟨decimals, fun letter member => beq_iff_eq.mp (zeros.2 letter member), ?_⟩
      obtain rfl : first = '.' := by simpa using point
      exact cut.symm
    next => exact .inl rfl
  next => exact .inl rfl

theorem Zeros.ofDigitChars {zeros : List Char} (none : Zeros zeros) (total : Nat) :
    Nat.ofDigitChars 10 zeros total = 10 ^ zeros.length * total := by
  conv_lhs => rw [List.eq_replicate_of_mem none]
  exact Nat.ofDigitChars_replicate_zero

theorem denotes_of_strict {plus lead cleaned tail : List Char}
    (strict : Strict cleaned digits negative)
    (kept : text.filter counts = plus ++ (lead ++ (cleaned ++ tail)))
    (signs : plus = [] ∨ plus = ['+']) (zeros : Zeros lead)
    (ends : tail = [] ∨ ∃ zeros, Zeros zeros ∧ tail = '.' :: zeros)
    (alone : negative = true → plus = [] ∧ lead = []) :
    Denotes text (signed negative (Nat.ofDigitChars 10 digits 0 : Nat)) := by
  obtain ⟨places, points, none⟩ : ∃ places, Places tail places ∧ Zeros places := by
    rcases ends with rfl | ⟨zeros, none, rfl⟩
    · exact ⟨[], .absent, List.forall_mem_nil _⟩
    · exact ⟨zeros, .point none.all_digits, none⟩
  have size : Size (lead ++ digits ++ (tail ++ []))
      (Nat.ofDigitChars 10 (lead ++ digits ++ places) 0) (0 - places.length) := by
    refine .parts ?_ points .absent (by simp [strict.filled])
    exact List.forall_mem_append.mpr ⟨zeros.all_digits, strict.all⟩
  have coefficient : Nat.ofDigitChars 10 (lead ++ digits ++ places) 0 =
      10 ^ places.length * Nat.ofDigitChars 10 digits 0 := by
    rw [Nat.ofDigitChars_append, Nat.ofDigitChars_append, zeros.ofDigitChars, none.ofDigitChars,
      Nat.mul_zero]
  have spells : Spells (text.filter counts) negative
      (Nat.ofDigitChars 10 (lead ++ digits ++ places) 0) (0 - places.length) := by
    rw [kept, strict.cut]
    cases negative with
    | false =>
        rcases signs with rfl | rfl
        · exact ⟨[], _, .absent, by simp, size⟩
        · exact ⟨['+'], _, .plus, by simp, size⟩
    | true =>
        obtain ⟨rfl, rfl⟩ := alone rfl
        exact ⟨['-'], _, .minus, by simp, size⟩
  refine ⟨negative, _, _, spells, congrArg (signed negative) ?_⟩
  rw [coefficient, zero_sub, zpow_neg, zpow_natCast]
  push_cast
  field_simp

theorem Zeros.of_lead {lead : List Char} (leads : Lead lead) : Zeros (lead.filter counts) := by
  intro letter member
  obtain ⟨member, counted⟩ := List.mem_filter.mp member
  refine (leads letter member).resolve_right ?_
  rintro rfl
  exact absurd counted (by decide)

theorem Zeros.counted {zeros : List Char} (none : Zeros zeros) : zeros.filter counts = zeros :=
  List.filter_eq_self.mpr none.all_digits.counted

theorem head_dropUnderscores {kept : List Char} (drops : dropUnderscores text = some kept)
    (starts : kept.head? = some '-') : text.head? = some '-' := by
  rw [dropUnderscores] at drops
  split_ifs at drops with ends
  obtain rfl := Option.some.inj drops
  cases text with
  | nil => cases starts
  | cons letter rest =>
      have mark : letter ≠ '_' := by
        rintro rfl
        exact ends rfl
      rwa [List.filter_cons_of_pos (by simpa using mark)] at starts

theorem exists_decimals {cleaned : List Char}
    (cleans : dropUnderscores (dropZeroDecimals text) = some cleaned) (counted : Counted cleaned) :
    ∃ tail, (tail = [] ∨ ∃ zeros, Zeros zeros ∧ tail = '.' :: zeros) ∧
      text.filter counts = cleaned ++ tail ∧
      (cleaned.head? = some '-' → text.head? = some '-') := by
  have same := filter_dropUnderscores cleans
  rw [List.filter_eq_self.mpr counted] at same
  have starts := head_dropUnderscores cleans
  rcases dropZeroDecimals_cases text with whole | ⟨zeros, none, cut⟩
  · rw [whole] at same starts
    exact ⟨[], .inl rfl, by rw [← same, List.append_nil], starts⟩
  · refine ⟨'.' :: zeros, .inr ⟨zeros, none, rfl⟩, ?_, fun negative => ?_⟩
    · conv_lhs => rw [cut]
      rw [List.filter_append, ← same, List.filter_cons_of_pos (by decide), none.counted]
    · rw [cut, List.head?_append, starts negative, Option.some_or]

theorem denotes_of_cleanWhole {cleaned : List Char} (cleans : cleanWhole text = some cleaned)
    (strict : Strict cleaned digits negative) :
    Denotes text (signed negative (Nat.ofDigitChars 10 digits 0 : Nat)) := by
  obtain ⟨unplussed, plus, cleans⟩ := Option.bind_eq_some_iff.mp cleans
  obtain ⟨led, leads, cleans⟩ := Option.bind_eq_some_iff.mp cleans
  obtain ⟨lead, cut, zeros, alone⟩ := dropLeadingZeros_some leads
  obtain ⟨tail, ends, whole, starts⟩ := exists_decimals cleans strict.counted
  have kept : unplussed.filter counts = lead.filter counts ++ (cleaned ++ tail) := by
    rw [cut, List.filter_append, whole]
  -- Zeros are not dropped before a minus sign, nor is a plus sign.
  have unled (minus : negative = true) : led.head? = some '-' ∧ lead = [] := by
    subst minus
    have begins := starts strict.head_of_negative
    exact ⟨begins, alone begins⟩
  have bare (minus : negative = true) : lead.filter counts = [] := by
    rw [(unled minus).2]
    rfl
  have signed := filter_trim text
  rcases dropPlus_some plus with trimmed | ⟨trimmed, positive⟩
  · rw [trimmed, kept] at signed
    exact denotes_of_strict strict signed.symm (.inl rfl) (.of_lead zeros) ends
      fun minus => ⟨rfl, bare minus⟩
  · rw [trimmed, List.filter_cons_of_pos (by decide), kept] at signed
    refine denotes_of_strict strict signed.symm (.inr rfl) (.of_lead zeros) ends fun minus => ?_
    obtain ⟨begins, rfl⟩ := unled minus
    exact absurd (cut ▸ begins) positive

theorem readWhole_denotes {whole : Int} (reads : readWhole text = .ok whole) :
    Denotes text whole := by
  rw [readWhole] at reads
  split at reads
  next found =>
    obtain rfl := Except.ok.inj reads
    obtain ⟨digits, negative, strict, value⟩ := readStrict_ok found
    rw [value]
    have kept : text.filter counts = [] ++ ([] ++ (text ++ [])) := by
      rw [List.filter_eq_self.mpr strict.counted, List.append_nil]
      rfl
    exact denotes_of_strict strict kept (.inl rfl) (List.forall_mem_nil _) (.inl rfl)
      fun _ => ⟨rfl, rfl⟩
  next => cases reads
  next =>
    split at reads
    next cleans =>
      obtain ⟨digits, negative, strict, value⟩ := readStrict_ok reads
      rw [value]
      exact denotes_of_cleanWhole cleans strict
    next => cases reads

end SteeringChannel.Settings
