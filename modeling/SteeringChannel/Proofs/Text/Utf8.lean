import SteeringChannel.Text.Utf8

/-!
UTF-8 read back. The lossy reader gives every text back from its own bytes, and a byte below 0x80 only
ever stands for the character of that code.
-/

namespace SteeringChannel.Text.Utf8

theorem toNat_byte {value : Nat} (small : value < 256) : (UInt8.ofNat value).toNat = value := by
  rw [UInt8.toNat_ofNat']
  omega

theorem code_valid (letter : Char) :
    letter.toNat < 0xd800 ∨ 0xdfff < letter.toNat ∧ letter.toNat < 0x110000 := letter.valid

theorem encodeChar_one {letter : Char} (bound : letter.toNat < 0x80) :
    String.utf8EncodeChar letter = [UInt8.ofNat letter.toNat] := by
  simp only [String.utf8EncodeChar, Char.toNat_val]
  rw [if_pos (by omega)]

theorem encodeChar_two {letter : Char} (lower : 0x80 ≤ letter.toNat)
    (upper : letter.toNat < 0x800) :
    String.utf8EncodeChar letter =
      [UInt8.ofNat (letter.toNat / 64 + 0xc0), UInt8.ofNat (letter.toNat % 64 + 0x80)] := by
  have lead : letter.toNat / 64 % 32 = letter.toNat / 64 := by omega
  simp only [String.utf8EncodeChar, Char.toNat_val]
  rw [if_neg (by omega), if_pos (by omega), lead]

theorem encodeChar_three {letter : Char} (lower : 0x800 ≤ letter.toNat)
    (upper : letter.toNat < 0x10000) :
    String.utf8EncodeChar letter =
      [UInt8.ofNat (letter.toNat / 4096 + 0xe0), UInt8.ofNat (letter.toNat / 64 % 64 + 0x80),
        UInt8.ofNat (letter.toNat % 64 + 0x80)] := by
  have lead : letter.toNat / 4096 % 16 = letter.toNat / 4096 := by omega
  simp only [String.utf8EncodeChar, Char.toNat_val]
  rw [if_neg (by omega), if_neg (by omega), if_pos (by omega), lead]

theorem encodeChar_four {letter : Char} (lower : 0x10000 ≤ letter.toNat) :
    String.utf8EncodeChar letter =
      [UInt8.ofNat (letter.toNat / 262144 + 0xf0), UInt8.ofNat (letter.toNat / 4096 % 64 + 0x80),
        UInt8.ofNat (letter.toNat / 64 % 64 + 0x80), UInt8.ofNat (letter.toNat % 64 + 0x80)] := by
  have valid := code_valid letter
  have lead : letter.toNat / 262144 % 8 = letter.toNat / 262144 := by omega
  simp only [String.utf8EncodeChar, Char.toNat_val]
  rw [if_neg (by omega), if_neg (by omega), if_neg (by omega), lead]

theorem isContinuation_byte {bits : Nat} (small : bits < 64) :
    isContinuation (UInt8.ofNat (bits + 0x80)) = true := by
  have value := toNat_byte (show bits + 0x80 < 256 by omega)
  simp only [isContinuation, Bool.and_eq_true, decide_eq_true_eq, UInt8.le_iff_toNat_le,
    UInt8.lt_iff_toNat_lt, value]
  constructor
  · exact Nat.le_add_left ..
  · change bits + 0x80 < 0xc0
    omega

theorem tailBits_byte {bits : Nat} (small : bits < 64) :
    tailBits (UInt8.ofNat (bits + 0x80)) = bits := by
  rw [tailBits, toNat_byte (by omega)]
  omega

theorem read_eq (lead : UInt8) (rest : List UInt8) :
    read lead rest =
      if lead.toNat < 0x80 then .letter (Char.ofNat lead.toNat) 1
      else if lead.toNat < 0xc2 then .malformed .start 1
      else if lead.toNat < 0xe0 then readTwo lead rest
      else if lead.toNat < 0xf0 then readThree lead rest
      else if lead.toNat < 0xf5 then readFour lead rest
      else .malformed .start 1 := by
  simp only [read, UInt8.lt_iff_toNat_lt]
  rfl

theorem secondAllowed_eq (lead second : UInt8) :
    secondAllowed lead second =
      (isContinuation second &&
        !(decide (lead.toNat = 0xe0) && decide (second.toNat < 0xa0)) &&
        !(decide (lead.toNat = 0xed) && decide (0xa0 ≤ second.toNat)) &&
        !(decide (lead.toNat = 0xf0) && decide (second.toNat < 0x90)) &&
        !(decide (lead.toNat = 0xf4) && decide (0x90 ≤ second.toNat))) := by
  have same (bound : UInt8) : (lead == bound) = decide (lead.toNat = bound.toNat) := by
    rw [Bool.eq_iff_iff, beq_iff_eq, decide_eq_true_eq, UInt8.toNat_inj]
  simp only [secondAllowed, same, UInt8.lt_iff_toNat_lt, ge_iff_le, UInt8.le_iff_toNat_le]
  rfl

theorem read_lead_two {letter : Char} (lower : 0x80 ≤ letter.toNat) (upper : letter.toNat < 0x800)
    (rest : List UInt8) :
    read (UInt8.ofNat (letter.toNat / 64 + 0xc0)) rest =
      readTwo (UInt8.ofNat (letter.toNat / 64 + 0xc0)) rest := by
  rw [read_eq, toNat_byte (by omega), if_neg (by omega), if_neg (by omega), if_pos (by omega)]

theorem read_lead_three {letter : Char} (upper : letter.toNat < 0x10000) (rest : List UInt8) :
    read (UInt8.ofNat (letter.toNat / 4096 + 0xe0)) rest =
      readThree (UInt8.ofNat (letter.toNat / 4096 + 0xe0)) rest := by
  rw [read_eq, toNat_byte (by omega), if_neg (by omega), if_neg (by omega), if_neg (by omega),
    if_pos (by omega)]

theorem read_lead_four (letter : Char) (rest : List UInt8) :
    read (UInt8.ofNat (letter.toNat / 262144 + 0xf0)) rest =
      readFour (UInt8.ofNat (letter.toNat / 262144 + 0xf0)) rest := by
  have valid := code_valid letter
  rw [read_eq, toNat_byte (by omega), if_neg (by omega), if_neg (by omega), if_neg (by omega),
    if_neg (by omega), if_pos (by omega)]

theorem second_of_three {letter : Char} (lower : 0x800 ≤ letter.toNat)
    (upper : letter.toNat < 0x10000) :
    secondAllowed (UInt8.ofNat (letter.toNat / 4096 + 0xe0))
      (UInt8.ofNat (letter.toNat / 64 % 64 + 0x80)) = true := by
  have valid := code_valid letter
  rw [secondAllowed_eq, isContinuation_byte (by omega), toNat_byte (by omega),
    toNat_byte (by omega)]
  simp only [Bool.true_and, Bool.and_eq_true, Bool.not_eq_true', Bool.and_eq_false_iff,
    decide_eq_false_iff_not]
  omega

theorem second_of_four {letter : Char} (lower : 0x10000 ≤ letter.toNat) :
    secondAllowed (UInt8.ofNat (letter.toNat / 262144 + 0xf0))
      (UInt8.ofNat (letter.toNat / 4096 % 64 + 0x80)) = true := by
  have valid := code_valid letter
  rw [secondAllowed_eq, isContinuation_byte (by omega), toNat_byte (by omega),
    toNat_byte (by omega)]
  simp only [Bool.true_and, Bool.and_eq_true, Bool.not_eq_true', Bool.and_eq_false_iff,
    decide_eq_false_iff_not]
  omega

theorem read_one {letter : Char} (bound : letter.toNat < 0x80) (rest : List UInt8) :
    read (UInt8.ofNat letter.toNat) rest = .letter letter 1 := by
  rw [read_eq, toNat_byte (by omega), if_pos bound, Char.ofNat_toNat]

theorem read_two {letter : Char} (lower : 0x80 ≤ letter.toNat) (upper : letter.toNat < 0x800)
    (rest : List UInt8) :
    read (UInt8.ofNat (letter.toNat / 64 + 0xc0))
      (UInt8.ofNat (letter.toNat % 64 + 0x80) :: rest) = .letter letter 2 := by
  have value : (letter.toNat / 64 + 0xc0) % 32 * 64 + letter.toNat % 64 = letter.toNat := by
    omega
  rw [read_lead_two lower upper, readTwo, if_pos (isContinuation_byte (by omega)),
    tailBits_byte (by omega), toNat_byte (by omega), value, Char.ofNat_toNat]

theorem read_three {letter : Char} (lower : 0x800 ≤ letter.toNat)
    (upper : letter.toNat < 0x10000) (rest : List UInt8) :
    read (UInt8.ofNat (letter.toNat / 4096 + 0xe0))
      (UInt8.ofNat (letter.toNat / 64 % 64 + 0x80) ::
        UInt8.ofNat (letter.toNat % 64 + 0x80) :: rest) = .letter letter 3 := by
  have value : ((letter.toNat / 4096 + 0xe0) % 16 * 64 + letter.toNat / 64 % 64) * 64 +
      letter.toNat % 64 = letter.toNat := by omega
  rw [read_lead_three upper, readThree, second_of_three lower upper, Bool.not_true,
    if_neg Bool.false_ne_true]
  simp only [isContinuation_byte (show letter.toNat % 64 < 64 by omega), if_true]
  rw [tailBits_byte (by omega), tailBits_byte (by omega), toNat_byte (by omega), value,
    Char.ofNat_toNat]

theorem read_four {letter : Char} (lower : 0x10000 ≤ letter.toNat) (rest : List UInt8) :
    read (UInt8.ofNat (letter.toNat / 262144 + 0xf0))
      (UInt8.ofNat (letter.toNat / 4096 % 64 + 0x80) ::
        UInt8.ofNat (letter.toNat / 64 % 64 + 0x80) ::
        UInt8.ofNat (letter.toNat % 64 + 0x80) :: rest) = .letter letter 4 := by
  have valid := code_valid letter
  have value : (((letter.toNat / 262144 + 0xf0) % 8 * 64 + letter.toNat / 4096 % 64) * 64 +
      letter.toNat / 64 % 64) * 64 + letter.toNat % 64 = letter.toNat := by omega
  rw [read_lead_four, readFour, second_of_four lower, Bool.not_true, if_neg Bool.false_ne_true]
  simp only [isContinuation_byte (show letter.toNat / 64 % 64 < 64 by omega),
    isContinuation_byte (show letter.toNat % 64 < 64 by omega), Bool.not_true, Bool.false_eq_true,
    if_true, if_false]
  rw [tailBits_byte (by omega), tailBits_byte (by omega), tailBits_byte (by omega),
    toNat_byte (by omega), value, Char.ofNat_toNat]

theorem read_cut (letter : Char) {lead : UInt8} {tail : List UInt8}
    (bytes : String.utf8EncodeChar letter = lead :: tail) {count : Nat}
    (short : count < tail.length) :
    read lead (tail.take count) = .malformed .truncated (count + 1) := by
  by_cases one : letter.toNat < 0x80
  · obtain ⟨rfl, rfl⟩ := List.cons.inj ((encodeChar_one one).symm.trans bytes)
    cases short
  · have lower : 0x80 ≤ letter.toNat := by omega
    by_cases two : letter.toNat < 0x800
    · obtain ⟨rfl, rfl⟩ := List.cons.inj ((encodeChar_two lower two).symm.trans bytes)
      have few : count < 1 := short
      obtain rfl : count = 0 := by omega
      exact read_lead_two lower two []
    · have lower : 0x800 ≤ letter.toNat := by omega
      by_cases three : letter.toNat < 0x10000
      · obtain ⟨rfl, rfl⟩ := List.cons.inj ((encodeChar_three lower three).symm.trans bytes)
        rw [read_lead_three three]
        have few : count < 2 := short
        obtain rfl | rfl : count = 0 ∨ count = 1 := by omega
        · rfl
        · simp only [List.take_succ_cons, List.take_zero, readThree, second_of_three lower three,
            Bool.not_true, Bool.false_eq_true, if_false]
      · have lower : 0x10000 ≤ letter.toNat := by omega
        obtain ⟨rfl, rfl⟩ := List.cons.inj ((encodeChar_four lower).symm.trans bytes)
        rw [read_lead_four]
        have few : count < 3 := short
        obtain rfl | rfl | rfl : count = 0 ∨ count = 1 ∨ count = 2 := by omega
        · rfl
        · simp only [List.take_succ_cons, List.take_zero, readFour, second_of_four lower,
            Bool.not_true, Bool.false_eq_true, if_false]
        · simp only [List.take_succ_cons, List.take_zero, readFour, second_of_four lower,
            isContinuation_byte (show letter.toNat / 64 % 64 < 64 by omega), Bool.not_true,
            Bool.false_eq_true, if_false]

theorem read_encodeChar (letter : Char) : ∃ lead tail,
    String.utf8EncodeChar letter = lead :: tail ∧
      ∀ rest, read lead (tail ++ rest) = .letter letter (tail.length + 1) := by
  by_cases one : letter.toNat < 0x80
  · exact ⟨_, _, encodeChar_one one, read_one one⟩
  · have lower : 0x80 ≤ letter.toNat := by omega
    by_cases two : letter.toNat < 0x800
    · exact ⟨_, _, encodeChar_two lower two, read_two lower two⟩
    · have lower : 0x800 ≤ letter.toNat := by omega
      by_cases three : letter.toNat < 0x10000
      · exact ⟨_, _, encodeChar_three lower three, read_three lower three⟩
      · have lower : 0x10000 ≤ letter.toNat := by omega
        exact ⟨_, _, encodeChar_four lower, read_four lower⟩

theorem encode_cons (letter : Char) (text : List Char) :
    encode (letter :: text) = String.utf8EncodeChar letter ++ encode text := rfl

theorem encode_append (before after : List Char) :
    encode (before ++ after) = encode before ++ encode after :=
  List.flatMap_append

theorem decodeLossy_encode (text : List Char) : decodeLossy (encode text) = text := by
  induction text with
  | nil => simp [encode, decodeLossy]
  | cons letter rest ih =>
      obtain ⟨lead, tail, bytes, reads⟩ := read_encodeChar letter
      rw [encode_cons, bytes, List.cons_append, decodeLossy]
      simp only [reads, Nat.add_sub_cancel, List.drop_left, ih]

theorem decodeFrom_encode (text : List Char) (position : Nat) :
    decodeFrom position (encode text) = (text, none) := by
  induction text generalizing position with
  | nil => simp [encode, decodeFrom]
  | cons letter rest ih =>
      obtain ⟨lead, tail, bytes, reads⟩ := read_encodeChar letter
      rw [encode_cons, bytes, List.cons_append, decodeFrom]
      simp only [reads, Nat.add_sub_cancel, List.drop_left, ih]

theorem decodeFrom_cut (text : List Char) (position : Nat) {piece rest : List UInt8}
    (whole : piece ++ rest = encode text) : ∃ before after part,
      text = before ++ after ∧ piece = encode before ++ part ∧ part ++ rest = encode after ∧
        ((part = [] ∧ decodeFrom position piece = (before, none)) ∨
          ∃ fault, decodeFrom position piece = (before, some fault) ∧ fault.cause = .truncated ∧
            fault.position = position + (encode before).length) := by
  induction text generalizing position piece with
  | nil =>
      obtain ⟨rfl, rfl⟩ := List.append_eq_nil_iff.mp whole
      exact ⟨[], [], [], rfl, rfl, rfl, .inl ⟨rfl, by rw [decodeFrom]⟩⟩
  | cons letter text ih =>
      obtain ⟨lead, tail, bytes, reads⟩ := read_encodeChar letter
      cases piece with
      | nil => exact ⟨[], letter :: text, [], rfl, rfl, whole, .inl ⟨rfl, by rw [decodeFrom]⟩⟩
      | cons first piece =>
          have split := whole
          rw [encode_cons, bytes, List.cons_append, List.cons_append, List.cons.injEq] at split
          obtain ⟨rfl, split⟩ := split
          by_cases short : piece.length < tail.length
          · have taken : tail.take piece.length = piece := by
              have first := congrArg (List.take piece.length) split
              rw [List.take_left, List.take_append_of_le_length (Nat.le_of_lt short)] at first
              exact first.symm
            have cut := read_cut letter bytes short
            rw [taken] at cut
            refine ⟨[], letter :: text, first :: piece, rfl, rfl, whole, .inr ?_⟩
            rw [decodeFrom, cut]
            exact ⟨_, rfl, rfl, rfl⟩
          · obtain ⟨more, rfl⟩ : ∃ more, piece = tail ++ more := by
              have begins := List.prefix_of_prefix_length_le (split ▸ List.prefix_append tail _)
                (List.prefix_append piece rest) (Nat.not_lt.mp short)
              exact begins.imp fun _ same => same.symm
            rw [List.append_assoc, List.append_cancel_left_eq] at split
            obtain ⟨before, after, part, rfl, rfl, ends, decoded⟩ :=
              ih (position + (tail.length + 1)) split
            refine ⟨letter :: before, after, part, rfl, ?_, ends, ?_⟩
            · rw [encode_cons, bytes]
              simp
            · rw [decodeFrom, reads]
              simp only [Nat.add_sub_cancel, List.drop_left]
              rcases decoded with ⟨rfl, decoded⟩ | ⟨fault, decoded, cause, place⟩
              · exact .inl ⟨rfl, by rw [decoded]⟩
              · refine .inr ⟨fault, by rw [decoded], cause, ?_⟩
                rw [place, encode_cons, bytes, List.length_append, List.length_cons]
                omega

theorem high_encodeChar {letter : Char} (long : 0x80 ≤ letter.toNat) {byte : UInt8}
    (member : byte ∈ String.utf8EncodeChar letter) : 0x80 ≤ byte.toNat := by
  have valid := code_valid letter
  by_cases two : letter.toNat < 0x800
  · simp only [encodeChar_two long two, List.mem_cons, List.not_mem_nil, or_false] at member
    rcases member with rfl | rfl
    all_goals
      rw [toNat_byte (by omega)]
      omega
  · by_cases three : letter.toNat < 0x10000
    · simp only [encodeChar_three (show 0x800 ≤ letter.toNat by omega) three, List.mem_cons,
        List.not_mem_nil, or_false] at member
      rcases member with rfl | rfl | rfl
      all_goals
        rw [toNat_byte (by omega)]
        omega
    · simp only [encodeChar_four (show 0x10000 ≤ letter.toNat by omega), List.mem_cons,
        List.not_mem_nil, or_false] at member
      rcases member with rfl | rfl | rfl | rfl
      all_goals
        rw [toNat_byte (by omega)]
        omega

theorem mem_encodeChar {letter : Char} {byte : UInt8} (ascii : byte.toNat < 0x80)
    (member : byte ∈ String.utf8EncodeChar letter) : letter = Char.ofNat byte.toNat := by
  by_cases one : letter.toNat < 0x80
  · rw [encodeChar_one one, List.mem_singleton] at member
    rw [member, toNat_byte (by omega), Char.ofNat_toNat]
  · have high := high_encodeChar (by omega) member
    omega

theorem mem_encode {text : List Char} {byte : UInt8} (ascii : byte.toNat < 0x80)
    (member : byte ∈ encode text) : Char.ofNat byte.toNat ∈ text := by
  obtain ⟨letter, found, bytes⟩ := List.mem_flatMap.mp member
  rwa [← mem_encodeChar ascii bytes]

theorem getLast_encode {text : List Char} {byte : UInt8} (ascii : byte.toNat < 0x80)
    (last : (encode text).getLast? = some byte) :
    text.getLast? = some (Char.ofNat byte.toNat) := by
  rcases List.eq_nil_or_concat text with rfl | ⟨before, letter, rfl⟩
  · simp [encode] at last
  · rw [List.concat_eq_append] at last ⊢
    obtain ⟨lead, tail, bytes, _⟩ := read_encodeChar letter
    rw [encode_append, encode_cons, bytes, show encode [] = [] from rfl, List.append_nil,
      List.getLast?_append, List.getLast?_cons, Option.some_or, ← List.getLast?_cons,
      ← bytes] at last
    rw [List.getLast?_concat, mem_encodeChar ascii (List.mem_of_getLast? last)]

end SteeringChannel.Text.Utf8
