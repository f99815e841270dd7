import SteeringChannel.Proofs.Event.Keyword

/-!
Terminators of lines. They are no part of a message, and of the line of a key they are none as long
as the line has its code. A key without a code takes the terminator for it, if that reaches as far.
-/

namespace SteeringChannel.Event

open Relay (lineFeed)

variable {word line found terminator : List UInt8}

def Terminal (bytes : List UInt8) : Prop := ∀ byte ∈ bytes, isTerminator byte = true

def Proper (word : List UInt8) : Prop := word ≠ [] ∧ ∀ byte ∈ word, isTerminator byte = false

theorem Keyword.proper_word (keyword : Keyword) : Proper keyword.word := by
  have free : keyword.word.all (!isTerminator ·) = true := by
    rcases keyword with (_ | _) | _ | _ <;> decide
  refine ⟨keyword.word_ne_nil, fun byte member => ?_⟩
  simpa using List.all_eq_true.mp free byte member

theorem Proper.not_part (proper : Proper word) (terminal : Terminal terminator) :
    ¬ word <:+: terminator := by
  intro occurs
  obtain ⟨filled, proper⟩ := proper
  obtain ⟨byte, member⟩ := List.exists_mem_of_ne_nil word filled
  have ends := terminal byte (occurs.subset member)
  rw [proper byte member] at ends
  cases ends

theorem Proper.prefix_append (proper : Proper word) (terminal : Terminal terminator) :
    word <+: line ++ terminator ↔ word <+: line := by
  refine ⟨fun begins => ?_, fun begins => begins.trans (List.prefix_append ..)⟩
  obtain ⟨tail, whole⟩ := begins
  rcases List.append_eq_append_iff.mp whole with ⟨rest, rfl, _⟩ | ⟨rest, rfl, reaches⟩
  · exact List.prefix_append ..
  -- what reaches into the terminator would be of the word and of the terminator at once
  · cases rest with
    | nil => simp
    | cons byte rest =>
        have ends : isTerminator byte = true := terminal byte (by simp [reaches])
        rw [proper.2 byte (by simp)] at ends
        cases ends

theorem Proper.seek_append (proper : Proper word) (terminal : Terminal terminator) :
    seek word (line ++ terminator) = (seek word line).map (· ++ terminator) := by
  induction line with
  | nil => exact seek_eq_none (proper.not_part terminal)
  | cons byte rest ih =>
      have same : word.isPrefixOf (byte :: (rest ++ terminator)) = word.isPrefixOf (byte :: rest) := by
        rw [Bool.eq_iff_iff, List.isPrefixOf_iff_prefix, List.isPrefixOf_iff_prefix,
          ← List.cons_append, proper.prefix_append terminal]
      rw [List.cons_append, seek, seek, same, ih]
      split <;> rfl

theorem Proper.infix_append (proper : Proper word) (terminal : Terminal terminator) :
    word <:+: line ++ terminator ↔ word <:+: line := by
  rw [← isSome_seek proper.1, ← isSome_seek proper.1, proper.seek_append terminal, Option.isSome_map]

theorem Keyword.decides_append {keyword : Keyword} (terminal : Terminal terminator) :
    keyword.Decides (line ++ terminator) ↔ keyword.Decides line := by
  have same (keyword : Keyword) : keyword.Occurs (line ++ terminator) ↔ keyword.Occurs line :=
    keyword.proper_word.infix_append terminal
  simp only [Keyword.Decides, same]

theorem keyCode_eq (word found : List UInt8) : keyCode word found = found[word.length + 1]? :=
  List.head?_drop

variable {which : Key} {missing : Nat}

/-- How many bytes a line is short of having the code of its key; the separator may be one of
them. -/
def Key.Lacks (which : Key) (line : List UInt8) (missing : Nat) : Prop :=
  (Keyword.key which).Decides (line.take lineLimit) ∧ 0 < missing ∧
    ∃ found, seek which.word (line.take lineLimit) = some found ∧
      found.length + missing = which.word.length + 2

theorem read_lacking (short : found.length + missing = which.word.length + 2) (some : 0 < missing)
    (bytes : List UInt8) :
    (Keyword.key which).read (found ++ bytes) = bytes[missing - 1]?.map which.event := by
  have place : which.word.length + 1 - found.length = missing - 1 := by omega
  rw [Keyword.read, keyCode_eq, List.getElem?_append_right (by omega), place]

theorem read_append {keyword : Keyword} (terminal : Terminal terminator)
    (whole : ∀ which, keyword = .key which → which.word.length + 2 ≤ found.length) :
    keyword.read (found ++ terminator) = keyword.read found := by
  cases keyword with
  | key which =>
      have long := whole which rfl
      rw [Keyword.read, Keyword.read, keyCode_eq, keyCode_eq,
        List.getElem?_append_left (by omega)]
  | pinInput => rw [Keyword.read, Keyword.read, Text.trimEnd_append terminal]
  | debug => rw [Keyword.read, Keyword.read, Text.trimEnd_append terminal]

theorem take_terminated (line terminator : List UInt8) :
    (line ++ terminator).take lineLimit =
      line.take lineLimit ++ terminator.take (lineLimit - line.length) :=
  List.take_append

theorem Terminal.take (terminal : Terminal terminator) (count : Nat) :
    Terminal (terminator.take count) :=
  fun byte member => terminal byte (List.mem_of_mem_take member)

theorem ofLine_append {keyword : Keyword} (terminal : Terminal terminator)
    (decides : keyword.Decides (line.take lineLimit))
    (sought : seek keyword.word (line.take lineLimit) = some found) :
    ofLine (line ++ terminator) =
      keyword.read (found ++ terminator.take (lineLimit - line.length)) := by
  have cut := terminal.take (lineLimit - line.length)
  refine ofLine_of_decides ?_ ?_ <;> rw [take_terminated]
  · exact (Keyword.decides_append cut).mpr decides
  · rw [keyword.proper_word.seek_append cut, sought, Option.map_some]

theorem ofLine_lacking (terminal : Terminal terminator) (lacks : which.Lacks line missing) :
    ofLine line = none ∧ ofLine (line ++ terminator) =
      if line.length + missing ≤ lineLimit then terminator[missing - 1]?.map which.event
      else none := by
  obtain ⟨decides, some, found, sought, short⟩ := lacks
  have alone : ofLine line = none := by
    rw [ofLine_of_decides decides sought, ← List.append_nil found, read_lacking short some]
    rfl
  refine ⟨alone, ?_⟩
  rw [ofLine_append terminal decides sought, read_lacking short some, List.getElem?_take]
  have reached : missing - 1 < lineLimit - line.length ↔ line.length + missing ≤ lineLimit := by
    omega
  simp only [reached]
  split <;> rfl

theorem ofLine_terminated (terminal : Terminal terminator)
    (whole : ∀ which missing, ¬ Key.Lacks which line missing) :
    ofLine (line ++ terminator) = ofLine line := by
  have cut := terminal.take (lineLimit - line.length)
  rcases ofLine_cases line with ⟨keyword, found, decides, sought, read⟩ | ⟨absent, nothing⟩
  · rw [read, ofLine_append terminal decides sought]
    refine read_append cut ?_
    rintro which rfl
    by_contra short
    exact whole which (which.word.length + 2 - found.length)
      ⟨decides, by omega, found, sought, by omega⟩
  · rw [nothing]
    refine ofLine_of_absent fun keyword occurs => absent keyword ?_
    rw [take_terminated] at occurs
    exact (keyword.proper_word.infix_append cut).mp occurs

/-- A line says the same with a terminator, whatever event it is for, just if it is not that of a
key whose code is missing at a place that the terminator reaches within the bytes that are read. The
line of such a key says nothing alone, and with the terminator it is taken for the key whose code is
the byte at that place. -/
theorem terminated_same_iff (terminal : ∀ byte ∈ terminator, isTerminator byte = true)
    (line : List UInt8) :
    (ofLine (line ++ terminator) = ofLine line ↔
      ∀ (which : Key) (missing : Nat), which.Lacks line missing →
        terminator.length < missing ∨ lineLimit < line.length + missing) ∧
    ∀ (which : Key) (missing : Nat), which.Lacks line missing →
      ofLine line = none ∧ ofLine (line ++ terminator) =
        if line.length + missing ≤ lineLimit then terminator[missing - 1]?.map which.event
        else none := by
  refine ⟨⟨fun same which missing lacks => ?_, fun free => ?_⟩,
    fun which missing => ofLine_lacking terminal⟩
  · obtain ⟨alone, taken⟩ := ofLine_lacking terminal lacks
    by_contra reached
    have some := lacks.2.1
    rw [not_or, Nat.not_lt, Nat.not_lt] at reached
    rw [taken, alone, if_pos reached.2, Option.map_eq_none_iff, List.getElem?_eq_none_iff] at same
    omega
  · by_cases whole : ∀ which missing, ¬ Key.Lacks which line missing
    · exact ofLine_terminated terminal whole
    · simp only [not_forall, not_not] at whole
      obtain ⟨which, missing, lacks⟩ := whole
      obtain ⟨alone, taken⟩ := ofLine_lacking terminal lacks
      rw [taken, alone]
      split
      next within =>
        have beyond := (free which missing lacks).resolve_right (Nat.not_lt.mpr within)
        rw [List.getElem?_eq_none (by omega), Option.map_none]
      next => rfl

/-- A key with its code before a carriage return and a line feed, and one without separator and code
before a line feed. -/
theorem terminated_same_iff_keys :
    let pressed := keyDownWord ++ [0x20, 0x41]
    ofLine (pressed ++ [carriageReturn, lineFeed]) = some (.keyDown 0x41) ∧
      Key.up.Lacks keyUpWord 2 ∧ ofLine (keyUpWord ++ [lineFeed]) = none := by
  intro pressed
  have key : ofLine pressed = some (.keyDown 0x41) := by decide
  have lacks : Key.up.Lacks keyUpWord 2 :=
    ⟨⟨by decide, by decide⟩, by decide, keyUpWord, by decide, by decide⟩
  have ends : ∀ byte ∈ [carriageReturn, lineFeed], isTerminator byte = true := by
    simp [isTerminator, carriageReturn, lineFeed]
  have feeds : ∀ byte ∈ [lineFeed], isTerminator byte = true := by simp [isTerminator, lineFeed]
  obtain ⟨same, lacking⟩ := terminated_same_iff ends pressed
  have whole (which : Key) (missing : Nat) : ¬ which.Lacks pressed missing := fun lacks => by
    have nothing := (lacking which missing lacks).1
    rw [key] at nothing
    cases nothing
  obtain ⟨_, short⟩ := terminated_same_iff feeds keyUpWord
  refine ⟨?_, lacks, (short .up 2 lacks).2⟩
  rw [same.mpr fun which missing lacks => absurd lacks (whole which missing), key]

/-- A key without its code has the terminator for one. -/
theorem terminators_taken_for_codes :
    ofLine (keyDownWord ++ [0x20]) = none ∧
      ofLine (keyDownWord ++ [0x20] ++ [lineFeed]) = some (.keyDown lineFeed) ∧
      ofLine (keyDownWord ++ [0x20] ++ [carriageReturn, lineFeed]) =
        some (.keyDown carriageReturn) ∧
      ofLine keyUpWord = none ∧
      ofLine (keyUpWord ++ [carriageReturn, lineFeed]) = some (.keyUp lineFeed) := by
  decide

end SteeringChannel.Event
