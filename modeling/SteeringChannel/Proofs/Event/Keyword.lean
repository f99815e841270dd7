import SteeringChannel.Proofs.Event

/-!
Keywords in a line. A line is about the keyword that comes first in the order of the search, wherever
it stands, and not about the leftmost one. So text that begins as a message is read as one just if
no keyword occurs in it that is searched for earlier.
-/

namespace SteeringChannel.Event

inductive Key where
  | down
  | up
  deriving DecidableEq, Repr

namespace Key

def word : Key → List UInt8
  | down => keyDownWord
  | up => keyUpWord

def event : Key → UInt8 → Event
  | down => .keyDown
  | up => .keyUp

end Key

inductive Keyword where
  | key (key : Key)
  | pinInput
  | debug
  deriving DecidableEq, Repr

namespace Keyword

def word : Keyword → List UInt8
  | key which => which.word
  | pinInput => pinInputWord
  | debug => debugWord

def before : Keyword → List Keyword
  | key .down => []
  | key .up => [key .down]
  | pinInput => [key .down, key .up]
  | debug => [key .down, key .up, pinInput]

def read : Keyword → List UInt8 → Option Event
  | key which, found => (keyCode which.word found).map which.event
  | pinInput, found => some (.pinInput (Text.trimEnd isTerminator found))
  | debug, found =>
      some (.debugMessage
        (String.ofList (Text.Utf8.decodeLossy (Text.trimEnd isTerminator found))))

end Keyword

def keyword : Event → Keyword
  | keyDown _ => .key .down
  | keyUp _ => .key .up
  | pinInput _ => .pinInput
  | debugMessage _ => .debug

variable {word line found : List UInt8}

theorem seek_eq_some (sought : seek word line = some found) : word <+: found ∧ found <:+ line := by
  induction line with
  | nil => cases sought
  | cons byte rest ih =>
      rw [seek] at sought
      split at sought
      next begins =>
        obtain rfl := Option.some.inj sought
        exact ⟨List.isPrefixOf_iff_prefix.mp begins, List.suffix_rfl⟩
      next =>
        obtain ⟨begins, ends⟩ := ih sought
        exact ⟨begins, ends.trans (List.suffix_cons byte rest)⟩

theorem exists_seek (filled : word ≠ []) (occurs : word <:+: line) :
    ∃ found, seek word line = some found := by
  induction line with
  | nil => exact absurd (List.infix_nil.mp occurs) filled
  | cons byte rest ih =>
      rw [seek]
      split
      next => exact ⟨_, rfl⟩
      next elsewhere =>
        refine ih ((List.infix_cons_iff.mp occurs).resolve_left fun begins => ?_)
        exact elsewhere (List.isPrefixOf_iff_prefix.mpr begins)

theorem isSome_seek (filled : word ≠ []) : (seek word line).isSome = true ↔ word <:+: line := by
  constructor
  · intro sought
    obtain ⟨found, sought⟩ := Option.isSome_iff_exists.mp sought
    obtain ⟨begins, ends⟩ := seek_eq_some sought
    exact begins.isInfix.trans ends.isInfix
  · exact fun occurs => Option.isSome_iff_exists.mpr (exists_seek filled occurs)

namespace Keyword

variable {keyword first second : Keyword} {position : Nat} {event : Event}

theorem word_ne_nil (keyword : Keyword) : keyword.word ≠ [] := by
  rcases keyword with (_ | _) | _ | _ <;> decide

theorem eq_of_part (part : first.word <:+: second.word) : first = second := by
  rcases first with (_ | _) | _ | _ <;> rcases second with (_ | _) | _ | _ <;>
    first
    | rfl
    | exact absurd part (by decide)

def Occurs (keyword : Keyword) (line : List UInt8) : Prop := keyword.word <:+: line

instance (keyword : Keyword) (line : List UInt8) : Decidable (keyword.Occurs line) :=
  inferInstanceAs (Decidable (_ <:+: _))

/-- A keyword decides what a line is about if it occurs and none does that is searched for
earlier. -/
def Decides (keyword : Keyword) (line : List UInt8) : Prop :=
  keyword.Occurs line ∧ ∀ other ∈ keyword.before, ¬ other.Occurs line

theorem Decides.mem_before (decides : first.Decides line) (occurs : second.Occurs line) :
    first ∈ second.before ++ [second] := by
  obtain ⟨_, free⟩ := decides
  rcases first with (_ | _) | _ | _ <;> rcases second with (_ | _) | _ | _ <;>
    first
    | decide
    | exact absurd occurs (free _ (by decide))

theorem Decides.unique (one : first.Decides line) (two : second.Decides line) : first = second := by
  rcases List.mem_append.mp (one.mem_before two.1) with earlier | same
  · exact absurd one.1 (two.2 first earlier)
  · exact List.mem_singleton.mp same

theorem keyword_of_read (gives : keyword.read found = some event) : event.keyword = keyword := by
  rcases keyword with (_ | _) | _ | _
  · obtain ⟨code, _, rfl⟩ := Option.map_eq_some_iff.mp gives
    rfl
  · obtain ⟨code, _, rfl⟩ := Option.map_eq_some_iff.mp gives
    rfl
  · exact Option.some.inj gives ▸ rfl
  · exact Option.some.inj gives ▸ rfl

end Keyword

theorem exists_decides {keyword : Keyword} (occurs : keyword.Occurs line) :
    ∃ first : Keyword, first.Decides line := by
  by_cases down : (Keyword.key .down).Occurs line
  · exact ⟨_, down, by simp [Keyword.before]⟩
  by_cases up : (Keyword.key .up).Occurs line
  · exact ⟨_, up, by simpa [Keyword.before] using down⟩
  by_cases pin : Keyword.pinInput.Occurs line
  · exact ⟨_, pin, by simpa [Keyword.before] using ⟨down, up⟩⟩
  rcases keyword with (_ | _) | _ | _
  · exact absurd occurs down
  · exact absurd occurs up
  · exact absurd occurs pin
  · exact ⟨_, occurs, by simpa [Keyword.before] using ⟨down, up, pin⟩⟩

theorem ofLine_of_decides {keyword : Keyword} (decides : keyword.Decides (line.take lineLimit))
    (sought : seek keyword.word (line.take lineLimit) = some found) :
    ofLine line = keyword.read found := by
  have absent : ∀ other ∈ keyword.before, seek other.word (line.take lineLimit) = none :=
    fun other member => seek_eq_none (decides.2 other member)
  rcases keyword with (_ | _) | _ | _ <;>
    simp_all [ofLine, Keyword.before, Keyword.word, Keyword.read, Key.word, Key.event]

theorem ofLine_of_absent (absent : ∀ keyword : Keyword, ¬ keyword.Occurs (line.take lineLimit)) :
    ofLine line = none := by
  have down : seek keyDownWord (line.take lineLimit) = none := seek_eq_none (absent (.key .down))
  have up : seek keyUpWord (line.take lineLimit) = none := seek_eq_none (absent (.key .up))
  have pin : seek pinInputWord (line.take lineLimit) = none := seek_eq_none (absent .pinInput)
  have debug : seek debugWord (line.take lineLimit) = none := seek_eq_none (absent .debug)
  simp only [ofLine, down, up, pin, debug]

theorem ofLine_cases (line : List UInt8) :
    (∃ (keyword : Keyword) (found : List UInt8), keyword.Decides (line.take lineLimit) ∧
      seek keyword.word (line.take lineLimit) = some found ∧ ofLine line = keyword.read found) ∨
    (∀ keyword : Keyword, ¬ keyword.Occurs (line.take lineLimit)) ∧ ofLine line = none := by
  by_cases some : ∃ keyword : Keyword, keyword.Occurs (line.take lineLimit)
  · obtain ⟨_, occurs⟩ := some
    obtain ⟨keyword, decides⟩ := exists_decides occurs
    obtain ⟨found, sought⟩ := exists_seek keyword.word_ne_nil decides.1
    exact .inl ⟨keyword, found, decides, sought, ofLine_of_decides decides sought⟩
  · have absent := not_exists.mp some
    exact .inr ⟨absent, ofLine_of_absent absent⟩

theorem decides_of_ofLine {event : Event} (gives : ofLine line = some event) :
    event.keyword.Decides (line.take lineLimit) := by
  rcases ofLine_cases line with ⟨keyword, found, decides, _, read⟩ | ⟨_, nothing⟩
  · rw [Keyword.keyword_of_read (read.symm.trans gives)]
    exact decides
  · rw [gives] at nothing
    cases nothing

namespace Keyword

variable {keyword first second : Keyword} {position : Nat}

def At (keyword : Keyword) (line : List UInt8) (position : Nat) : Prop :=
  keyword.word <+: line.drop position

theorem At.occurs (here : keyword.At line position) : keyword.Occurs line :=
  here.isInfix.trans (List.drop_suffix position line).isInfix

def LeadsAt (keyword : Keyword) (line : List UInt8) (position : Nat) : Prop :=
  keyword.At line position ∧
    ∀ (other : Keyword) (place : Nat), other.At line place → position ≤ place

theorem exists_leadsAt (occurs : keyword.Occurs line) :
    ∃ (first : Keyword) (position : Nat), first.LeadsAt line position := by
  induction line with
  | nil => exact absurd (List.infix_nil.mp occurs) keyword.word_ne_nil
  | cons byte rest ih =>
      by_cases here : ∃ first : Keyword, first.At (byte :: rest) 0
      · obtain ⟨first, begins⟩ := here
        exact ⟨first, 0, begins, fun _ place _ => Nat.zero_le place⟩
      · have later : keyword.Occurs rest :=
          (List.infix_cons_iff.mp occurs).resolve_left fun begins => here ⟨keyword, begins⟩
        obtain ⟨first, position, begins, leads⟩ := ih later
        refine ⟨first, position + 1, begins, fun other place found => ?_⟩
        cases place with
        | zero => exact absurd ⟨other, found⟩ here
        | succ place => exact Nat.succ_le_succ (leads other place found)

theorem At.unique (one : first.At line position) (two : second.At line position) :
    first = second := by
  rcases List.prefix_or_prefix_of_prefix one two with part | part
  · exact eq_of_part part.isInfix
  · exact (eq_of_part part.isInfix).symm

theorem At.nested {place : Nat} (outer : first.At line place) (inner : second.At line position)
    (after : place ≤ position)
    (ends : position + second.word.length ≤ place + first.word.length) : place = position := by
  obtain ⟨tail, whole⟩ := outer
  have begins : second.word <+: first.word.drop (position - place) ++ tail := by
    rw [← List.drop_append_of_le_length (by omega), whole, List.drop_drop]
    rwa [show place + (position - place) = position by omega]
  have part : second.word <+: first.word.drop (position - place) :=
    List.prefix_of_prefix_length_le begins (List.prefix_append ..) (by simp; omega)
  have same := eq_of_part (part.isInfix.trans (List.drop_suffix _ _).isInfix)
  subst same
  omega

theorem at_take {count : Nat} : keyword.At (line.take count) position ↔
    keyword.At line position ∧ position + keyword.word.length ≤ count := by
  have filled := List.length_pos_of_ne_nil keyword.word_ne_nil
  rw [At, At, List.drop_take, List.prefix_take_iff]
  exact and_congr_right fun _ => ⟨fun _ => by omega, fun _ => by omega⟩

theorem LeadsAt.of_take {count : Nat} (leads : first.LeadsAt (line.take count) position) :
    first.LeadsAt line position := by
  obtain ⟨here, least⟩ := leads
  obtain ⟨here, ends⟩ := at_take.mp here
  refine ⟨here, fun other place there => ?_⟩
  by_contra earlier
  -- one that is cut off ends behind the leftmost one that is read, so it would contain that
  by_cases within : place + other.word.length ≤ count
  · exact earlier (least other place (at_take.mpr ⟨there, within⟩))
  · have same := there.nested here (by omega) (by omega)
    omega

end Keyword

theorem begins_occurs {keyword : Keyword} (begins : keyword.word <+: line)
    (short : keyword.word.length ≤ lineLimit) : keyword.Occurs (line.take lineLimit) :=
  (List.prefix_take_iff.mpr ⟨begins, short⟩).isInfix

/-- A line that begins as a debug message is one just if no other keyword occurs in what is read of
it; one that begins as pin input is it just if no key does. And the keyword of any event is the
leftmost keyword of its line, or one that is searched for earlier; it is the leftmost one just if no
keyword occurs that is searched for before that. -/
theorem leftmost_decides_iff (line : List UInt8) :
    (debugWord <+: line →
      ((∃ text, ofLine line = some (.debugMessage text)) ↔
        ∀ other ∈ Keyword.debug.before, ¬ other.Occurs (line.take lineLimit))) ∧
    (pinInputWord <+: line →
      ((∃ raw, ofLine line = some (.pinInput raw)) ↔
        ∀ other ∈ Keyword.pinInput.before, ¬ other.Occurs (line.take lineLimit))) ∧
    ∀ event, ofLine line = some event →
      ∃ (first : Keyword) (position : Nat), first.LeadsAt line position ∧
        event.keyword ∈ first.before ++ [first] ∧
        (event.keyword = first ↔
          ∀ other ∈ first.before, ¬ other.Occurs (line.take lineLimit)) := by
  refine ⟨fun begins => ⟨?_, fun free => ?_⟩, fun begins => ⟨?_, fun free => ?_⟩,
    fun event gives => ?_⟩
  · rintro ⟨text, gives⟩
    exact (decides_of_ofLine gives).2
  · have occurs : Keyword.debug.Occurs (line.take lineLimit) := begins_occurs begins (by decide)
    obtain ⟨found, sought⟩ := exists_seek Keyword.debug.word_ne_nil occurs
    exact ⟨_, ofLine_of_decides ⟨occurs, free⟩ sought⟩
  · rintro ⟨raw, gives⟩
    exact (decides_of_ofLine gives).2
  · have occurs : Keyword.pinInput.Occurs (line.take lineLimit) := begins_occurs begins (by decide)
    obtain ⟨found, sought⟩ := exists_seek Keyword.pinInput.word_ne_nil occurs
    exact ⟨_, ofLine_of_decides ⟨occurs, free⟩ sought⟩
  · have decides := decides_of_ofLine gives
    obtain ⟨first, position, leads⟩ := Keyword.exists_leadsAt decides.1
    have occurs := leads.1.occurs
    refine ⟨first, position, leads.of_take, decides.mem_before occurs, fun same => ?_, fun free => ?_⟩
    · exact same ▸ decides.2
    · exact decides.unique ⟨occurs, free⟩

/-- A debug message with a key behind the 64th byte, pin input with a later keyword in it, and a key
before one. -/
theorem leftmost_decides_iff_key_out_of_reach :
    let message := debugWord ++ List.replicate 59 0x20 ++ keyDownWord ++ [0x20, 0x41]
    let pins := pinInputWord ++ [0x20] ++ debugWord
    let pressed := keyUpWord ++ [0x20, 0x41] ++ pinInputWord
    debugWord <+: message ∧ (∃ text, ofLine message = some (.debugMessage text)) ∧
      pinInputWord <+: pins ∧ (∃ raw, ofLine pins = some (.pinInput raw)) ∧
      ofLine pressed = some (.keyUp 0x41) ∧
      ∃ position, (Keyword.key .up).LeadsAt pressed position := by
  intro message pins pressed
  have debug : debugWord <+: message := by decide
  have pin : pinInputWord <+: pins := by decide
  have key : ofLine pressed = some (.keyUp 0x41) := by decide
  have here : (Keyword.key .up).At pressed 0 := (by decide : keyUpWord <+: pressed)
  obtain ⟨message_iff, _, _⟩ := leftmost_decides_iff message
  obtain ⟨_, pins_iff, _⟩ := leftmost_decides_iff pins
  obtain ⟨_, _, leftmost⟩ := leftmost_decides_iff pressed
  obtain ⟨first, position, leads, _, _⟩ := leftmost (.keyUp 0x41) key
  obtain rfl : position = 0 := Nat.le_zero.mp (leads.2 _ 0 here)
  obtain rfl := leads.1.unique here
  exact ⟨debug, (message_iff debug).mpr (by decide), pin, (pins_iff pin).mpr (by decide), key, 0,
    leads⟩

/-- Messages with a key in them are taken for keys, and a debug message about pins for pin input. -/
theorem messages_taken_for_keys :
    ofLine (debugWord ++ [0x20] ++ keyDownWord ++ [0x20, 0x41]) = some (.keyDown 0x41) ∧
      ofLine (pinInputWord ++ [0x20] ++ keyUpWord ++ [0x20, 0x42]) = some (.keyUp 0x42) ∧
      ofLine (debugWord ++ [0x20] ++ pinInputWord) = some (.pinInput pinInputWord) := by
  decide

end SteeringChannel.Event
