import SteeringChannel.Proofs.Relay.Framing

/-!
Lines that are too long for the buffer. When a read ends in a line of which the reader has kept 64
bytes, all that it has kept is lost, and what follows counts as the line. So a long line is
truncated if its end comes in the read that fills the buffer, and split if it comes later.
-/

namespace SteeringChannel.Relay

/-- A line, and after how many of its bytes a read has ended before the line feed came. -/
structure CutLine where
  bytes : List UInt8 := []
  ends : List Nat := []
  deriving DecidableEq, Repr

namespace CutLine

def loseTo (lost cut : Nat) : Nat := if lost + Event.lineLimit ≤ cut then cut else lost

def lost (line : CutLine) : Nat := line.ends.foldl loseTo 0

def kept (line : CutLine) : List UInt8 := line.bytes.drop line.lost

def event? (line : CutLine) : Option Event := Event.ofLine line.kept

def extend (line : CutLine) (piece : List UInt8) : CutLine :=
  ⟨line.bytes ++ piece, line.ends ++ [(line.bytes ++ piece).length]⟩

def finish (line : CutLine) (piece : List UInt8) : CutLine := ⟨line.bytes ++ piece, line.ends⟩

def Within (line : CutLine) : Prop := ∀ cut ∈ line.ends, cut ≤ line.bytes.length

theorem Within.empty : Within {} := by simp [Within]

end CutLine

/-- The finished lines of some reads, and the line that they leave unfinished; they go on with one
that others have begun. -/
def cutLines (begun : CutLine) : List (List UInt8) → List CutLine × CutLine
  | [] => ([], begun)
  | read :: rest =>
      match splitLines read with
      | ([], tail) => cutLines (begun.extend tail) rest
      | (line :: lines, tail) =>
          let others := cutLines (CutLine.extend {} tail) rest
          (begun.finish line :: lines.map (CutLine.finish {}) ++ others.1, others.2)

theorem foldl_lost (ends : List Nat) (start : Nat) :
    let last := ends.foldl CutLine.loseTo start
    (last = start ↔ ∀ cut ∈ ends, cut < start + Event.lineLimit) ∧
      (last = start ∨ start + Event.lineLimit ≤ last ∧ last ∈ ends) := by
  induction ends generalizing start with
  | nil => simp
  | cons cut rest ih =>
      intro last
      by_cases full : start + Event.lineLimit ≤ cut
      · obtain ⟨_, later⟩ := ih cut
        have step : last = rest.foldl CutLine.loseTo cut := by
          simp only [last, List.foldl_cons, CutLine.loseTo, if_pos full]
        rw [← step] at later
        have positive : 0 < Event.lineLimit := by decide
        constructor
        · constructor
          · intro same
            omega
          · intro short
            have := short cut List.mem_cons_self
            omega
        · right
          rcases later with same | ⟨more, member⟩
          · exact ⟨by omega, by rw [same]; exact List.mem_cons_self⟩
          · exact ⟨by omega, List.mem_cons_of_mem cut member⟩
      · obtain ⟨same, later⟩ := ih start
        have step : last = rest.foldl CutLine.loseTo start := by
          simp only [last, List.foldl_cons, CutLine.loseTo, if_neg full]
        rw [← step] at same later
        constructor
        · rw [same, List.forall_mem_cons]
          exact ⟨fun short => ⟨by omega, short⟩, And.right⟩
        · exact later.imp_right fun ⟨more, member⟩ => ⟨more, List.mem_cons_of_mem cut member⟩

namespace CutLine

variable {line : CutLine}

theorem lost_eq_zero_iff : line.lost = 0 ↔ ∀ cut ∈ line.ends, cut < Event.lineLimit := by
  have zero := (foldl_lost line.ends 0).1
  simp only [Nat.zero_add] at zero
  exact zero

theorem lost_cases : line.lost = 0 ∨ Event.lineLimit ≤ line.lost ∧ line.lost ∈ line.ends := by
  have cases := (foldl_lost line.ends 0).2
  simp only [Nat.zero_add] at cases
  exact cases

theorem lost_extend (piece : List UInt8) :
    (line.extend piece).lost = loseTo line.lost (line.bytes ++ piece).length := by
  simp only [lost, extend, List.foldl_append, List.foldl_cons, List.foldl_nil]

theorem Within.lost_le (within : line.Within) : line.lost ≤ line.bytes.length := by
  rcases line.lost_cases with nothing | ⟨_, member⟩
  · omega
  · exact within _ member

theorem Within.extend (within : line.Within) (piece : List UInt8) : (line.extend piece).Within := by
  intro cut member
  simp only [CutLine.extend, List.mem_append, List.mem_singleton, List.length_append] at member ⊢
  rcases member with member | rfl
  · have := within cut member
    omega
  · omega

theorem Within.finish (within : line.Within) (piece : List UInt8) : (line.finish piece).Within := by
  intro cut member
  have := within cut member
  simp only [CutLine.finish, List.length_append]
  omega

theorem Within.kept_finish (within : line.Within) (piece : List UInt8) :
    (line.finish piece).kept = line.kept ++ piece :=
  List.drop_append_of_le_length within.lost_le

theorem Within.kept_extend (within : line.Within) (piece : List UInt8) :
    (line.extend piece).kept =
      if Event.lineLimit ≤ (line.kept ++ piece).length then [] else line.kept ++ piece := by
  have lost := within.lost_le
  have length : (line.kept ++ piece).length = (line.bytes ++ piece).length - line.lost := by
    simp only [kept, List.length_append, List.length_drop]
    omega
  have total : line.lost ≤ (line.bytes ++ piece).length := by
    rw [List.length_append]
    omega
  rw [length, kept, lost_extend, loseTo]
  by_cases full : line.lost + Event.lineLimit ≤ (line.bytes ++ piece).length
  · rw [if_pos full, if_pos (by omega)]
    exact List.drop_length
  · rw [if_neg full, if_neg (by omega)]
    exact List.drop_append_of_le_length lost

/-- A line in which no read ends after its first 64 bytes is truncated to them. -/
theorem event?_truncated (short : ∀ cut ∈ line.ends, cut < Event.lineLimit) :
    line.event? = Event.ofLine (line.bytes.take Event.lineLimit) := by
  rw [event?, kept, lost_eq_zero_iff.mpr short, List.drop_zero, Event.ofLine, Event.ofLine,
    List.take_take, Nat.min_self]

/-- A line in which a read ends later is split, and its first 64 bytes count for nothing. -/
theorem event?_split (long : ∃ cut ∈ line.ends, Event.lineLimit ≤ cut) :
    ∃ cut ∈ line.ends, Event.lineLimit ≤ cut ∧
      line.event? = Event.ofLine (line.bytes.drop cut) := by
  rcases line.lost_cases with nothing | ⟨more, member⟩
  · obtain ⟨cut, member, long⟩ := long
    have short := lost_eq_zero_iff.mp nothing cut member
    omega
  · exact ⟨line.lost, member, more, rfl⟩

end CutLine

theorem splitLines_begun {begun : List UInt8} (unbroken : lineFeed ∉ begun) (read : List UInt8) :
    splitLines (begun ++ read) =
      match splitLines read with
      | ([], tail) => ([], begun ++ tail)
      | (line :: lines, tail) => ((begun ++ line) :: lines, tail) := by
  induction begun with
  | nil =>
      rw [List.nil_append]
      rcases splitLines read with ⟨_ | ⟨line, lines⟩, tail⟩ <;> rfl
  | cons byte rest ih =>
      rw [List.mem_cons, not_or] at unbroken
      rw [List.cons_append, splitLines, ih unbroken.2]
      rcases splitLines read with ⟨_ | ⟨line, lines⟩, tail⟩ <;> simp [Ne.symm unbroken.1]

theorem events_hear (buffer chunk : List UInt8) :
    events (hear buffer chunk).1 = (splitLines (buffer ++ chunk)).1.filterMap Event.ofLine := by
  simp only [hear]
  split
  · rw [events_append, events_hearLine]
    exact List.append_nil _
  · exact events_hearLine _

theorem buffer_hear (buffer chunk : List UInt8) :
    (hear buffer chunk).2 =
      if Event.lineLimit ≤ (splitLines (buffer ++ chunk)).2.length then []
      else (splitLines (buffer ++ chunk)).2 := by
  simp only [hear]
  split <;> rfl

theorem events_cutLines {begun : CutLine} (unbroken : lineFeed ∉ begun.bytes)
    (within : begun.Within) (reads : List (List UInt8)) :
    events (hearAll begun.kept reads).1 = (cutLines begun reads).1.filterMap CutLine.event? := by
  induction reads generalizing begun with
  | nil => rfl
  | cons read rest ih =>
      have kept : lineFeed ∉ begun.kept := fun member => unbroken (List.mem_of_mem_drop member)
      have free := lineFeed_not_mem_tail read
      have split := splitLines_begun kept read
      simp only [hearAll, cutLines]
      rw [events_append, events_hear, buffer_hear, split]
      rcases shape : splitLines read with ⟨_ | ⟨line, lines⟩, tail⟩
      · -- The line goes on: what is kept of it is the buffer after this read.
        rw [shape] at free
        have next : lineFeed ∉ (begun.extend tail).bytes := by
          simp only [CutLine.extend, List.mem_append, not_or]
          exact ⟨unbroken, free⟩
        have later := ih next (within.extend tail)
        rw [within.kept_extend] at later
        simpa using later
      · -- The line ends, and with the last line feed of the read another one begins.
        rw [shape] at free
        have fresh := CutLine.Within.empty
        have later := @ih (CutLine.extend {} tail) (by simpa [CutLine.extend] using free)
          (fresh.extend tail)
        have empty : CutLine.kept {} = [] := rfl
        rw [fresh.kept_extend, empty, List.nil_append] at later
        have whole : (CutLine.event? ∘ CutLine.finish {}) = Event.ofLine := rfl
        have first : (begun.finish line).event? = Event.ofLine (begun.kept ++ line) := by
          rw [CutLine.event?, within.kept_finish]
        simp only [List.cons_append, List.filterMap_cons, List.filterMap_append,
          List.filterMap_map, whole, first, later]
        cases Event.ofLine (begun.kept ++ line) <;> simp

theorem bytes_cutLines {begun : CutLine} (unbroken : lineFeed ∉ begun.bytes)
    (reads : List (List UInt8)) :
    (cutLines begun reads).1.map CutLine.bytes = (splitLines (begun.bytes ++ reads.flatten)).1 := by
  induction reads generalizing begun with
  | nil => simp [cutLines, splitLines_unbroken unbroken]
  | cons read rest ih =>
      have free := lineFeed_not_mem_tail read
      rw [List.flatten_cons, ← List.append_assoc, splitLines_append,
        splitLines_begun unbroken read]
      simp only [cutLines]
      rcases shape : splitLines read with ⟨_ | ⟨line, lines⟩, tail⟩
      · rw [shape] at free
        have next : lineFeed ∉ (begun.extend tail).bytes := by
          simp only [CutLine.extend, List.mem_append, not_or]
          exact ⟨unbroken, free⟩
        exact ih next
      · rw [shape] at free
        have later := @ih (CutLine.extend {} tail) (by simpa [CutLine.extend] using free)
        have same : CutLine.bytes ∘ CutLine.finish {} = id := rfl
        simp only [List.cons_append, List.map_cons, List.map_append, List.map_map, same, later,
          List.map_id]
        rfl

theorem length_splitLines {read line : List UInt8} (member : line ∈ (splitLines read).1) :
    line.length < read.length := by
  induction read generalizing line with
  | nil => simp [splitLines] at member
  | cons byte rest ih =>
      rw [List.length_cons]
      simp only [splitLines] at member
      by_cases ends : byte = lineFeed
      · rw [if_pos ends] at member
        rcases List.mem_cons.mp member with rfl | member
        · exact Nat.succ_pos _
        · exact Nat.lt_succ_of_lt (ih member)
      · rw [if_neg ends] at member
        rcases shape : splitLines rest with ⟨_ | ⟨first, others⟩, tail⟩
        · rw [shape] at member
          simp at member
        · rw [shape] at ih member
          rcases List.mem_cons.mp member with rfl | member
          · have := ih List.mem_cons_self
            rw [List.length_cons]
            omega
          · have := ih (List.mem_cons_of_mem first member)
            omega

namespace CutLine

def Paced (line : CutLine) (most : Nat) : Prop :=
  line.bytes.length < most ∨ ∃ cut ∈ line.ends, Event.lineLimit ≤ cut

theorem Paced.extend (line : CutLine) (piece : List UInt8) :
    (line.extend piece).Paced Event.lineLimit := by
  by_cases short : (line.bytes ++ piece).length < Event.lineLimit
  · exact .inl short
  · exact .inr ⟨_, List.mem_append_right _ List.mem_cons_self, Nat.not_lt.mp short⟩

theorem Paced.finish {line : CutLine} (paced : line.Paced Event.lineLimit) {piece : List UInt8}
    (fits : piece.length < readLimit) : (line.finish piece).Paced (2 * Event.lineLimit - 1) := by
  rcases paced with short | cut
  · refine .inl ?_
    simp only [CutLine.finish, List.length_append]
    simp only [Event.lineLimit, readLimit] at short fits ⊢
    omega
  · exact .inr cut

end CutLine

/-- With reads of at most 64 bytes, no line of 127 bytes or more comes through uncut. -/
theorem mem_cutLines {begun : CutLine} (within : begun.Within) (paced : begun.Paced Event.lineLimit)
    {reads : List (List UInt8)} (bounded : ∀ read ∈ reads, read.length ≤ readLimit) {line : CutLine}
    (member : line ∈ (cutLines begun reads).1) :
    line.Within ∧ line.Paced (2 * Event.lineLimit - 1) := by
  induction reads generalizing begun with
  | nil => simp [cutLines] at member
  | cons read rest ih =>
      obtain ⟨limit, bounded⟩ := List.forall_mem_cons.mp bounded
      have fits : ∀ piece ∈ (splitLines read).1, piece.length < readLimit :=
        fun piece found => Nat.lt_of_lt_of_le (length_splitLines found) limit
      have fresh := CutLine.Within.empty
      simp only [cutLines] at member
      rcases shape : splitLines read with ⟨_ | ⟨first, lines⟩, tail⟩
      · rw [shape] at member
        exact ih (within.extend tail) (.extend begun tail) bounded member
      · rw [shape] at member fits
        simp only [List.mem_append, List.mem_cons, List.mem_map] at member
        rcases member with (rfl | ⟨piece, found, rfl⟩) | member
        · exact ⟨within.finish first, paced.finish (fits first List.mem_cons_self)⟩
        · have begins : CutLine.Paced {} Event.lineLimit := .inl (by decide)
          exact ⟨fresh.finish piece, begins.finish (fits piece (List.mem_cons_of_mem _ found))⟩
        · exact ih (fresh.extend tail) (.extend {} tail) bounded member

/-- A started relay publishes of each finished line the event of what it has kept. A line of less
than 64 bytes is kept whole; a longer one is truncated to 64 bytes if no read has ended after them,
and otherwise what came before the end of such a read is lost. From 127 bytes on, one has. -/
theorem splits_long_lines {relay : Relay} (device : relay.path = relay.device.name)
    (idle : relay.device.arrivals = []) {tree : Filesystem}
    (started : (relay.start tree).2.2 = none) {acts : List Act}
    (goes : ∀ act ∈ acts, act.goesOn) :
    let lines := (cutLines {} (acts.flatMap Act.reads)).1
    lines.map CutLine.bytes = ((acts.flatMap Act.bytes).splitOn lineFeed).dropLast ∧
      ((relay.start tree).1.run acts).published =
        relay.received ++ lines.filterMap CutLine.event? ∧
      ∀ line ∈ lines,
        (line.bytes.length < Event.lineLimit → line.event? = Event.ofLine line.bytes) ∧
        ((∀ cut ∈ line.ends, cut < Event.lineLimit) →
          line.event? = Event.ofLine (line.bytes.take Event.lineLimit)) ∧
        ((∃ cut ∈ line.ends, Event.lineLimit ≤ cut) →
          ∃ cut ∈ line.ends, Event.lineLimit ≤ cut ∧
            line.event? = Event.ofLine (line.bytes.drop cut)) ∧
        (2 * Event.lineLimit - 1 ≤ line.bytes.length →
          ∃ cut ∈ line.ends, Event.lineLimit ≤ cut) := by
  intro lines
  have fresh := CutLine.Within.empty
  have begins : CutLine.Paced {} Event.lineLimit := .inl (by decide)
  have bounded : ∀ read ∈ acts.flatMap Act.reads, read.length ≤ readLimit :=
    fun read member => (mem_reads member).2
  refine ⟨?bytes, ?published, fun line member => ?line⟩
  case bytes =>
    rw [bytes_cutLines List.not_mem_nil, flatten_reads, ← lines_eq]
    rfl
  case published =>
    rw [((hears_start device idle started).run goes).published,
      ← events_cutLines List.not_mem_nil fresh]
    rfl
  case line =>
    obtain ⟨within, paced⟩ := mem_cutLines fresh begins bounded member
    refine ⟨fun short => ?_, CutLine.event?_truncated, CutLine.event?_split,
      fun long => paced.resolve_left (Nat.not_lt.mpr long)⟩
    have uncut : ∀ cut ∈ line.ends, cut < Event.lineLimit :=
      fun cut found => Nat.lt_of_le_of_lt (within cut found) short
    rw [CutLine.event?_truncated uncut, List.take_of_length_le (Nat.le_of_lt short)]

/-- A line of 64 bytes whose line feed comes with the read that fills the buffer, and a longer one
of which a read brings just the first 64 bytes. -/
theorem splits_long_lines_cut_early_and_late :
    let relay : Relay := { path := "dev0" }
    let down := Event.keyDownWord ++ [0x20, 0x41]
    let up := Event.keyUpWord ++ [0x20, 0x42]
    let full := List.replicate 55 0x78 ++ down
    let noise := List.replicate 64 0x78
    let acts : List Act := [.consume, .feed (full.take 4), .feed (full.drop 4 ++ [lineFeed]),
      .forward 7, .feed noise, .feed (up ++ [lineFeed])]
    (relay.start .empty).2.2 = none ∧ (∀ act ∈ acts, act.goesOn) ∧
      (cutLines {} (acts.flatMap Act.reads)).1 = [⟨full, [4]⟩, ⟨noise ++ up, [0, 64]⟩] ∧
      full.length = 64 ∧ Event.ofLine full = some (.keyDown 0x41) ∧
      Event.ofLine ((noise ++ up).take 64) = none ∧
      ((relay.start .empty).1.run acts).published = [.keyDown 0x41, .keyUp 0x42] := by
  intro relay down up full noise acts
  have started : (relay.start .empty).2.2 = none := rfl
  have goes : ∀ act ∈ acts, act.goesOn := by simp [acts, Act.goesOn, Act.feed]
  have lines : (cutLines {} (acts.flatMap Act.reads)).1 =
      [⟨full, [4]⟩, ⟨noise ++ up, [0, 64]⟩] := by decide
  obtain ⟨_, published, _⟩ := splits_long_lines rfl rfl started goes
  refine ⟨started, goes, lines, rfl, by decide, by decide, ?_⟩
  rw [published, lines]
  decide

/-- A line of 64 bytes is lost when its line feed comes with the next read, and a keyword beyond the
64th byte of a line becomes an event. -/
theorem long_lines_cut_at_their_end :
    let relay : Relay := { path := "dev0" }
    let full := List.replicate 55 0x78 ++ Event.keyDownWord ++ [0x20, 0x41]
    let noise := List.replicate 64 0x78
    let up := Event.keyUpWord ++ [0x20, 0x42]
    let lost := (relay.start .empty).1.run [.consume, .feed full, .feed [lineFeed]]
    let split := (relay.start .empty).1.run [.consume, .feed noise, .feed (up ++ [lineFeed])]
    (relay.start .empty).2.2 = none ∧
      full.length = 64 ∧ Event.ofLine full = some (.keyDown 0x41) ∧ lost.published = [] ∧
      Event.ofLine ((noise ++ up).take 64) = none ∧ split.published = [.keyUp 0x42] := by
  decide

end SteeringChannel.Relay
