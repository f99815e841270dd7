import SteeringChannel.Proofs.Relay.Act

/-!
Lines out of reads. Wherever the reads cut the input, the reader finds the same lines, as long as
no line is too long for it; and after a line that was too long it is right again from the next line
feed on.
-/

namespace SteeringChannel.Relay

theorem splitOn_cons (byte : UInt8) (rest : List UInt8) :
    (byte :: rest).splitOn lineFeed =
      if byte = lineFeed then [] :: rest.splitOn lineFeed
      else (rest.splitOn lineFeed).modifyHead (List.cons byte) := by
  simp [List.splitOn, List.splitOnP_cons_eq_if_modifyHead]

theorem splitLines_splitOn (bytes : List UInt8) :
    (splitLines bytes).1 ++ [(splitLines bytes).2] = bytes.splitOn lineFeed := by
  induction bytes with
  | nil => rfl
  | cons byte rest ih =>
      rw [splitOn_cons, ← ih]
      simp only [splitLines]
      by_cases ends : byte = lineFeed
      · simp [ends]
      · cases (splitLines rest).1 <;> simp [ends]

theorem lines_eq (bytes : List UInt8) :
    (splitLines bytes).1 = (bytes.splitOn lineFeed).dropLast := by
  rw [← splitLines_splitOn, List.dropLast_concat]

theorem splitLines_append (first second : List UInt8) :
    splitLines (first ++ second) =
      ((splitLines first).1 ++ (splitLines ((splitLines first).2 ++ second)).1,
        (splitLines ((splitLines first).2 ++ second)).2) := by
  induction first with
  | nil => rfl
  | cons byte rest ih =>
      rcases split : splitLines rest with ⟨_ | ⟨line, others⟩, tail⟩
      · by_cases ends : byte = lineFeed <;> simp_all [splitLines]
      · by_cases ends : byte = lineFeed <;> simp_all [splitLines]

theorem lineFeed_not_mem_tail (bytes : List UInt8) : lineFeed ∉ (splitLines bytes).2 := by
  induction bytes with
  | nil => exact List.not_mem_nil
  | cons byte rest ih =>
      simp only [splitLines]
      by_cases ends : byte = lineFeed
      · simpa [ends] using ih
      · cases (splitLines rest).1 with
        | nil => simpa [ends, Ne.symm ends] using ih
        | cons line others => simpa [ends] using ih

theorem splitLines_unbroken {bytes : List UInt8} (unbroken : lineFeed ∉ bytes) :
    splitLines bytes = ([], bytes) := by
  induction bytes with
  | nil => rfl
  | cons byte rest ih =>
      rw [List.mem_cons, not_or] at unbroken
      simp [splitLines, ih unbroken.2, Ne.symm unbroken.1]

theorem tail_of_ended {bytes : List UInt8} (ended : bytes.getLast? = some lineFeed) :
    (splitLines bytes).2 = [] := by
  obtain ⟨before, rfl⟩ := List.getLast?_eq_some_iff.mp ended
  have whole : (splitLines (before ++ [lineFeed])).1 ++ [(splitLines (before ++ [lineFeed])).2] =
      before.splitOn lineFeed ++ [[]] := by
    rw [splitLines_splitOn]
    exact List.splitOnP_append_cons before [] (by simp)
  exact (List.append_inj' whole rfl).2 |> List.cons.inj |>.1

/-- Every run of bytes between line feeds leaves room for the line feed in the buffer. -/
def Short (bytes : List UInt8) : Prop :=
  ∀ run ∈ bytes.splitOn lineFeed, run.length < Event.lineLimit

instance (bytes : List UInt8) : Decidable (Short bytes) :=
  inferInstanceAs (Decidable (∀ run ∈ bytes.splitOn lineFeed, run.length < Event.lineLimit))

theorem Short.later {before after : List UInt8} (short : Short (before ++ after)) :
    Short ((splitLines before).2 ++ after) := by
  intro run member
  refine short run ?_
  rw [← splitLines_splitOn, splitLines_append, List.append_assoc, splitLines_splitOn]
  exact List.mem_append_right _ member

theorem exists_run (unbroken : List UInt8) (free : lineFeed ∉ unbroken) (after : List UInt8) :
    ∃ run ∈ (unbroken ++ after).splitOn lineFeed, unbroken.length ≤ run.length := by
  have begins : ∃ run rest, (unbroken ++ after).splitOn lineFeed = run :: rest ∧
      unbroken.length ≤ run.length := by
    induction unbroken with
    | nil =>
        obtain ⟨run, rest, shape⟩ := List.exists_cons_of_ne_nil
          (List.splitOn_ne_nil lineFeed after)
        exact ⟨run, rest, shape, Nat.zero_le _⟩
    | cons byte others ih =>
        rw [List.mem_cons, not_or] at free
        obtain ⟨run, rest, shape, longer⟩ := ih free.2
        refine ⟨byte :: run, rest, ?_, by simpa using longer⟩
        rw [List.cons_append, splitOn_cons, if_neg (Ne.symm free.1), shape]
        rfl
  obtain ⟨run, rest, shape, longer⟩ := begins
  exact ⟨run, by simp [shape], longer⟩

theorem Short.tail {before after : List UInt8} (short : Short (before ++ after)) :
    (splitLines before).2.length < Event.lineLimit := by
  obtain ⟨run, member, longer⟩ :=
    exists_run (splitLines before).2 (lineFeed_not_mem_tail before) after
  exact Nat.lt_of_le_of_lt longer (short.later run member)

def events (heard : List Heard) : List Event := heard.filterMap Heard.event?

theorem events_append (before after : List Heard) :
    events (before ++ after) = events before ++ events after :=
  List.filterMap_append

theorem events_hearLine (lines : List (List UInt8)) :
    events (lines.map hearLine) = lines.filterMap Event.ofLine := by
  have same : Heard.event? ∘ hearLine = Event.ofLine := by
    funext line
    simp only [Function.comp, hearLine]
    cases Event.ofLine line <;> rfl
  rw [events, List.filterMap_map, same]

theorem hearAll_append (buffer : List UInt8) (before after : List (List UInt8)) :
    hearAll buffer (before ++ after) =
      ((hearAll buffer before).1 ++ (hearAll (hearAll buffer before).2 after).1,
        (hearAll (hearAll buffer before).2 after).2) := by
  induction before generalizing buffer with
  | nil => rfl
  | cons chunk rest ih => simp [hearAll, ih]

theorem hear_eq {buffer chunk : List UInt8}
    (short : (splitLines (buffer ++ chunk)).2.length < Event.lineLimit) :
    hear buffer chunk =
      ((splitLines (buffer ++ chunk)).1.map hearLine, (splitLines (buffer ++ chunk)).2) := by
  simp only [hear]
  rw [if_neg (Nat.not_le.mpr short)]

def Kept (buffer : List UInt8) : Prop := lineFeed ∉ buffer ∧ buffer.length < Event.lineLimit

theorem kept_nil : Kept [] := ⟨List.not_mem_nil, by decide⟩

theorem kept_hear (buffer chunk : List UInt8) : Kept (hear buffer chunk).2 := by
  simp only [hear]
  split
  next => exact kept_nil
  next short => exact ⟨lineFeed_not_mem_tail _, Nat.not_le.mp short⟩

theorem kept_hearAll {buffer : List UInt8} (kept : Kept buffer) (reads : List (List UInt8)) :
    Kept (hearAll buffer reads).2 := by
  induction reads generalizing buffer with
  | nil => exact kept
  | cons chunk rest ih => exact ih (kept_hear buffer chunk)

theorem hearAll_eq {buffer : List UInt8} (unbroken : lineFeed ∉ buffer) (reads : List (List UInt8))
    (short : Short (buffer ++ reads.flatten)) :
    hearAll buffer reads =
      ((splitLines (buffer ++ reads.flatten)).1.map hearLine,
        (splitLines (buffer ++ reads.flatten)).2) := by
  induction reads generalizing buffer with
  | nil => simp [hearAll, splitLines_unbroken unbroken]
  | cons chunk rest ih =>
      rw [List.flatten_cons, ← List.append_assoc] at short ⊢
      rw [splitLines_append, hearAll, hear_eq short.tail, List.map_append]
      rw [ih (lineFeed_not_mem_tail _) short.later]

def cutTo : Nat → List (List UInt8) → List (List UInt8)
  | 0, _ => []
  | _, [] => []
  | count, read :: rest => read.take count :: cutTo (count - read.length) rest

theorem cutTo_cons {bytes : List UInt8} (some : bytes ≠ []) (read : List UInt8)
    (rest : List (List UInt8)) :
    cutTo bytes.length (read :: rest) =
      read.take bytes.length :: cutTo (bytes.length - read.length) rest := by
  cases bytes with
  | nil => exact absurd rfl some
  | cons byte others => rfl

theorem flatten_cutTo (count : Nat) (reads : List (List UInt8)) :
    (cutTo count reads).flatten = reads.flatten.take count := by
  induction reads generalizing count with
  | nil => cases count <;> simp [cutTo]
  | cons read rest ih =>
      cases count with
      | zero => rfl
      | succ count => simp [cutTo, ih, List.take_append]

theorem events_hearAll {buffer : List UInt8} (unbroken : lineFeed ∉ buffer)
    {reads : List (List UInt8)} (short : Short (buffer ++ reads.flatten)) :
    events (hearAll buffer reads).1 =
      (splitLines (buffer ++ reads.flatten)).1.filterMap Event.ofLine := by
  rw [hearAll_eq unbroken reads short, events_hearLine]

theorem hear_ended {buffer chunk : List UInt8} (ended : chunk.getLast? = some lineFeed) :
    hear buffer chunk = ((splitLines (buffer ++ chunk)).1.map hearLine, []) := by
  have tail : (splitLines (buffer ++ chunk)).2 = [] := tail_of_ended (by simp [ended])
  rw [hear_eq (by rw [tail]; decide), tail]

theorem events_recover (buffer : List UInt8) {reads : List (List UInt8)}
    {before after : List UInt8} (whole : reads.flatten = before ++ after)
    (ended : before.getLast? = some lineFeed) (short : Short after) :
    events (hearAll buffer reads).1 =
      events (hearAll buffer (cutTo before.length reads)).1 ++
        (splitLines after).1.filterMap Event.ofLine := by
  induction reads generalizing buffer before with
  | nil =>
      rw [List.flatten_nil, eq_comm, List.append_eq_nil_iff] at whole
      simp [whole.1] at ended
  | cons read rest ih =>
      rw [List.flatten_cons] at whole
      rw [cutTo_cons (by rintro rfl; simp at ended)]
      simp only [hearAll]
      rcases List.append_eq_append_iff.mp whole with ⟨left, rfl, rest_eq⟩ | ⟨first, rfl, rfl⟩
      · -- The read ends before the last line feed, or just there.
        rw [List.take_of_length_le (by simp), events_append, events_append, List.append_assoc]
        congr 1
        cases left with
        | nil =>
            rw [List.append_nil] at ended
            rw [List.nil_append] at rest_eq
            subst rest_eq
            simp only [hear_ended ended, List.append_nil, Nat.sub_self, cutTo, hearAll]
            exact events_hearAll List.not_mem_nil short
        | cons byte others =>
            have ended : (byte :: others).getLast? = some lineFeed := by simpa using ended
            have shorter : (read ++ byte :: others).length - read.length =
              (byte :: others).length := by simp
            rw [shorter]
            exact ih _ rest_eq ended
      · -- The last line feed lies within the read, and the next lines begin in it.
        have ended' : (buffer ++ before).getLast? = some lineFeed := by simp [ended]
        have split := splitLines_append (buffer ++ before) first
        rw [tail_of_ended ended', List.nil_append, List.append_assoc] at split
        rw [hear_eq (by rw [split]; exact short.tail), split]
        simp only [List.take_left', List.length_append, hear_ended ended]
        rw [events_append, events_append, events_hearLine, events_hearLine,
          events_hearAll (lineFeed_not_mem_tail first) short.later, splitLines_append first]
        simp [cutTo, hearAll, events]

/-! Reads of a device. -/

theorem mem_chunks {fuel : Nat} {bytes read : List UInt8} (member : read ∈ chunks fuel bytes) :
    read ≠ [] ∧ read.length ≤ readLimit := by
  induction fuel generalizing bytes with
  | zero => simp [chunks] at member
  | succ fuel ih =>
      cases bytes with
      | nil => simp [chunks] at member
      | cons byte rest =>
          rcases List.mem_cons.mp member with rfl | later
          · exact ⟨by simp [readLimit], by rw [List.length_take]; omega⟩
          · exact ih later

theorem flatten_chunks {fuel : Nat} {bytes : List UInt8} (enough : bytes.length ≤ fuel) :
    (chunks fuel bytes).flatten = bytes := by
  induction fuel generalizing bytes with
  | zero => simp [chunks, List.length_eq_zero_iff.mp (Nat.le_zero.mp enough)]
  | succ fuel ih =>
      cases bytes with
      | nil => rfl
      | cons byte rest =>
          have fewer : ((byte :: rest).drop readLimit).length ≤ fuel := by
            rw [List.length_drop]
            simp only [List.length_cons, readLimit] at enough ⊢
            omega
          simp only [chunks, List.flatten_cons]
          rw [ih fewer, List.take_append_drop]

theorem readsOf_read {read : List UInt8} (some : read ≠ []) (bounded : read.length ≤ readLimit) :
    readsOf read = [read] := by
  cases read with
  | nil => exact absurd rfl some
  | cons byte rest =>
      simp only [readsOf, List.length_cons, chunks]
      rw [List.take_of_length_le bounded, List.drop_of_length_le bounded]
      cases rest.length <;> rfl

def Act.bytes : Act → List UInt8
  | .undergo (.arrival (.bytes data)) => data
  | _ => []

def Act.reads (act : Act) : List (List UInt8) := readsOf act.bytes

def Act.feed (read : List UInt8) : Act := .undergo (.arrival (.bytes read))

def Act.goesOn : Act → Prop
  | .start _ | .stop | .undergo (.arrival .ending) | .undergo (.arrival (.failure _)) => False
  | _ => True

theorem mem_reads {acts : List Act} {read : List UInt8} (member : read ∈ acts.flatMap Act.reads) :
    read ≠ [] ∧ read.length ≤ readLimit := by
  obtain ⟨act, _, reads⟩ := List.mem_flatMap.mp member
  exact mem_chunks reads

theorem flatten_reads (acts : List Act) :
    (acts.flatMap Act.reads).flatten = acts.flatMap Act.bytes := by
  induction acts with
  | nil => rfl
  | cons act rest ih =>
      rw [List.flatMap_cons, List.flatten_append, ih, List.flatMap_cons, Act.reads, readsOf,
        flatten_chunks (Nat.le_refl _)]

theorem reads_feed {reads : List (List UInt8)}
    (bounded : ∀ read ∈ reads, read ≠ [] ∧ read.length ≤ readLimit) :
    (reads.map Act.feed).flatMap Act.reads = reads := by
  induction reads with
  | nil => rfl
  | cons read rest ih =>
      have first := bounded read List.mem_cons_self
      rw [List.map_cons, List.flatMap_cons,
        ih fun later member => bounded later (List.mem_cons_of_mem read member)]
      exact congrArg (· ++ rest) (readsOf_read first.1 first.2)

theorem mem_cutTo {count : Nat} {reads : List (List UInt8)} {read : List UInt8}
    (bounded : ∀ read ∈ reads, read ≠ [] ∧ read.length ≤ readLimit)
    (member : read ∈ cutTo count reads) : read ≠ [] ∧ read.length ≤ readLimit := by
  induction reads generalizing count with
  | nil => cases count <;> simp [cutTo] at member
  | cons first rest ih =>
      cases count with
      | zero => simp [cutTo] at member
      | succ count =>
          rcases List.mem_cons.mp member with rfl | later
          · obtain ⟨some, short⟩ := bounded first List.mem_cons_self
            exact ⟨by simp [some], by rw [List.length_take]; omega⟩
          · exact ih (fun read member => bounded read (List.mem_cons_of_mem first member)) later

def Signal.event? : Signal → Option Event
  | .event event => some event
  | .ended => none

def published (relay : Relay) : List Event :=
  relay.received ++ ((relay.line.map OpenLine.published).getD []).filterMap Signal.event?

theorem deliver_events (waiting : List Nat) (signals : List Signal) :
    (deliver waiting signals).2.1 ++ (deliver waiting signals).2.2.filterMap Signal.event? =
      signals.filterMap Signal.event? := by
  induction signals generalizing waiting with
  | nil => cases waiting <;> rfl
  | cons signal rest ih =>
      cases waiting with
      | nil => rfl
      | cons consumer others =>
          cases signal with
          | event event => exact congrArg (event :: ·) (ih (others ++ [consumer]))
          | ended => exact ih others

structure WayIn.Hears (way : WayIn) (buffer : List UInt8) (heard : List Event) : Prop where
  idle : way.arrivals = []
  reads : ∃ signals, way.line = some ⟨true, buffer, true, signals⟩ ∧
    way.received ++ signals.filterMap Signal.event? = heard

theorem hears_iff {relay : Relay} {buffer : List UInt8} {heard : List Event} :
    relay.wayIn.Hears buffer heard ↔
      relay.device.arrivals = [] ∧
        ∃ line, relay.line = some line ∧ line.onDevice = true ∧ line.reading = true ∧
          line.buffer = buffer ∧
          relay.received ++ line.published.filterMap Signal.event? = heard := by
  constructor
  · rintro ⟨idle, signals, line, heard⟩
    obtain ⟨opened, found, fields⟩ := Option.map_eq_some_iff.mp line
    simp only [Inward.mk.injEq] at fields
    obtain ⟨onDevice, buffered, reading, rfl⟩ := fields
    exact ⟨idle, opened, found, onDevice, reading, buffered, heard⟩
  · rintro ⟨idle, line, found, onDevice, reading, buffered, heard⟩
    exact ⟨idle, line.published, by simp [wayIn, found, onDevice, reading, buffered], heard⟩

theorem WayIn.Hears.published {relay : Relay} {buffer : List UInt8} {heard : List Event}
    (hears : relay.wayIn.Hears buffer heard) : relay.published = heard := by
  obtain ⟨_, line, found, _, _, _, heard⟩ := hears_iff.mp hears
  simpa [Relay.published, found] using heard

theorem WayIn.Hears.kept {relay : Relay} {buffer : List UInt8} {heard : List Event}
    (hears : relay.wayIn.Hears buffer heard) (kept : Kept buffer) :
    ∃ line, relay.line = some line ∧ Kept line.buffer := by
  obtain ⟨_, line, found, _, _, rfl, _⟩ := hears_iff.mp hears
  exact ⟨line, found, kept⟩

theorem WayIn.Hears.settleEvents {relay : Relay} {buffer : List UInt8} {heard : List Event}
    (hears : relay.wayIn.Hears buffer heard) : relay.settleEvents.wayIn.Hears buffer heard := by
  obtain ⟨idle, line, found, onDevice, reading, buffered, heard⟩ := hears_iff.mp hears
  have delivered := deliver_events relay.waiting line.published
  simp only [Relay.settleEvents, found]
  refine hears_iff.mpr ⟨idle, _, rfl, onDevice, reading, buffered, ?_⟩
  rw [← heard, ← delivered, ← List.append_assoc]

theorem filterMap_event (found : List Event) :
    (found.map Signal.event).filterMap Signal.event? = found := by
  rw [List.filterMap_map]
  exact List.filterMap_some

theorem WayIn.Hears.arrive {relay : Relay} {buffer : List UInt8} {heard : List Event}
    (hears : relay.wayIn.Hears buffer heard) (data : List UInt8) :
    (relay.arrive (.bytes data)).wayIn.Hears (hearAll buffer (readsOf data)).2
      (heard ++ events (hearAll buffer (readsOf data)).1) := by
  obtain ⟨idle, line, found, onDevice, reading, rfl, rfl⟩ := hears_iff.mp hears
  have arrived : (relay.device.arrive (.bytes data)).arrivals = [.bytes data] := by
    simp [Device.arrive, idle, Device.join]
  simp only [Relay.arrive, readDevice, found, onDevice, arrived, readArrivals, reading, if_true,
    readArrival]
  refine WayIn.Hears.settleEvents (hears_iff.mpr ⟨rfl, _, rfl, rfl, rfl, rfl, ?_⟩)
  rw [List.filterMap_append, filterMap_event, List.append_assoc, events]

theorem WayIn.Hears.perform {relay : Relay} {buffer : List UInt8} {heard : List Event}
    (hears : relay.wayIn.Hears buffer heard) {act : Act} (goes : act.goesOn) :
    (relay.perform act).wayIn.Hears (hearAll buffer act.reads).2
      (heard ++ events (hearAll buffer act.reads).1) := by
  have still : relay.wayIn.Hears buffer (heard ++ []) := by rwa [List.append_nil]
  cases act with
  | start tree => exact goes.elim
  | stop => exact goes.elim
  | forward raw => exact wayIn_forward relay raw ▸ still
  | consume =>
      refine WayIn.Hears.settleEvents ?_
      exact ⟨still.idle, still.reads⟩
  | undergo happening =>
      cases happening with
      | arrival arrival =>
          cases arrival with
          | bytes data => exact hears.arrive data
          | ending => exact goes.elim
          | failure number => exact goes.elim
      | lateArrival arrival => exact ⟨still.idle, still.reads⟩
      | writeFailure number => exact ⟨still.idle, still.reads⟩
      | hold => exact ⟨still.idle, still.reads⟩
      | release => exact wayIn_release relay ▸ still

theorem WayIn.Hears.run {relay : Relay} {buffer : List UInt8} {heard : List Event}
    (hears : relay.wayIn.Hears buffer heard) {acts : List Act} (goes : ∀ act ∈ acts, act.goesOn) :
    (relay.run acts).wayIn.Hears (hearAll buffer (acts.flatMap Act.reads)).2
      (heard ++ events (hearAll buffer (acts.flatMap Act.reads)).1) := by
  induction acts generalizing relay buffer heard with
  | nil =>
      change relay.wayIn.Hears buffer (heard ++ [])
      rwa [List.append_nil]
  | cons act rest ih =>
      have first := hears.perform (goes act List.mem_cons_self)
      have later := ih first fun act member => goes act (List.mem_cons_of_mem _ member)
      rw [List.flatMap_cons, hearAll_append, events_append, ← List.append_assoc]
      exact later

theorem start_eq {relay : Relay} (device : relay.path = relay.device.name) {tree : Filesystem}
    (started : (relay.start tree).2.2 = none) :
    (relay.start tree).1 =
      readDevice { relay with
        device := (relay.device.open relay.baudrate).1, line := some {} } := by
  simp only [start, if_pos device] at started ⊢
  split at started
  next => simp at started
  next opens => simp [opens]

theorem hears_start {relay : Relay} (device : relay.path = relay.device.name)
    (idle : relay.device.arrivals = []) {tree : Filesystem}
    (started : (relay.start tree).2.2 = none) :
    (relay.start tree).1.wayIn.Hears [] relay.received := by
  obtain ⟨line, calls, opened⟩ := open_eq relay.device relay.baudrate
  rw [start_eq device started, opened]
  simp only [readDevice, idle, readArrivals, if_true]
  exact WayIn.Hears.settleEvents (hears_iff.mpr ⟨rfl, _, rfl, rfl, rfl, rfl, by simp⟩)

theorem WayIn.Hears.feed {relay : Relay} {buffer : List UInt8} {heard : List Event}
    (hears : relay.wayIn.Hears buffer heard) {reads : List (List UInt8)}
    (bounded : ∀ read ∈ reads, read ≠ [] ∧ read.length ≤ readLimit) :
    (relay.run (reads.map Act.feed)).wayIn.Hears (hearAll buffer reads).2
      (heard ++ events (hearAll buffer reads).1) := by
  have goes : ∀ act ∈ reads.map Act.feed, act.goesOn := fun act member => by
    obtain ⟨read, _, rfl⟩ := List.mem_map.mp member
    exact True.intro
  have fed := hears.run goes
  rwa [reads_feed bounded] at fed

theorem events_cut {reads : List (List UInt8)} {before after : List UInt8}
    (whole : reads.flatten = before ++ after)
    (ended : before = [] ∨ before.getLast? = some lineFeed) (short : Short after) :
    events (hearAll [] reads).1 =
      events (hearAll [] (cutTo before.length reads)).1 ++
        (after.splitOn lineFeed).dropLast.filterMap Event.ofLine := by
  rw [← lines_eq]
  rcases ended with rfl | ended
  · rw [List.nil_append] at whole
    subst whole
    simpa [cutTo, hearAll, events] using events_hearAll List.not_mem_nil short
  · exact events_recover [] whole ended short

/-- Whatever a started relay has heard up to a line feed, from there on it publishes the events of
the finished lines and nothing else, however the reads cut the input and whatever else is done to
the relay meanwhile. -/
theorem recovers_at_line_feeds {relay : Relay} (device : relay.path = relay.device.name)
    (idle : relay.device.arrivals = []) {tree : Filesystem}
    (started : (relay.start tree).2.2 = none) {acts : List Act}
    (goes : ∀ act ∈ acts, act.goesOn) {before after : List UInt8}
    (whole : acts.flatMap Act.bytes = before ++ after)
    (ended : before = [] ∨ before.getLast? = some lineFeed) (short : Short after) :
    ((relay.start tree).1.run acts).published =
        ((relay.start tree).1.run
          ((cutTo before.length (acts.flatMap Act.reads)).map Act.feed)).published ++
          (after.splitOn lineFeed).dropLast.filterMap Event.ofLine ∧
      (cutTo before.length (acts.flatMap Act.reads)).flatten = before ∧
      (∀ earlier, earlier <+: acts → ∃ line,
        ((relay.start tree).1.run earlier).line = some line ∧ Kept line.buffer) ∧
      ∀ earlier, earlier <+: acts.flatMap Act.reads → ∃ line,
        ((relay.start tree).1.run (earlier.map Act.feed)).line = some line ∧ Kept line.buffer := by
  have hears := hears_start device idle started
  rw [← flatten_reads] at whole
  have bounded : ∀ read ∈ acts.flatMap Act.reads, read ≠ [] ∧ read.length ≤ readLimit :=
    fun read member => mem_reads member
  refine ⟨?published, ?cut, ?acts, ?reads⟩
  case published =>
    have cut : ∀ read ∈ cutTo before.length (acts.flatMap Act.reads),
        read ≠ [] ∧ read.length ≤ readLimit := fun read member => mem_cutTo bounded member
    have alone := hears.feed cut
    rw [(hears.run goes).published, alone.published, events_cut whole ended short,
      List.append_assoc]
  case cut => rw [flatten_cutTo, whole, List.take_left]
  case acts =>
    intro earlier first
    have goes : ∀ act ∈ earlier, act.goesOn := fun act member => goes act (first.subset member)
    exact (hears.run goes).kept (kept_hearAll kept_nil _)
  case reads =>
    intro earlier first
    have bounded : ∀ read ∈ earlier, read ≠ [] ∧ read.length ≤ readLimit :=
      fun read member => bounded read (first.subset member)
    exact (hears.feed bounded).kept (kept_hearAll kept_nil _)

/-- A line that is too long, and then a keyword cut in two while a frame goes out. -/
theorem recovers_at_line_feeds_after_noise :
    let relay : Relay := { path := "dev0" }
    let noise := List.replicate 70 0x78 ++ [lineFeed]
    let acts : List Act := [.consume, .feed (noise ++ Event.keyUpWord.take 2), .forward 7,
      .feed (Event.keyUpWord.drop 2 ++ [0x20, 0x41, lineFeed, 0x44]), .undergo (.writeFailure 5)]
    let after := Event.keyUpWord ++ [0x20, 0x41, lineFeed, 0x44]
    (relay.start .empty).2.2 = none ∧ acts.flatMap Act.bytes = noise ++ after ∧ Short after ∧
      acts.flatMap Act.reads = [List.replicate 64 0x78, noise.drop 64 ++ Event.keyUpWord.take 2,
        Event.keyUpWord.drop 2 ++ [0x20, 0x41, lineFeed, 0x44]] ∧
      ((relay.start .empty).1.run acts).published = [.keyUp 0x41] := by
  intro relay noise acts after
  have goes : ∀ act ∈ acts, act.goesOn := by simp [acts, Act.goesOn, Act.feed]
  have short : Short after := by decide
  have whole : acts.flatMap Act.bytes = (noise ++ after) := rfl
  have started : (relay.start .empty).2.2 = none := rfl
  obtain ⟨published, _⟩ := recovers_at_line_feeds rfl rfl started goes whole (Or.inr rfl) short
  refine ⟨rfl, rfl, short, rfl, ?_⟩
  rw [published]
  decide

end SteeringChannel.Relay
