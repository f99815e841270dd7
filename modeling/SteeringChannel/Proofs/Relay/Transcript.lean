import SteeringChannel.Proofs.Event
import SteeringChannel.Proofs.Relay.Framing

/-!
Events written to the line and read from it. A device that writes one line for each event is heard
exactly as it meant to be, in order, wherever the reads cut its output.
-/

namespace SteeringChannel.Relay

structure Notice where
  separator : UInt8
  event : Event
  deriving DecidableEq, Repr

namespace Notice

def line (notice : Notice) : List UInt8 := notice.event.line notice.separator

def Writable (notice : Notice) : Prop := notice.event.Writable notice.separator

instance (notice : Notice) : Decidable notice.Writable :=
  inferInstanceAs (Decidable (notice.event.Writable notice.separator))

def transcript (notices : List Notice) : List UInt8 :=
  notices.flatMap fun notice => notice.line ++ [lineFeed]

theorem splitOn_transcript {notices : List Notice} (writable : ∀ notice ∈ notices, notice.Writable) :
    (transcript notices).splitOn lineFeed = notices.map line ++ [[]] := by
  induction notices with
  | nil => rfl
  | cons notice rest ih =>
      obtain ⟨here, later⟩ := List.forall_mem_cons.mp writable
      have unbroken : lineFeed ∉ notice.line := Event.lineFeed_not_mem_line here
      have first : notice.line.splitOn lineFeed = [notice.line] := by
        rw [← splitLines_splitOn, splitLines_unbroken unbroken]
        rfl
      have shape : transcript (notice :: rest) = notice.line ++ lineFeed :: transcript rest := by
        simp [transcript]
      rw [shape, List.splitOn, List.splitOnP_append_cons _ _ (by simp), ← List.splitOn,
        ← List.splitOn, first, ih later]
      rfl

theorem short_transcript {notices : List Notice} (writable : ∀ notice ∈ notices, notice.Writable) :
    Short (transcript notices) := by
  intro run member
  rw [splitOn_transcript writable, List.mem_append, List.mem_map, List.mem_singleton] at member
  rcases member with ⟨notice, member, rfl⟩ | rfl
  · exact Event.length_line (writable notice member)
  · decide

theorem filterMap_ofLine {notices : List Notice} (writable : ∀ notice ∈ notices, notice.Writable) :
    (notices.map line).filterMap Event.ofLine = notices.map event := by
  induction notices with
  | nil => rfl
  | cons notice rest ih =>
      obtain ⟨here, later⟩ := List.forall_mem_cons.mp writable
      have first : Event.ofLine notice.line = some notice.event := Event.ofLine_line here
      rw [List.map_cons, List.filterMap_cons_some first, ih later, List.map_cons]

theorem events_transcript {notices : List Notice} (writable : ∀ notice ∈ notices, notice.Writable)
    {reads : List (List UInt8)} (whole : reads.flatten = transcript notices) :
    events (hearAll [] reads).1 = notices.map event := by
  have short : Short ([] ++ reads.flatten) := by
    rw [List.nil_append, whole]
    exact short_transcript writable
  rw [events_hearAll List.not_mem_nil short, List.nil_append, whole, lines_eq,
    splitOn_transcript writable, List.dropLast_concat, filterMap_ofLine writable]

end Notice

/-- A relay that has just been started publishes the events that the device has written, all of them
and no others, in order: for every cutting of the output into reads, and also if other things are done
to the relay between the reads. -/
theorem publishes_transcript {relay : Relay} (device : relay.path = relay.device.name)
    (idle : relay.device.arrivals = []) {tree : Filesystem}
    (started : (relay.start tree).2.2 = none) {notices : List Notice}
    (writable : ∀ notice ∈ notices, notice.Writable) :
    (∀ reads : List (List UInt8), (∀ read ∈ reads, read ≠ [] ∧ read.length ≤ readLimit) →
      reads.flatten = Notice.transcript notices →
      ((relay.start tree).1.run (reads.map Act.feed)).published =
        relay.received ++ notices.map Notice.event) ∧
    ∀ acts : List Act, (∀ act ∈ acts, act.goesOn) →
      acts.flatMap Act.bytes = Notice.transcript notices →
      ((relay.start tree).1.run acts).published =
        relay.received ++ notices.map Notice.event := by
  have hears := hears_start device idle started
  constructor
  · intro reads bounded whole
    rw [(hears.feed bounded).published, Notice.events_transcript writable whole]
  · intro acts goes whole
    rw [← flatten_reads] at whole
    rw [(hears.run goes).published, Notice.events_transcript writable whole]

/-- A separator that is part of a keyword, a code that is a carriage return, a pin line that mentions
another word, and a text with a letter of three bytes, cut in the middle of it. -/
theorem publishes_transcript_cut :
    let relay : Relay := { path := "dev0" }
    let notices : List Notice := [⟨0x4b, .keyUp 0x0d⟩,
      ⟨0, .pinInput (Event.pinInputWord ++ Event.debugWord)⟩, ⟨0, .debugMessage "DEBUG ℃"⟩,
      ⟨0x0d, .keyDown 0x4b⟩]
    let reads : List (List UInt8) :=
      [(Notice.transcript notices).take 28, (Notice.transcript notices).drop 28]
    (relay.start .empty).2.2 = none ∧ (∀ notice ∈ notices, notice.Writable) ∧
      (∀ read ∈ reads, read ≠ [] ∧ read.length ≤ readLimit) ∧
      reads.flatten = Notice.transcript notices ∧
      ((relay.start .empty).1.run (reads.map Act.feed)).published = [.keyUp 0x0d,
        .pinInput (Event.pinInputWord ++ Event.debugWord), .debugMessage "DEBUG ℃",
        .keyDown 0x4b] := by
  intro relay notices reads
  have started : (relay.start .empty).2.2 = none := rfl
  have writable : ∀ notice ∈ notices, notice.Writable := by decide
  have bounded : ∀ read ∈ reads, read ≠ [] ∧ read.length ≤ readLimit := by decide
  have whole : reads.flatten = Notice.transcript notices := by decide
  obtain ⟨cut, _⟩ := publishes_transcript rfl rfl started writable
  exact ⟨started, writable, bounded, whole, cut reads bounded whole⟩

end SteeringChannel.Relay
