import SteeringChannel.Relay.Device

/-!
Configured lines. The two passes come to one set of masks, whatever the line was set to before. They
leave two flags as they found them, those that change or drop the end of a line on input, so the
line is raw just if nobody had set these.
-/

namespace SteeringChannel.Terminal

section Words

variable {word bits first second mask flags : FlagWord}

def Lacks (word flags : FlagWord) : Prop := word &&& flags = 0

instance (word flags : FlagWord) : Decidable (Lacks word flags) :=
  inferInstanceAs (Decidable (_ = _))

def Holds (word flags : FlagWord) : Prop := word &&& flags = flags

instance (word flags : FlagWord) : Decidable (Holds word flags) :=
  inferInstanceAs (Decidable (_ = _))

theorem clear_clear : clear (clear word first) second = clear word (first ||| second) := by
  rw [clear, clear, clear, BitVec.not_or, BitVec.and_assoc]

theorem clear_or : clear (word ||| bits) mask = clear word mask ||| clear bits mask :=
  BitVec.and_or_distrib_right

theorem clear_cleared (part : first ||| second = first) :
    clear (clear word first) second = clear word first := by
  rw [clear_clear, part]

theorem clear_set {again : FlagWord} (part : first ||| second = first)
    (restored : clear bits second ||| again = bits) :
    clear (clear word first ||| bits) second ||| again = clear word first ||| bits := by
  rw [clear_or, clear_cleared part, BitVec.or_assoc, restored]

theorem clear_and : clear word mask &&& flags = word &&& clear flags mask := by
  rw [clear, clear, BitVec.and_assoc, BitVec.and_comm (~~~mask)]

theorem lacks_clear (masked : clear flags mask = 0) : Lacks (clear word mask) flags := by
  simp [Lacks, clear_and, masked]

theorem holds_or (held : Holds bits flags) : Holds (word ||| bits) flags := by
  rw [Holds, BitVec.and_or_distrib_right, held]
  ext index
  simp

end Words

namespace Input

def cleared : FlagWord :=
  breakInterrupt ||| returnToNewline ||| checkParity ||| strip ||| flowOut ||| flowIn ||| flowAny

def meddling : FlagWord :=
  strip ||| newlineToReturn ||| ignoreReturn ||| returnToNewline ||| flowOut ||| flowIn ||| flowAny

/-- What changes or drops the end of a line, and is not cleared. -/
def lineEnds : FlagWord := newlineToReturn ||| ignoreReturn

end Input

namespace Control

def cleared : FlagWord := sizeMask ||| parity ||| oddParity ||| twoStopBits ||| hardwareFlow

def set : FlagWord := eightBits ||| ignoreModem ||| receiver

end Control

namespace Mode

def cleared : FlagWord := echo ||| canonical ||| extended ||| signals

end Mode

def configured (speed : Nat) (attributes : Attributes) : Attributes where
  input := clear attributes.input Input.cleared
  output := clear attributes.output Output.process
  control := clear attributes.control Control.cleared ||| Control.set
  mode := clear attributes.mode Mode.cleared
  inputSpeed := speed
  outputSpeed := speed
  minimum := 1
  time := 0

theorem lineSettings_raw (speed : Nat) (attributes : Attributes) :
    lineSettings speed (raw attributes) = configured speed attributes := by
  simp only [lineSettings, raw, clear_clear, clear_or, BitVec.or_assoc]
  rfl

theorem raw_configured (speed : Nat) (attributes : Attributes) :
    raw (configured speed attributes) = configured speed attributes := by
  simp (disch := decide) only [raw, configured, clear_set, clear_cleared]

theorem configured_configured (speed : Nat) (attributes : Attributes) :
    configured speed (configured speed attributes) = configured speed attributes := by
  simp (disch := decide) only [configured, clear_set, clear_cleared]

variable {speed : Nat} {baudrate : Int} {attributes : Attributes} {line : Line}

/-- Eight data bits, no parity, one stop bit and no flow control by wires, with the receiver on;
each byte is read as it comes, and nothing is echoed, edited, or written otherwise than given. -/
structure Attributes.Plain (speed : Nat) (attributes : Attributes) : Prop where
  output : Lacks attributes.output Output.process
  dataBits : attributes.control &&& Control.sizeMask = Control.eightBits
  framing : Lacks attributes.control
    (Control.parity ||| Control.oddParity ||| Control.twoStopBits ||| Control.hardwareFlow)
  receiving : Holds attributes.control (Control.ignoreModem ||| Control.receiver)
  mode : Lacks attributes.mode (Mode.echo ||| Mode.canonical ||| Mode.extended ||| Mode.signals)
  minimum : attributes.minimum = 1
  time : attributes.time = 0
  inputSpeed : attributes.inputSpeed = speed
  outputSpeed : attributes.outputSpeed = speed

theorem plain_configured (speed : Nat) (attributes : Attributes) :
    (configured speed attributes).Plain speed := by
  have control (flags : FlagWord) (masked : clear flags Control.cleared = 0) :
      (configured speed attributes).control &&& flags = Control.set &&& flags := by
    simp only [configured, BitVec.and_or_distrib_right, clear_and, masked]
    simp
  exact {
    output := lacks_clear (by decide)
    dataBits := control Control.sizeMask (by decide)
    framing := control _ (by decide)
    receiving := holds_or (by decide)
    mode := lacks_clear (by decide)
    minimum := rfl
    time := rfl
    inputSpeed := rfl
    outputSpeed := rfl }

theorem meddling_configured (speed : Nat) (attributes : Attributes) :
    (configured speed attributes).input &&& Input.meddling =
      attributes.input &&& Input.lineEnds := clear_and

theorem configure_supported (terminal : line.attributes = some attributes)
    (reached : line.failure = none) (supported : speeds.lookup baudrate = some speed) :
    configure baudrate line =
      .ok [⟨true, raw attributes⟩, ⟨false, configured speed attributes⟩] := by
  simp only [configure, supported, reached, terminal, lineSettings_raw]

theorem configure_unsupported (unsupported : speeds.lookup baudrate = none) (line : Line) :
    configure baudrate line = .error (.unsupportedSpeed baudrate) := by
  simp only [configure, unsupported]

/-- With a speed that lines can have, a line is made plain and gets this speed, whatever it was set
to before, and making it so again changes nothing. Of what meddles with input, only the two flags on
line ends stay, as they were; input is left alone just if these were clear. With another speed
nothing is changed, and a device is closed again as it was opened. -/
theorem configured_raw_iff (baudrate : Int) (line : Line) :
    (∀ speed attributes, speeds.lookup baudrate = some speed →
      line.attributes = some attributes → line.failure = none →
      ∃ changes, configure baudrate line = .ok changes ∧
        let made := settle attributes changes
        made.Plain speed ∧
        made.input &&& Input.meddling = attributes.input &&& Input.lineEnds ∧
        (Lacks made.input Input.meddling ↔ Lacks attributes.input Input.lineEnds) ∧
        ∃ again, configure baudrate { line with attributes := some made } = .ok again ∧
          ∀ change ∈ again, change.attributes = made) ∧
    (speeds.lookup baudrate = none →
      configure baudrate line = .error (.unsupportedSpeed baudrate) ∧
      ∀ device : Relay.Device, device.line = line → line.attributes.isSome = true →
        device.openFailure = none →
        device.open baudrate =
          (device.note [.opened, .closed], some (.line (.unsupportedSpeed baudrate)))) := by
  constructor
  · intro speed attributes supported terminal reached
    refine ⟨_, configure_supported terminal reached supported, ?_⟩
    have meddles := meddling_configured speed attributes
    refine ⟨plain_configured speed attributes, meddles, by rw [Lacks, Lacks, ← meddles]; rfl, ?_⟩
    refine ⟨_, configure_supported rfl reached supported, List.forall_mem_cons.mpr ⟨?_, ?_⟩⟩
    · exact raw_configured speed attributes
    · exact List.forall_mem_singleton.mpr (configured_configured speed attributes)
  · intro unsupported
    refine ⟨configure_unsupported unsupported line, fun device same terminal opens => ?_⟩
    obtain ⟨attributes, terminal⟩ := Option.isSome_iff_exists.mp terminal
    simp only [Relay.Device.open, opens, same, terminal, configure_unsupported unsupported]

/-- A line on which everything is set but the two flags, and a speed that no line has. -/
theorem configured_raw_iff_all_flags :
    let attributes : Attributes :=
      { input := ~~~Input.lineEnds, output := ~~~0, control := ~~~0, mode := ~~~0, minimum := 4
        time := 10 }
    let device : Relay.Device := { line := { attributes := some attributes } }
    speeds.lookup 115200 = some 4098 ∧ speeds.lookup 12345 = none ∧
      Lacks attributes.input Input.lineEnds ∧ ¬ Lacks attributes.input Input.meddling ∧
      (∃ changes, configure 115200 device.line = .ok changes ∧
        (settle attributes changes).Plain 4098 ∧
        Lacks (settle attributes changes).input Input.meddling) ∧
      device.open 12345 =
        (device.note [.opened, .closed], some (.line (.unsupportedSpeed 12345))) := by
  intro attributes device
  have known : speeds.lookup 115200 = some 4098 := by decide
  have unknown : speeds.lookup 12345 = none := by decide
  have clean : Lacks attributes.input Input.lineEnds := by decide
  obtain ⟨changes, configures, plain, _, untouched, _⟩ :=
    (configured_raw_iff 115200 device.line).1 4098 attributes known rfl rfl
  obtain ⟨_, refuses⟩ := (configured_raw_iff 12345 device.line).2 unknown
  exact ⟨known, unknown, clean, by decide, ⟨changes, configures, plain, untouched.mpr clean⟩,
    refuses device rfl rfl rfl⟩

/-- A line that turns each line feed into a carriage return still does so when it is configured, and
one that drops carriage returns drops them. -/
theorem configured_line_ends_changed :
    let mapping : Attributes := { input := Input.newlineToReturn }
    let dropping : Attributes := { input := Input.ignoreReturn }
    let made (attributes : Attributes) : Except LineError Attributes :=
      (configure 115200 { attributes := some attributes }).map (settle attributes)
    (made mapping).map Attributes.input = .ok Input.newlineToReturn ∧
      (made dropping).map Attributes.input = .ok Input.ignoreReturn ∧
      ¬ Lacks Input.newlineToReturn Input.meddling ∧ ¬ Lacks Input.ignoreReturn Input.meddling := by
  exact ⟨rfl, rfl, by decide, by decide⟩

end SteeringChannel.Terminal
