import SteeringChannel.Journal.Output
import SteeringChannel.Proofs.Filesystem.Walk
import SteeringChannel.Proofs.Journal.Layout

/-!
Records over any course of set-ups, of which some cannot open their file: the last set-up alone
decides where a record goes, each record goes there once, and no file loses what it holds.
-/

namespace SteeringChannel

def Node.extended (text : String) : Node → Node
  | .file content => .file (content ++ text)
  | node => node

@[simp]
theorem Node.extended_empty (node : Node) : node.extended "" = node := by
  cases node <;> simp [extended]

@[simp]
theorem Node.extended_extended (node : Node) (first second : String) :
    (node.extended first).extended second = node.extended (first ++ second) := by
  cases node <;> simp [extended, String.append_assoc]

def Entry.extended (text : String) (entry : Entry) : Entry :=
  { entry with node := entry.node.extended text }

namespace Filesystem

variable {tree later last : Filesystem} {followLast : Bool} {links : Nat} {place goal : Place}
  {names : List String} {path : String} {found : Found}

theorem append_eq_modify (tree : Filesystem) (place : Place) (text : String) :
    tree.append place text = tree.modify place (Entry.extended text) := by
  rw [append]
  congr 1
  funext ⟨_, node, _⟩
  cases node <;> rfl

theorem modify_modify (tree : Filesystem) (place : Place) (first second : Entry → Entry)
    (stays : ∀ entry, (first entry).place = entry.place) :
    (tree.modify place first).modify place second = tree.modify place (second ∘ first) := by
  simp only [modify, List.map_map]
  congr 2
  funext entry
  by_cases here : entry.place = place <;> simp [here, stays]

theorem node?_append (tree : Filesystem) (place other : Place) (text : String) :
    (tree.append place text).node? other =
      (tree.node? other).map fun node => if place = other then node.extended text else node := by
  have finds : (fun entry : Entry => entry.place == other) ∘
      (fun entry => if entry.place == place then entry.extended text else entry) =
        fun entry => entry.place == other := by
    funext entry
    rw [Function.comp_apply]
    split <;> rfl
  rw [append_eq_modify]
  simp only [node?, entry?, modify, List.find?_map, Option.map_map, finds]
  refine Option.map_congr fun entry seen => ?_
  have at_other : entry.place = other := by simpa using List.find?_some seen
  by_cases here : other = place
  · simp [at_other, here, Entry.extended]
  · simp [at_other, here, Ne.symm here]

theorem append_empty (tree : Filesystem) (place : Place) : tree.append place "" = tree := by
  have same (entry : Entry) : entry.extended "" = entry := by
    rw [Entry.extended, Node.extended_empty]
  simp [append_eq_modify, modify, same]

theorem append_append (tree : Filesystem) (place : Place) (first second : String) :
    (tree.append place first).append place second = tree.append place (first ++ second) := by
  rw [append_eq_modify, append_eq_modify, append_eq_modify,
    modify_modify tree place (Entry.extended first) (Entry.extended second) fun _ => rfl]
  congr 1
  funext entry
  simp [Entry.extended]

theorem Leads.absent (leads : tree.Leads followLast links place names (.free goal)) :
    tree.node? goal = none := by
  generalize shape : Found.free goal = found at leads
  induction leads with
  | here => exact nomatch shape
  | stay _ _ ih => exact ih shape
  | up _ _ ih => exact ih shape
  | free _ _ absent => exact Found.free.inj shape ▸ absent
  | link => exact nomatch shape
  | follow _ _ _ _ _ ih => exact ih shape
  | enter _ _ _ _ _ ih => exact ih shape

/-- Opening a file changes nothing, or makes an empty file where there was none. -/
inductive Opens (tree : Filesystem) (path : String) : Filesystem → Place → Prop
  | there {place : Place} (located : tree.locate true path = .ok (.node place)) :
      Opens tree path tree place
  | made {place : Place} (located : tree.locate true path = .ok (.free place))
      (absent : tree.node? place = none) :
      Opens tree path (tree.add place (.file "") fileMode) place

theorem opens_of_openAppend (opened : tree.openAppend path = .ok (later, place)) :
    Opens tree path later place := by
  rw [openAppend] at opened
  split at opened
  · cases opened
  next located =>
    obtain ⟨rfl, rfl⟩ := Prod.mk.inj (Except.ok.inj opened)
    obtain ⟨_, _, leads⟩ := locate_eq_ok.mp located
    exact .made located leads.absent
  next located =>
    split at opened
    · cases opened
    · cases opened
    · obtain ⟨rfl, rfl⟩ := Prod.mk.inj (Except.ok.inj opened)
      exact .there located

/-- Every regular file is still one, and begins with what it held. -/
def Keeps (tree later : Filesystem) : Prop :=
  ∀ place content, tree.node? place = some (.file content) →
    ∃ more, later.node? place = some (.file (content ++ more))

theorem Keeps.refl (tree : Filesystem) : tree.Keeps tree :=
  fun _ content held => ⟨"", by rw [String.append_empty, held]⟩

theorem Keeps.trans (first : tree.Keeps later) (second : later.Keeps last) : tree.Keeps last := by
  intro place content held
  obtain ⟨more, held⟩ := first place content held
  obtain ⟨others, held⟩ := second place (content ++ more) held
  exact ⟨more ++ others, by rw [← String.append_assoc, held]⟩

theorem keeps_append (tree : Filesystem) (place : Place) (text : String) :
    tree.Keeps (tree.append place text) := by
  intro other content held
  rw [node?_append, held, Option.map_some]
  split
  · exact ⟨text, rfl⟩
  · exact ⟨"", by rw [String.append_empty]⟩

theorem keeps_add (tree : Filesystem) (place : Place) (node : Node) (mode : Int) :
    tree.Keeps (tree.add place node mode) := by
  intro other content held
  exact ⟨"", by rw [node?_add, held, String.append_empty, Option.some_or]⟩

theorem Opens.keeps (opens : tree.Opens path later place) : tree.Keeps later := by
  cases opens with
  | there => exact .refl tree
  | made => exact keeps_add tree _ _ _

end Filesystem

namespace Journal.Output

structure SetUp where
  verbose : Bool
  terminal : Bool
  color : Bool
  path : String

namespace SetUp

def level (call : SetUp) : Int := if call.verbose then debug else info

def colored (call : SetUp) : Bool := call.color && call.terminal

theorem level_pos (call : SetUp) : 0 < call.level := by
  unfold level
  split <;> decide

end SetUp

variable {output : Output} {record : Record} {records : List Record} {colored : Bool}
  {log : Option Place}

def after (output : Output) (call : SetUp) : Output × Option PathError :=
  output.setUp call.verbose call.terminal call.color call.path

inductive Deed where
  | setUp (call : SetUp)
  | record (record : Record)

def perform (output : Output) : Deed → Output
  | .setUp call => (output.after call).1
  | .record record => output.write record

def run (output : Output) (deeds : List Deed) : Output := deeds.foldl perform output

theorem run_append (output : Output) (before deeds : List Deed) :
    output.run (before ++ deeds) = (output.run before).run deeds :=
  List.foldl_append

theorem opens_of_openFile {tree later : Filesystem} {path : String} {place : Place}
    (opened : openFile tree path = .ok (later, place)) :
    tree.Opens (Path.absolute Filesystem.workingPlace path) later place := by
  simp only [openFile] at opened
  split at opened
  · cases opened
  · split at opened
    next done =>
      obtain rfl := Except.ok.inj opened
      exact Filesystem.opens_of_openAppend done
    next => cases opened

def handlersFor (colored : Bool) (log : Option Place) : List Handler :=
  .console colored :: (log.map Handler.file).toList

/-- What a set-up leaves behind. It has a log if it was asked for a file and could open it. -/
structure Ready (output : Output) (call : SetUp) (ended : Output × Option PathError)
    (log : Option Place) : Prop where
  level : ended.1.level = call.level
  handlers : ended.1.handlers = handlersFor call.colored log
  console : ended.1.console = output.console
  logs : log.isSome ↔ call.path ≠ "" ∧ ended.2 = none
  opens : ∀ place ∈ log,
    output.tree.Opens (Path.absolute Filesystem.workingPlace call.path) ended.1.tree place
  untouched : log = none → ended.1.tree = output.tree

theorem ready_after (output : Output) (call : SetUp) :
    ∃ log, Ready output call (output.after call) log := by
  rw [after, setUp]
  by_cases unasked : call.path = ""
  · rw [if_pos unasked]
    exact ⟨none, rfl, rfl, rfl, by simp [unasked], nofun, fun _ => rfl⟩
  · rw [if_neg unasked]
    split
    next opened =>
      refine ⟨some _, rfl, rfl, rfl, by simp [unasked], fun place logs => ?_, nofun⟩
      obtain rfl := Option.some.inj logs
      exact opens_of_openFile opened
    next => exact ⟨none, rfl, rfl, rfl, by simp, nofun, fun _ => rfl⟩

theorem Ready.keeps {ended : Output × Option PathError} {call : SetUp}
    (ready : Ready output call ended log) : output.tree.Keeps ended.1.tree := by
  cases log with
  | none => exact ready.untouched rfl ▸ .refl _
  | some place => exact (ready.opens place rfl).keeps

/-- A part as it is, or with sequences before and after it. -/
def Wraps (piece part : List Char) : Prop :=
  ∃ before after, piece = sequences before ++ part ++ sequences after

def plainParts (pattern : Option String) (record : Record) : List (List Char) :=
  [(timeText pattern record.created).toList, record.source.toList,
    (levelName record.level).toList, record.message.toList]

def plainFailure (record : Record) : List Char :=
  match record.failure with
  | some failure =>
      (if record.message.toList.getLast? = some '\n' then [] else ['\n']) ++ failure.line.toList
  | none => []

/-- What one record adds to a console or a file: its parts with a blank between each two, its
failure, and the end of the line. -/
inductive Tells (pattern : Option String) (record : Record) : Bool → String → Prop
  | plain : Tells pattern record false (String.ofList
      ([' '].intercalate (plainParts pattern record) ++ plainFailure record ++ ['\n']))
  | colored {pieces : List (List Char)} :
      List.Forall₂ Wraps pieces (parts pattern record) →
      Tells pattern record true (String.ofList
        ([' '].intercalate pieces ++ failureText record.failure ++ ['\n']))

theorem Tells.ends {pattern : Option String} {entry : String}
    (tells : Tells pattern record colored entry) : entry.toList.getLast? = some '\n' := by
  cases tells <;> simp

theorem plainLine_eq (pattern : Option String) (record : Record) :
    plainLine pattern record =
      [' '].intercalate (plainParts pattern record) ++ plainFailure record := by
  have line : [' '].intercalate (plainParts pattern record) =
      (timeText pattern record.created).toList ++ ' ' :: record.source.toList ++
        ' ' :: (levelName record.level).toList ++ ' ' :: record.message.toList := by
    simp [plainParts]
  have last (front message : List Char) :
      (front ++ ' ' :: message).getLast? = some '\n' ↔ message.getLast? = some '\n' := by
    cases message <;> simp
  rw [line, plainLine, plainFailure]
  cases record.failure with
  | none => exact (List.append_nil _).symm
  | some failure =>
      simp only [beq_iff_eq, last]
      split <;> simp

theorem wraps_plain (part : List Char) : Wraps part part :=
  ⟨[], [], (List.append_nil part).symm⟩

theorem wraps_painted (styles : List Style) (part : List Char) : Wraps (painted styles part) part :=
  ⟨styles, [.reset], by simp [painted, sequences]⟩

theorem wraps_pieces (pattern : Option String) (record : Record) :
    List.Forall₂ Wraps (pieces pattern record) (parts pattern record) := by
  have message : Wraps (messagePiece record.level record.message.toList)
      record.message.toList := by
    unfold messagePiece
    split
    · exact wraps_painted _ _
    · exact wraps_plain _
  exact .cons (wraps_painted _ _) <| .cons (wraps_painted _ _) <| .cons (wraps_painted _ _) <|
    .cons message .nil

theorem tells_line (colored : Bool) (pattern : Option String) (record : Record) :
    Tells pattern record colored (line colored pattern record) := by
  cases colored with
  | false =>
      have shape : Tells pattern record false _ := .plain
      rwa [← plainLine_eq] at shape
  | true =>
      have shape : Tells pattern record true _ := .colored (wraps_pieces pattern record)
      rwa [← coloredLine_eq] at shape

def entries (colored : Bool) (pattern : Option String) (records : List Record) : String :=
  String.join (records.map (line colored pattern))

theorem entries_cons (colored : Bool) (pattern : Option String) (record : Record)
    (records : List Record) :
    entries colored pattern (record :: records) =
      line colored pattern record ++ entries colored pattern records := by
  rw [entries, List.map_cons, String.join_cons, entries]

def due (level : Int) (records : List Record) : List Record :=
  records.filter fun record => level ≤ record.level

def logged (tree : Filesystem) (text : String) : Option Place → Filesystem
  | some place => tree.append place text
  | none => tree

theorem logged_empty (tree : Filesystem) (log : Option Place) : logged tree "" log = tree := by
  cases log with
  | none => rfl
  | some place => exact tree.append_empty place

theorem logged_logged (tree : Filesystem) (first second : String) (log : Option Place) :
    logged (logged tree first log) second log = logged tree (first ++ second) log := by
  cases log with
  | none => rfl
  | some place => exact tree.append_append place first second

theorem enabled_iff (positive : 0 < output.level) :
    output.enabled record = true ↔ output.level ≤ record.level := by
  rw [enabled, Bool.and_eq_true, decide_eq_true_iff, decide_eq_true_iff]
  exact and_iff_right_of_imp (Int.lt_of_lt_of_le positive)

theorem write_due (handlers : output.handlers = handlersFor colored log)
    (lets : output.enabled record = true) :
    output.write record =
      { output with
        console := output.console ++ line colored (some consolePattern) record
        tree := logged output.tree (line false none record) log } := by
  have taken : ¬(!output.enabled record) = true := by simp [lets]
  have filled : ¬output.handlers.isEmpty = true := by simp [handlers, handlersFor]
  rw [write, if_neg taken, if_neg filled]
  obtain ⟨level, _, console, tree⟩ := output
  obtain rfl : _ = handlersFor colored log := handlers
  cases log <;> rfl

theorem write_idle (holds : ¬output.enabled record = true) : output.write record = output := by
  rw [Bool.not_eq_true] at holds
  rw [write, holds]
  rfl

theorem due_cons_of_le {level : Int} (reaches : level ≤ record.level) (records : List Record) :
    due level (record :: records) = record :: due level records :=
  List.filter_cons_of_pos (decide_eq_true reaches)

theorem due_cons_of_lt {level : Int} (misses : record.level < level) (records : List Record) :
    due level (record :: records) = due level records :=
  List.filter_cons_of_neg (by simpa using misses)

theorem run_records (positive : 0 < output.level)
    (handlers : output.handlers = handlersFor colored log) :
    output.run (records.map .record) =
      { output with
        console :=
          output.console ++ entries colored (some consolePattern) (due output.level records)
        tree := logged output.tree (entries false none (due output.level records)) log } := by
  -- What is written leaves the level and the handlers as they are, so they carry the induction.
  induction records generalizing output with
  | nil =>
      have none (colored : Bool) (pattern : Option String) : entries colored pattern [] = "" := rfl
      rw [due, List.filter_nil, none, none, String.append_empty, logged_empty]
      rfl
  | cons record records ih =>
      have first : output.run ((record :: records).map .record) =
          (output.write record).run (records.map .record) := rfl
      by_cases reaches : output.level ≤ record.level
      · rw [first, write_due handlers ((enabled_iff positive).mpr reaches), ih,
          due_cons_of_le reaches, entries_cons, entries_cons, ← String.append_assoc,
          ← logged_logged]
        · exact positive
        · exact handlers
      · have idle : ¬output.enabled record = true := fun lets =>
          reaches ((enabled_iff positive).mp lets)
        rw [first, write_idle idle, ih positive handlers, due_cons_of_lt (Int.lt_of_not_ge reaches)]

theorem keeps_handle (output : Output) (record : Record) (handler : Handler) :
    output.tree.Keeps (output.handle record handler).tree := by
  cases handler with
  | console => exact .refl _
  | file place => exact Filesystem.keeps_append output.tree place _

theorem keeps_write (output : Output) (record : Record) :
    output.tree.Keeps (output.write record).tree := by
  rw [write]
  split_ifs
  · exact .refl _
  · exact .refl _
  · exact .refl _
  next =>
    generalize output.handlers = handlers
    clear * -
    induction handlers generalizing output with
    | nil => exact .refl _
    | cons handler handlers ih => exact (keeps_handle output record handler).trans (ih _)

theorem keeps_perform (output : Output) (deed : Deed) :
    output.tree.Keeps (output.perform deed).tree := by
  cases deed with
  | setUp call =>
      obtain ⟨_, ready⟩ := ready_after output call
      exact ready.keeps
  | record record => exact keeps_write output record

theorem keeps_run (output : Output) (deeds : List Deed) :
    output.tree.Keeps (output.run deeds).tree := by
  induction deeds generalizing output with
  | nil => exact .refl _
  | cons deed deeds ih => exact (keeps_perform output deed).trans (ih _)

theorem forall₂_tells (colored : Bool) (pattern : Option String) (records : List Record) :
    List.Forall₂ (fun record entry => Tells pattern record colored entry) records
      (records.map (line colored pattern)) :=
  List.forall₂_map_right_iff.mpr <|
    List.forall₂_same.mpr fun record _ => tells_line colored pattern record

theorem ends_of_tells {colored : Bool} {pattern : Option String} {records : List Record}
    {texts : List String}
    (tells : List.Forall₂ (fun record entry => Tells pattern record colored entry) records texts) :
    ∀ entry ∈ texts, entry.toList.getLast? = some '\n' := by
  induction tells with
  | nil => exact List.forall_mem_nil _
  | cons first _ ih => exact List.forall_mem_cons.mpr ⟨first.ends, ih⟩

/-- After any course of set-ups and records, the last set-up has left one console handler, and one
for its file if it asked for one and could open it. Since then each record at or above its level has
added one entry to the console and one to that file, which tell what the record does and end their
line; the others have added nothing, and no other node has changed. Over the whole course files have
only been appended to. -/
theorem writes_each_record_once (output : Output) (before : List Deed) (call : SetUp)
    (records : List Record) :
    let start := output.run before
    let opened := start.after call
    let current := output.run (before ++ .setUp call :: records.map .record)
    let lines := due call.level records
    (∃ log console file, Ready start call opened log ∧
      current.level = call.level ∧
      current.handlers = handlersFor call.colored log ∧
      List.Forall₂ (fun record entry => Tells (some consolePattern) record call.colored entry)
        lines console ∧
      current.console = start.console ++ String.join console ∧
      List.Forall₂ (fun record entry => Tells none record false entry) lines file ∧
      (∀ place, current.tree.node? place =
        (opened.1.tree.node? place).map fun node =>
          if log = some place then node.extended (String.join file) else node) ∧
      ∀ entry ∈ console ++ file, entry.toList.getLast? = some '\n') ∧
    output.tree.Keeps current.tree := by
  intro start opened current lines
  obtain ⟨log, ready⟩ := ready_after start call
  have since : current = opened.1.run (records.map .record) := run_append _ _ _
  have level : opened.1.level = call.level := ready.level
  rw [run_records (level ▸ call.level_pos) ready.handlers, level] at since
  have console := forall₂_tells call.colored (some consolePattern) lines
  have file := forall₂_tells false none lines
  refine ⟨⟨log, _, _, ready, ?_, ?_, console, ?_, file, fun place => ?_, ?_⟩, keeps_run _ _⟩
  · rw [since]
  · rw [since]
    exact ready.handlers
  · rw [since, ← ready.console]
    rfl
  · rw [since]
    change (logged opened.1.tree (entries false none lines) log).node? place = _
    cases log with
    | none => exact Option.map_id'.symm
    | some other => simp [logged, Filesystem.node?_append, entries]
  · exact List.forall_mem_append.mpr ⟨ends_of_tells console, ends_of_tells file⟩

set_option maxRecDepth 8000 in
/-- The file is opened, then another one cannot be, and then the first is opened again. -/
theorem writes_each_record_once_reopened :
    let note (level : Int) (message : String) : Record :=
      { level := level, source := "root", message := message }
    let call (path : String) : SetUp := ⟨false, false, true, path⟩
    let before : List Deed :=
      [.setUp (call "/l"), .record (note info "a"), .setUp (call "/d/l"), .record (note info "b")]
    let records := [note debug "c", note warning "d"]
    let start := ({} : Output).run before
    let current := ({} : Output).run (before ++ .setUp (call "/l") :: records.map .record)
    start.handlers = [.console false] ∧
      current.handlers = [.console false, .file ["l"]] ∧
      current.console =
        "00:00:00 root INFO a\n00:00:00 root INFO b\n00:00:00 root WARNING d\n" ∧
      current.tree.node? ["l"] = some (.file
        "1970-01-01 00:00:00,000 root INFO a\n1970-01-01 00:00:00,000 root WARNING d\n") := by
  intro note call before records start current
  obtain ⟨refused, written, reopened, kept⟩ : start.handlers = [.console false] ∧
      start.console = "00:00:00 root INFO a\n00:00:00 root INFO b\n" ∧
      (start.after (call "/l")).1.handlers = [.console false, .file ["l"]] ∧
      (start.after (call "/l")).1.tree.node? ["l"] =
        some (.file "1970-01-01 00:00:00,000 root INFO a\n") := by
    simp only [start, before, call, note]
    decide
  obtain ⟨⟨log, console, file, ready, _, handlers, tells, grown, told, nodes, _⟩, _⟩ :=
    writes_each_record_once {} before (call "/l") records
  have single : due (call "/l").level records = [note warning "d"] := by decide
  obtain rfl : log = some ["l"] := by
    have logs := (List.cons.inj (ready.handlers.symm.trans reopened)).2
    cases log with
    | none => cases logs
    | some place => simpa using logs
  rw [single] at tells told
  obtain ⟨_, _, ⟨⟩, ⟨⟩, rfl⟩ := List.forall₂_cons_left_iff.mp tells
  obtain ⟨_, _, ⟨⟩, ⟨⟩, rfl⟩ := List.forall₂_cons_left_iff.mp told
  refine ⟨refused, handlers, ?_, ?_⟩
  · rw [grown, written]
    decide +kernel
  · rw [nodes, kept]
    decide +kernel

end Journal.Output
end SteeringChannel
