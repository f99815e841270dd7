import Mathlib.Data.List.DropRight
import Mathlib.Data.List.Forall2
import SteeringChannel.Journal.Layout
import SteeringChannel.Proofs.Number.Whole

/-!
Coloured lines as a terminal shows them. The sequences that colour a line say nothing themselves:
without them it reads as its parts in plain letters, and after each part the terminal shows what
follows as it did before.
-/

namespace SteeringChannel.Journal

structure Look where
  bold : Bool := false
  dim : Bool := false
  color : Option Nat := none
  deriving DecidableEq, Repr

def Look.usual : Look := {}

def Look.turn (look : Look) (code : Nat) : Look :=
  if code = 0 then .usual
  else if code = 1 then { look with bold := true }
  else if code = 2 then { look with dim := true }
  else if code = 22 then { look with bold := false, dim := false }
  else if code = 39 then { look with color := none }
  else if 30 ≤ code ∧ code ≤ 37 then { look with color := some code }
  else look

inductive Mark where
  | letter (letter : Char)
  | style (codes : List Nat)
  deriving DecidableEq, Repr

def Mark.letter? : Mark → Option Char
  | .letter shown => some shown
  | .style _ => none

def Mark.turn (look : Look) : Mark → Look
  | .letter _ => look
  | .style codes => codes.foldl Look.turn look

def isParameter (letter : Char) : Bool := letter.isDigit || letter == ';'

def codesOf (parameters : List Char) : List Nat :=
  (parameters.splitOn ';').map fun digits =>
    digits.foldl (fun total digit => 10 * total + (digit.toNat - 48)) 0

def sequence? : List Char → Option (List Nat × List Char)
  | '\x1b' :: '[' :: rest =>
      match rest.dropWhile isParameter with
      | 'm' :: after => some (codesOf (rest.takeWhile isParameter), after)
      | _ => none
  | _ => none

variable {text rest piece : List Char} {look : Look}

theorem length_of_sequence? {codes : List Nat} (begins : sequence? text = some (codes, rest)) :
    rest.length < text.length := by
  unfold sequence? at begins
  split at begins
  next after =>
    split at begins
    next ends =>
      obtain ⟨rfl, rfl⟩ := Prod.mk.inj (Option.some.inj begins)
      have shorter := (after.dropWhile_suffix isParameter).length_le
      rw [ends, List.length_cons] at shorter
      simp only [List.length_cons]
      omega
    next => cases begins
  next => cases begins

def marks : List Char → List Mark
  | [] => []
  | letter :: rest =>
      match _begins : sequence? (letter :: rest) with
      | some (codes, after) => .style codes :: marks after
      | none => .letter letter :: marks rest
termination_by text => text.length
decreasing_by
  · exact length_of_sequence? _begins
  · exact Nat.lt_succ_self rest.length

def unstyled (text : List Char) : List Char := (marks text).filterMap Mark.letter?

def lookAfter (text : List Char) : Look := (marks text).foldl Mark.turn .usual

def letters (look : Look) : List Mark → List (Char × Look)
  | [] => []
  | .letter letter :: rest => (letter, look) :: letters look rest
  | .style codes :: rest => letters (codes.foldl Look.turn look) rest

/-- What a terminal shows of a text: its letters, and how each one looks. -/
def shown (text : List Char) : List (Char × Look) := letters .usual (marks text)

theorem letters_append (look : Look) (first second : List Mark) :
    letters look (first ++ second) =
      letters look first ++ letters (first.foldl Mark.turn look) second := by
  induction first generalizing look with
  | nil => rfl
  | cons mark first ih =>
      cases mark with
      | letter letter => simp only [List.cons_append, letters, ih, List.foldl_cons, Mark.turn]
      | style codes => simp only [List.cons_append, letters, ih, List.foldl_cons, Mark.turn]

theorem letters_plain (look : Look) (text : List Char) :
    letters look (text.map Mark.letter) = text.map fun letter => (letter, look) := by
  induction text with
  | nil => rfl
  | cons letter text ih => simp only [List.map_cons, letters, ih]

theorem foldl_turn_plain (look : Look) (text : List Char) :
    (text.map Mark.letter).foldl Mark.turn look = look := by
  induction text with
  | nil => rfl
  | cons letter text ih => exact ih

theorem unstyled_plain (text : List Char) :
    (text.map Mark.letter).filterMap Mark.letter? = text := by
  rw [List.filterMap_map]
  exact congrFun List.filterMap_some_fun text

theorem marks_letter {letter : Char} (plain : letter ≠ '\x1b') (rest : List Char) :
    marks (letter :: rest) = .letter letter :: marks rest := by
  have begins : sequence? (letter :: rest) = none := by
    unfold sequence?
    split
    next same => exact absurd (List.cons.inj same).1 plain
    next => rfl
  rw [marks]
  split
  next found => cases begins.symm.trans found
  next => rfl

theorem marks_plain (plain : '\x1b' ∉ text) (rest : List Char) :
    marks (text ++ rest) = text.map Mark.letter ++ marks rest := by
  induction text with
  | nil => rfl
  | cons letter text ih =>
      rw [List.mem_cons, not_or] at plain
      rw [List.cons_append, marks_letter (Ne.symm plain.1), ih plain.2]
      rfl

theorem marks_sequence (style : Style) (rest : List Char) :
    marks (style.sequence ++ rest) = .style [style.code] :: marks rest := by
  have begins : sequence? (style.sequence ++ rest) = some ([style.code], rest) := by
    cases style <;> rfl
  change marks ('\x1b' :: _) = _
  rw [marks]
  split
  next found =>
    obtain ⟨rfl, rfl⟩ := Prod.mk.inj (Option.some.inj (begins.symm.trans found))
    rfl
  next found => cases begins.symm.trans found

theorem marks_sequences (styles : List Style) (rest : List Char) :
    marks (sequences styles ++ rest) =
      (styles.map fun style => .style [style.code]) ++ marks rest := by
  induction styles with
  | nil => rfl
  | cons style styles ih =>
      rw [sequences, List.flatMap_cons, List.append_assoc, marks_sequence, ← sequences, ih]
      rfl

theorem marks_painted (styles : List Style) (plain : '\x1b' ∉ text) (rest : List Char) :
    marks (painted styles text ++ rest) =
      (styles.map fun style => .style [style.code]) ++ text.map Mark.letter ++
        .style [0] :: marks rest := by
  rw [painted, List.append_assoc, List.append_assoc, marks_sequences, marks_plain plain,
    marks_sequence, List.append_assoc]
  rfl

/-- What follows a piece is read and shown as if the piece were not there. -/
structure Neutral (piece : List Char) : Prop where
  cut : ∀ rest, marks (piece ++ rest) = marks piece ++ marks rest
  back : lookAfter piece = .usual

theorem Neutral.append {other : List Char} (neutral : Neutral piece) (also : Neutral other) :
    Neutral (piece ++ other) where
  cut rest := by
    rw [List.append_assoc, neutral.cut, also.cut, neutral.cut, List.append_assoc]
  back := by
    have first := neutral.back
    have second := also.back
    rw [lookAfter] at first second ⊢
    rw [neutral.cut, List.foldl_append, first, second]

theorem marks_plain_alone (plain : '\x1b' ∉ text) : marks text = text.map Mark.letter := by
  have whole := marks_plain plain []
  rwa [marks, List.append_nil, List.append_nil] at whole

theorem neutral_plain (plain : '\x1b' ∉ text) : Neutral text where
  cut rest := by rw [marks_plain plain, marks_plain_alone plain]
  back := by rw [lookAfter, marks_plain_alone plain, foldl_turn_plain]

theorem marks_painted_alone (styles : List Style) (plain : '\x1b' ∉ text) :
    marks (painted styles text) =
      (styles.map fun style => .style [style.code]) ++ text.map Mark.letter ++ [.style [0]] := by
  have whole := marks_painted styles plain []
  rwa [List.append_nil, marks] at whole

theorem neutral_painted (styles : List Style) (plain : '\x1b' ∉ text) :
    Neutral (painted styles text) where
  cut rest := by
    rw [marks_painted styles plain, marks_painted_alone styles plain]
    simp
  back := by
    rw [lookAfter, marks_painted_alone styles plain, List.foldl_append]
    rfl

theorem Neutral.shown (neutral : Neutral piece) (rest : List Char) :
    shown (piece ++ rest) = shown piece ++ shown rest := by
  have back := neutral.back
  rw [lookAfter] at back
  rw [Journal.shown, neutral.cut, letters_append, back]
  rfl

theorem Neutral.unstyled (neutral : Neutral piece) (rest : List Char) :
    unstyled (piece ++ rest) = unstyled piece ++ unstyled rest := by
  rw [Journal.unstyled, neutral.cut, List.filterMap_append]
  rfl

structure Paints (piece text : List Char) : Prop extends Neutral piece where
  plain : unstyled piece = text
  uniform : ∃ look, shown piece = text.map fun letter => (letter, look)

theorem shown_plain (plain : '\x1b' ∉ text) :
    shown text = text.map fun letter => (letter, .usual) := by
  rw [shown, marks_plain_alone plain, letters_plain]

theorem paints_plain (plain : '\x1b' ∉ text) : Paints text text where
  toNeutral := neutral_plain plain
  plain := by rw [unstyled, marks_plain_alone plain, unstyled_plain]
  uniform := ⟨.usual, shown_plain plain⟩

theorem paints_painted (styles : List Style) (plain : '\x1b' ∉ text) :
    Paints (painted styles text) text where
  toNeutral := neutral_painted styles plain
  plain := by
    rw [unstyled, marks_painted_alone styles plain, List.filterMap_append, List.filterMap_append,
      unstyled_plain]
    simp [Mark.letter?, Function.comp_def]
  uniform := by
    refine ⟨(styles.map fun style => Mark.style [style.code]).foldl Mark.turn .usual, ?_⟩
    have silent (look : Look) :
        letters look (styles.map fun style => Mark.style [style.code]) = [] := by
      induction styles generalizing look with
      | nil => rfl
      | cons style styles ih => exact ih _
    rw [shown, marks_painted_alone styles plain, letters_append, letters_append, silent,
      letters_plain]
    exact List.append_nil _

theorem neutral_of_paints {pieces parts : List (List Char)}
    (painting : List.Forall₂ Paints pieces parts) : ∀ piece ∈ pieces, Neutral piece := by
  induction painting with
  | nil => exact nofun
  | cons paints _ ih => exact List.forall_mem_cons.mpr ⟨paints.toNeutral, ih⟩

theorem map_unstyled {pieces parts : List (List Char)}
    (painting : List.Forall₂ Paints pieces parts) : pieces.map unstyled = parts := by
  induction painting with
  | nil => rfl
  | cons paints _ ih => rw [List.map_cons, paints.plain, ih]

theorem neutral_intercalate {pieces : List (List Char)}
    (neutral : ∀ piece ∈ pieces, Neutral piece) : Neutral ([' '].intercalate pieces) := by
  induction pieces with
  | nil => exact neutral_plain (by decide)
  | cons piece pieces ih =>
      rw [List.forall_mem_cons] at neutral
      cases pieces with
      | nil => simpa using neutral.1
      | cons other pieces =>
          rw [List.intercalate_cons_cons]
          exact (neutral.1.append (neutral_plain (by decide))).append (ih neutral.2)

theorem view_intercalate {α : Type} {view : List Char → List α}
    (splits : ∀ piece, Neutral piece → ∀ rest, view (piece ++ rest) = view piece ++ view rest)
    {pieces : List (List Char)} (neutral : ∀ piece ∈ pieces, Neutral piece) (filled : pieces ≠ []) :
    view ([' '].intercalate pieces) = (view [' ']).intercalate (pieces.map view) := by
  induction pieces with
  | nil => exact absurd rfl filled
  | cons piece pieces ih =>
      rw [List.forall_mem_cons] at neutral
      cases pieces with
      | nil => simp
      | cons other pieces =>
          rw [List.intercalate_cons_cons, List.append_assoc, splits piece neutral.1,
            splits [' '] (neutral_plain (by decide)), ih neutral.2 (List.cons_ne_nil _ _)]
          simp

theorem escape_not_mem_levelName (level : Int) : '\x1b' ∉ (levelName level).toList := by
  unfold levelName
  split_ifs
  all_goals try decide
  rw [String.toList_append, List.mem_append, not_or]
  exact ⟨by decide, fun member => absurd (isDigit_of_mem_toString member) (by decide)⟩

theorem escape_not_mem_padEnd (plain : '\x1b' ∉ text) (width : Nat) :
    '\x1b' ∉ padEnd width text := by
  rw [padEnd, List.mem_append, not_or]
  refine ⟨plain, fun member => ?_⟩
  exact absurd (List.eq_of_mem_replicate member) (by decide)

theorem lastComponent_cut (source : List Char) :
    '.' ∉ lastComponent source ∧ ∃ front, source = front ++ lastComponent source ∧
      (front = [] ∨ front.getLast? = some '.') := by
  have last : lastComponent source = source.rtakeWhile (· != '.') := rfl
  rw [last]
  refine ⟨fun member => ?_, source.rdropWhile (· != '.'),
    List.rdropWhile_append_rtakeWhile.symm, ?_⟩
  · exact absurd (List.mem_rtakeWhile_imp member) (by decide)
  · by_cases empty : source.rdropWhile (· != '.') = []
    · exact .inl empty
    · have dot := List.rdropWhile_last_not _ source empty
      rw [bne_iff_ne, not_not] at dot
      exact .inr (by rw [List.getLast?_eq_some_getLast empty, dot])

def messagePiece (level : Int) (message : List Char) : List Char :=
  match messageStyles level message with
  | some styles => painted styles message
  | none => message

theorem paints_messagePiece (level : Int) (plain : '\x1b' ∉ text) :
    Paints (messagePiece level text) text := by
  unfold messagePiece
  split
  · exact paints_painted _ plain
  · exact paints_plain plain

def parts (pattern : Option String) (record : Record) : List (List Char) :=
  [(timeText pattern record.created).toList, padEnd 5 (levelName record.level).toList,
    padEnd 16 (lastComponent record.source.toList), record.message.toList]

def pieces (pattern : Option String) (record : Record) : List (List Char) :=
  [painted [.dim] (timeText pattern record.created).toList,
    painted (levelStyles record.level) (padEnd 5 (levelName record.level).toList),
    painted [.dim] (padEnd 16 (lastComponent record.source.toList)),
    messagePiece record.level record.message.toList]

def failureText : Option Failure → List Char
  | some failure => '\n' :: failure.line.toList
  | none => []

theorem coloredLine_eq (pattern : Option String) (record : Record) :
    coloredLine pattern record =
      [' '].intercalate (pieces pattern record) ++ failureText record.failure := by
  have line : [' '].intercalate (pieces pattern record) =
      painted [.dim] (timeText pattern record.created).toList ++
        ' ' :: painted (levelStyles record.level) (padEnd 5 (levelName record.level).toList) ++
        ' ' :: painted [.dim] (padEnd 16 (lastComponent record.source.toList)) ++
        ' ' :: messagePiece record.level record.message.toList := by
    simp [pieces]
  rw [line, coloredLine]
  cases record.failure with
  | none => exact (List.append_nil _).symm
  | some failure => rfl

theorem paints_pieces (pattern : Option String) (record : Record)
    (time : '\x1b' ∉ (timeText pattern record.created).toList)
    (source : '\x1b' ∉ record.source.toList) (message : '\x1b' ∉ record.message.toList) :
    List.Forall₂ Paints (pieces pattern record) (parts pattern record) := by
  have last : '\x1b' ∉ lastComponent record.source.toList := by
    obtain ⟨_, front, cut, _⟩ := lastComponent_cut record.source.toList
    exact fun member => source (cut ▸ List.mem_append_right front member)
  exact .cons (paints_painted _ time) <|
    .cons (paints_painted _ (escape_not_mem_padEnd (escape_not_mem_levelName _) 5)) <|
    .cons (paints_painted _ (escape_not_mem_padEnd last 16)) <|
    .cons (paints_messagePiece _ message) .nil

/-- Without its sequences, a coloured line is its four parts with a space between each two, and the
failure, if there is one, on a line of its own. Each part is shown in one look, after each the
terminal is as it was, and neither the spaces nor the failure nor what follows has any colour. -/
theorem colors_stay_in_parts (pattern : Option String) (record : Record)
    (time : '\x1b' ∉ (timeText pattern record.created).toList)
    (source : '\x1b' ∉ record.source.toList) (message : '\x1b' ∉ record.message.toList)
    (failure : '\x1b' ∉ failureText record.failure) :
    let line := coloredLine pattern record
    let tail := failureText record.failure
    ('.' ∉ lastComponent record.source.toList ∧
      ∃ front, record.source.toList = front ++ lastComponent record.source.toList ∧
        (front = [] ∨ front.getLast? = some '.')) ∧
    unstyled line = [' '].intercalate (parts pattern record) ++ tail ∧
    ∃ pieces, line = [' '].intercalate pieces ++ tail ∧
      List.Forall₂ (fun piece part => ∃ look, shown piece = part.map fun letter => (letter, look))
        pieces (parts pattern record) ∧
      (∀ count, lookAfter ([' '].intercalate (pieces.take count)) = .usual) ∧
      ∀ next, shown (line ++ next) =
        [(' ', .usual)].intercalate (pieces.map shown) ++
          (tail.map fun letter => (letter, .usual)) ++ shown next := by
  intro line tail
  have painting := paints_pieces pattern record time source message
  have neutral := neutral_of_paints painting
  have filled : pieces pattern record ≠ [] := List.cons_ne_nil _ _
  have whole : Neutral ([' '].intercalate (pieces pattern record)) := neutral_intercalate neutral
  have cut : line = [' '].intercalate (pieces pattern record) ++ tail :=
    coloredLine_eq pattern record
  have space : '\x1b' ∉ [' '] := by decide
  refine ⟨lastComponent_cut _, ?_, pieces pattern record, cut, ?_, ?_, ?_⟩
  · rw [cut, whole.unstyled, view_intercalate (fun _ => Neutral.unstyled) neutral filled,
      (paints_plain space).plain, map_unstyled painting, (paints_plain failure).plain]
  · exact painting.imp fun _ _ paints => paints.uniform
  · intro count
    exact (neutral_intercalate fun piece member => neutral piece (List.mem_of_mem_take member)).back
  · intro next
    rw [cut, List.append_assoc, whole.shown, (neutral_plain failure).shown,
      view_intercalate (fun _ => Neutral.shown) neutral filled, shown_plain space,
      shown_plain failure, List.append_assoc]
    rfl

/-- A critical record whose message has the marks of all classes, and which reports a failure. -/
theorem colors_stay_in_parts_mixed :
    let record : Record :=
      { level := 50, source := "swi_control.cli", message := "Client State: connected ->"
        failure := some ⟨"OSError", "[Errno 5]"⟩ }
    let line := coloredLine (some "%H:%M:%S") record
    '\x1b' ∉ (timeText (some "%H:%M:%S") record.created).toList ∧
      '\x1b' ∉ record.source.toList ∧ '\x1b' ∉ record.message.toList ∧
      '\x1b' ∉ failureText record.failure ∧
      unstyled line =
        "00:00:00 CRITICAL cli              Client State: connected ->\nOSError: [Errno 5]".toList ∧
      ∃ before, ∀ next, shown (line ++ next) =
        before ++ ("\nOSError: [Errno 5]".toList.map fun letter => (letter, .usual)) ++
          shown next := by
  intro record line
  have time : '\x1b' ∉ (timeText (some "%H:%M:%S") record.created).toList := by decide +kernel
  have source : '\x1b' ∉ record.source.toList := by decide
  have message : '\x1b' ∉ record.message.toList := by decide
  have failure : '\x1b' ∉ failureText record.failure := by decide
  obtain ⟨_, plain, _, _, _, _, later⟩ :=
    colors_stay_in_parts (some "%H:%M:%S") record time source message failure
  refine ⟨time, source, message, failure, plain.trans (by decide +kernel), _, later⟩

end SteeringChannel.Journal
