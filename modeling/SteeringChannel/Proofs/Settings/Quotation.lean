import SteeringChannel.Proofs.Settings.Assignment

/-!
Values in double quotes. A file that was written with one quoted value on each line is loaded without
an error, and a value comes back as it was just if it has no quote mark of its own at either end.
-/

namespace SteeringChannel.EnvFile

open Text (Trimmed isBlank)

def quotedLine (entry : String × String) : List Char :=
  entry.1.toList ++ '=' :: '"' :: (entry.2.toList ++ ['"'])

def quotedFile (ending : List Char) (entries : Environment) : List Char :=
  entries.flatMap fun entry => quotedLine entry ++ ending

def unquoted (value : String) : String :=
  String.ofList (Text.trimBoth isQuoteMark value.toList)

def endLetters (text : String) : List Char :=
  text.toList.head?.toList ++ text.toList.getLast?.toList

/-- A name that is free and can stand before an equals sign, with a value on one line. -/
structure Writable (environment : Environment) (entry : String × String) : Prop where
  named : entry.1 ≠ ""
  name : ∀ letter ∈ entry.1.toList, letter ∉ ['=', '\n', '\r', '\x00']
  nameEnds : ∀ letter ∈ endLetters entry.1, isBlank letter = false
  uncommented : entry.1.toList.head? ≠ some '#'
  unset : environment.lookup entry.1 = none
  value : ∀ letter ∈ entry.2.toList, letter ∉ ['\n', '\r', '\x00']

instance (environment : Environment) (entry : String × String) :
    Decidable (Writable environment entry) :=
  decidable_of_iff
    (entry.1 ≠ "" ∧ (entry.1.toList.all fun letter => letter ∉ ['=', '\n', '\r', '\x00']) ∧
      ((endLetters entry.1).all fun letter => !isBlank letter) ∧
      entry.1.toList.head? ≠ some '#' ∧ environment.lookup entry.1 = none ∧
      entry.2.toList.all fun letter => letter ∉ ['\n', '\r', '\x00'])
    (by
      simp only [List.all_eq_true, decide_eq_true_eq, Bool.not_eq_true']
      exact ⟨fun ⟨named, name, nameEnds, uncommented, unset, value⟩ =>
          ⟨named, name, nameEnds, uncommented, unset, value⟩,
        fun ⟨named, name, nameEnds, uncommented, unset, value⟩ =>
          ⟨named, name, nameEnds, uncommented, unset, value⟩⟩)

variable {environment : Environment} {entries : Environment} {entry : String × String}
  {ending : List Char}

theorem mem_endLetters {text : String} {letter : Char} :
    letter ∈ endLetters text ↔
      text.toList.head? = some letter ∨ text.toList.getLast? = some letter := by
  simp [endLetters]

theorem Writable.exists_head (writable : Writable environment entry) :
    ∃ letter tail, entry.1.toList = letter :: tail :=
  List.exists_cons_of_ne_nil fun empty => writable.named (String.toList_eq_nil_iff.mp empty)

theorem Writable.unbroken (writable : Writable environment entry) : Unbroken (quotedLine entry) := by
  have plain : ∀ letter ∈ quotedLine entry, letter ≠ '\n' ∧ letter ≠ '\r' := by
    intro letter member
    simp only [quotedLine, List.mem_append, List.mem_cons, List.not_mem_nil, or_false] at member
    rcases member with named | rfl | rfl | valued | rfl
    · have plain := writable.name letter named
      simp only [List.mem_cons, not_or] at plain
      exact ⟨plain.2.1, plain.2.2.1⟩
    · decide
    · decide
    · have plain := writable.value letter valued
      simp only [List.mem_cons, not_or] at plain
      exact ⟨plain.1, plain.2.1⟩
    · decide
  exact ⟨fun member => (plain _ member).1 rfl, fun member => (plain _ member).2 rfl⟩

theorem splitsInto_quotedFile (writable : ∀ entry ∈ entries, Writable environment entry)
    (ends : ending ∈ [['\n'], ['\r'], ['\r', '\n']]) :
    SplitsInto (quotedFile ending entries) (entries.map quotedLine) := by
  induction entries with
  | nil => exact .nothing
  | cons entry rest ih =>
      rw [List.forall_mem_cons] at writable
      have unbroken := writable.1.unbroken
      have splits := ih writable.2
      rw [quotedFile, List.flatMap_cons, ← quotedFile, List.map_cons, List.append_assoc]
      simp only [List.mem_cons, List.not_mem_nil, or_false] at ends
      rcases ends with rfl | rfl | rfl
      · exact .lineFeed unbroken splits
      · refine .carriageReturn unbroken ?_ splits
        cases rest with
        | nil => simp [quotedFile]
        | cons next _ =>
            have writable := writable.2 next List.mem_cons_self
            obtain ⟨letter, tail, name⟩ := writable.exists_head
            have plain := writable.name letter (by simp [name])
            simp only [List.mem_cons, not_or] at plain
            simp [quotedFile, quotedLine, name, plain.2.1]
      · exact .together unbroken splits

theorem assigns_quotedLine (writable : Writable environment entry) :
    Assigns (quotedLine entry) entry.1 (unquoted entry.2) := by
  obtain ⟨letter, tail, name⟩ := writable.exists_head
  let quoted := '"' :: (entry.2.toList ++ ['"'])
  have mark : ∀ item, quoted.getLast? = some item → isBlank item = false := by
    intro item last
    have same : quoted.getLast? = some '"' := by simp [quoted, List.getLast?_cons]
    rw [Option.some.inj (last.symm.trans same)]
    decide
  refine ⟨quotedLine entry, entry.1.toList, quoted, quoted, ?_, ?_, rfl, ?_, ?_, ?_, ?_⟩
  · refine Text.trimmed_self ?_ ?_
    · intro item first
      refine writable.nameEnds item (mem_endLetters.mpr (.inl ?_))
      simpa [quotedLine, name] using first
    · intro item last
      refine mark item ?_
      simpa [quotedLine, quoted, List.getLast?_cons] using last
  · have uncommented := writable.uncommented
    simpa [quotedLine, name] using uncommented
  · intro member
    exact writable.name '=' member (by simp)
  · exact Text.trimmed_self (fun item first => writable.nameEnds item (mem_endLetters.mpr (.inl first)))
      fun item last => writable.nameEnds item (mem_endLetters.mpr (.inr last))
  · refine Text.trimmed_self (fun item first => ?_) mark
    rw [← Option.some.inj (show some '"' = some item from first)]
    decide
  · have quoteMark : isQuoteMark '"' = true := by decide
    have trimmed := (Text.trimmed_trimBoth isQuoteMark entry.2.toList).wrap quoteMark quoteMark
    rwa [unquoted, String.toList_ofList]

theorem not_refused (writable : Writable environment entry) (failure : Failure) :
    ¬ Refused entry.1 (unquoted entry.2) failure := by
  intro refused
  cases failure with
  | embeddedNul =>
      rcases refused with named | valued
      · exact writable.name '\x00' named (by simp)
      · rw [unquoted, String.toList_ofList] at valued
        exact writable.value '\x00' ((Text.trimmed_trimBoth _ _).subset valued) (by simp)
  | emptyName => exact writable.named refused.1
  | undecodable fault => exact refused

theorem firstAssigned_entries (writable : ∀ entry ∈ entries, Writable environment entry)
    (distinct : (entries.map Prod.fst).Nodup) (member : entry ∈ entries) :
    FirstAssigned entry.1 (unquoted entry.2) (entries.map quotedLine) := by
  induction entries with
  | nil => cases member
  | cons other rest ih =>
      rw [List.forall_mem_cons] at writable
      rw [List.map_cons, List.nodup_cons] at distinct
      have assigns := assigns_quotedLine writable.1
      rcases List.mem_cons.mp member with rfl | member
      · exact .here assigns
      · refine .later (fun value again => ?_) (ih writable.2 distinct.2 member)
        have same := (assigns.unique again).1
        exact distinct.1 (same ▸ List.mem_map_of_mem member)

theorem passes_entries (writable : ∀ entry ∈ entries, Writable environment entry) :
    Passes environment (entries.map quotedLine) := by
  rintro before line after failure shape ⟨name, value, assigns, _, _, refused⟩
  have listed : line ∈ entries.map quotedLine := by simp [shape]
  obtain ⟨entry, member, rfl⟩ := List.mem_map.mp listed
  obtain ⟨rfl, rfl⟩ := (assigns_quotedLine (writable entry member)).unique assigns
  exact not_refused (writable entry member) failure refused

theorem mem_names_of_assigned (writable : ∀ entry ∈ entries, Writable environment entry)
    {name value : String} (assigned : FirstAssigned name value (entries.map quotedLine)) :
    name ∈ entries.map Prod.fst := by
  induction entries with
  | nil => cases assigned
  | cons entry rest ih =>
      rw [List.forall_mem_cons] at writable
      cases assigned with
      | here assigns =>
          rw [((assigns_quotedLine writable.1).unique assigns).1]
          exact List.mem_cons_self
      | later _ assigned => exact List.mem_cons_of_mem _ (ih writable.2 assigned)

theorem unquoted_eq_iff (value : String) :
    unquoted value = value ↔
      ∀ letter ∈ endLetters value, letter ≠ '\'' ∧ letter ≠ '"' := by
  have mark (letter : Char) : isQuoteMark letter = false ↔ letter ≠ '\'' ∧ letter ≠ '"' := by
    simp [isQuoteMark]
  have same : unquoted value = value ↔ Trimmed isQuoteMark value.toList value.toList := by
    rw [Text.trimmed_iff, ← String.toList_inj, unquoted, String.toList_ofList]
  simp only [same, ← mark, mem_endLetters]
  constructor
  · rintro trimmed letter (first | last)
    · exact trimmed.first letter first
    · exact trimmed.last letter last
  · intro ends
    exact Text.trimmed_self (fun letter first => ends letter (.inl first))
      fun letter last => ends letter (.inr last)

/-- A file that gives each name a quoted value on a line of its own is loaded whole. Of each value it
leaves what stands between the quote marks at its ends, which is the value itself just if there are
none, whatever else it is made of. -/
theorem quoted_values_kept_iff (writable : ∀ entry ∈ entries, Writable environment entry)
    (distinct : (entries.map Prod.fst).Nodup) (ends : ending ∈ [['\n'], ['\r'], ['\r', '\n']]) :
    ∃ loaded, load environment (Text.Utf8.encode (quotedFile ending entries)) = (loaded, none) ∧
      (∀ entry ∈ entries, ∃ held, loaded.lookup entry.1 = some held ∧
        Trimmed isQuoteMark entry.2.toList held.toList ∧
          (held = entry.2 ↔ ∀ letter ∈ endLetters entry.2, letter ≠ '\'' ∧ letter ≠ '"')) ∧
      ∀ name, name ∉ entries.map Prod.fst → loaded.lookup name = environment.lookup name := by
  have splits := splitsInto_quotedFile writable ends
  have passes := passes_entries writable
  have tells := tells_loadLines environment (entries.map quotedLine)
  rw [load_encode, splits.splitLines_eq]
  rcases loads : loadLines environment (entries.map quotedLine) with ⟨loaded, _ | failure⟩
  · rw [loads] at tells
    have gives := tells.2
    refine ⟨loaded, rfl, fun entry member => ⟨unquoted entry.2, ?_, ?_, ?_⟩, fun name absent => ?_⟩
    · exact (gives _ _).mpr
        (.inr ⟨(writable entry member).unset, firstAssigned_entries writable distinct member⟩)
    · rw [unquoted, String.toList_ofList]
      exact Text.trimmed_trimBoth isQuoteMark _
    · exact unquoted_eq_iff entry.2
    · refine Option.ext fun value => (gives name value).trans (or_iff_left fun assigned => ?_)
      exact absent (mem_names_of_assigned writable assigned.2)
  · rw [loads] at tells
    obtain ⟨before, line, after, shape, _, _, blocked⟩ := tells
    exact absurd blocked (passes before line after failure shape)

/-- An empty value, one with blanks, marks of the file's own and a separator that ends no line, and
one with quote marks of its own at both ends. -/
theorem quoted_values_kept_iff_mixed :
    let environment : Environment := [("HOME", "/root")]
    let entries : Environment := [("EMPTY", ""), ("PAIRS", " a=b #'c'\u2028 "), ("SAID", "'yes\"\"")]
    (∀ entry ∈ entries, Writable environment entry) ∧ (entries.map Prod.fst).Nodup ∧
      ∃ loaded, load environment (Text.Utf8.encode (quotedFile ['\r', '\n'] entries)) =
          (loaded, none) ∧
        loaded.lookup "EMPTY" = some "" ∧ loaded.lookup "PAIRS" = some " a=b #'c'\u2028 " ∧
          loaded.lookup "SAID" = some "yes" := by
  intro environment entries
  have writable : ∀ entry ∈ entries, Writable environment entry := by decide +kernel
  have distinct : (entries.map Prod.fst).Nodup := by decide +kernel
  have ends : ['\r', '\n'] ∈ [['\n'], ['\r'], ['\r', '\n']] := by decide
  obtain ⟨loaded, loads, values, _⟩ := quoted_values_kept_iff writable distinct ends
  obtain ⟨empty, isEmpty, _, keepsEmpty⟩ := values ("EMPTY", "") (by simp [entries])
  obtain ⟨pairs, isPairs, _, keepsPairs⟩ :=
    values ("PAIRS", " a=b #'c'\u2028 ") (by simp [entries])
  obtain ⟨said, isSaid, trimmed, _⟩ := values ("SAID", "'yes\"\"") (by simp [entries])
  refine ⟨writable, distinct, loaded, loads, ?_, ?_, ?_⟩
  · rw [isEmpty, keepsEmpty.mpr (by simp [endLetters])]
  · rw [isPairs, keepsPairs.mpr (by simp [endLetters])]
  · have same : said.toList = "yes".toList := trimmed.trimBoth_eq.symm.trans (by decide +kernel)
    rw [isSaid, String.toList_inj.mp same]

end SteeringChannel.EnvFile
