import SteeringChannel.Proofs.Settings.Lines
import SteeringChannel.Proofs.Settings.Precedence
import SteeringChannel.Proofs.Text.Trim

/-!
What a file says. A name that is set keeps its value, every other one has the value of its first
assignment, and the loading stops at the first line that assigns to a name which is still free and
cannot be set. Loaded once more, the file says the same and changes nothing.
-/

namespace SteeringChannel.EnvFile

open Text (Trimmed isBlank)

/-- A line assigns a value to a name: apart from blanks it is no comment, its first equals sign stands
between the two, and quote marks around the value are no part of it. -/
def Assigns (line : List Char) (name value : String) : Prop :=
  ∃ content left right inner, Trimmed isBlank line content ∧ content.head? ≠ some '#' ∧
    content = left ++ '=' :: right ∧ '=' ∉ left ∧ Trimmed isBlank left name.toList ∧
    Trimmed isBlank right inner ∧ Trimmed isQuoteMark inner value.toList

def Unassigned (lines : List (List Char)) (name : String) : Prop :=
  ∀ line ∈ lines, ∀ value, ¬ Assigns line name value

inductive FirstAssigned (name value : String) : List (List Char) → Prop
  | here {line rest} : Assigns line name value → FirstAssigned name value (line :: rest)
  | later {line rest} : (∀ other, ¬ Assigns line name other) → FirstAssigned name value rest →
      FirstAssigned name value (line :: rest)

variable {environment next loaded : Environment} {line : List Char} {lines rest : List (List Char)}
  {name value : String} {failure : Failure}

theorem assignment?_eq {content : List Char} (trims : Trimmed isBlank line content) :
    assignment? line =
      if content.head? = some '#' ∨ '=' ∉ content then none
      else
        some (Text.strip (content.takeWhile (· != '=')), Text.trimBoth isQuoteMark
          (Text.strip ((content.dropWhile (· != '=')).drop 1))) := by
  rw [← trims.trimBoth_eq]
  simp [assignment?, Text.strip]

theorem assigns_iff :
    Assigns line name value ↔ assignment? line = some (name.toList, value.toList) := by
  constructor
  · rintro ⟨content, left, right, inner, trims, plain, rfl, before, named, valued, quoted⟩
    obtain ⟨start, tail⟩ := Text.cut_at_first before right
    have assigning : ¬ ((left ++ '=' :: right).head? = some '#' ∨ '=' ∉ left ++ '=' :: right) :=
      fun dropped => dropped.elim plain fun absent => absent (by simp)
    rw [assignment?_eq trims, if_neg assigning, start, tail, List.drop_succ_cons, List.drop_zero,
      Text.strip, Text.strip, named.trimBoth_eq, valued.trimBoth_eq,
      quoted.trimBoth_eq]
  · intro assigns
    have trims := Text.trimmed_trimBoth isBlank line
    rw [assignment?_eq trims] at assigns
    split at assigns
    · cases assigns
    next assigning =>
      rw [not_or, not_not] at assigning
      obtain ⟨left, right, same, before⟩ := List.eq_append_cons_of_mem assigning.2
      obtain ⟨start, tail⟩ := Text.cut_at_first before right
      rw [same, start, tail, List.drop_succ_cons, List.drop_zero, Option.some.injEq,
        Prod.mk.injEq] at assigns
      exact ⟨_, left, right, _, trims, assigning.1, same, before, Text.trimmed_iff.mpr assigns.1,
        Text.trimmed_trimBoth isBlank right, Text.trimmed_iff.mpr assigns.2⟩

theorem firstAssigned_cons :
    FirstAssigned name value (line :: rest) ↔
      Assigns line name value ∨
        (∀ other, ¬ Assigns line name other) ∧ FirstAssigned name value rest := by
  constructor
  · intro assigned
    cases assigned with
    | here assigns => exact .inl assigns
    | later free assigned => exact .inr ⟨free, assigned⟩
  · rintro (assigns | ⟨free, assigned⟩)
    · exact .here assigns
    · exact .later free assigned

/-- What an environment has become by some lines: a name has the value that it had, or if it had none,
the one of its first assignment. -/
def Gives (environment : Environment) (lines : List (List Char)) (loaded : Environment) : Prop :=
  ∀ name value, loaded.lookup name = some value ↔ environment.lookup name = some value ∨
    environment.lookup name = none ∧ FirstAssigned name value lines

def Refused (name value : String) : Failure → Prop
  | .embeddedNul => '\x00' ∈ name.toList ∨ '\x00' ∈ value.toList
  | .emptyName => name = "" ∧ '\x00' ∉ value.toList
  | .undecodable _ => False

def Blocked (environment : Environment) (before : List (List Char)) (line : List Char)
    (failure : Failure) : Prop :=
  ∃ name value, Assigns line name value ∧ environment.lookup name = none ∧
    Unassigned before name ∧ Refused name value failure

def Passes (environment : Environment) (lines : List (List Char)) : Prop :=
  ∀ before line after failure, lines = before ++ line :: after →
    ¬ Blocked environment before line failure

/-- An outcome of loading lines: they are loaded all, or those before the first one that is
blocked. -/
def Tells (environment : Environment) (lines : List (List Char)) :
    Environment × Option Failure → Prop
  | (loaded, none) => Passes environment lines ∧ Gives environment lines loaded
  | (loaded, some failure) => ∃ before line after, lines = before ++ line :: after ∧
      Passes environment before ∧ Gives environment before loaded ∧
        Blocked environment before line failure

theorem firstAssigned_single :
    FirstAssigned name value [line] ↔ Assigns line name value :=
  firstAssigned_cons.trans (or_iff_left fun later => nomatch later.2)

theorem tells_nil (environment : Environment) : Tells environment [] (environment, none) := by
  refine ⟨fun before line after failure shape => ?_, fun name value => ?_⟩
  · cases before <;> cases shape
  · exact (or_iff_left fun assigned => nomatch assigned.2).symm

theorem Gives.lookup_eq_none (gives : Gives environment [line] next) (name : String) :
    next.lookup name = none ↔
      environment.lookup name = none ∧ ∀ other, ¬ Assigns line name other := by
  have unset (environment : Environment) :
      environment.lookup name = none ↔ ∀ value, environment.lookup name ≠ some value :=
    Option.eq_none_iff_forall_ne_some
  rw [unset next]
  simp only [ne_eq, gives name, firstAssigned_single, not_or, not_and, forall_and, ← unset]
  exact and_congr_right fun free => forall_congr' fun value => imp_iff_right free

theorem Gives.cons (given : Gives environment [line] next) (gives : Gives next rest loaded) :
    Gives environment (line :: rest) loaded := by
  intro name value
  rw [gives name value, given name value, given.lookup_eq_none name, firstAssigned_single,
    firstAssigned_cons, or_assoc, and_assoc, and_or_left]

theorem blocked_cons (given : Gives environment [line] next) (before : List (List Char))
    (last : List Char) :
    Blocked environment (line :: before) last failure ↔ Blocked next before last failure := by
  simp only [Blocked, given.lookup_eq_none, Unassigned, List.forall_mem_cons, and_assoc]

theorem passes_cons (given : Gives environment [line] next)
    (unblocked : ∀ failure, ¬ Blocked environment [] line failure) (passes : Passes next rest) :
    Passes environment (line :: rest) := by
  intro before last after failure shape
  cases before with
  | nil =>
      obtain ⟨rfl, rfl⟩ := List.cons.inj shape
      exact unblocked failure
  | cons here before =>
      obtain ⟨rfl, rfl⟩ := List.cons.inj shape
      rw [blocked_cons given]
      exact passes before last after failure rfl

theorem Tells.cons (given : Gives environment [line] next)
    (unblocked : ∀ failure, ¬ Blocked environment [] line failure)
    {outcome : Environment × Option Failure} (tells : Tells next rest outcome) :
    Tells environment (line :: rest) outcome := by
  obtain ⟨loaded, _ | failure⟩ := outcome
  · exact ⟨passes_cons given unblocked tells.1, given.cons tells.2⟩
  · obtain ⟨before, last, after, rfl, passes, gives, blocked⟩ := tells
    exact ⟨line :: before, last, after, rfl, passes_cons given unblocked passes, given.cons gives,
      (blocked_cons given before last).mpr blocked⟩

theorem isSet_eq (environment : Environment) (name : String) :
    isSet environment name = (environment.lookup name).isSome := by
  induction environment with
  | nil => rfl
  | cons entry rest ih =>
      rw [isSet, List.any_cons, ← isSet, ih, List.lookup_cons, BEq.comm]
      cases name == entry.1 <;> simp

theorem setVariable_cases (unset : environment.lookup name = none) (value : String) :
    (∃ failure, Refused name value failure ∧
      setVariable environment name.toList value.toList = .error failure) ∨
    (∀ failure, ¬ Refused name value failure) ∧
      setVariable environment name.toList value.toList = .ok (environment ++ [(name, value)]) := by
  have free : isSet environment name = false := by rw [isSet_eq, unset, Option.isSome_none]
  simp only [setVariable, String.ofList_toList, free, Bool.false_eq_true, if_false,
    Bool.or_eq_true, List.contains_iff_mem, List.isEmpty_iff]
  by_cases nul : '\x00' ∈ name.toList ∨ '\x00' ∈ value.toList
  · rw [if_pos nul]
    exact .inl ⟨.embeddedNul, nul, rfl⟩
  · rw [if_neg nul]
    by_cases nameless : name.toList = []
    · rw [if_pos nameless]
      exact .inl ⟨.emptyName, ⟨by simpa using nameless, fun within => nul (.inr within)⟩, rfl⟩
    · rw [if_neg nameless]
      refine .inr ⟨fun failure refused => ?_, rfl⟩
      cases failure with
      | embeddedNul => exact nul refused
      | emptyName => exact nameless (by rw [refused.1]; rfl)
      | undecodable fault => exact refused

theorem loadLines_of_set (set : ∀ name value, Assigns line name value →
    environment.lookup name ≠ none) (rest : List (List Char)) :
    loadLines environment (line :: rest) = loadLines environment rest := by
  rw [loadLines]
  cases assigns : assignment? line with
  | none => rfl
  | some assignment =>
      obtain ⟨name, value⟩ := assignment
      have assigned : Assigns line (String.ofList name) (String.ofList value) :=
        assigns_iff.mpr (by simpa using assigns)
      have taken : isSet environment (String.ofList name) = true := by
        rw [isSet_eq, Option.isSome_iff_ne_none]
        exact set _ _ assigned
      simp only [setVariable_of_set taken]

theorem loadLines_cons (environment : Environment) (line : List Char) (rest : List (List Char)) :
    (∀ name value, Assigns line name value → environment.lookup name ≠ none) ∨
    ∃ name value, Assigns line name value ∧ environment.lookup name = none ∧
      ((∃ failure, Refused name value failure ∧
          loadLines environment (line :: rest) = (environment, some failure)) ∨
        (∀ failure, ¬ Refused name value failure) ∧
          loadLines environment (line :: rest) =
            loadLines (environment ++ [(name, value)]) rest) := by
  by_cases set : ∀ name value, Assigns line name value → environment.lookup name ≠ none
  · exact .inl set
  · simp only [not_forall, not_not] at set
    obtain ⟨name, value, assigns, unset⟩ := set
    refine .inr ⟨name, value, assigns, unset, ?_⟩
    rw [loadLines, assigns_iff.mp assigns]
    rcases setVariable_cases unset value with ⟨failure, refused, sets⟩ | ⟨free, sets⟩
    · exact .inl ⟨failure, refused, by simp only [sets]⟩
    · exact .inr ⟨free, by simp only [sets]⟩

theorem gives_of_set (set : ∀ name value, Assigns line name value →
    environment.lookup name ≠ none) : Gives environment [line] environment := by
  intro name value
  rw [firstAssigned_single]
  exact (or_iff_left fun assigned => set name value assigned.2 assigned.1).symm

theorem Assigns.unique {other : String} {given : String} (assigns : Assigns line name value)
    (again : Assigns line other given) : other = name ∧ given = value := by
  have same := (assigns_iff.mp again).symm.trans (assigns_iff.mp assigns)
  rw [Option.some.injEq, Prod.mk.injEq, String.toList_inj, String.toList_inj] at same
  exact same

theorem gives_of_unset (assigns : Assigns line name value)
    (unset : environment.lookup name = none) :
    Gives environment [line] (environment ++ [(name, value)]) := by
  intro other given
  rw [firstAssigned_single, List.lookup_append, Option.or_eq_some_iff]
  refine or_congr_right (and_congr_right fun _ => ?_)
  rw [List.lookup_cons, List.lookup_nil]
  constructor
  · intro found
    cases same : other == name with
    | false => simp [same] at found
    | true =>
        rw [same] at found
        rwa [beq_iff_eq.mp same, ← Option.some.inj found]
  · intro again
    obtain ⟨rfl, rfl⟩ := assigns.unique again
    rw [beq_self_eq_true]

theorem tells_loadLines (environment : Environment) (lines : List (List Char)) :
    Tells environment lines (loadLines environment lines) := by
  induction lines generalizing environment with
  | nil => exact tells_nil environment
  | cons line rest ih =>
      rcases loadLines_cons environment line rest with
        set | ⟨name, value, assigns, unset, ⟨failure, refused, loads⟩ | ⟨free, loads⟩⟩
      · rw [loadLines_of_set set]
        refine (ih environment).cons (gives_of_set set) ?_
        rintro failure ⟨name, value, assigns, unset, _⟩
        exact set name value assigns unset
      · rw [loads]
        have nothing := tells_nil environment
        exact ⟨[], line, rest, rfl, nothing.1, nothing.2, name, value, assigns, unset,
          fun _ member => (nomatch member), refused⟩
      · rw [loads]
        refine (ih _).cons (gives_of_unset assigns unset) ?_
        rintro failure ⟨other, given, again, _, _, refused⟩
        obtain ⟨rfl, rfl⟩ := assigns.unique again
        exact free failure refused

theorem lookup_prefix {more : Environment} (set : environment.lookup name ≠ none) :
    (environment ++ more).lookup name ≠ none := by
  rw [List.lookup_append, ne_eq, Option.or_eq_none_iff]
  exact fun none => set none.1

theorem loadLines_extends (environment : Environment) (lines : List (List Char)) :
    ∃ more, (loadLines environment lines).1 = environment ++ more := by
  induction lines generalizing environment with
  | nil => exact ⟨[], (List.append_nil _).symm⟩
  | cons line rest ih =>
      rcases loadLines_cons environment line rest with
        set | ⟨name, value, _, _, ⟨failure, _, loads⟩ | ⟨_, loads⟩⟩
      · rw [loadLines_of_set set]
        exact ih environment
      · rw [loads]
        exact ⟨[], (List.append_nil _).symm⟩
      · obtain ⟨more, shape⟩ := ih (environment ++ [(name, value)])
        rw [loads, shape, List.append_assoc]
        exact ⟨_, rfl⟩

theorem loadLines_again (environment : Environment) (lines : List (List Char)) :
    loadLines (loadLines environment lines).1 lines = loadLines environment lines := by
  induction lines generalizing environment with
  | nil => rfl
  | cons line rest ih =>
      rcases loadLines_cons environment line rest with
        set | ⟨name, value, assigns, unset, ⟨failure, _, loads⟩ | ⟨_, loads⟩⟩
      · obtain ⟨more, shape⟩ := loadLines_extends environment rest
        rw [loadLines_of_set set, loadLines_of_set, ih]
        intro name value assigns
        rw [shape]
        exact lookup_prefix (set name value assigns)
      · rw [loads, loads]
      · obtain ⟨more, shape⟩ := loadLines_extends (environment ++ [(name, value)]) rest
        rw [loads, loadLines_of_set, ih]
        intro other given again
        obtain ⟨rfl, rfl⟩ := assigns.unique again
        rw [shape]
        refine lookup_prefix ?_
        rw [List.lookup_append]
        simp

theorem load_encode (environment : Environment) (text : List Char) :
    load environment (Text.Utf8.encode text) = loadLines environment (splitLines text) := by
  rw [load, readLines_encode]
  dsimp only
  split
  next loads => exact loads.symm
  next loads => exact loads.symm

/-- Whatever a text says, the environment it leaves is that of its lines, all of them or those before
the first one that is blocked, and to load it again there makes no difference. -/
theorem first_assignment_wins (environment : Environment) {text : List Char}
    {lines : List (List Char)} (splits : SplitsInto text lines) :
    let bytes := Text.Utf8.encode text
    Tells environment lines (load environment bytes) ∧
      load (load environment bytes).1 bytes = load environment bytes := by
  intro bytes
  obtain rfl := splits.splitLines_eq
  simp only [bytes, load_encode]
  exact ⟨tells_loadLines environment _, loadLines_again environment _⟩

/-- Lines of all three endings: what was set stays, the first of two assignments counts, and a line
without a name ends the loading, this time and the next. -/
theorem first_assignment_wins_until_blocked :
    let environment : Environment := [("HOME", "/root")]
    let text := "HOME=/tmp\r\n A = ' x '\r#B=1\nA=y\n=z\nB=2".toList
    let lines := ["HOME=/tmp", " A = ' x '", "#B=1", "A=y", "=z", "B=2"].map String.toList
    let loaded : Environment := [("HOME", "/root"), ("A", " x ")]
    SplitsInto text lines ∧
      load environment (Text.Utf8.encode text) = (loaded, some .emptyName) ∧
      load loaded (Text.Utf8.encode text) = (loaded, some .emptyName) := by
  intro environment text lines loaded
  have splits : SplitsInto text lines := splitsInto_iff.mpr (by decide +kernel)
  have loads : load environment (Text.Utf8.encode text) = (loaded, some .emptyName) := by
    decide +kernel
  have again := (first_assignment_wins environment splits).2
  rw [loads] at again
  exact ⟨splits, loads, again⟩

end SteeringChannel.EnvFile
