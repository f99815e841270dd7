import SteeringChannel.Settings.EnvFile

/-!
Which source of a setting wins. A file leaves every variable alone that is set under the very name
it assigns to. It can still add another spelling of that name, and of two spellings the one that was
set last counts, so a setting that was supplied is kept unless the file spells it differently.
-/

namespace SteeringChannel

namespace EnvFile

/-- What a file adds to the variables: of the names that are not set, each with its first value. -/
def additions (environment : Environment) : List (List Char × List Char) → Environment
  | [] => []
  | (name, value) :: rest =>
      if isSet environment (String.ofList name) then additions environment rest
      else
        (String.ofList name, String.ofList value) ::
          additions (environment ++ [(String.ofList name, String.ofList value)]) rest

theorem isSet_append (environment more : Environment) (name : String) :
    isSet (environment ++ more) name = (isSet environment name || isSet more name) :=
  List.any_append

theorem additions_unset (assignments : List (List Char × List Char)) :
    ∀ environment, ∀ entry ∈ additions environment assignments,
      isSet environment entry.1 = false := by
  induction assignments with
  | nil => intro environment entry member; cases member
  | cons assignment rest ih =>
      intro environment entry member
      rw [additions] at member
      split at member
      · exact ih environment entry member
      next unset =>
        rcases List.mem_cons.mp member with rfl | later
        · exact Bool.eq_false_iff.mpr unset
        · have free := ih _ entry later
          rw [isSet_append, Bool.or_eq_false_iff] at free
          exact free.1

theorem setVariable_of_set {environment : Environment} {name : List Char}
    (set : isSet environment (String.ofList name) = true) (value : List Char) :
    setVariable environment name value = .ok environment := if_pos set

theorem setVariable_of_unset {environment extended : Environment} {name value : List Char}
    (unset : isSet environment (String.ofList name) = false)
    (sets : setVariable environment name value = .ok extended) :
    extended = environment ++ [(String.ofList name, String.ofList value)] := by
  simp only [setVariable, unset, Bool.false_eq_true, if_false] at sets
  split at sets
  · cases sets
  · split at sets
    · cases sets
    · exact (Except.ok.inj sets).symm

theorem loadLines_eq (lines : List (List Char)) :
    ∀ environment loaded, loadLines environment lines = (loaded, none) →
      loaded = environment ++ additions environment (lines.filterMap assignment?) := by
  induction lines with
  | nil =>
      intro environment loaded loads
      simpa [additions] using (Prod.mk.inj loads).1.symm
  | cons line rest ih =>
      intro environment loaded loads
      rw [loadLines] at loads
      cases assigns : assignment? line with
      | none =>
          rw [assigns] at loads
          rw [List.filterMap_cons_none assigns]
          exact ih environment loaded loads
      | some assignment =>
          obtain ⟨name, value⟩ := assignment
          simp only [assigns] at loads
          rw [List.filterMap_cons_some assigns, additions]
          cases set : isSet environment (String.ofList name) with
          | true =>
              rw [setVariable_of_set set] at loads
              exact ih environment loaded loads
          | false =>
              cases sets : setVariable environment name value with
              | error failure => simp [sets] at loads
              | ok extended =>
                  obtain rfl := setVariable_of_unset set sets
                  simp only [sets] at loads
                  simpa using ih _ loaded loads

theorem load_eq {environment loaded : Environment} {bytes : List UInt8}
    (loads : load environment bytes = (loaded, none)) :
    loaded = environment ++
      additions environment ((readLines bytes).1.filterMap assignment?) := by
  simp only [load] at loads
  split at loads
  · cases loads
  next lines =>
    obtain ⟨rfl, _⟩ := Prod.mk.inj loads
    exact loadLines_eq _ _ _ lines

end EnvFile

namespace Settings

def value (settings : Settings) : Field → Value
  | .socketPath => .text settings.socketPath
  | .socketMode => .whole settings.socketMode
  | .readTimeoutSeconds => .real settings.readTimeoutSeconds
  | .rejectConcurrent => .flag settings.rejectConcurrent
  | .initialValue => .whole settings.initialValue
  | .relayDevice => .text settings.relayDevice
  | .relayBaudrate => .whole settings.relayBaudrate
  | .logFile => .text settings.logFile
  | .logColor => .flag settings.logColor

def judge (field : Field) (text : String) : Except Fault Value :=
  (assign {} field (.text text)).map fun settings => settings.value field

/-- What an environment says of a field; one that does not name it leaves the default. -/
def verdict (environment : Environment) (field : Field) : Except Fault Value :=
  match fromEnvironment environment field with
  | none => .ok (({} : Settings).value field)
  | some text => judge field text

def faultIn? (environment : Environment) (field : Field) : Option FieldFault :=
  match verdict environment field with
  | .ok _ => none
  | .error fault => some ⟨field.name, fault⟩

def Reports (environment : Environment) : Except (List FieldFault) Settings → Prop
  | .ok settings => ∀ field, verdict environment field = .ok (settings.value field)
  | .error faults => faults = Field.all.filterMap (faultIn? environment)

theorem exists_of_map {α β : Type} {read : Except Fault α} {put : α → β} {result : β}
    (puts : read.map put = .ok result) : ∃ found, read = .ok found ∧ put found = result := by
  cases read with
  | error fault => cases puts
  | ok found => exact ⟨found, rfl, Except.ok.inj puts⟩

theorem assign_other {settings assigned : Settings} {field other : Field} {given : Value}
    (assigns : settings.assign field given = .ok assigned) (differs : other ≠ field) :
    assigned.value other = settings.value other := by
  cases field <;> obtain ⟨found, _, rfl⟩ := exists_of_map assigns <;> cases other <;>
    first | rfl | exact absurd rfl differs

theorem map_map_congr {α β : Type} (read : Except Fault α) {first second : α → Settings}
    {view : Settings → β} (same : ∀ found, view (first found) = view (second found)) :
    (read.map first).map view = (read.map second).map view := by
  cases read with
  | error fault => rfl
  | ok found => exact congrArg Except.ok (same found)

def accept (field : Field) (given : Value) : Except Fault Value :=
  (assign {} field given).map fun settings => settings.value field

/-- What all sources together say of a field. -/
def ruling (environment : Environment) (overrides : List (String × Value)) (field : Field) :
    Except Fault Value :=
  match source environment overrides field with
  | none => .ok (({} : Settings).value field)
  | some given => accept field given

def flaw? (environment : Environment) (overrides : List (String × Value)) (field : Field) :
    Option FieldFault :=
  match ruling environment overrides field with
  | .ok _ => none
  | .error fault => some ⟨field.name, fault⟩

theorem ruling_nil (environment : Environment) :
    ruling environment [] = verdict environment := by
  funext field
  rw [ruling, source, verdict]
  cases fromEnvironment environment field <;> rfl

theorem flaw?_nil (environment : Environment) : flaw? environment [] = faultIn? environment := by
  funext field
  rw [flaw?, faultIn?, ruling_nil]

variable {environment : Environment} {overrides : List (String × Value)}

theorem assign_value (settings : Settings) (field : Field) (given : Value) :
    (settings.assign field given).map (fun assigned => assigned.value field) =
      accept field given := by
  cases field <;> exact map_map_congr _ fun _ => rfl

/-- Loading one field more either reports its fault or gives it what the sources say, and leaves
the other fields to the rest. -/
theorem load_cons (environment : Environment) (overrides : List (String × Value)) (field : Field)
    (rest : List Field) (settings : Settings)
    (default : settings.value field = ({} : Settings).value field) :
    ∃ next : Settings,
      (∀ other, other ≠ field → next.value other = settings.value other) ∧
        (∀ found, ruling environment overrides field = .ok found → next.value field = found) ∧
        load environment overrides (field :: rest) settings =
          ((load environment overrides rest next).1,
            (flaw? environment overrides field).toList ++
              (load environment overrides rest next).2) := by
  simp only [load, flaw?, ruling]
  cases source environment overrides field with
  | none =>
      refine ⟨settings, fun _ _ => rfl, ?_, rfl⟩
      intro found valued
      exact default.trans (Except.ok.inj valued)
  | some given =>
      have value := assign_value settings field given
      cases assigns : settings.assign field given with
      | ok assigned =>
          rw [assigns] at value
          refine ⟨assigned, fun other differs => assign_other assigns differs, ?_, ?_⟩
          · intro found valued
            exact Except.ok.inj (value.trans valued)
          · simp only [assigns, ← value]
            rfl
      | error fault =>
          rw [assigns] at value
          refine ⟨settings, fun _ _ => rfl, ?_, ?_⟩
          · intro found valued
            cases value.trans valued
          · simp only [assigns, ← value]
            rfl

theorem load_rulings (environment : Environment) (overrides : List (String × Value)) :
    ∀ (fields : List Field) (settings : Settings), fields.Nodup →
      (∀ field ∈ fields, settings.value field = ({} : Settings).value field) →
      (load environment overrides fields settings).2 =
          fields.filterMap (flaw? environment overrides) ∧
        (∀ field ∉ fields,
          (load environment overrides fields settings).1.value field = settings.value field) ∧
        ∀ field ∈ fields, ∀ found, ruling environment overrides field = .ok found →
          (load environment overrides fields settings).1.value field = found := by
  intro fields
  induction fields with
  | nil =>
      intro settings _ _
      exact ⟨rfl, fun _ _ => rfl, fun field member => by cases member⟩
  | cons field rest ih =>
      intro settings distinct defaults
      obtain ⟨unloaded, distinct⟩ := List.nodup_cons.mp distinct
      obtain ⟨next, kept, given, loads⟩ := load_cons environment overrides field rest settings
        (defaults field List.mem_cons_self)
      have differs {other : Field} (member : other ∈ rest) : other ≠ field :=
        fun same => unloaded (same ▸ member)
      obtain ⟨faults, others, values⟩ := ih next distinct fun other member =>
        (kept other (differs member)).trans (defaults other (List.mem_cons_of_mem field member))
      rw [loads]
      refine ⟨?_, ?_, ?_⟩
      · rw [faults]
        cases fault : flaw? environment overrides field with
        | none => exact (List.filterMap_cons_none fault).symm
        | some fault' => exact (List.filterMap_cons_some fault).symm
      · intro other absent
        obtain ⟨differs, absent⟩ := List.ne_and_not_mem_of_not_mem_cons absent
        exact (others other absent).trans (kept other differs)
      · intro other member found valued
        rcases List.mem_cons.mp member with rfl | member
        · exact (others other unloaded).trans (given found valued)
        · exact values other member found valued

theorem mem_all (field : Field) : field ∈ Field.all := by
  cases field <;> decide

theorem flaw?_of_error {field : Field} {fault : Fault}
    (ruled : ruling environment overrides field = .error fault) :
    flaw? environment overrides field = some ⟨field.name, fault⟩ := by
  rw [flaw?, ruled]

theorem ruling_of_build {settings : Settings} (built : build environment overrides = .ok settings)
    (field : Field) : ruling environment overrides field = .ok (settings.value field) := by
  obtain ⟨faults, -, values⟩ :=
    load_rulings environment overrides Field.all {} (by decide) fun _ _ => rfl
  simp only [build] at built
  split at built
  next none =>
    obtain rfl := Except.ok.inj built
    cases ruled : ruling environment overrides field with
    | ok found => rw [values field (mem_all field) found ruled]
    | error fault =>
        have listed := List.mem_filterMap.mpr ⟨field, mem_all field, flaw?_of_error ruled⟩
        rw [← faults, (List.append_eq_nil_iff.mp none).1] at listed
        cases listed
  next => cases built

theorem faults_of_build {faults : List FieldFault}
    (built : build environment overrides = .error faults) :
    faults = Field.all.filterMap (flaw? environment overrides) ++ unknownNames overrides := by
  obtain ⟨loaded, -, -⟩ :=
    load_rulings environment overrides Field.all {} (by decide) fun _ _ => rfl
  simp only [build] at built
  split at built
  · cases built
  · obtain rfl := Except.error.inj built
    rw [loaded]

theorem build_reports (environment : Environment) :
    Reports environment (build environment []) := by
  cases built : build environment [] with
  | ok settings =>
      intro field
      rw [← ruling_nil, ruling_of_build built]
  | error faults =>
      have listed := faults_of_build built
      rw [flaw?_nil] at listed
      exact listed.trans (List.append_nil _)

theorem fromEnvironment_append (first second : Environment) (field : Field) :
    fromEnvironment (first ++ second) field =
      (fromEnvironment second field).or (fromEnvironment first field) := by
  simp only [fromEnvironment, List.reverse_append, List.find?_append]
  cases List.find? _ second.reverse <;> rfl

theorem fromEnvironment_of_mem {environment : Environment} {field : Field}
    (supplied : ∃ entry ∈ environment, lowerName entry.1 = field.variableName.toList) :
    ∃ text, fromEnvironment environment field = some text := by
  obtain ⟨entry, member, named⟩ := supplied
  cases found : fromEnvironment environment field with
  | some text => exact ⟨text, rfl⟩
  | none =>
      rw [fromEnvironment, Option.map_eq_none_iff, List.find?_eq_none] at found
      exact absurd (beq_iff_eq.mpr named) (found entry (List.mem_reverse.mpr member))

/-- A file adds nothing under a name that is set. A setting that was supplied stays what it was
just when the last other spelling of its variable that the file adds, if it adds one, says the
same. -/
theorem supplied_stays_iff {environment loaded : Environment} {bytes : List UInt8} {field : Field}
    (loads : EnvFile.load environment bytes = (loaded, none))
    (supplied : ∃ entry ∈ environment, lowerName entry.1 = field.variableName.toList) :
    let added := EnvFile.additions environment
      ((EnvFile.readLines bytes).1.filterMap EnvFile.assignment?)
    Reports environment (build environment []) ∧ Reports loaded (build loaded []) ∧
      loaded = environment ++ added ∧
      (∀ entry ∈ added, EnvFile.isSet environment entry.1 = false) ∧
      (verdict loaded field = verdict environment field ↔
        ∀ text, fromEnvironment added field = some text →
          judge field text = verdict environment field) := by
  intro added
  have split : loaded = environment ++ added := EnvFile.load_eq loads
  refine ⟨build_reports environment, build_reports loaded, split,
    EnvFile.additions_unset _ environment, ?_⟩
  obtain ⟨kept, named⟩ := fromEnvironment_of_mem supplied
  simp only [verdict, split, fromEnvironment_append, named]
  cases respelled : fromEnvironment added field with
  | none => simp
  | some text => simp

/-- Both assign to the same name, so what was supplied stays. -/
theorem supplied_stays_iff_same_name :
    let environment : Environment := [("SWI_CONTROL_RELAY_DEVICE", "/dev/ttyAMA3")]
    let bytes := "SWI_CONTROL_RELAY_DEVICE=/dev/ttyS0\nSWI_CONTROL_LOG_COLOR=off\n".toUTF8.toList
    let loaded : Environment := environment ++ [("SWI_CONTROL_LOG_COLOR", "off")]
    EnvFile.load environment bytes = (loaded, none) ∧
      (∃ entry ∈ environment, lowerName entry.1 = Field.relayDevice.variableName.toList) ∧
      verdict loaded .relayDevice = verdict environment .relayDevice := by
  intro environment bytes loaded
  have loads : EnvFile.load environment bytes = (loaded, none) := by decide +kernel
  have supplied : ∃ entry ∈ environment,
      lowerName entry.1 = Field.relayDevice.variableName.toList := by decide +kernel
  refine ⟨loads, supplied, ?_⟩
  refine (supplied_stays_iff loads supplied).2.2.2.2.mpr ?_
  have respelled : fromEnvironment (EnvFile.additions environment
      ((EnvFile.readLines bytes).1.filterMap EnvFile.assignment?)) .relayDevice = none := by
    decide +kernel
  simp [respelled]

/-- A file that spells the name as it is documented replaces what was supplied in small letters. -/
theorem supplied_replaced :
    let environment : Environment := [("swi_control_initial_value", "5")]
    let bytes := "SWI_CONTROL_INITIAL_VALUE=7\n".toUTF8.toList
    let loaded : Environment := environment ++ [("SWI_CONTROL_INITIAL_VALUE", "7")]
    EnvFile.load environment bytes = (loaded, none) ∧
      (∃ entry ∈ environment, lowerName entry.1 = Field.initialValue.variableName.toList) ∧
      build environment [] = .ok { initialValue := 5 } ∧
      build loaded [] = .ok { initialValue := 7 } ∧
      verdict loaded .initialValue ≠ verdict environment .initialValue := by
  refine ⟨by decide +kernel, by decide +kernel, rfl, rfl, ?_⟩
  intro same
  have before : verdict [("swi_control_initial_value", "5")] .initialValue = .ok (.whole 5) := rfl
  rw [before] at same
  cases same

end Settings
end SteeringChannel
