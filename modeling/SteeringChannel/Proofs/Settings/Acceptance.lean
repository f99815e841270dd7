import SteeringChannel.Assembly
import SteeringChannel.Proofs.Settings.Numeral
import SteeringChannel.Proofs.Settings.Precedence

/-!
What becomes of settings that are accepted. A server can always be assembled from them, with a store
in range and a read timeout that is above zero or absent, and whatever lies outside is refused,
however it is written.
-/

namespace SteeringChannel.Settings

open Binary64 (halfLeast)

variable {environment : Environment} {overrides : List (String × Value)} {settings : Settings}
  {field : Field} {given : Value} {fault : Fault}

def Refused (built : Except (List FieldFault) Settings) (field : Field) (fault : Fault) : Prop :=
  ∃ faults, built = .error faults ∧ ⟨field.name, fault⟩ ∈ faults

theorem ruling_of_source (sourced : source environment overrides field = some given) :
    ruling environment overrides field = accept field given := by
  rw [ruling, sourced]

theorem name_injective : Function.Injective Field.name := by
  intro field other same
  cases field <;> cases other <;> first | rfl | exact absurd same (by decide)

theorem not_mem_unknownNames (overrides : List (String × Value)) (field : Field) (fault : Fault) :
    ⟨field.name, fault⟩ ∉ unknownNames overrides := by
  intro member
  obtain ⟨entry, member, same⟩ := List.mem_map.mp member
  have unknown := (List.mem_filter.mp member).2
  rw [Bool.not_eq_true', List.any_eq_false] at unknown
  have named : entry.1 = field.name := congrArg FieldFault.name same
  exact unknown field (mem_all field) (beq_iff_eq.mpr named.symm)

theorem mem_flaws {field : Field} : ⟨field.name, fault⟩ ∈
    Field.all.filterMap (flaw? environment overrides) ↔
      ruling environment overrides field = .error fault := by
  constructor
  · intro member
    obtain ⟨other, _, flawed⟩ := List.mem_filterMap.mp member
    rw [flaw?] at flawed
    split at flawed
    next => cases flawed
    next ruled =>
      obtain ⟨named, rfl⟩ := FieldFault.mk.inj (Option.some.inj flawed)
      rw [← name_injective named, ruled]
  · intro ruled
    exact List.mem_filterMap.mpr ⟨field, mem_all field, flaw?_of_error ruled⟩

theorem refused_iff_ruling :
    Refused (build environment overrides) field fault ↔
      ruling environment overrides field = .error fault := by
  constructor
  · rintro ⟨faults, built, listed⟩
    rw [faults_of_build built, List.mem_append] at listed
    exact mem_flaws.mp (listed.resolve_right (not_mem_unknownNames overrides field fault))
  · intro ruled
    cases built : build environment overrides with
    | ok settings =>
        rw [ruling_of_build built] at ruled
        cases ruled
    | error faults =>
        refine ⟨faults, rfl, ?_⟩
        rw [faults_of_build built]
        exact List.mem_append_left _ (mem_flaws.mpr ruled)

theorem refused_iff {α : Type} {read : Except Fault α} {put : α → Value}
    (sourced : source environment overrides field = some given)
    (reads : accept field given = read.map put) :
    Refused (build environment overrides) field fault ↔ read = .error fault := by
  rw [refused_iff_ruling, ruling_of_source sourced, reads]
  cases read with
  | error found => rw [Except.map, Except.error.injEq, Except.error.injEq]
  | ok found => exact iff_of_false nofun nofun

theorem value_given {α : Type} {read : Except Fault α} {put : α → Value}
    (built : build environment overrides = .ok settings)
    (sourced : source environment overrides field = some given)
    (reads : accept field given = read.map put) :
    ∃ found, read = .ok found ∧ put found = settings.value field :=
  exists_of_map <| reads.symm.trans <|
    (ruling_of_source sourced).symm.trans (ruling_of_build built field)

theorem value_default (built : build environment overrides = .ok settings)
    (unsourced : source environment overrides field = none) :
    settings.value field = ({} : Settings).value field := by
  have ruled := ruling_of_build built field
  rw [ruling, unsourced] at ruled
  exact (Except.ok.inj ruled).symm

theorem accept_initialValue (given : Value) :
    accept .initialValue given = (asByte given).map .whole := by
  rw [accept, assign]
  cases asByte given <;> rfl

theorem initialValue_given (built : build environment overrides = .ok settings)
    (sourced : source environment overrides .initialValue = some given) :
    asByte given = .ok settings.initialValue := by
  obtain ⟨whole, reads, same⟩ := value_given built sourced (accept_initialValue given)
  obtain rfl := Value.whole.inj same
  exact reads

theorem asByte_ok {whole : Int} (reads : asByte given = .ok whole) :
    asWhole given = .ok whole ∧ 0 ≤ whole ∧ whole ≤ 255 := by
  rw [asByte] at reads
  split at reads
  next found read =>
    split_ifs at reads with below above
    obtain rfl := Except.ok.inj reads
    exact ⟨read, Int.not_lt.mp below, Int.not_lt.mp above⟩
  next => cases reads

theorem asByte_of_whole {whole : Int} (reads : asWhole given = .ok whole) :
    asByte given = if whole < 0 then .error (.below 0)
      else if 255 < whole then .error (.above 255) else .ok whole := by
  rw [asByte, reads]

theorem initialValue_in_range (built : build environment overrides = .ok settings) :
    0 ≤ settings.initialValue ∧ settings.initialValue ≤ 255 := by
  cases sourced : source environment overrides .initialValue with
  | none =>
      have default : settings.initialValue = 0 := Value.whole.inj (value_default built sourced)
      rw [default]
      decide
  | some given => exact (asByte_ok (initialValue_given built sourced)).2

theorem initialValue_of_denotes {text : String} {number : ℚ}
    (built : build environment overrides = .ok settings)
    (sourced : source environment overrides .initialValue = some (.text text))
    (denotes : Denotes text.toList number) : (settings.initialValue : ℚ) = number := by
  obtain ⟨reads, _⟩ := asByte_ok (initialValue_given built sourced)
  exact (readWhole_denotes reads).unique denotes

theorem accept_readTimeoutSeconds (given : Value) :
    accept .readTimeoutSeconds given = (asDuration given).map .real := by
  rw [accept, assign]
  cases asDuration given <;> rfl

theorem readTimeoutSeconds_given (built : build environment overrides = .ok settings)
    (sourced : source environment overrides .readTimeoutSeconds = some given) :
    asDuration given = .ok settings.readTimeoutSeconds := by
  obtain ⟨float, reads, same⟩ := value_given built sourced (accept_readTimeoutSeconds given)
  obtain rfl := Value.real.inj same
  exact reads

theorem asDuration_ok {float : Binary64} (reads : asDuration given = .ok float) :
    asNumber given = .ok float ∧ float.isNonnegative = true := by
  rw [asDuration] at reads
  split at reads
  next found read =>
    split_ifs at reads with counts
    obtain rfl := Except.ok.inj reads
    exact ⟨read, counts⟩
  next => cases reads

theorem asDuration_of_float {float : Binary64} (reads : asNumber given = .ok float) :
    asDuration given = if float.isNonnegative then .ok float else .error (.below 0) := by
  rw [asDuration, reads]

theorem readTimeoutSeconds_nonnegative (built : build environment overrides = .ok settings) :
    settings.readTimeoutSeconds.isNonnegative = true := by
  cases sourced : source environment overrides .readTimeoutSeconds with
  | none =>
      have default : settings.readTimeoutSeconds = .zero false :=
        Value.real.inj (value_default built sourced)
      rw [default]
      rfl
  | some given => exact (asDuration_ok (readTimeoutSeconds_given built sourced)).2

theorem readTimeout_above_zero (built : build environment overrides = .ok settings)
    {limit : Binary64} (limited : settings.readTimeout = some limit) :
    limit.isZero = false ∧ ∃ number, limit.number? = some number ∧ 0 < number := by
  rw [readTimeout] at limited
  split_ifs at limited with none
  obtain rfl := Option.some.inj limited
  refine ⟨Bool.eq_false_iff.mpr none, ?_⟩
  obtain ⟨number, found, counts⟩ :=
    Binary64.isNonnegative_iff.mp (readTimeoutSeconds_nonnegative built)
  refine ⟨number, found, counts.lt_of_ne fun zero => none ?_⟩
  exact Binary64.isZero_iff.mpr (zero ▸ found)

theorem readTimeout_of_denotes {text : String} {number : ℚ}
    (built : build environment overrides = .ok settings)
    (sourced : source environment overrides .readTimeoutSeconds = some (.text text))
    (denotes : Denotes text.toList number) :
    -halfLeast ≤ number ∧ (settings.readTimeout = none ↔ |number| ≤ halfLeast) := by
  obtain ⟨reads, counts⟩ := asDuration_ok (readTimeoutSeconds_given built sourced)
  obtain ⟨negative, size, above, rfl, rounds⟩ := readNumber_rounds denotes reads
  refine ⟨(rounds.isNonnegative_iff_le above).mp counts, ?_⟩
  rw [← rounds.isZero_iff above, readTimeout]
  split_ifs with zero <;> simp [zero]

theorem initialValue_refused_iff {whole : Int}
    (sourced : source environment overrides .initialValue = some given)
    (reads : asWhole given = .ok whole) :
    (Refused (build environment overrides) .initialValue (.below 0) ↔ whole < 0) ∧
      (Refused (build environment overrides) .initialValue (.above 255) ↔ 255 < whole) := by
  rw [refused_iff sourced (accept_initialValue given),
    refused_iff sourced (accept_initialValue given), asByte_of_whole reads]
  split_ifs with below above
  · simp [below, (below.trans (by decide : (0 : Int) < 255)).le]
  · simp [below, above]
  · simp [below, above]

theorem readTimeout_refused_iff {float : Binary64}
    (sourced : source environment overrides .readTimeoutSeconds = some given)
    (reads : asNumber given = .ok float) :
    Refused (build environment overrides) .readTimeoutSeconds (.below 0) ↔
      ¬∃ number, float.number? = some number ∧ 0 ≤ number := by
  rw [refused_iff sourced (accept_readTimeoutSeconds given), asDuration_of_float reads,
    ← Binary64.isNonnegative_iff]
  split_ifs with counts <;> simp [counts]

theorem initialValue_refused_outside {text : String} {number : ℚ}
    (sourced : source environment overrides .initialValue = some (.text text))
    (denotes : Denotes text.toList number) (outside : number < 0 ∨ 255 < number) :
    ∃ fault, Refused (build environment overrides) .initialValue fault := by
  cases read : asByte (.text text) with
  | error fault => exact ⟨fault, (refused_iff sourced (accept_initialValue _)).mpr read⟩
  | ok whole =>
      obtain ⟨reads, least, most⟩ := asByte_ok read
      obtain rfl : (whole : ℚ) = number := (readWhole_denotes reads).unique denotes
      have above : (0 : ℚ) ≤ whole := mod_cast least
      have below : (whole : ℚ) ≤ 255 := mod_cast most
      exact absurd outside (not_or.mpr ⟨above.not_gt, below.not_gt⟩)

theorem readTimeout_refused_below {text : String} {number : ℚ}
    (sourced : source environment overrides .readTimeoutSeconds = some (.text text))
    (denotes : Denotes text.toList number) (below : number < -halfLeast) :
    ∃ fault, Refused (build environment overrides) .readTimeoutSeconds fault := by
  cases read : asDuration (.text text) with
  | error fault => exact ⟨fault, (refused_iff sourced (accept_readTimeoutSeconds _)).mpr read⟩
  | ok float =>
      obtain ⟨reads, counts⟩ := asDuration_ok read
      obtain ⟨negative, size, above, rfl, rounds⟩ := readNumber_rounds denotes reads
      exact absurd below ((rounds.isNonnegative_iff_le above).mp counts).not_gt

theorem assemble_accepted (built : build environment overrides = .ok settings)
    (device : Relay.Device) :
    Server.assemble settings device = .ok (.ofSettings settings
      { store := ⟨settings.initialState, 0⟩, outlet := settings.relay? device }) := by
  have created : Store.create settings.initialState = .ok ⟨settings.initialState, 0⟩ :=
    if_pos (initialValue_in_range built)
  rw [Server.assemble, created]
  rfl

/-- What a server has that was assembled from accepted settings. -/
structure Ready (settings : Settings) (server : Server Relay) : Prop where
  state : server.dispatcher.store.state = ⟨false, some settings.initialValue⟩
  applied : server.dispatcher.store.applied = 0
  range : 0 ≤ settings.initialValue ∧ settings.initialValue ≤ 255
  timeout : Server.limitTimeout server.timeout = server.timeout
  limit : ∀ limit ∈ server.timeout, ∃ number, limit.number? = some number ∧ 0 < number

theorem ready_assembled (built : build environment overrides = .ok settings)
    (device : Relay.Device) :
    ∃ server, Server.assemble settings device = .ok server ∧ Ready settings server := by
  refine ⟨_, assemble_accepted built device, rfl, rfl, initialValue_in_range built, ?_, ?_⟩
  · change Server.limitTimeout settings.readTimeout = settings.readTimeout
    cases limited : settings.readTimeout with
    | none => rfl
    | some limit => simp [Server.limitTimeout, (readTimeout_above_zero built limited).1]
  · intro limit limited
    exact (readTimeout_above_zero built limited).2

/-- Accepted settings make a server whose store starts stopped and in range, and whose reads wait
without a limit or for some time. An initial value is refused for its size just if it is out of
range, and a read timeout just if it is below zero or no number, however either is written. A
numeral that rounds to zero sets no limit, whatever its sign. -/
theorem accepts_only_what_runs (environment : Environment) (overrides : List (String × Value)) :
    let built := build environment overrides
    (∀ settings, built = .ok settings →
      ∀ device, ∃ server, Server.assemble settings device = .ok server ∧ Ready settings server) ∧
    (∀ given, source environment overrides .initialValue = some given →
      (∀ whole, asWhole given = .ok whole →
        (Refused built .initialValue (.below 0) ↔ whole < 0) ∧
        (Refused built .initialValue (.above 255) ↔ 255 < whole)) ∧
      ∀ text number, given = .text text → Denotes text.toList number →
        (number < 0 ∨ 255 < number → ∃ fault, Refused built .initialValue fault) ∧
        ∀ settings, built = .ok settings → settings.initialValue = number) ∧
    ∀ given, source environment overrides .readTimeoutSeconds = some given →
      (∀ float, asNumber given = .ok float →
        (Refused built .readTimeoutSeconds (.below 0) ↔
          ¬∃ number, float.number? = some number ∧ 0 ≤ number)) ∧
      ∀ text number, given = .text text → Denotes text.toList number →
        (number < -halfLeast → ∃ fault, Refused built .readTimeoutSeconds fault) ∧
        ∀ settings, built = .ok settings →
          (settings.readTimeout = none ↔ |number| ≤ halfLeast) := by
  intro built
  refine ⟨fun settings => ready_assembled, fun given sourced => ⟨?_, ?_⟩,
    fun given sourced => ⟨?_, ?_⟩⟩
  · intro whole reads
    exact initialValue_refused_iff sourced reads
  · rintro text number rfl denotes
    exact ⟨initialValue_refused_outside sourced denotes,
      fun settings built => initialValue_of_denotes built sourced denotes⟩
  · intro float reads
    exact readTimeout_refused_iff sourced reads
  · rintro text number rfl denotes
    exact ⟨readTimeout_refused_below sourced denotes,
      fun settings built => (readTimeout_of_denotes built sourced denotes).2⟩

/-- One environment is accepted, with blanks, signs and underscores; one has no number for a
timeout, and one has a timeout below zero. -/
theorem accepts_only_what_runs_spelled :
    let accepted : Environment :=
      [("SWI_CONTROL_INITIAL_VALUE", "+1_00.0"), ("swi_control_read_timeout_seconds", " 5e-1 ")]
    let settings : Settings :=
      { initialValue := 100, readTimeoutSeconds := .ofDecimal false 5 (-1) }
    let unknown : Environment := [("SWI_CONTROL_READ_TIMEOUT_SECONDS", "NaN")]
    let negative : Environment := [("SWI_CONTROL_READ_TIMEOUT_SECONDS", "-1_0e-1")]
    build accepted [] = .ok settings ∧
      (∀ device, ∃ server, Server.assemble settings device = .ok server ∧ Ready settings server) ∧
      Refused (build unknown []) .readTimeoutSeconds (.below 0) ∧
      Denotes "-1_0e-1".toList (-1) ∧ (-1 : ℚ) < -halfLeast ∧
      ∃ fault, Refused (build negative []) .readTimeoutSeconds fault := by
  intro accepted settings unknown negative
  have built : build accepted [] = .ok settings := by decide +kernel
  have sourced : source unknown [] .readTimeoutSeconds = some (.text "NaN") := rfl
  have denotes : Denotes "-1_0e-1".toList (-1) := by
    have power : Power "e-1".toList (-1) :=
      .mark (.inl rfl) .minus (List.all_eq_true.mp rfl) (List.cons_ne_nil '1' [])
    have size : Size (['1', '0'] ++ ([] ++ "e-1".toList)) 10 (-1) :=
      Size.parts (List.all_eq_true.mp rfl) .absent power (List.cons_ne_nil '1' ['0'])
    exact ⟨true, 10, -1, ⟨['-'], _, .minus, rfl, size⟩, by norm_num [Binary64.signed]⟩
  have below : (-1 : ℚ) < -halfLeast := neg_lt_neg Binary64.halfLeast_lt_one
  refine ⟨built, (accepts_only_what_runs accepted []).1 settings built, ?_, denotes, below, ?_⟩
  · refine (((accepts_only_what_runs unknown []).2.2 _ sourced).1 .nan rfl).mpr ?_
    rintro ⟨number, found, _⟩
    cases found
  · exact (((accepts_only_what_runs negative []).2.2 _ rfl).2 _ _ rfl denotes).1 below

end SteeringChannel.Settings
