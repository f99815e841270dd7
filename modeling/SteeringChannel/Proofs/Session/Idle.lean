import SteeringChannel.Proofs.Server.Expiry
import SteeringChannel.Proofs.Server.Shutdown
import SteeringChannel.Proofs.Session.Course
import SteeringChannel.Proofs.Session.Share

/-!
Idle connections. The connection that the loop reads has always waited less than the time limit
since it was handed over or since its last byte, and the first jump of the clock after which it has
not gives it up, and nothing else.
-/

namespace SteeringChannel.Session

variable {σ : Type} [Outlet σ] {session : Session σ} {index : Nat} {server : Server σ}

theorem rests_perform (rests : server.Rests) (found : session.server? index = some server)
    (task : Nat) {request : Step} (allowed : request.keepsTo Server.alone session index task) :
    ∃ later, (session.perform task request).1.server? index = some later ∧ later.Rests ∧
      later.timeout = server.timeout := by
  have runs : session.Runs index Server.alone server :=
    ⟨server, found, ⟨[], .still⟩, rests.settled⟩
  obtain ⟨later, there, ⟨moves, run⟩, settled⟩ := runs.perform rests.coherent task allowed
  refine ⟨later, there, ?_, run.policy.2⟩
  refine ⟨run.coherent rests.coherent, run.looped rests.coherent rests.looped, settled,
    run.heeded rests.heeded, fun stopped id => ?_⟩
  obtain ⟨same, also, stops⟩ := stopped_perform found task request
  obtain rfl : later = same := Option.some.inj (there.symm.trans also)
  rcases stops.mp stopped with already | rfl
  · rw [← Bool.not_eq_true]
    intro opened
    have before := run.isOpen rests.coherent already opened
    exact nomatch (rests.quenched already id).symm.trans before
  · obtain rfl : server.stop.reported = later :=
      Option.some.inj ((server?_stop found).symm.trans there)
    obtain ⟨closes, _⟩ := rests.settled.run_stop Server.anybody rests.coherent
    refine closes.closes_all rests.coherent (fun other opened => ?_) id
    exact List.mem_append_left _ (List.mem_map_of_mem opened)

theorem passes_perform (rests : server.Rests) (found : session.server? index = some server)
    (task : Nat) {request : Step} (still : ∀ seconds, request ≠ .advance seconds) :
    ∃ later, (session.perform task request).1.server? index = some later ∧
      server.Passes session.now later := by
  by_cases stops : request = .stop index
  · subst stops
    have stops := rests.settled.passes_stop rests.coherent session.now
    exact ⟨_, server?_stop found, stops.trans (.one .report trivial trivial)⟩
  · obtain ⟨_, operations, asked, shares⟩ := shares_perform session task still
    rw [found, Option.map_some] at shares
    refine ⟨_, shares, server.passes_operateAll session.now ?_ ?_⟩
    · rintro operation member rfl
      exact stops (asked .stop member)
    · rintro operation member arrival rfl
      exact asked (.arrive arrival) member

omit [Outlet σ] in
theorem now_foldl_onServer {α : Type} (entries : List (Nat × α))
    (change : α → Server σ → Server σ) (session : Session σ) :
    (entries.foldl (fun session entry => session.onServer entry.1 (change entry.2)) session).now =
      session.now := by
  induction entries generalizing session with
  | nil => rfl
  | cons entry rest ih => exact (ih _).trans (now_onServer ..)

theorem now_advance (session : Session σ) (seconds : Rat) :
    (session.advance seconds).now = session.now + seconds := by
  simp only [advance]
  rw [now_foldl_onServer _ fun handler server => server.leaveExpired _ handler,
    now_foldl_onServer _ fun handler server => server.expire _ handler]

omit [Outlet σ] in
theorem records_onServer (session : Session σ) (changed : Nat) (change : Server σ → Server σ) :
    session.records <+: (session.onServer changed change).records := by
  simp only [onServer]
  split
  · exact List.prefix_rfl
  · exact List.prefix_append _ _

omit [Outlet σ] in
theorem records_foldl_onServer {α : Type} (entries : List (Nat × α))
    (change : α → Server σ → Server σ) (session : Session σ) :
    session.records <+: (entries.foldl (fun session entry =>
      session.onServer entry.1 (change entry.2)) session).records := by
  induction entries generalizing session with
  | nil => exact List.prefix_rfl
  | cons entry rest ih => exact (records_onServer ..).trans (ih _)

omit [Outlet σ] in
theorem mem_records_foldl {α : Type} {entries : List (Nat × α)} {item : α}
    (change : α → Server σ → Server σ) (found : session.server? index = some server)
    (only : (entries.filter fun entry => entry.1 == index).map Prod.snd = [item])
    {record : Journal.Record} (written : record ∈ (change item server).records) :
    record ∈ (entries.foldl (fun session entry =>
      session.onServer entry.1 (change entry.2)) session).records := by
  induction entries generalizing session with
  | nil => simp at only
  | cons entry rest ih =>
      rw [List.foldl_cons]
      by_cases same : entry.1 = index
      · refine (records_foldl_onServer rest change _).subset ?_
        obtain rfl : entry.2 = item := by simpa [same] using congrArg List.head? only
        simp only [onServer]
        rw [same, found]
        exact List.mem_append_right _ written
      · refine ih ?_ (by simpa [same] using only)
        rw [server?_onServer, if_neg same, found]

theorem advance_early (found : session.server? index = some server) {seconds : Rat}
    (early : ∀ handler ∈ server.handlers,
      server.isDue (session.now + seconds) handler = false) :
    (session.advance seconds).server? index = some server := by
  have nobody : session.dueAt index (session.now + seconds) = [] := by
    have none : server.handlers.filter (server.isDue (session.now + seconds)) = [] :=
      List.filter_eq_nil_iff.mpr fun handler reads => by simp [early handler reads]
    exact List.Perm.eq_nil (none ▸ dueAt_perm found _)
  rw [server?_advance, nobody, found]
  rfl

theorem advance_late (rests : server.Rests) (found : session.server? index = some server)
    {handler : Handler} (reads : handler ∈ server.handlers) {seconds : Rat}
    (due : server.isDue (session.now + seconds) handler = true) :
    ∃ later, (session.advance seconds).server? index = some later ∧
      server.GivesUp (session.now + seconds) handler.connection later ∧
      server.idleRecord handler.connection ∈ (session.advance seconds).records := by
  have only : session.dueAt index (session.now + seconds) = [handler] := by
    have single : server.handlers.filter (server.isDue (session.now + seconds)) = [handler] := by
      simp [(rests.looped.handlers_eq reads).2, due]
    exact List.perm_singleton.mp (single ▸ dueAt_perm found _)
  refine ⟨_, ?_, rests.givesUp reads _, ?_⟩
  · rw [server?_advance, only, found, Option.map_some]
  · simp only [advance]
    refine (records_foldl_onServer _ (fun handler server => server.leaveExpired _ handler) _).subset
      (mem_records_foldl (fun handler server => server.expire _ handler) ?_ only
        (server.idleRecord_mem_expire _ handler))
    exact found

/-- The moment of the last step that brought a connection further: it was handed over then, or a
byte of it was read. -/
def stirred (session : Session σ) (index id number : Nat) (last : Option Rat) :
    List Step → Option Rat
  | [] => last
  | request :: rest =>
      let next := (session.step number request).1
      let progress (session : Session σ) := (session.server? index).map (·.progress id)
      next.stirred index id (number + 1)
        (if progress next = progress session then last else some next.now) rest

def Timed (session : Session σ) (server : Server σ) (id : Nat) (last : Option Rat) : Prop :=
  ∀ handler ∈ server.handlers, handler.connection = id →
    last = some handler.since ∧ server.isDue session.now handler = false

theorem timed_advance (rests : server.Rests) (found : session.server? index = some server)
    {id : Nat} {last : Option Rat} (timed : session.Timed server id last) {seconds : Rat}
    {later : Server σ} (there : (session.advance seconds).server? index = some later)
    (rested : later.Rests) :
    (session.advance seconds).Timed later id
      (if later.progress id = server.progress id then last
        else some (session.advance seconds).now) := by
  rintro handler reads rfl
  rw [now_advance]
  by_cases early : ∀ handler ∈ server.handlers,
      server.isDue (session.now + seconds) handler = false
  · obtain rfl : server = later := Option.some.inj ((advance_early found early).symm.trans there)
    rw [if_pos rfl]
    exact ⟨(timed handler reads rfl).1, early handler reads⟩
  -- The loop has given up the one it read, so whoever is read now has just been handed over.
  · simp only [not_forall, Bool.not_eq_false] at early
    obtain ⟨reader, waits, due⟩ := early
    obtain ⟨same, also, gives, _⟩ := advance_late rests found waits due
    obtain rfl : later = same := Option.some.inj (there.symm.trans also)
    obtain ⟨queued, since⟩ := gives.anew handler reads
    have unaccepted : handler.connection ∉ server.accepted := fun past =>
      Nat.lt_irrefl _ ((List.pairwise_append.mp rests.coherent.ordered).2.2 _ past _ queued)
    have accepted := rested.coherent.handled_accepted (List.mem_map_of_mem reads)
    rw [if_neg (by simp [Server.progress, unaccepted, accepted]), since]
    exact ⟨rfl, Server.isDue_of_since (rested.reads reads).2.waits since⟩

theorem timed_passes (rests : server.Rests) {id : Nat} {last : Option Rat}
    (timed : session.Timed server id last) {next : Session σ} (now : next.now = session.now)
    {later : Server σ} (passes : server.Passes session.now later) (rested : later.Rests)
    (timeout : later.timeout = server.timeout) :
    next.Timed later id
      (if later.progress id = server.progress id then last else some next.now) := by
  rintro handler reads rfl
  rw [now]
  rcases (passes.paced rests.coherent).progress rests.coherent rested.coherent reads with
    ⟨waits, same⟩ | ⟨since, new⟩
  · rw [if_pos same, Server.isDue_congr timeout]
    exact timed handler waits rfl
  · rw [if_neg new, since]
    exact ⟨rfl, Server.isDue_of_since (rested.reads reads).2.waits since⟩

theorem timed_perform (rests : server.Rests) (found : session.server? index = some server)
    {id : Nat} {last : Option Rat} (timed : session.Timed server id last) (task : Nat)
    {request : Step} (allowed : request.keepsTo Server.alone session index task) :
    ∃ later, (session.perform task request).1.server? index = some later ∧ later.Rests ∧
      later.timeout = server.timeout ∧
      (session.perform task request).1.Timed later id
        (if later.progress id = server.progress id then last
          else some (session.perform task request).1.now) := by
  obtain ⟨later, there, rested, timeout⟩ := rests_perform rests found task allowed
  refine ⟨later, there, rested, timeout, ?_⟩
  by_cases clock : ∃ seconds, request = .advance seconds
  · obtain ⟨seconds, rfl⟩ := clock
    exact timed_advance rests found timed there rested
  · have still (seconds : Rat) : request ≠ .advance seconds := fun same => clock ⟨seconds, same⟩
    obtain ⟨same, also, passes⟩ := passes_perform rests found task still
    obtain rfl : later = same := Option.some.inj (there.symm.trans also)
    have shares : session.Shares (session.perform task request).1 index _ :=
      shares_perform session task still
    exact timed_passes rests timed shares.1 passes rested timeout

theorem timed_run (rests : server.Rests) (found : session.server? index = some server)
    {id : Nat} {last : Option Rat} (timed : session.Timed server id last) (number : Nat)
    {requests : List Step} (allowed : session.keepsTo Server.alone index number requests) :
    ∃ later, (session.run number requests).1.server? index = some later ∧ later.Rests ∧
      later.timeout = server.timeout ∧
      (session.run number requests).1.Timed later id
        (session.stirred index id number last requests) := by
  induction requests generalizing session server number last with
  | nil => exact ⟨server, found, rests, rfl, timed⟩
  | cons request rest ih =>
      obtain ⟨now, after⟩ := allowed
      have cleared : ({ session with records := [], finished := [] } : Session σ).server? index =
        some server := found
      have before : Timed { session with records := [], finished := [] } server id last := timed
      obtain ⟨middle, there, rested, same, step⟩ :=
        timed_perform rests cleared before number now.cleared
      obtain ⟨later, ends, goes, timeout, waits⟩ := ih rested there step (number + 1) after
      replace there : (session.step number request).1.server? index = some middle := there
      refine ⟨later, ends, goes, timeout.trans same, ?_⟩
      simp only [stirred, there, found, Option.map_some, Option.some.injEq]
      exact waits

/-- Whatever the steps of a session with one loop are, the connection that the loop reads has waited
less than the time limit, since it was handed over or since its last byte. It is given up with the
first jump of the clock that lets it wait as long as the limit, and by no other step; nobody else is
given up then, and whoever is handed over then waits from that moment on. Without a limit no jump of
the clock closes anything. -/
theorem gives_up_when_idle {first : Server σ} (fresh : first.Fresh) {period : Option Binary64}
    (timeout : first.timeout = Server.limitTimeout period)
    (found : session.server? index = some first) (number : Nat) {requests : List Step}
    (allowed : session.keepsTo Server.alone index number requests) :
    let last := (session.run number requests).1
    ∃ server, last.server? index = some server ∧ server.handlers.length ≤ 1 ∧
      ((∀ value ∈ period, value.isZero = true ∨ value = .infinite false) →
        ∀ task seconds, (last.step task (.advance seconds)).1.server? index = some server) ∧
      ∀ value ∈ period, ∀ limit, value.toRat? = some limit → 0 < limit →
        (server.handlers = [] → ∀ task seconds,
          (last.step task (.advance seconds)).1.server? index = some server) ∧
        ∀ handler ∈ server.handlers, ∃ since,
          session.stirred index handler.connection number none requests = some since ∧
          last.now - since < limit ∧
          (∀ task seconds, last.now + seconds - since < limit →
            (last.step task (.advance seconds)).1.server? index = some server) ∧
          (∀ task seconds, limit ≤ last.now + seconds - since →
            ∃ later, (last.step task (.advance seconds)).1.server? index = some later ∧
              server.GivesUp (last.now + seconds) handler.connection later ∧
              server.idleRecord handler.connection ∈
                (last.step task (.advance seconds)).2.records) ∧
          ∀ task request, (∀ seconds, request ≠ .advance seconds) →
            request.keepsTo Server.alone last index task →
              ∃ later, (last.step task request).1.server? index = some later ∧
                (later.isOpen handler.connection = true ∨ later.ReadOut handler.connection ∨
                  later.stopped = true) := by
  intro last
  have untimed (id : Nat) : session.Timed first id none := by
    rw [fresh]
    exact fun handler reads => absurd reads List.not_mem_nil
  obtain ⟨server, there, rests, same, _⟩ := timed_run fresh.rests found (untimed 0) number allowed
  replace same : server.timeout = Server.limitTimeout period := same.trans timeout
  have cleared : ({ last with records := [], finished := [] } : Session σ).server? index =
    some server := there
  refine ⟨server, there, ?_, fun unlimited task seconds => ?_, fun value given limit reads positive =>
    ⟨fun idle task seconds => ?_, fun handler handles => ?_⟩⟩
  · exact (Nat.le_add_left _ _).trans rests.looped.single
  · exact advance_early cleared fun handler _ =>
      Server.isDue_of_unlimited (Server.limit_eq_none same unlimited) _ handler
  · exact advance_early cleared (by simp [idle])
  · obtain rfl := Option.mem_def.mp given
    have limited := Server.limit_eq_some same reads positive
    obtain ⟨later, also, _, _, timed⟩ :=
      timed_run fresh.rests found (untimed handler.connection) number allowed
    obtain rfl : server = later := Option.some.inj (there.symm.trans also)
    obtain ⟨stirred, early⟩ := timed handler handles rfl
    have only (other : Handler) (member : other ∈ server.handlers) : other = handler := by
      rw [(rests.looped.handlers_eq handles).2] at member
      exact List.mem_singleton.mp member
    refine ⟨handler.since, stirred, ?_, fun task seconds soon => ?_, fun task seconds late => ?_,
      fun task request still allowed => ?_⟩
    · rw [← not_le, ← Server.isDue_iff limited, early]
      exact Bool.false_ne_true
    · refine advance_early cleared fun other member => ?_
      rw [only other member, ← Bool.not_eq_true, Server.isDue_iff limited, not_le]
      exact soon
    · exact advance_late rests cleared handles ((Server.isDue_iff limited _ _).mpr late)
    · obtain ⟨later, after, passes⟩ := passes_perform rests cleared task still
      obtain ⟨_, awaits⟩ := rests.reads handles
      refine ⟨later, after, passes.lasting rests.coherent ⟨awaits.waits, ?_⟩ awaits.isOpen⟩
      exact fun other member _ => only other member ▸ early

set_option maxRecDepth 8000 in
/-- A client is read at once and sends no more: it is closed after two seconds, not after one. -/
theorem gives_up_when_idle_after_two_seconds :
    let two : Binary64 := .finite false 4503599627370496 (-51)
    let first : Server Recorder := { path := "s", timeout := some two }
    let session : Session Recorder := { modeFailure := some 1, servers := [first] }
    let requests : List Step := [.listen 0, .start 0 .serve, .inject 0 [0x50] none false]
    let last := (session.run 0 requests).1
    first.Fresh ∧ first.timeout = Server.limitTimeout (some two) ∧
      session.server? 0 = some first ∧ session.keepsTo Server.alone 0 0 requests ∧
      two.toRat? = some 2 ∧ session.stirred 0 1 0 none requests = some 0 ∧
      ∃ server later, last.server? 0 = some server ∧ server.isOpen 1 = true ∧
        (last.step 3 (.advance 1)).1.server? 0 = some server ∧
        (last.step 3 (.advance 2)).1.server? 0 = some later ∧ later.isOpen 1 = false ∧
        server.idleRecord 1 ∈ (last.step 3 (.advance 2)).2.records := by
  intro two first session requests last
  have fresh : first.Fresh := rfl
  have timeout : first.timeout = Server.limitTimeout (some two) := by decide
  have limit : two.toRat? = some 2 := by decide +kernel
  have found : session.server? 0 = some first := rfl
  have listens : (session.step 0 (.listen 0)).1.server? 0 = some first.listen ∧
      (session.step 0 (.listen 0)).1.now = 0 := by
    simp only [session, first]
    constructor <;> decide
  clear_value session
  let opened := (session.step 0 (.listen 0)).1
  let waiting := (opened.step 1 (.start 0 .serve)).1
  let server := ((first.listen.startTask 0 1 .serve).reported.arrive 0
    { id := 0, unread := [0x50], scripted := true, task := some 2 }).reported
  have waits : waiting.server? 0 = some (first.listen.startTask 0 1 .serve).reported ∧
      waiting.now = 0 := by
    refine ⟨(server?_onServer ..).trans ?_, (now_onServer ..).trans listens.2⟩
    rw [if_pos rfl]
    change (opened.server? 0).map (fun server =>
      (server.startTask opened.now 1 .serve).reported) = _
    rw [listens.1, listens.2, Option.map_some]
  have reads : last.server? 0 = some server ∧ last.now = 0 := by
    refine ⟨(server?_onServer ..).trans ?_, (now_onServer ..).trans waits.2⟩
    rw [if_pos rfl]
    change (waiting.server? 0).map (fun server => (server.arrive waiting.now
      { id := 0, unread := [0x50], scripted := true, task := some 2 }).reported) = _
    rw [waits.1, waits.2, Option.map_some]
  have stirs : session.stirred 0 1 0 none requests = some 0 := by
    simp only [stirred, requests]
    refine (if_neg ?_).trans (congrArg some reads.2)
    change (last.server? 0).map (·.progress 1) ≠ (waiting.server? 0).map (·.progress 1)
    rw [reads.1, waits.1]
    decide +kernel
  have allowed : session.keepsTo Server.alone 0 0 requests := by
    refine ⟨trivial, fun _ server there => ?_, trivial, trivial⟩
    obtain rfl := Option.some.inj (listens.1.symm.trans there)
    exact ⟨rfl, rfl, rfl⟩
  obtain ⟨later, there, _, _, limited⟩ := gives_up_when_idle fresh timeout found 0 allowed
  obtain rfl : server = later := Option.some.inj (reads.1.symm.trans there)
  have handles : (⟨1, true, 1, 0⟩ : Handler) ∈ server.handlers := by decide +kernel
  obtain ⟨_, waited⟩ := limited two rfl 2 limit (by norm_num)
  obtain ⟨since, same, _, early, late, _⟩ := waited _ handles
  obtain rfl : 0 = since := Option.some.inj (stirs.symm.trans same)
  have clock : (session.run 0 requests).1.now = 0 := reads.2
  have soon := early 3 1 (by rw [clock]; norm_num)
  obtain ⟨later, closed, gives, written⟩ := late 3 2 (by rw [clock]; norm_num)
  exact ⟨fresh, timeout, found, allowed, limit, stirs, server, later, reads.1, by decide +kernel,
    soon, closed, gives.closed, written⟩

end SteeringChannel.Session
