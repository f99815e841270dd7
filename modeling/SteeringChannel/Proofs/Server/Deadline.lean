import Mathlib.Data.List.Nodup
import SteeringChannel.Proofs.Server.Settled

/-!
Handlers whose time is over. First every connection that is due is closed, then every task that has
not left by then leaves; in between the queue may already have moved on.
-/

namespace SteeringChannel.Server

variable {σ : Type} {server other : Server σ}

theorem Coherent.handler_unique (coherent : server.Coherent) {first second : Handler}
    (reads : first ∈ server.handlers) (also : second ∈ server.handlers)
    (same : first.connection = second.connection) : first = second :=
  List.inj_on_of_nodup_map coherent.distinct reads also same

theorem mem_leave (server : Server σ) {handler leaving : Handler} (reads : handler ∈ server.handlers)
    (different : handler.connection ≠ leaving.connection) :
    handler ∈ (server.leave leaving).handlers := by
  rw [handlers_leave]
  exact List.mem_filter.mpr ⟨reads, by simpa using different⟩

theorem mem_consume [Outlet σ] {handler : Handler} (reads : handler ∈ server.handlers) {id : Nat}
    (different : handler.connection ≠ id) (now : Rat) (bytes : List UInt8) :
    handler ∈ (server.consume now id bytes).handlers := by
  rw [consume_eq]
  dsimp only
  split
  · exact reads
  · exact List.mem_map.mpr ⟨handler, reads, by simp [different]⟩

theorem mem_readIfHandled [Outlet σ] {handler : Handler} (reads : handler ∈ server.handlers)
    {id : Nat} (different : handler.connection ≠ id) (now : Rat) :
    handler ∈ (server.readIfHandled now id).handlers := by
  simp only [readIfHandled]
  split
  next reader present =>
    obtain ⟨_, rfl⟩ := handler?_mem present
    have ended {server : Server σ} (reads : handler ∈ server.handlers) (record : Journal.Record) :
        handler ∈ (server.endHandling reader record).handlers :=
      mem_leave (server.dismiss reader.connection record) reads different
    cases found : server.connection? reader.connection with
    | none => simpa [read, found] using reads
    | some connection =>
        have consumed := mem_consume reads different now connection.unread
        rcases read_cases now found with ⟨_, shape⟩ | ⟨_, _, _, shape⟩ | ⟨_, _, shape⟩
        · rw [shape]
          exact ended reads _
        · rw [shape]
          exact ended consumed _
        · rw [shape]
          exact consumed
  next => exact reads

theorem mem_settleFirst [Outlet σ] (coherent : server.Coherent) {handler : Handler}
    (reads : handler ∈ server.handlers) (now : Rat) :
    handler ∈ (server.settleFirst now).handlers := by
  simp only [settleFirst]
  split
  next id rest waiter others queue waiters =>
    have different : handler.connection ≠ id := by
      rintro rfl
      exact coherent.handled_unqueued (List.mem_map_of_mem reads) (by simp [queue])
    refine mem_readIfHandled ?_ different now
    simp only [handFirst]
    rw [queue, waiters]
    exact List.mem_append_left _ reads
  next => exact reads

theorem mem_settle [Outlet σ] (coherent : server.Coherent) {handler : Handler}
    (reads : handler ∈ server.handlers) (now : Rat) : handler ∈ (server.settle now).handlers := by
  simp only [settle]
  generalize server.queue = steps
  induction steps generalizing server with
  | nil => exact reads
  | cons _ rest ih =>
      exact ih ((server.reaches_settleFirst now).coherent coherent)
        (mem_settleFirst coherent reads now)

variable {excepted : Handler → Prop} {handler : Handler}

theorem Coherent.endHandling (coherent : server.Coherent) (reads : handler ∈ server.handlers)
    (record : Journal.Record) : (server.endHandling handler record).Coherent := by
  have handled := List.mem_map_of_mem (f := Handler.connection) reads
  refine (coherent.dismiss handled record).leave reads ?_
  rw [isOpen_dismiss, if_pos rfl]

theorem mem_expire [Outlet σ] (coherent : server.Coherent) (due : handler ∈ server.handlers)
    {waiting : Handler} (reads : waiting ∈ server.handlers)
    (different : waiting.connection ≠ handler.connection) (now : Rat) :
    waiting ∈ (server.expire now handler).handlers := by
  simp only [expire]
  split
  next =>
    split
    · exact mem_settle (coherent.endHandling due _)
        (mem_leave (server.dismiss handler.connection _) reads different) now
    · exact reads
  next => exact reads

theorem isOpen_expire [Outlet σ] (coherent : server.Coherent) (due : handler ∈ server.handlers)
    (now : Rat) : handler.connection < (server.expire now handler).nextId ∧
      (server.expire now handler).isOpen handler.connection = false := by
  have handled := List.mem_map_of_mem (f := Handler.connection) due
  have shut (record : Journal.Record) :
      handler.connection < (server.dismiss handler.connection record).nextId ∧
        (server.dismiss handler.connection record).isOpen handler.connection = false := by
    refine ⟨?_, by rw [isOpen_dismiss, if_pos rfl]⟩
    have earlier := coherent.numbered.lt_nextId (coherent.handling _ handled)
    exact (nextId_update handler.connection _).symm ▸ earlier
  simp only [expire]
  split
  next =>
    split
    · have left := coherent.endHandling due (server.idleRecord handler.connection)
      have same := sameStream_leave (server.dismiss handler.connection
        (server.idleRecord handler.connection)) handler handler.connection
      exact (reaches_settle _ now).closed left (same.nextId.symm ▸ (shut _).1)
        (same.isOpen.trans (shut _).2)
    · exact shut _
  next => exact shut _

theorem Resting.expire [Outlet σ] (resting : server.Resting excepted) (coherent : server.Coherent)
    (due : handler ∈ server.handlers) (out : excepted handler) (now : Rat) :
    (server.expire now handler).Resting excepted := by
  have dismissed (record : Journal.Record) :=
    resting.attentive.dismiss handler.connection record
  simp only [Server.expire]
  split
  next =>
    split
    · exact resting_settle (dismissed _).leave (coherent.endHandling due _) now
    · refine ⟨(dismissed _).mono fun waiting reads either => Or.inl ?_, resting.calm⟩
      exact either.elim (fun same => coherent.handler_unique due reads same.symm ▸ out) id
  next =>
    refine ⟨(dismissed _).mono fun waiting reads either => Or.inl ?_, resting.calm⟩
    exact either.elim (fun same => coherent.handler_unique due reads same.symm ▸ out) id

theorem Resting.leaveExpired [Outlet σ] (coherent : server.Coherent)
    (resting : server.Resting fun waiting => waiting = handler ∨ excepted waiting)
    (closed : server.isOpen handler.connection = false) (now : Rat) :
    (server.leaveExpired now handler).Resting excepted := by
  simp only [Server.leaveExpired]
  split
  next present =>
    replace present := List.contains_iff_mem.mp present
    refine resting_settle (Attentive.leave ?_) (coherent.leave present closed) now
    exact resting.attentive.mono fun waiting _ either => Or.inl (either.imp_left (congrArg Handler.connection))
  next absent =>
    refine ⟨resting.attentive.mono fun waiting reads either => Or.inl ?_, resting.calm⟩
    refine either.resolve_left fun same => absent ?_
    exact List.contains_iff_mem.mpr (same ▸ reads)

theorem Resting.reported (resting : server.Resting excepted) :
    server.reported.Resting excepted := by
  refine ⟨⟨fun waiting reads => ?_, resting.attentive.drained⟩, resting.calm⟩
  refine (resting.attentive.awaits waiting reads).imp_right fun awaits => ?_
  exact awaits.elsewhere rfl rfl rfl rfl

theorem isDue_congr (timeout : other.timeout = server.timeout) (now : Rat) (handler : Handler) :
    other.isDue now handler = server.isDue now handler := by
  simp only [isDue, deadline?, limit]
  rw [timeout]

def expireAll [Outlet σ] (server : Server σ) (now : Rat) (due : List Handler) : Server σ :=
  due.foldl (fun server handler => (server.expire now handler).reported) server

def leaveAll [Outlet σ] (server : Server σ) (now : Rat) (due : List Handler) : Server σ :=
  due.foldl (fun server handler => (server.leaveExpired now handler).reported) server

theorem stopped_expireAll [Outlet σ] (server : Server σ) (now : Rat) (due : List Handler) :
    (server.expireAll now due).stopped = server.stopped := by
  induction due generalizing server with
  | nil => rfl
  | cons handler rest ih =>
      refine (ih (server.expire now handler).reported).trans ?_
      change (server.expire now handler).stopped = server.stopped
      simp only [expire]
      split
      · split
        · exact (works_settle _ now).lifecycle.2.trans (stopped_leave _ handler)
        · rfl
      · rfl

theorem stopped_leaveAll [Outlet σ] (server : Server σ) (now : Rat) (due : List Handler) :
    (server.leaveAll now due).stopped = server.stopped := by
  induction due generalizing server with
  | nil => rfl
  | cons handler rest ih =>
      refine (ih (server.leaveExpired now handler).reported).trans ?_
      change (server.leaveExpired now handler).stopped = server.stopped
      simp only [leaveExpired]
      split
      · exact (works_settle _ now).lifecycle.2.trans (stopped_leave server handler)
      · rfl

theorem reaches_reported [Outlet σ] (server : Server σ) : server.Reaches server.reported :=
  Reaches.one .report trivial trivial

theorem Resting.expireAll [Outlet σ] {now : Rat} {due : List Handler}
    (resting : server.Resting excepted) (coherent : server.Coherent)
    (reads : ∀ handler ∈ due, handler ∈ server.handlers)
    (late : ∀ handler ∈ due, server.isDue now handler = true)
    (out : ∀ handler ∈ due, excepted handler)
    (distinct : due.Pairwise fun first second => second.connection ≠ first.connection) :
    server.Reaches (server.expireAll now due) ∧ (server.expireAll now due).Resting excepted ∧
      ∀ handler ∈ due, handler.connection < (server.expireAll now due).nextId ∧
        (server.expireAll now due).isOpen handler.connection = false := by
  induction due generalizing server with
  | nil => exact ⟨Reaches.refl server, resting, by simp⟩
  | cons handler rest ih =>
      obtain ⟨different, distinct⟩ := List.pairwise_cons.mp distinct
      have present := reads handler List.mem_cons_self
      have reaches : server.Reaches (server.expire now handler).reported :=
        (reaches_expire present (late handler List.mem_cons_self)).trans (reaches_reported _)
      have coherent' := reaches.coherent coherent
      -- The others read other connections, so they are still there and still late.
      obtain ⟨last, rests, closed⟩ := ih
        (resting.expire coherent present (out handler List.mem_cons_self) now).reported coherent'
        (fun later member => mem_expire coherent present
          (reads later (List.mem_cons_of_mem handler member)) (different later member) now)
        (fun later member => (isDue_congr reaches.policy.2 now later).trans
          (late later (List.mem_cons_of_mem handler member)))
        (fun later member => out later (List.mem_cons_of_mem handler member)) distinct
      refine ⟨reaches.trans last, rests, fun later member => ?_⟩
      rcases List.mem_cons.mp member with rfl | member
      · obtain ⟨earlier, shut⟩ := isOpen_expire coherent present now
        exact last.closed coherent' earlier shut
      · exact closed later member

theorem Resting.leaveAll [Outlet σ] {now : Rat} {due : List Handler}
    (resting : server.Resting fun handler => handler ∈ due) (coherent : server.Coherent)
    (closed : ∀ handler ∈ due, handler.connection < server.nextId ∧
      server.isOpen handler.connection = false) :
    server.Reaches (server.leaveAll now due) ∧ (server.leaveAll now due).Settled := by
  induction due generalizing server with
  | nil =>
      refine ⟨Reaches.refl server, resting.attentive.mono fun handler _ member => ?_, resting.calm⟩
      simp at member
  | cons handler rest ih =>
      have shut := closed handler List.mem_cons_self
      have reaches : server.Reaches (server.leaveExpired now handler).reported :=
        (reaches_leaveExpired now fun _ => shut.2).trans (reaches_reported _)
      have left : (server.leaveExpired now handler).Resting fun waiting => waiting ∈ rest := by
        refine Resting.leaveExpired coherent ⟨resting.attentive.mono ?_, resting.calm⟩ shut.2 now
        exact fun waiting _ member => Or.inl (List.mem_cons.mp member)
      obtain ⟨last, settled⟩ := ih
        left.reported (reaches.coherent coherent) fun later member => by
          obtain ⟨earlier, closed⟩ := closed later (List.mem_cons_of_mem handler member)
          exact reaches.closed coherent earlier closed
      exact ⟨reaches.trans last, settled⟩

theorem Settled.advance [Outlet σ] {now : Rat} {due : List Handler} (settled : server.Settled)
    (coherent : server.Coherent) (reads : ∀ handler ∈ due, handler ∈ server.handlers)
    (late : ∀ handler ∈ due, server.isDue now handler = true) (distinct : due.Nodup) :
    server.Reaches ((server.expireAll now due).leaveAll now due) ∧
      ((server.expireAll now due).leaveAll now due).Settled := by
  have resting : server.Resting fun handler => handler ∈ due :=
    ⟨settled.attentive.mono fun _ _ impossible => impossible.elim, settled.calm⟩
  have different : due.Pairwise fun first second => second.connection ≠ first.connection := by
    refine List.Pairwise.imp_of_mem ?_ distinct
    intro first second before after unequal same
    exact unequal (coherent.handler_unique (reads first before) (reads second after) same.symm)
  obtain ⟨expired, rests, closed⟩ :=
    resting.expireAll coherent reads late (fun _ member => member) different
  obtain ⟨left, settled⟩ := rests.leaveAll (expired.coherent coherent) closed
  exact ⟨expired.trans left, settled⟩

end SteeringChannel.Server
