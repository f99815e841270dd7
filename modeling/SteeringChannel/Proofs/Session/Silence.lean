import SteeringChannel.Proofs.Server.Halt
import SteeringChannel.Session.Step

/-!
One server in a session. Whatever the others do, and whatever clients do besides sending, it only
goes on by itself, and it has settled again at the end of each step.
-/

namespace SteeringChannel.Session

variable {σ : Type} [Outlet σ] {session other : Session σ} {index : Nat} {first : Server σ}
  {kept : Server σ → Prop}

def Has (session : Session σ) (index : Nat) (kept : Server σ → Prop) : Prop :=
  ∃ server, session.server? index = some server ∧ kept server

omit [Outlet σ] in
theorem Has.same (has : session.Has index kept) (servers : other.servers = session.servers) :
    other.Has index kept := by
  obtain ⟨server, found, keeps⟩ := has
  refine ⟨server, ?_, keeps⟩
  unfold server? at found ⊢
  rw [servers, found]

omit [Outlet σ] in
theorem Has.mono {fewer : Server σ → Prop} (has : session.Has index kept)
    (weaker : ∀ server, kept server → fewer server) : session.Has index fewer := by
  obtain ⟨server, found, keeps⟩ := has
  exact ⟨server, found, weaker server keeps⟩

omit [Outlet σ] in
theorem server?_onServer (session : Session σ) (changed index : Nat)
    (change : Server σ → Server σ) :
    (session.onServer changed change).server? index =
      if changed = index then (session.server? index).map fun server => (change server).reported
      else session.server? index := by
  simp only [onServer]
  cases found : session.server? changed with
  | none =>
      dsimp only
      split
      next same => rw [← same, found, Option.map_none]
      next => rfl
  | some server =>
      dsimp only
      unfold server? at found ⊢
      rw [List.getElem?_set]
      split
      next same =>
        subst same
        have bound := (List.getElem?_eq_some_iff.mp found).1
        rw [if_pos bound, found, Option.map_some]
      next => rfl

omit [Outlet σ] in
theorem Has.onServer {changed : Nat} {change : Server σ → Server σ} {after : Server σ → Prop}
    (has : session.Has index kept)
    (here : changed = index → ∀ server, session.server? index = some server → kept server →
      after (change server).reported)
    (elsewhere : changed ≠ index → ∀ server, kept server → after server) :
    (session.onServer changed change).Has index after := by
  obtain ⟨server, found, keeps⟩ := has
  by_cases same : changed = index
  · refine ⟨(change server).reported, ?_, here same server found keeps⟩
    rw [server?_onServer, if_pos same, found, Option.map_some]
  · refine ⟨server, ?_, elsewhere same server keeps⟩
    rw [server?_onServer, if_neg same, found]

def Holds (session : Session σ) (index : Nat) (first : Server σ) (kept : Server σ → Prop) : Prop :=
  session.Has index fun server => first.Reaches server ∧ kept server

theorem Holds.same (holds : session.Holds index first kept)
    (servers : other.servers = session.servers) : other.Holds index first kept :=
  Has.same holds servers

theorem Holds.mono {fewer : Server σ → Prop} (holds : session.Holds index first kept)
    (weaker : ∀ server, kept server → fewer server) : session.Holds index first fewer :=
  Has.mono holds fun server keeps => ⟨keeps.1, weaker server keeps.2⟩

theorem Holds.onServer {changed : Nat} {change : Server σ → Server σ}
    {after : Server σ → Prop} (holds : session.Holds index first kept)
    (coherent : first.Coherent)
    (here : changed = index → ∀ server : Server σ, server.Coherent → kept server →
      server.Reaches (change server) ∧ after (change server).reported)
    (elsewhere : changed ≠ index → ∀ server, kept server → after server) :
    (session.onServer changed change).Holds index first after := by
  refine Has.onServer holds ?_ fun other server keeps => ⟨keeps.1, elsewhere other server keeps.2⟩
  intro same server _ keeps
  obtain ⟨changes, reported⟩ := here same server (keeps.1.coherent coherent) keeps.2
  exact ⟨(keeps.1.trans changes).trans (Server.reaches_reported _), reported⟩

section Parts

variable (coherent : first.Coherent)
include coherent

theorem Holds.onSettled {changed : Nat} {change : Server σ → Server σ}
    (holds : session.Holds index first Server.Settled)
    (settles : ∀ server : Server σ, server.Coherent → server.Settled →
      server.Reaches (change server) ∧ (change server).Settled) :
    (session.onServer changed change).Holds index first Server.Settled := by
  refine holds.onServer coherent (fun _ server coherent settled => ?_) fun _ _ settled => settled
  obtain ⟨reaches, settled⟩ := settles server coherent settled
  exact ⟨reaches, settled.reported⟩

theorem Holds.arrive (holds : session.Holds index first Server.Settled)
    (listener : Address.Listener) {arrival : Connection} (untaken : arrival.taken = [])
    (fresh : arrival.closes = 0) (silent : arrival.unread = []) :
    (session.arrive listener arrival).Holds index first Server.Settled := by
  cases listener with
  | unattended => exact holds
  | server changed =>
      refine holds.onSettled coherent fun server coherent settled => ⟨?_, ?_⟩
      · have registers : server.Reaches (server.register arrival) :=
          Server.Reaches.one (.arrive arrival) ⟨untaken, fresh⟩ silent
        exact registers.trans (server.reaches_arrive session.now arrival)
      · exact settled.arrive coherent session.now untaken fresh

theorem Holds.hangUp (holds : session.Holds index first Server.Settled) (peer : Peer) :
    (session.hangUp peer).Holds index first Server.Settled := by
  cases peer with
  | unattended => exact holds
  | server changed id =>
      refine holds.onSettled coherent fun server coherent settled => ⟨?_, ?_⟩
      · exact server.reaches_hangUp session.now id .finished
      · exact settled.hangUp coherent session.now id .finished

theorem Holds.connectSettled (holds : session.Holds index first Server.Settled)
    (listener : Address.Listener) :
    (session.arrive listener { id := 0 }).Holds index first Server.Settled :=
  holds.arrive coherent listener rfl rfl rfl

theorem Holds.probe (holds : session.Holds index first Server.Settled)
    (listener : Address.Listener) : (session.probe listener).Holds index first Server.Settled :=
  holds.arrive coherent listener rfl rfl rfl

end Parts

omit [Outlet σ] in
theorem servers_clearAddress (session : Session σ) (path : String) :
    (session.clearAddress path).servers = session.servers := by
  have failed (number : Int) : (if number = SystemError.notFound then session
      else session.note (uncheckedRecord path number)).servers = session.servers := by
    split <;> rfl
  simp only [clearAddress]
  split
  · exact failed _
  · split
    · rfl
    · split
      · rfl
      · exact failed _

omit [Outlet σ] in
theorem servers_setMode (session : Session σ) (path : String) (mode : Int) :
    (session.setMode path mode).1.servers = session.servers := by
  simp only [setMode]
  split
  · rfl
  · split
    · rfl
    · split <;> rfl

omit [Outlet σ] in
theorem servers_foldl_note (records : List Journal.Record) (session : Session σ) :
    (records.foldl note session).servers = session.servers := by
  induction records generalizing session with
  | nil => rfl
  | cons record rest ih => exact ih (session.note record)

omit [Outlet σ] in
/-- Once the address has been bound, only the mode of its socket can go wrong. -/
theorem bindAddress_cases (session : Session σ) (index : Nat) (path : String) (mode : Int) :
    (∃ cause, Address.bind session.tree path index = .error cause ∧
      session.bindAddress index path mode = (session, some (.bind (.unbindable path cause)))) ∨
    ∃ tree, ∃ records : List Journal.Record, Address.bind session.tree path index = .ok tree ∧
      let modes := ({ session with tree := tree }.onServer index Server.listen).setMode path mode
      session.bindAddress index path mode = (records.foldl note modes.1, modes.2) := by
  unfold bindAddress
  split
  next cause refused => exact .inl ⟨cause, refused, rfl⟩
  next tree bound =>
    dsimp only
    split
    next shape => exact .inr ⟨tree, [], bound, shape.symm⟩
    next settled shape =>
      refine .inr ⟨tree, [listeningRecord path], bound, ?_⟩
      rw [shape]
      rfl

omit [Outlet σ] in
theorem servers_removeAddress (session : Session σ) (path : String) :
    (session.removeAddress path).1.servers = session.servers := by
  simp only [removeAddress]
  split
  · rfl
  · split
    · rfl
    · rfl
    · split <;> rfl

omit [Outlet σ] in
theorem server?_stop {server : Server σ} (found : session.server? index = some server) :
    (session.stop index).1.server? index = some server.stop.reported := by
  unfold stop
  rw [found]
  dsimp only
  generalize (if server.listening then session.tree.retire index else session.tree) = tree
  have before : ({ session with tree := tree } : Session σ).server? index = some server := found
  simp only [server?, servers_removeAddress]
  rw [← server?, server?_onServer, if_pos rfl, before, Option.map_some]

section Listening

variable (coherent : first.Coherent) (holds : session.Holds index first Server.Settled)
include coherent holds

theorem Holds.clearStale (path : String) :
    (session.clearStale path).1.Holds index first Server.Settled := by
  simp only [Session.clearStale]
  split
  · exact holds
  · split
    · split <;> exact holds
    · split
      · exact holds
      · split
        · exact holds.probe coherent _
        · split
          · exact holds
          · split
            · exact holds.same rfl
            · exact holds

theorem Holds.bindAddress (changed : Nat) (path : String) (mode : Int) :
    (session.bindAddress changed path mode).1.Holds index first Server.Settled := by
  rcases bindAddress_cases session changed path mode with ⟨_, _, shape⟩ | ⟨tree, records, _, shape⟩ <;>
    rw [shape]
  · exact holds
  have bound : Holds { session with tree := tree } index first Server.Settled := holds.same rfl
  have listening : ({ session with tree := tree }.onServer changed
      Server.listen).Holds index first Server.Settled := by
    refine bound.onSettled coherent fun server _ settled => ⟨?_, ?_⟩
    · exact Server.Reaches.one .listen trivial trivial
    · exact ⟨settled.attentive.elsewhere (fun _ present => present)
        (fun _ _ awaits => awaits.elsewhere rfl rfl rfl rfl) rfl rfl, settled.calm⟩
  exact listening.same ((servers_foldl_note ..).trans (servers_setMode ..))

theorem Holds.listen (changed : Nat) :
    (session.listen changed).1.Holds index first Server.Settled := by
  simp only [Session.listen]
  split
  · exact holds
  next server _ =>
    have cleared := holds.clearStale coherent (Path.normalize server.path)
    split
    next shape =>
      rw [shape] at cleared
      exact cleared
    next shape =>
      rw [shape] at cleared
      exact (cleared.same (servers_clearAddress _ _)).bindAddress coherent changed _ _

theorem Holds.stop (changed : Nat) :
    (session.stop changed).1.Holds index first Server.Settled := by
  unfold Session.stop
  split
  · exact holds
  next server _ =>
    dsimp only
    refine Holds.same ?_ (servers_removeAddress _ _)
    generalize (if server.listening then session.tree.retire changed else session.tree) = tree
    have retired : Holds { session with tree := tree } index first Server.Settled := holds.same rfl
    exact retired.onSettled coherent fun server coherent settled => settled.stop coherent

end Listening

/-! Clients and bare sockets. -/

abbrev Attends (server : Server σ) : Prop := server.Attentive fun _ => False

omit [Outlet σ] in
theorem attends_reported {server : Server σ} (attends : Attends server) :
    Attends server.reported :=
  attends.elsewhere (fun _ present => present) (fun _ _ awaits => awaits.elsewhere rfl rfl rfl rfl)
    rfl rfl

section Clients

variable (coherent : first.Coherent)
include coherent

theorem Holds.onAttends {changed : Nat} {change : Server σ → Server σ}
    (holds : session.Holds index first Attends)
    (keeps : ∀ server : Server σ, server.Coherent → Attends server →
      server.Reaches (change server) ∧ Attends (change server)) :
    (session.onServer changed change).Holds index first Attends := by
  refine holds.onServer coherent (fun _ server coherent attends => ?_) fun _ _ attends => attends
  obtain ⟨reaches, attends⟩ := keeps server coherent attends
  exact ⟨reaches, attends_reported attends⟩

theorem Holds.connectAttends (holds : session.Holds index first Attends)
    (listener : Address.Listener) :
    (session.arrive listener { id := 0 }).Holds index first Attends := by
  cases listener with
  | unattended => exact holds
  | server changed =>
      refine holds.onAttends coherent fun server coherent attends => ⟨?_, ?_⟩
      · have registers : server.Reaches (server.register { id := 0 }) :=
          Server.Reaches.one (.arrive { id := 0 }) ⟨rfl, rfl⟩ rfl
        exact registers.trans (server.reaches_arrive session.now { id := 0 })
      · have registered := attends.register coherent.numbered { id := 0 }
        simp only [Server.arrive]
        split
        · exact registered.settle (coherent.register rfl rfl) session.now
        · exact registered

omit coherent in
theorem Holds.connectClient (holds : session.Holds index first kept)
    (arrives : ∀ (before : Session σ) (listener : Address.Listener),
      before.Holds index first kept → (before.arrive listener { id := 0 }).Holds index first kept)
    (name : String) (client : Client) :
    (session.connectClient name client).1.Holds index first kept := by
  simp only [Session.connectClient]
  split
  · exact holds.same rfl
  · exact arrives _ _ (holds.same rfl)

theorem Holds.connect (holds : session.Holds index first Server.Settled) (name path : String) :
    (session.connect name path).1.Holds index first Server.Settled :=
  holds.connectClient (fun _ listener before => before.connectSettled coherent listener) name _

theorem Holds.closeClient (holds : session.Holds index first Server.Settled) (name : String) :
    (session.closeClient name).Holds index first Server.Settled := by
  simp only [Session.closeClient]
  split
  · exact holds.same rfl
  next link _ =>
    have unlinked : (session.setClient name
        { session.client name defaultPath with link := none }).Holds index first Server.Settled :=
      holds.same rfl
    split
    · exact unlinked.same rfl
    · exact unlinked.hangUp coherent link.peer

theorem Holds.leaveForAnother (holds : session.Holds index first Attends) (link : Link) :
    (session.leaveForAnother link).Holds index first Attends := by
  unfold Session.leaveForAnother
  split
  · exact holds.same rfl
  · split
    · exact holds
    next changed id _ =>
      refine holds.onAttends coherent fun server coherent attends => ?_
      have ends := server.reaches_endStream session.now id .finished
      have ended := attends.endStream session.now id .finished
      dsimp only
      split
      · exact ⟨ends, ended⟩
      · exact ⟨ends.trans (Server.reaches_settleFirst _ session.now),
          ended.settleFirst (ends.coherent coherent) session.now⟩

theorem Holds.settleAll (indices : List Nat) (holds : session.Holds index first Server.Settled) :
    (indices.foldl (fun session index =>
      session.onServer index fun server => server.settle session.now) session).Holds index first
        Server.Settled := by
  induction indices generalizing session with
  | nil => exact holds
  | cons changed rest ih =>
      refine ih (holds.onSettled coherent fun server coherent settled => ?_)
      exact ⟨server.reaches_settle session.now,
        Server.resting_settle settled.attentive coherent session.now⟩

theorem Holds.settleEach (indices : List Nat) (holds : session.Holds index first Attends)
    (member : index ∈ indices) :
    (indices.foldl (fun session index =>
      session.onServer index fun server => server.settle session.now) session).Holds index first
        Server.Settled := by
  induction indices generalizing session with
  | nil => simp at member
  | cons changed rest ih =>
      rw [List.foldl_cons]
      by_cases same : changed = index
      · refine Holds.settleAll coherent rest (holds.onServer coherent
          (fun _ server coherent attends => ?_) fun different => absurd same different)
        exact ⟨server.reaches_settle session.now,
          (Server.resting_settle attends coherent session.now).reported⟩
      · refine ih (holds.onServer coherent (fun here => absurd here same)
          fun _ _ attends => attends) ?_
        exact (List.mem_cons.mp member).resolve_left fun here => same here.symm

theorem Holds.reconnect (holds : session.Holds index first Server.Settled) (name : String) :
    (session.reconnect name).1.Holds index first Server.Settled := by
  have attends : session.Holds index first Attends := holds.mono fun _ settled => settled.attentive
  have leaves : (session.leaveLink (session.client name defaultPath)).Holds index first Attends := by
    simp only [Session.leaveLink]
    split
    · exact attends
    · exact attends.leaveForAnother coherent _
  have connects := leaves.connectClient
    (fun _ listener before => before.connectAttends coherent listener) name
    { session.client name defaultPath with link := none }
  refine Holds.settleEach coherent _ connects ?_
  obtain ⟨server, found, _⟩ := connects
  exact List.mem_range.mpr (List.getElem?_eq_some_iff.mp found).1

theorem Holds.openWire (holds : session.Holds index first Server.Settled) (name path : String) :
    (session.openWire name path).1.Holds index first Server.Settled := by
  unfold Session.openWire
  split
  · exact holds
  next listener _ =>
    have named : (session.setWire name { peer := session.peerOf listener }).Holds index first
        Server.Settled := holds.same rfl
    have opened := named.connectSettled coherent listener
    dsimp only
    split
    · exact opened.hangUp coherent _
    · exact opened

end Clients

omit [Outlet σ] in
theorem server?_foldl_onServer {α : Type} (entries : List (Nat × α))
    (change : α → Server σ → Server σ) (session : Session σ) (index : Nat) :
    (entries.foldl (fun session entry => session.onServer entry.1 (change entry.2))
      session).server? index =
        (session.server? index).map fun server =>
          ((entries.filter fun entry => entry.1 == index).map Prod.snd).foldl
            (fun server item => (change item server).reported) server := by
  induction entries generalizing session with
  | nil => simp
  | cons entry rest ih =>
      rw [List.foldl_cons, ih, server?_onServer]
      by_cases same : entry.1 = index
      · simp [same, Function.comp_def]
      · simp [same]

def dueAt (session : Session σ) (index : Nat) (now : Rat) : List Handler :=
  ((session.dueHandlers now).filter fun entry => entry.1 == index).map Prod.snd

theorem due_eq {handlers : List Handler} {deadline? : Handler → Option Rat}
    (timed : ∀ handler ∈ handlers, (deadline? handler).isSome) (here index : Nat) :
    (((handlers.filterMap fun handler => (deadline? handler).map fun deadline =>
      (deadline, here, handler)).map Prod.snd).filter fun entry => entry.1 == index).map
        Prod.snd = if here = index then handlers else [] := by
  induction handlers with
  | nil => simp
  | cons handler rest ih =>
      obtain ⟨first, others⟩ := List.forall_mem_cons.mp timed
      obtain ⟨deadline, found⟩ := Option.isSome_iff_exists.mp first
      rw [List.filterMap_cons_some (by rw [found]; rfl)]
      by_cases same : here = index
      · simpa [same] using ih others
      · simpa [same] using ih others

theorem flatMap_single {α : Type} {blocks : Nat → List α} {index : Nat}
    (empty : ∀ here, here ≠ index → blocks here = []) {indices : List Nat}
    (distinct : indices.Nodup) (present : index ∈ indices) :
    indices.flatMap blocks = blocks index := by
  induction indices with
  | nil => exact absurd present List.not_mem_nil
  | cons here rest ih =>
      obtain ⟨unique, distinct⟩ := List.nodup_cons.mp distinct
      rw [List.flatMap_cons]
      rcases List.mem_cons.mp present with rfl | later
      · have others : rest.flatMap blocks = [] :=
          List.flatMap_eq_nil_iff.mpr fun other member => empty other fun same =>
            unique (same ▸ member)
        rw [others, List.append_nil]
      · rw [empty here fun same => unique (same ▸ later), List.nil_append]
        exact ih distinct later

omit [Outlet σ] in
theorem dueAt_perm {server : Server σ} (found : session.server? index = some server) (now : Rat) :
    (session.dueAt index now).Perm (server.handlers.filter (server.isDue now)) := by
  have timed (server : Server σ) : ∀ handler ∈ server.handlers.filter (server.isDue now),
      (server.deadline? handler).isSome := by
    intro handler expires
    have due := (List.mem_filter.mp expires).2
    simp only [Server.isDue] at due
    split at due
    next found => simp [found]
    next => simp at due
  refine ((((List.mergeSort_perm _ _).map Prod.snd).filter _).map Prod.snd).trans ?_
  rw [List.map_flatMap, List.filter_flatMap, List.map_flatMap, flatMap_single]
  · rw [found]
    exact .of_eq ((due_eq (timed server) index index).trans (if_pos rfl))
  · intro here different
    cases session.server? here with
    | none => rfl
    | some other => exact (due_eq (timed other) here index).trans (if_neg different)
  · exact List.nodup_range
  · exact List.mem_range.mpr (List.getElem?_eq_some_iff.mp found).1

theorem server?_advance (session : Session σ) (seconds : Rat) (index : Nat) :
    (session.advance seconds).server? index = (session.server? index).map fun server =>
      (server.expireAll (session.now + seconds)
          (session.dueAt index (session.now + seconds))).leaveAll (session.now + seconds)
        (session.dueAt index (session.now + seconds)) := by
  simp only [Session.advance]
  rw [server?_foldl_onServer _ fun handler server => server.leaveExpired _ handler,
    server?_foldl_onServer _ fun handler server => server.expire _ handler, Option.map_map]
  rfl

theorem Holds.advance (coherent : first.Coherent)
    (holds : session.Holds index first Server.Settled) (seconds : Rat) :
    (session.advance seconds).Holds index first Server.Settled := by
  obtain ⟨server, found, reaches, settled⟩ := holds
  have here := reaches.coherent coherent
  have perm := dueAt_perm found (session.now + seconds)
  have member (handler : Handler)
      (expires : handler ∈ session.dueAt index (session.now + seconds)) :
      handler ∈ server.handlers ∧ server.isDue (session.now + seconds) handler = true :=
    List.mem_filter.mp (perm.subset expires)
  have distinct : (session.dueAt index (session.now + seconds)).Nodup := by
    have handlers : server.handlers.Nodup := here.distinct.of_map
    exact perm.nodup_iff.mpr (handlers.filter _)
  obtain ⟨advances, after⟩ := settled.advance here (fun handler expires => (member handler expires).1)
    (fun handler expires => (member handler expires).2) distinct
  refine ⟨_, ?_, reaches.trans advances, after⟩
  rw [server?_advance, found, Option.map_some]

def Step.isSilent (index : Nat) : Step → Prop
  | .start other _ => other ≠ index
  | .inject other _ _ _ => other ≠ index
  | .send _ _ | .sendValue _ _ | .sendText _ _ | .writeWire _ _ => False
  | _ => True

theorem Holds.perform (coherent : first.Coherent)
    (holds : session.Holds index first Server.Settled) (task : Nat) {step : Step}
    (silent : step.isSilent index) :
    (session.perform task step).1.Holds index first Server.Settled := by
  have onWire (name : String) {operation : Wire → Session σ × Result}
      (keeps : ∀ wire, (operation wire).1.Holds index first Server.Settled) :
      (session.onWire name operation).1.Holds index first Server.Settled := by
    simp only [Session.onWire]
    split
    · exact keeps _
    · exact holds
  cases step with
  | listen changed => exact holds.listen coherent changed
  | stop changed => exact holds.stop coherent changed
  | start changed duty =>
      exact holds.onServer coherent (fun here => absurd here silent) fun _ _ settled => settled
  | inject changed bytes ending closeFails =>
      exact holds.onServer coherent (fun here => absurd here silent) fun _ _ settled => settled
  | advance seconds => exact holds.advance coherent seconds
  | isLive path =>
      simp only [Session.perform, Session.isLive]
      split
      · exact holds.probe coherent _
      · exact holds
  | modeOf path => exact holds
  | connect name path => exact holds.connect coherent name path
  | reconnect name => exact holds.reconnect coherent name
  | closeClient name => exact holds.closeClient coherent name
  | openWire name path =>
      have opened := holds.openWire coherent name path
      simp only [Session.perform]
      split
      next shape =>
        rw [shape] at opened
        exact opened
      next shape =>
        rw [shape] at opened
        exact opened
  | endWire name =>
      refine onWire name fun wire => Holds.hangUp coherent ?_ wire.peer
      exact holds.same rfl
  | closeWire name =>
      refine onWire name fun wire => Holds.hangUp coherent ?_ wire.peer
      exact holds.same rfl
  | readWire name => exact onWire name fun wire => holds
  | _ => exact silent.elim

end SteeringChannel.Session
