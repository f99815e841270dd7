import SteeringChannel.Proofs.Session.Silence

/-!
What a step asks of one of the servers: operations, one after the other and at one moment. Only
the clock is of another kind.
-/

namespace SteeringChannel

namespace Session

variable {σ : Type} [Outlet σ] {session middle other : Session σ} {index : Nat}
  {allowed : Server.Operation → Prop}

def Step.asks (index task : Nat) (request : Step) : Server.Operation → Prop
  | .listen => request = .listen index
  | .stop => request = .stop index
  | .start name duty => request = .start index duty ∧ name = task
  | operation => operation.isTraffic

def Shares (session other : Session σ) (index : Nat) (allowed : Server.Operation → Prop) : Prop :=
  other.now = session.now ∧ ∃ operations, (∀ operation ∈ operations, allowed operation) ∧
    other.server? index =
      (session.server? index).map fun server => server.operateAll session.now operations

theorem Shares.same (now : other.now = session.now) (servers : other.servers = session.servers) :
    session.Shares other index allowed := by
  refine ⟨now, [], by simp, ?_⟩
  simp [server?, servers, Server.operateAll]

theorem Shares.trans (first : session.Shares middle index allowed)
    (second : middle.Shares other index allowed) : session.Shares other index allowed := by
  obtain ⟨sameNow, before, early, begun⟩ := first
  obtain ⟨now, after, late, ended⟩ := second
  refine ⟨now.trans sameNow, before ++ after, List.forall_mem_append.mpr ⟨early, late⟩, ?_⟩
  rw [ended, begun, sameNow, Option.map_map]
  simp [Function.comp_def, Server.operateAll]

omit [Outlet σ] in
theorem now_onServer (session : Session σ) (index : Nat) (change : Server σ → Server σ) :
    (session.onServer index change).now = session.now := by
  simp only [onServer]
  split <;> rfl

theorem shares_onServer (session : Session σ) {changed : Nat} (operation : Server.Operation)
    (asked : changed = index → allowed operation) :
    session.Shares (session.onServer changed fun server => server.operate session.now operation)
      index allowed := by
  refine ⟨now_onServer .., ?_⟩
  by_cases same : changed = index
  · exact ⟨[operation], by simpa using asked same, by rw [server?_onServer, if_pos same]; rfl⟩
  · exact ⟨[], by simp, by rw [server?_onServer, if_neg same]; simp [Server.operateAll]⟩

omit [Outlet σ] in
theorem now_foldl_note (records : List Journal.Record) (session : Session σ) :
    (records.foldl note session).now = session.now := by
  induction records generalizing session with
  | nil => rfl
  | cons record rest ih => exact ih (session.note record)

section Traffic

variable (traffic : ∀ operation : Server.Operation, operation.isTraffic → allowed operation)
include traffic

theorem shares_arrive (session : Session σ) (listener : Address.Listener) (arrival : Connection)
    (untaken : arrival.taken = []) (fresh : arrival.closes = 0) :
    session.Shares (session.arrive listener arrival) index allowed := by
  cases listener with
  | unattended => exact Shares.same rfl rfl
  | server changed =>
      exact shares_onServer session (.arrive arrival) fun _ => traffic _ ⟨untaken, fresh⟩

theorem shares_hangUp (session : Session σ) (peer : Peer) :
    session.Shares (session.hangUp peer) index allowed := by
  cases peer with
  | unattended => exact Shares.same rfl rfl
  | server changed id => exact shares_onServer session (.hangUp id) fun _ => traffic _ trivial

theorem shares_deliver (session : Session σ) (peer : Peer) (bytes : List UInt8) :
    session.Shares (session.deliver peer bytes) index allowed := by
  cases peer with
  | unattended => exact Shares.same rfl rfl
  | server changed id => exact shares_onServer session (.deliver id bytes) fun _ => traffic _ trivial

theorem shares_probe (session : Session σ) (listener : Address.Listener) :
    session.Shares (session.probe listener) index allowed :=
  shares_arrive traffic session listener _ rfl rfl

theorem shares_connectClient (session : Session σ) (name : String) (client : Client) :
    session.Shares (session.connectClient name client).1 index allowed := by
  simp only [connectClient]
  split
  · exact Shares.same rfl rfl
  next listener _ =>
    have linked : session.Shares ((session.setClient name { client with
        link := some { peer := session.peerOf listener } }).note client.connectedRecord) index
          allowed := Shares.same rfl rfl
    exact linked.trans (shares_arrive traffic _ listener _ rfl rfl)

theorem shares_closeClient (session : Session σ) (name : String) :
    session.Shares (session.closeClient name) index allowed := by
  simp only [closeClient]
  split
  · exact Shares.same rfl rfl
  next link _ =>
    have unlinked : session.Shares (session.setClient name
        { session.client name defaultPath with link := none }) index allowed := Shares.same rfl rfl
    split
    · exact Shares.same rfl rfl
    · exact unlinked.trans (shares_hangUp traffic _ link.peer)

theorem shares_leaveLink (session : Session σ) (client : Client) :
    session.Shares (session.leaveLink client) index allowed := by
  simp only [leaveLink, leaveForAnother]
  split
  · exact Shares.same rfl rfl
  · split
    · exact Shares.same rfl rfl
    · split
      · exact Shares.same rfl rfl
      next id _ => exact shares_onServer session (.withdraw id) fun _ => traffic _ trivial

theorem shares_settleServers (session : Session σ) :
    session.Shares session.settleServers index allowed := by
  simp only [settleServers]
  generalize List.range session.servers.length = indices
  induction indices generalizing session with
  | nil => exact Shares.same rfl rfl
  | cons changed rest ih =>
      have here : session.Shares (session.onServer changed fun server =>
          server.settle session.now) index allowed :=
        shares_onServer session .settle fun _ => traffic _ trivial
      exact here.trans (ih _)

theorem shares_reconnect (session : Session σ) (name : String) :
    session.Shares (session.reconnect name).1 index allowed :=
  ((shares_leaveLink traffic session _).trans (shares_connectClient traffic _ name _)).trans
    (shares_settleServers traffic _)

theorem shares_transmit (session : Session σ) (name : String) (client : Client) (link : Link)
    (command : Command) :
    session.Shares (session.transmit name client link command).1 index allowed := by
  have warned : session.Shares ((Client.ambiguityRecord? command).toList.foldl note session)
      index allowed := Shares.same (now_foldl_note _ session) (servers_foldl_note _ session)
  simp only [transmit]
  split
  · exact warned
  · split
    · exact warned.trans (shares_deliver traffic _ link.peer _)
    · exact warned.trans (Shares.same rfl rfl)

theorem shares_send (session : Session σ) (name : String) (command : Command) :
    session.Shares (session.send name command).1 index allowed := by
  have named : session.Shares (session.setClient name (session.client name defaultPath)) index
      allowed := Shares.same rfl rfl
  simp only [send]
  split
  · split
    · exact named
    · exact named.trans (shares_transmit traffic _ name _ _ command)
  · exact named

theorem shares_sendValue (session : Session σ) (name : String) (value : Int) :
    session.Shares (session.sendValue name value).1 index allowed := by
  simp only [sendValue]
  split
  · exact Shares.same rfl rfl
  · exact shares_send traffic session name _

theorem shares_sendText (session : Session σ) (name text : String) :
    session.Shares (session.sendText name text).1 index allowed := by
  simp only [sendText]
  split
  · exact Shares.same rfl rfl
  · exact shares_sendValue traffic session name _

theorem shares_openWire (session : Session σ) (name path : String) :
    session.Shares (session.openWire name path).1 index allowed := by
  unfold openWire
  split
  · exact Shares.same rfl rfl
  next listener _ =>
    have named : session.Shares (session.setWire name { peer := session.peerOf listener }) index
        allowed := Shares.same rfl rfl
    have opened := named.trans (shares_arrive traffic _ listener { id := 0 } rfl rfl)
    dsimp only
    split
    · exact opened.trans (shares_hangUp traffic _ _)
    · exact opened

theorem shares_clearStale (session : Session σ) (path : String) :
    session.Shares (session.clearStale path).1 index allowed := by
  simp only [clearStale]
  split
  · exact Shares.same rfl rfl
  · split
    · split <;> exact Shares.same rfl rfl
    · split
      · exact Shares.same rfl rfl
      · split
        · exact shares_probe traffic session _
        · split
          · exact Shares.same rfl rfl
          · split <;> exact Shares.same rfl rfl

omit traffic in
theorem shares_clearAddress (session : Session σ) (path : String) :
    session.Shares (session.clearAddress path) index allowed := by
  have failed (number : Int) : session.Shares (if number = SystemError.notFound then session
      else session.note (uncheckedRecord path number)) index allowed := by
    split <;> exact Shares.same rfl rfl
  simp only [clearAddress]
  split
  · exact failed _
  · split
    · exact Shares.same rfl rfl
    · split
      · exact Shares.same rfl rfl
      · exact failed _

omit traffic in
theorem shares_setMode (session : Session σ) (path : String) (mode : Int) :
    session.Shares (session.setMode path mode).1 index allowed := by
  simp only [setMode]
  split
  · exact Shares.same rfl rfl
  · split
    · exact Shares.same rfl rfl
    · split <;> exact Shares.same rfl rfl

omit traffic in
theorem shares_bindAddress (session : Session σ) {changed : Nat} (path : String) (mode : Int)
    (asked : changed = index → allowed .listen) :
    session.Shares (session.bindAddress changed path mode).1 index allowed := by
  rcases bindAddress_cases session changed path mode with ⟨_, _, shape⟩ | ⟨tree, records, _, shape⟩ <;>
    rw [shape]
  · exact Shares.same rfl rfl
  have bound : session.Shares { session with tree := tree } index allowed := Shares.same rfl rfl
  have modes := (bound.trans (shares_onServer _ .listen asked)).trans
    (shares_setMode ({ session with tree := tree }.onServer changed Server.listen) path mode)
  exact modes.trans (Shares.same (now_foldl_note ..) (servers_foldl_note ..))

theorem shares_listen (session : Session σ) {changed : Nat}
    (asked : changed = index → allowed .listen) :
    session.Shares (session.listen changed).1 index allowed := by
  simp only [listen]
  split
  · exact Shares.same rfl rfl
  next server _ =>
    have cleared : session.Shares (session.clearStale (Path.normalize server.path)).1 index
        allowed := shares_clearStale traffic session _
    split
    next shape =>
      rw [shape] at cleared
      exact cleared
    next shape =>
      rw [shape] at cleared
      exact (cleared.trans (shares_clearAddress _ _)).trans (shares_bindAddress _ _ _ asked)

omit traffic in
theorem shares_removeAddress (session : Session σ) (path : String) :
    session.Shares (session.removeAddress path).1 index allowed := by
  simp only [removeAddress]
  split
  · exact Shares.same rfl rfl
  · split
    · exact Shares.same rfl rfl
    · exact Shares.same rfl rfl
    · split <;> exact Shares.same rfl rfl

omit traffic in
theorem shares_stop (session : Session σ) {changed : Nat}
    (asked : changed = index → allowed .stop) :
    session.Shares (session.stop changed).1 index allowed := by
  unfold stop
  split
  · exact Shares.same rfl rfl
  next server _ =>
    dsimp only
    generalize (if server.listening then session.tree.retire changed else session.tree) = tree
    have retired : session.Shares { session with tree := tree } index allowed :=
      Shares.same rfl rfl
    exact (retired.trans (shares_onServer _ .stop asked)).trans (shares_removeAddress _ _)

end Traffic

theorem shares_perform (session : Session σ) (task : Nat) {request : Step}
    (still : ∀ seconds, request ≠ .advance seconds) :
    session.Shares (session.perform task request).1 index (request.asks index task) := by
  have traffic (operation : Server.Operation) (common : operation.isTraffic) :
      request.asks index task operation := by
    cases operation <;> first | exact common | exact common.elim
  have onWire (name : String) {operation : Wire → Session σ × Result}
      (shares : ∀ wire, session.Shares (operation wire).1 index (request.asks index task)) :
      session.Shares (session.onWire name operation).1 index (request.asks index task) := by
    simp only [Session.onWire]
    split
    · exact shares _
    · exact Shares.same rfl rfl
  cases request with
  | listen changed => exact shares_listen traffic session fun same => same ▸ rfl
  | stop changed => exact shares_stop session fun same => same ▸ rfl
  | start changed duty =>
      exact shares_onServer session (.start task duty) fun same => ⟨same ▸ rfl, rfl⟩
  | inject changed bytes ending closeFails =>
      exact shares_arrive traffic session (.server changed) _ rfl rfl
  | advance seconds => exact absurd rfl (still seconds)
  | isLive path =>
      simp only [perform, isLive]
      split
      · exact shares_probe traffic session _
      · exact Shares.same rfl rfl
  | modeOf path => exact Shares.same rfl rfl
  | connect name path => exact shares_connectClient traffic session name _
  | reconnect name => exact shares_reconnect traffic session name
  | closeClient name => exact shares_closeClient traffic session name
  | send name command => exact shares_send traffic session name command
  | sendValue name value => exact shares_sendValue traffic session name value
  | sendText name text => exact shares_sendText traffic session name text
  | openWire name path =>
      have opened : session.Shares (session.openWire name path).1 index _ :=
        shares_openWire traffic session name path
      simp only [perform]
      split
      next shape =>
        rw [shape] at opened
        exact opened
      next shape =>
        rw [shape] at opened
        exact opened
  | writeWire name bytes =>
      refine onWire name fun wire => ?_
      simp only [writeWire]
      split
      · exact shares_deliver traffic session wire.peer bytes
      · exact Shares.same rfl rfl
  | endWire name =>
      refine onWire name fun wire => Shares.trans ?_ (shares_hangUp traffic _ wire.peer)
      exact Shares.same rfl rfl
  | closeWire name =>
      refine onWire name fun wire => Shares.trans ?_ (shares_hangUp traffic _ wire.peer)
      exact Shares.same rfl rfl
  | readWire name => exact onWire name fun _ => Shares.same rfl rfl

theorem stopped_perform {server : Server σ} (found : session.server? index = some server)
    (task : Nat) (request : Step) : (session.perform task request).1.Has index fun later =>
      later.stopped = true ↔ server.stopped = true ∨ request = .stop index := by
  by_cases clock : ∃ seconds, request = .advance seconds
  · obtain ⟨seconds, rfl⟩ := clock
    refine ⟨_, (session.server?_advance seconds index).trans (by rw [found, Option.map_some]), ?_⟩
    dsimp only
    rw [Server.stopped_leaveAll, Server.stopped_expireAll]
    simp
  · by_cases stops : request = .stop index
    · subst stops
      exact ⟨_, server?_stop found, iff_of_true server.stopped_stop (Or.inr rfl)⟩
    · obtain ⟨_, operations, asked, shares⟩ := shares_perform session task
        fun seconds same => clock ⟨seconds, same⟩
      rw [found, Option.map_some] at shares
      refine ⟨_, shares, ?_⟩
      have goes : ∀ operation ∈ operations, operation ≠ .stop := by
        rintro operation member rfl
        exact stops (asked .stop member)
      dsimp only
      rw [Server.stopped_operateAll server session.now goes]
      simp [stops]

theorem stopped_run {server : Server σ} (found : session.server? index = some server)
    (number : Nat) (requests : List Step) : (session.run number requests).1.Has index fun later =>
      later.stopped = true ↔ server.stopped = true ∨ .stop index ∈ requests := by
  induction requests generalizing session number server with
  | nil => exact ⟨server, found, by simp⟩
  | cons request rest ih =>
      have cleared : ({ session with records := [], finished := [] } : Session σ).server? index =
        some server := found
      obtain ⟨middle, there, first⟩ := stopped_perform cleared number request
      obtain ⟨last, ends, second⟩ := ih there (number + 1)
      refine ⟨last, ends, second.trans ?_⟩
      rw [first, List.mem_cons, or_assoc]
      exact or_congr_right (or_congr_left eq_comm)

end Session
end SteeringChannel
