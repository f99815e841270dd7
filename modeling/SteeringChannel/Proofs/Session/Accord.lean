import SteeringChannel.Proofs.Session.Idle
import SteeringChannel.Proofs.Session.Parallel

/-!
Two sessions in which one server differs by probes only. Whatever step both of them take, they
answer the same, and go on differing by probes only.
-/

namespace SteeringChannel

namespace Session

variable {σ : Type} [Outlet σ] {alike : Option σ → Option σ → Prop} {number : Nat → Nat}
  {probes : List Nat} {index : Nat} {related : Server σ → Server σ → Prop}
  {session other : Session σ}

abbrev Mirrors (alike : Option σ → Option σ → Prop) (number : Nat → Nat) (probes : List Nat)
    (index : Nat) (session other : Session σ) : Prop :=
  Parallel number index 0 (Server.Twins alike number probes) session other

def Agree {α : Type} (alike : Option σ → Option σ → Prop) (number : Nat → Nat) (probes : List Nat)
    (index : Nat) (first second : Session σ × α) : Prop :=
  Mirrors alike number probes index first.1 second.1 ∧ second.2 = first.2

theorem Agree.elim {α : Type} {first second : Session σ × α}
    (agree : Agree alike number probes index first second) : ∃ mine theirs answer,
      first = (mine, answer) ∧ second = (theirs, answer) ∧
        Mirrors alike number probes index mine theirs :=
  ⟨first.1, second.1, first.2, rfl, Prod.ext rfl agree.2, agree.1⟩

namespace Parallel

section Joining

variable (parallel : Parallel number index 0 related session other)
  (next : ∀ server later, related server later → number server.nextId = later.nextId)
include parallel next

omit [Outlet σ] in
theorem peerOf_eq (listener : Address.Listener) :
    other.peerOf listener = (session.peerOf listener).renumber number index := by
  cases listener with
  | unattended => rfl
  | server here =>
      by_cases same : here = index
      · obtain ⟨server, later, found, there, relates, _⟩ := parallel.watched
        subst same
        simp [peerOf, found, there, Peer.renumber, next server later relates]
      · simp only [peerOf, parallel.beside here same]
        cases session.server? here <;> simp [Peer.renumber, same]

omit next in
theorem join (arrives : ∀ server later, related server later →
      related (server.arrive session.now { id := 0 }).reported
        (later.arrive session.now { id := 0 }).reported)
    (listener : Address.Listener) {mine theirs : Session σ} (now : mine.now = session.now)
    (linked : ∀ slack, (∀ server, session.server? index = some server →
      (session.peerOf listener).within index (server.nextId + slack)) →
        Parallel number index slack related mine theirs) :
    Parallel number index 0 related (mine.arrive listener { id := 0 })
      (theirs.arrive listener { id := 0 }) := by
  cases listener with
  | unattended => exact linked 0 fun _ _ => trivial
  | server here =>
      by_cases same : here = index
      · subst same
        have held := linked 1 fun server found => by
          simp [peerOf, found, Peer.within]
        simp only [Session.arrive, held.now, now]
        refine held.here fun server later _ _ relates => ⟨arrives server later relates, ?_⟩
        rw [Server.nextId_arrive]
      · have held := linked 0 fun server _ => by
          simp only [peerOf]
          split
          · exact fun here => absurd here same
          · trivial
        simp only [Session.arrive, held.now]
        exact held.elsewhere same _

theorem connectClient (arrives : ∀ server later, related server later →
      related (server.arrive session.now { id := 0 }).reported
        (later.arrive session.now { id := 0 }).reported)
    (name : String) {client : Client}
    (within : ∀ server, session.server? index = some server →
      client.within index server.nextId) :
    Parallel number index 0 related (session.connectClient name client).1
        (other.connectClient name (client.renumber number index)).1 ∧
      (other.connectClient name (client.renumber number index)).2 =
        (session.connectClient name client).2 := by
  have path : (client.renumber number index).path = client.path := rfl
  simp only [Session.connectClient, parallel.tree, path]
  cases Address.dial session.tree client.path with
  | error cause => exact ⟨parallel.setClient name within, rfl⟩
  | ok listener =>
      refine ⟨parallel.join arrives listener rfl fun slack known => ?_, rfl⟩
      let linked : Client := { client with link := some { peer := session.peerOf listener } }
      have within : ∀ server, session.server? index = some server →
          linked.within index (server.nextId + slack) := by
        intro server found link held
        cases held
        exact known server found
      simp only [parallel.peerOf_eq next listener]
      exact ((parallel.loosen (Nat.zero_le slack)).setClient name within).note _ _

end Joining

theorem openWire_join (parallel : Parallel number index 0 related session other)
    (next : ∀ server later, related server later → number server.nextId = later.nextId)
    (arrives : ∀ server later, related server later →
      related (server.arrive session.now { id := 0 }).reported
        (later.arrive session.now { id := 0 }).reported)
    (name : String) (listener : Address.Listener) :
    Parallel number index 0 related
      ((session.setWire name { peer := session.peerOf listener }).arrive listener { id := 0 })
      ((other.setWire name { peer := other.peerOf listener }).arrive listener { id := 0 }) := by
  refine parallel.join arrives listener rfl fun slack known => ?_
  rw [parallel.peerOf_eq next listener]
  exact (parallel.loosen (Nat.zero_le slack)).setWire name known

end Parallel

section Traffic

variable (mirrors : Mirrors alike number probes index session other)

omit [Outlet σ] in
theorem Parallel.client_within (parallel : Parallel number index 0 related session other)
    (name path : String) : ∀ server, session.server? index = some server →
      (session.client name path).within index server.nextId := by
  intro server found link held
  obtain ⟨watched, _, there, _, _, knows⟩ := parallel.watched
  obtain rfl : server = watched := Option.some.inj (found.symm.trans there)
  simp only [Session.client] at held
  cases named : session.clients.lookup name with
  | none =>
      rw [named] at held
      cases held
  | some client =>
      rw [named] at held
      exact knows.1 _ (mem_of_lookup_eq named) link held

include mirrors

theorem Mirrors.isOpen_eq (peer : Peer) :
    other.isOpen (peer.renumber number index) = session.isOpen peer := by
  cases peer with
  | unattended => rfl
  | server here id =>
      by_cases same : here = index
      · obtain ⟨server, later, found, there, twins, _⟩ := mirrors.watched
        subst same
        simp [Session.isOpen, Peer.renumber, found, there, twins.mirrors.isOpen_eq]
      · simp [Session.isOpen, Peer.renumber, same, mirrors.beside here same]

variable (lasting : Server.Lasting alike)
include lasting

theorem Mirrors.operate (changed : Nat) {operation theirs : Server.Operation}
    (whole : operation.isWhole)
    (same : theirs = if changed = index then operation.renumber number else operation) :
    Mirrors alike number probes index
      (session.onServer changed fun server => server.operate session.now operation)
      (other.onServer changed fun server => server.operate other.now theirs) := by
  rw [mirrors.now, same]
  by_cases here : changed = index
  · subst here
    refine mirrors.here fun server later _ _ twins => ?_
    rw [if_pos rfl]
    refine ⟨twins.operate lasting session.now whole, ?_⟩
    obtain ⟨⟨_, run⟩, _⟩ := twins.first.operate session.now whole
    exact run.nextId_le
  · rw [if_neg here]
    exact mirrors.elsewhere here _

theorem Mirrors.arrive (listener : Address.Listener) {arrival : Connection}
    (untaken : arrival.taken = []) (fresh : arrival.closes = 0) :
    Mirrors alike number probes index (session.arrive listener arrival)
      (other.arrive listener arrival) := by
  cases listener with
  | unattended => exact mirrors
  | server here =>
      have whole : (Server.Operation.arrive arrival).isWhole := ⟨untaken, fresh⟩
      exact mirrors.operate lasting here whole (ite_self _).symm

theorem Mirrors.hangUp (peer : Peer) :
    Mirrors alike number probes index (session.hangUp peer)
      (other.hangUp (peer.renumber number index)) := by
  cases peer with
  | unattended => exact mirrors
  | server here id =>
      have whole : (Server.Operation.hangUp id).isWhole := trivial
      have same : Server.Operation.hangUp (if here = index then number id else id) =
          if here = index then (Server.Operation.hangUp id).renumber number else .hangUp id := by
        split <;> rfl
      exact mirrors.operate lasting here whole same

theorem Mirrors.deliver (peer : Peer) (bytes : List UInt8) :
    Mirrors alike number probes index (session.deliver peer bytes)
      (other.deliver (peer.renumber number index) bytes) := by
  cases peer with
  | unattended => exact mirrors
  | server here id =>
      have whole : (Server.Operation.deliver id bytes).isWhole := trivial
      have same : Server.Operation.deliver (if here = index then number id else id) bytes =
          if here = index then (Server.Operation.deliver id bytes).renumber number
          else .deliver id bytes := by
        split <;> rfl
      exact mirrors.operate lasting here whole same

theorem Mirrors.connect (name path : String) :
    Agree alike number probes index (session.connect name path) (other.connect name path) := by
  simp only [Session.connect, mirrors.client_eq]
  exact mirrors.connectClient Server.Twins.next (Server.Twins.arrives lasting session.now) name
    (mirrors.client_within name path)

omit lasting in
theorem Mirrors.setOwn (name path : String) :
    Mirrors alike number probes index (session.setClient name (session.client name path))
      (other.setClient name ((session.client name path).renumber number index)) :=
  mirrors.setClient name (mirrors.client_within name path)

theorem Mirrors.closeClient (name : String) :
    Mirrors alike number probes index (session.closeClient name) (other.closeClient name) := by
  have named := mirrors.setOwn name defaultPath
  simp only [Session.closeClient, mirrors.client_eq]
  generalize session.client name defaultPath = client at named ⊢
  have unlinked : Mirrors alike number probes index
      (session.setClient name { client with link := none })
      (other.setClient name { client with link := none }) :=
    mirrors.setClient name fun _ _ link unlinked => by cases unlinked
  cases held : client.link with
  | none => simpa [Client.renumber, held] using named
  | some link =>
      simp only [Client.renumber, held, Option.map_some, Link.renumber]
      split
      · exact unlinked.note _ _
      · exact unlinked.hangUp lasting link.peer

theorem Mirrors.transmit (name : String) {client : Client} {link : Link} (held : client.link = some link)
    (within : ∀ server, session.server? index = some server →
      client.within index server.nextId) (command : Command) :
    Agree alike number probes index (session.transmit name client link command)
      (other.transmit name (client.renumber number index) (link.renumber number index)
        command) := by
  have warned : Mirrors alike number probes index
      ((Client.ambiguityRecord? command).toList.foldl Session.note session)
      ((Client.ambiguityRecord? command).toList.foldl Session.note other) :=
    mirrors.foldl_note _
  have opened : other.isOpen (link.renumber number index).peer = session.isOpen link.peer :=
    mirrors.isOpen_eq link.peer
  simp only [Session.transmit, opened]
  cases command.encode with
  | error error => exact ⟨warned, rfl⟩
  | ok byte =>
      dsimp only
      split
      · exact ⟨warned.deliver lasting link.peer [byte], rfl⟩
      · let broken : Client := { client with link := some { link with broken := true } }
        have known : ∀ server, ((Client.ambiguityRecord? command).toList.foldl Session.note
            session).server? index = some server → broken.within index server.nextId := by
          intro server found other same
          cases same
          rw [server?, servers_foldl_note] at found
          exact within server found link held
        exact ⟨(warned.setClient name known).note _ _, rfl⟩

theorem Mirrors.send (name : String) (command : Command) :
    Agree alike number probes index (session.send name command) (other.send name command) := by
  have named := mirrors.setOwn name defaultPath
  have within := mirrors.client_within name defaultPath
  simp only [Session.send, mirrors.client_eq]
  generalize session.client name defaultPath = client at named within ⊢
  have link : (client.renumber number index).link =
    client.link.map (Link.renumber number index) := rfl
  rw [link]
  cases held : client.link with
  | none => exact ⟨named, rfl⟩
  | some link =>
      have broken : (link.renumber number index).broken = link.broken := rfl
      simp only [Option.map_some, broken]
      split
      · exact ⟨named, rfl⟩
      · exact named.transmit lasting name held within command

theorem Mirrors.sendValue (name : String) (value : Int) :
    Agree alike number probes index (session.sendValue name value)
      (other.sendValue name value) := by
  simp only [Session.sendValue]
  cases Command.set value with
  | error error => exact ⟨mirrors, rfl⟩
  | ok command => exact mirrors.send lasting name command

theorem Mirrors.sendText (name text : String) :
    Agree alike number probes index (session.sendText name text) (other.sendText name text) := by
  simp only [Session.sendText]
  cases parseValue text with
  | error error => exact ⟨mirrors, rfl⟩
  | ok value => exact mirrors.sendValue lasting name value

theorem Mirrors.openWire (name path : String) :
    Agree alike number probes index (session.openWire name path) (other.openWire name path) := by
  have before := mirrors.wire_eq name
  simp only [Session.openWire, mirrors.tree]
  cases Address.dial session.tree path with
  | error cause => exact ⟨mirrors, rfl⟩
  | ok listener =>
      have opened := mirrors.openWire_join Server.Twins.next (Server.Twins.arrives lasting session.now) name
        listener
      simp only [before]
      cases session.wires.lookup name with
      | none => exact ⟨opened, rfl⟩
      | some wire => exact ⟨Mirrors.hangUp opened lasting wire.peer, rfl⟩

/-! Listening and stopping. -/

theorem Mirrors.clearStale (path : String) :
    Agree alike number probes index (session.clearStale path) (other.clearStale path) := by
  simp only [Session.clearStale, mirrors.tree]
  split
  · exact ⟨mirrors, rfl⟩
  · cases session.tree.nodeAt path with
    | error number => dsimp only; split <;> exact ⟨mirrors, rfl⟩
    | ok node =>
        dsimp only
        split
        · exact ⟨mirrors, rfl⟩
        · cases Address.dial session.tree path with
          | ok listener => exact ⟨mirrors.arrive lasting listener rfl rfl, rfl⟩
          | error cause =>
              dsimp only
              split
              · exact ⟨mirrors, rfl⟩
              · cases session.tree.unlink path with
                | ok tree => exact ⟨(mirrors.retree tree).note _ _, rfl⟩
                | error number => exact ⟨mirrors, rfl⟩

omit lasting in
theorem Mirrors.clearAddress (path : String) :
    Mirrors alike number probes index (session.clearAddress path) (other.clearAddress path) := by
  have failed (code : Int) : Mirrors alike number probes index
      (if code = SystemError.notFound then session else session.note (uncheckedRecord path code))
      (if code = SystemError.notFound then other else other.note (uncheckedRecord path code)) := by
    split
    · exact mirrors
    · exact mirrors.note _ _
  simp only [Session.clearAddress, mirrors.tree]
  cases session.tree.target path with
  | error code => exact failed code
  | ok node =>
      dsimp only
      split
      · exact mirrors
      · cases session.tree.unlink path with
        | ok tree => exact mirrors.retree tree
        | error code => exact failed code

omit lasting in
theorem Mirrors.setMode (path : String) (mode : Int) :
    Agree alike number probes index (session.setMode path mode) (other.setMode path mode) := by
  simp only [Session.setMode, mirrors.tree, mirrors.modeFailure]
  cases failure : session.modeFailure with
  | some code => exact ⟨mirrors.note _ _, rfl⟩
  | none =>
      dsimp only
      split
      · exact ⟨mirrors, rfl⟩
      · cases session.tree.changeMode path (mode % 4096) with
        | ok tree =>
            have changed := mirrors.retree tree
            rw [mirrors.modeFailure, failure] at changed
            exact ⟨changed, rfl⟩
        | error code => exact ⟨mirrors.note _ _, rfl⟩

theorem Mirrors.bindAddress (changed : Nat) (path : String) (mode : Int) :
    Agree alike number probes index (session.bindAddress changed path mode)
      (other.bindAddress changed path mode) := by
  simp only [Session.bindAddress, mirrors.tree]
  cases Address.bind session.tree path changed with
  | error cause => exact ⟨mirrors, rfl⟩
  | ok tree =>
      have whole : (Server.Operation.listen).isWhole := trivial
      have listens : Mirrors alike number probes index
          ({ session with tree := tree }.onServer changed Server.listen)
          ({ other with tree := tree }.onServer changed Server.listen) :=
        Mirrors.operate (mirrors.retree tree) lasting changed whole (ite_self _).symm
      obtain ⟨mine, theirs, error, here, there, settled⟩ :=
        (Mirrors.setMode listens path mode).elim
      dsimp only
      rw [here, there]
      cases error with
      | none => exact ⟨settled.note _ _, rfl⟩
      | some error => exact ⟨settled, rfl⟩

theorem Mirrors.listen (changed : Nat) :
    Agree alike number probes index (session.listen changed) (other.listen changed) := by
  have listens {server later : Server σ} (found : session.server? changed = some server)
      (there : other.server? changed = some later) (path : later.path = server.path)
      (mode : later.mode = server.mode) :
      Agree alike number probes index (session.listen changed) (other.listen changed) := by
    obtain ⟨mine, theirs, error, clears, again, cleared⟩ :=
      (mirrors.clearStale lasting (Path.normalize server.path)).elim
    simp only [Session.listen, found, there, path, mode, clears, again]
    cases error with
    | some error => exact ⟨cleared, rfl⟩
    | none => exact (Mirrors.clearAddress cleared server.path).bindAddress lasting changed _ _
  by_cases same : changed = index
  · obtain ⟨server, later, found, there, twins, _⟩ := mirrors.watched
    subst same
    exact listens found there twins.mirrors.path twins.mirrors.mode
  · have beside := mirrors.beside changed same
    cases found : session.server? changed with
    | none =>
        simp only [Session.listen, found, beside]
        exact ⟨mirrors, rfl⟩
    | some server => exact listens found (beside.trans found) rfl rfl

omit lasting in
theorem Mirrors.removeAddress (path : String) :
    Agree alike number probes index (session.removeAddress path) (other.removeAddress path) := by
  simp only [Session.removeAddress, mirrors.tree]
  split
  · exact ⟨mirrors, rfl⟩
  · cases session.tree.leadsSomewhere path with
    | error code => exact ⟨mirrors, rfl⟩
    | ok leads =>
        cases leads with
        | false => exact ⟨mirrors, rfl⟩
        | true =>
            dsimp only
            cases session.tree.unlink path with
            | ok tree => exact ⟨mirrors.retree tree, rfl⟩
            | error code => exact ⟨mirrors, rfl⟩

theorem Mirrors.stop (changed : Nat) :
    Agree alike number probes index (session.stop changed) (other.stop changed) := by
  have stops (server later : Server σ) (path : later.path = server.path)
      (listening : later.listening = server.listening) : Agree alike number probes index
        (({ session with tree := if server.listening then session.tree.retire changed
            else session.tree }.onServer changed Server.stop).removeAddress
              (Path.normalize server.path))
        (({ other with tree := if later.listening then other.tree.retire changed
            else other.tree }.onServer changed Server.stop).removeAddress
              (Path.normalize later.path)) := by
    rw [path, listening, mirrors.tree]
    have whole : (Server.Operation.stop).isWhole := trivial
    have halts := Mirrors.operate (mirrors.retree (if server.listening then
      session.tree.retire changed else session.tree)) lasting changed whole (ite_self _).symm
    exact Mirrors.removeAddress halts (Path.normalize server.path)
  simp only [Session.stop]
  by_cases same : changed = index
  · obtain ⟨server, later, found, there, twins, _⟩ := mirrors.watched
    subst same
    rw [found, there]
    exact stops server later twins.mirrors.path twins.mirrors.listening
  · rw [mirrors.beside changed same]
    cases session.server? changed with
    | none => exact ⟨mirrors, rfl⟩
    | some server => exact stops server server rfl rfl

omit lasting mirrors [Outlet σ] in
theorem Parallel.weaken {after : Server σ → Server σ → Prop} {slack : Nat}
    (parallel : Parallel number index slack related session other)
    (implies : ∀ server later, related server later → after server later) :
    Parallel number index slack after session other := by
  obtain ⟨server, later, found, there, relates, knows⟩ := parallel.watched
  exact { parallel with watched := ⟨server, later, found, there, implies _ _ relates, knows⟩ }

theorem Mirrors.trails :
    Parallel number index 0 (Server.Trails alike number probes session.now) session other :=
  mirrors.weaken fun _ _ twins => twins.trails lasting session.now

theorem Mirrors.leaveLink (client : Client) :
    Parallel number index 0 (Server.Trails alike number probes session.now)
      (session.leaveLink client) (other.leaveLink (client.renumber number index)) := by
  have link : (client.renumber number index).link =
    client.link.map (Link.renumber number index) := rfl
  simp only [Session.leaveLink, link]
  cases client.link with
  | none => exact mirrors.trails lasting
  | some link =>
      simp only [Option.map_some, Session.leaveForAnother, Link.renumber]
      split
      · exact (mirrors.trails lasting).note _ _
      · cases link.peer with
        | unattended => exact mirrors.trails lasting
        | server here id =>
            rw [mirrors.now]
            by_cases same : here = index
            · subst same
              simp only [Peer.renumber, if_true]
              refine mirrors.here fun server later _ _ twins => ?_
              exact ⟨twins.withdraw lasting session.now id,
                server.nextId_withdraw session.now id⟩
            · simp only [Peer.renumber, if_neg same]
              exact (mirrors.trails lasting).elsewhere same _

def settleAll (session : Session σ) (indices : List Nat) : Session σ :=
  indices.foldl (fun session index => session.onServer index fun server =>
    server.settle session.now) session

omit lasting mirrors in
theorem Parallel.settleAll {slack : Nat} {indices : List Nat} (others : index ∉ indices)
    (parallel : Parallel number index slack related session other) :
    Parallel number index slack related (session.settleAll indices) (other.settleAll indices) ∧
      (session.settleAll indices).now = session.now := by
  induction indices generalizing session other with
  | nil => exact ⟨parallel, rfl⟩
  | cons here rest ih =>
      obtain ⟨differs, others⟩ := List.ne_and_not_mem_of_not_mem_cons others
      have settles := parallel.elsewhere (Ne.symm differs) fun server => server.settle session.now
      obtain ⟨last, now⟩ := ih others settles
      rw [Session.settleAll, Session.settleAll, List.foldl_cons, List.foldl_cons, parallel.now]
      exact ⟨last, now.trans (now_onServer ..)⟩

omit lasting mirrors in
theorem Parallel.settleServers
    (parallel : Parallel number index 0 (Server.Trails alike number probes session.now) session
      other) : Mirrors alike number probes index session.settleServers other.settleServers := by
  obtain ⟨server, _, found, _⟩ := parallel.watched
  have bound : index ∈ List.range session.servers.length :=
    List.mem_range.mpr (List.getElem?_eq_some_iff.mp found).1
  obtain ⟨before, after, split⟩ := List.append_of_mem bound
  have distinct : (before ++ index :: after).Nodup := split ▸ List.nodup_range
  obtain ⟨_, unique, disjoint⟩ := List.nodup_append.mp distinct
  have early : index ∉ before := fun member => disjoint _ member _ List.mem_cons_self rfl
  obtain ⟨begun, now⟩ := parallel.settleAll early
  have here : Mirrors alike number probes index
      ((session.settleAll before).onServer index fun server => server.settle session.now)
      ((other.settleAll before).onServer index fun server => server.settle session.now) := by
    refine begun.here fun server later _ _ trails => ⟨trails.settle, ?_⟩
    exact (server.nextId_settle session.now).ge
  obtain ⟨last, _⟩ := here.settleAll (List.nodup_cons.mp unique).1
  have shape (session : Session σ) : session.settleAll (before ++ index :: after) =
      ((session.settleAll before).onServer index fun server =>
        server.settle (session.settleAll before).now).settleAll after := by
    simp [Session.settleAll]
  have theirs : (other.settleAll before).now = session.now := begun.now.trans now
  simp only [Session.settleServers, parallel.count, split]
  change Mirrors alike number probes index (session.settleAll (before ++ index :: after))
    (other.settleAll (before ++ index :: after))
  rw [shape, shape, now, theirs]
  exact last

theorem Mirrors.reconnect (name : String) :
    Agree alike number probes index (session.reconnect name) (other.reconnect name) := by
  let freed : Client := { session.client name defaultPath with link := none }
  have within (server : Server σ) : freed.within index server.nextId :=
    fun link held => nomatch held
  have traffic (operation : Server.Operation) (_ : operation.isTraffic) : True := trivial
  have leaves := mirrors.leaveLink lasting (session.client name defaultPath)
  have left := (@shares_leaveLink _ _ index _ traffic session
    (session.client name defaultPath)).1
  have joins := (@shares_connectClient _ _ index _ traffic
    (session.leaveLink (session.client name defaultPath)) name freed).1
  obtain ⟨connects, answers⟩ := leaves.connectClient (fun _ _ trails => trails.next)
    (fun _ _ trails => left ▸ (trails.arrive lasting rfl rfl).reported) name
    fun server _ => within server
  rw [← joins.trans left] at connects
  have settles := connects.settleServers
  simp only [Session.reconnect, mirrors.client_eq]
  exact ⟨settles, answers⟩

end Traffic

/-! Time. -/

theorem filter_mergeSort {α : Type} {before : α → α → Bool}
    (trans : ∀ first second third, before first second → before second third →
      before first third)
    (total : ∀ first second, before first second || before second first) (keeps : α → Bool)
    (items : List α) :
    (items.mergeSort before).filter keeps = (items.filter keeps).mergeSort before := by
  induction items with
  | nil => simp
  | cons item rest ih =>
      obtain ⟨early, late, sorted, others, behind⟩ := List.mergeSort_cons trans total item rest
      by_cases kept : keeps item
      · obtain ⟨first, last, ordered, apart, after⟩ :=
          List.mergeSort_cons trans total item (rest.filter keeps)
        have parts : early.filter keeps ++ late.filter keeps = first ++ last := by
          rw [← List.filter_append, ← others, ih, apart]
        have pairs := List.pairwise_mergeSort trans total (item :: rest)
        have again := List.pairwise_mergeSort trans total (item :: rest.filter keeps)
        rw [sorted] at pairs
        rw [ordered] at again
        have behindLate := (List.pairwise_cons.mp (List.pairwise_append.mp pairs).2.1).1
        have behindLast := (List.pairwise_cons.mp (List.pairwise_append.mp again).2.1).1
        -- Those in front of the new element are those that it does not come before.
        have front {ahead follow : List α} (early : ∀ other ∈ ahead, (!before item other) = true)
            (late : ∀ other ∈ follow, before item other = true) :
            (ahead ++ follow).filter (fun other => !before item other) = ahead := by
          rw [List.filter_append, List.filter_eq_self.mpr early,
            List.filter_eq_nil_iff.mpr (by simpa using late), List.append_nil]
        have same : early.filter keeps = first := by
          have ours := @front (early.filter keeps) (late.filter keeps)
            (fun other member => behind other (List.mem_filter.mp member).1)
            fun other member => behindLate other (List.mem_filter.mp member).1
          rw [← ours, parts, front after behindLast]
        rw [same, List.append_cancel_left_eq] at parts
        rw [sorted, List.filter_append, List.filter_cons_of_pos kept, List.filter_cons_of_pos kept,
          ordered, same, parts]
      · rw [sorted, List.filter_append, List.filter_cons_of_neg kept, ← List.filter_append,
          ← others, ih, List.filter_cons_of_neg kept]

omit [Outlet σ] in
theorem frame_foldl_onServer {α : Type} (entries : List (Nat × α))
    (change : α → Server σ → Server σ) (session : Session σ) :
    let last := entries.foldl (fun session entry => session.onServer entry.1 (change entry.2)) session
    last.tree = session.tree ∧ last.modeFailure = session.modeFailure ∧
      last.clients = session.clients ∧ last.wires = session.wires ∧
      last.servers.length = session.servers.length := by
  induction entries generalizing session with
  | nil => simp
  | cons entry rest ih =>
      obtain ⟨tree, modeFailure, clients, wires, count⟩ :=
        ih (session.onServer entry.1 (change entry.2))
      obtain ⟨sameTree, _, sameFailure, sameClients, sameWires⟩ :=
        session.frame_onServer entry.1 (change entry.2)
      exact ⟨tree.trans sameTree, modeFailure.trans sameFailure, clients.trans sameClients,
        wires.trans sameWires, count.trans (length_onServer ..)⟩

omit [Outlet σ] in
theorem dueAt_congr {here : Nat} (count : other.servers.length = session.servers.length)
    (same : other.server? here = session.server? here) (now : Rat) :
    other.dueAt here now = session.dueAt here now := by
  have trans (first second third : Rat × Nat × Handler) (early : decide (first.1 ≤ second.1) = true)
      (late : decide (second.1 ≤ third.1) = true) : decide (first.1 ≤ third.1) = true :=
    decide_eq_true ((of_decide_eq_true early).trans (of_decide_eq_true late))
  have total (first second : Rat × Nat × Handler) :
      (decide (first.1 ≤ second.1) || decide (second.1 ≤ first.1)) = true := by
    simpa using le_total first.1 second.1
  have selected (items : List (Rat × Nat × Handler)) :
      ((items.mergeSort fun first second => decide (first.1 ≤ second.1)).map Prod.snd).filter
          (fun entry => entry.1 == here) =
        ((items.filter fun item => item.2.1 == here).mergeSort fun first second =>
          decide (first.1 ≤ second.1)).map Prod.snd := by
    rw [List.filter_map, ← filter_mergeSort trans total]
    rfl
  simp only [dueAt, dueHandlers, selected, count, List.filter_flatMap]
  refine congrArg (fun items : List (Rat × Nat × Handler) => ((items.mergeSort fun first second =>
    decide (first.1 ≤ second.1)).map Prod.snd).map Prod.snd) (List.flatMap_congr fun index _ => ?_)
  by_cases found : index = here
  · rw [found, same]
  · have nothing (server : Server σ) : List.filter
        (fun item : Rat × Nat × Handler => item.2.1 == here)
        ((server.handlers.filter (server.isDue now)).filterMap fun handler =>
          (server.deadline? handler).map fun deadline => (deadline, index, handler)) = [] := by
      refine List.filter_eq_nil_iff.mpr fun item member => ?_
      obtain ⟨handler, _, timed⟩ := List.mem_filterMap.mp member
      obtain ⟨deadline, _, rfl⟩ := Option.map_eq_some_iff.mp timed
      simpa using found
    refine Eq.trans (b := []) ?_ (Eq.symm ?_)
    · cases other.server? index with
      | none => rfl
      | some server => exact nothing server
    · cases session.server? index with
      | none => rfl
      | some server => exact nothing server

theorem Mirrors.advance (mirrors : Mirrors alike number probes index session other)
    (lasting : Server.Lasting alike) (seconds : Rat) :
    Mirrors alike number probes index (session.advance seconds) (other.advance seconds) := by
  have frame (session : Session σ) : (session.advance seconds).tree = session.tree ∧
      (session.advance seconds).modeFailure = session.modeFailure ∧
      (session.advance seconds).clients = session.clients ∧
      (session.advance seconds).wires = session.wires ∧
      (session.advance seconds).servers.length = session.servers.length := by
    obtain ⟨tree, modeFailure, clients, wires, count⟩ := frame_foldl_onServer
      (session.dueHandlers (session.now + seconds))
      (fun handler server => server.expire (session.now + seconds) handler)
      { session with now := session.now + seconds }
    obtain ⟨tree', modeFailure', clients', wires', count'⟩ := frame_foldl_onServer
      (session.dueHandlers (session.now + seconds))
      (fun handler server => server.leaveExpired (session.now + seconds) handler)
      ((session.dueHandlers (session.now + seconds)).foldl (fun session' entry =>
        session'.onServer entry.1 fun server => server.expire (session.now + seconds) entry.2)
          { session with now := session.now + seconds })
    exact ⟨tree'.trans tree, modeFailure'.trans modeFailure, clients'.trans clients,
      wires'.trans wires, count'.trans count⟩
  obtain ⟨tree, modeFailure, clients, wires, count⟩ := frame session
  obtain ⟨tree', modeFailure', clients', wires', count'⟩ := frame other
  obtain ⟨server, later, found, there, twins, knows⟩ := mirrors.watched
  have late := dueAt_perm found (session.now + seconds)
  have again := dueAt_perm there (session.now + seconds)
  obtain ⟨⟨_, run⟩, _⟩ := twins.first.advance late
  have known := knows.mono (Nat.add_le_add_right run.nextId_le 0)
  refine ⟨?_, ?_, ?_, ?_, fun here apart => ?_, ?_, ?_, _, _, ?_, ?_, twins.advance lasting late again,
    ?_, ?_⟩
  · rw [tree, tree', mirrors.tree]
  · rw [now_advance, now_advance, mirrors.now]
  · rw [modeFailure, modeFailure', mirrors.modeFailure]
  · rw [count, count', mirrors.count]
  · rw [server?_advance, server?_advance, mirrors.now, mirrors.beside here apart,
      dueAt_congr mirrors.count (mirrors.beside here apart)]
  · rw [clients, clients', mirrors.clients]
  · rw [wires, wires', mirrors.wires]
  · rw [server?_advance, found, Option.map_some]
  · rw [server?_advance, there, Option.map_some, mirrors.now]
  · exact clients ▸ known.1
  · exact wires ▸ known.2

theorem Mirrors.onWire (mirrors : Mirrors alike number probes index session other) (name : String)
    {mine theirs : Wire → Session σ × Result}
    (agree : ∀ wire, session.wires.lookup name = some wire →
      Agree alike number probes index (mine wire) (theirs (Wire.renumber number index wire))) :
    Agree alike number probes index (session.onWire name mine) (other.onWire name theirs) := by
  simp only [Session.onWire, mirrors.wire_eq]
  cases found : session.wires.lookup name with
  | none => exact ⟨mirrors, rfl⟩
  | some wire => exact agree wire found

theorem Mirrors.perform (mirrors : Mirrors alike number probes index session other)
    (lasting : Server.Lasting alike) (task : Nat) {request : Step}
    (still : ∀ duty, request ≠ .start index duty) :
    Agree alike number probes index (session.perform task request)
      (other.perform task request) := by
  have known (name : String) {wire : Wire} (found : session.wires.lookup name = some wire) :
      ∀ server, session.server? index = some server →
        wire.peer.within index server.nextId := by
    intro server here
    obtain ⟨watched, _, there, _, _, knows⟩ := mirrors.watched
    obtain rfl : server = watched := Option.some.inj (here.symm.trans there)
    exact knows.2 _ (mem_of_lookup_eq found)
  cases request with
  | listen changed =>
      obtain ⟨settled, answers⟩ := mirrors.listen lasting changed
      exact ⟨settled, congrArg (resultOf Failure.listen) answers⟩
  | stop changed =>
      obtain ⟨settled, answers⟩ := mirrors.stop lasting changed
      exact ⟨settled, congrArg (resultOf Failure.path) answers⟩
  | start changed duty =>
      have differs : changed ≠ index := fun same => still duty (same ▸ rfl)
      refine ⟨?_, rfl⟩
      simp only [Session.perform, mirrors.now]
      exact mirrors.elsewhere differs _
  | inject changed bytes ending closeFails =>
      exact ⟨mirrors.arrive lasting (.server changed) rfl rfl, rfl⟩
  | advance seconds => exact ⟨mirrors.advance lasting seconds, rfl⟩
  | isLive path =>
      simp only [Session.perform, Session.isLive, mirrors.tree]
      cases Address.dial session.tree path with
      | ok listener => exact ⟨mirrors.arrive lasting listener rfl rfl, rfl⟩
      | error cause => exact ⟨mirrors, rfl⟩
  | modeOf path =>
      refine ⟨mirrors, ?_⟩
      simp only [Session.perform, Session.modeOf, mirrors.tree]
  | connect name path =>
      obtain ⟨settled, answers⟩ := mirrors.connect lasting name path
      exact ⟨settled, congrArg (resultOf Failure.connect) answers⟩
  | reconnect name =>
      obtain ⟨settled, answers⟩ := mirrors.reconnect lasting name
      exact ⟨settled, congrArg (resultOf Failure.connect) answers⟩
  | closeClient name => exact ⟨mirrors.closeClient lasting name, rfl⟩
  | send name command =>
      obtain ⟨settled, answers⟩ := mirrors.send lasting name command
      exact ⟨settled, congrArg sendResultOf answers⟩
  | sendValue name value =>
      obtain ⟨settled, answers⟩ := mirrors.sendValue lasting name value
      exact ⟨settled, congrArg sendResultOf answers⟩
  | sendText name text =>
      obtain ⟨settled, answers⟩ := mirrors.sendText lasting name text
      exact ⟨settled, congrArg sendResultOf answers⟩
  | openWire name path =>
      obtain ⟨mine, theirs, cause, here, there, settled⟩ :=
        (mirrors.openWire lasting name path).elim
      simp only [Session.perform]
      rw [here, there]
      cases cause <;> exact ⟨settled, rfl⟩
  | writeWire name bytes =>
      refine mirrors.onWire name fun wire _ => ?_
      have opened : other.isOpen (Wire.renumber number index wire).peer =
        session.isOpen wire.peer := mirrors.isOpen_eq wire.peer
      have writes : other.wireWrites (Wire.renumber number index wire) = session.wireWrites wire :=
        congrArg (!wire.shut && ·) opened
      simp only [Session.writeWire, writes]
      cases session.wireWrites wire with
      | true => exact ⟨mirrors.deliver lasting wire.peer bytes, rfl⟩
      | false => exact ⟨mirrors, rfl⟩
  | endWire name =>
      refine mirrors.onWire name fun wire found => ⟨?_, rfl⟩
      let closed : Wire := { wire with shut := true }
      have held := known name found
      have within : ∀ server, session.server? index = some server →
        closed.peer.within index (server.nextId + 0) := held
      exact Mirrors.hangUp (mirrors.setWire name within) lasting wire.peer
  | closeWire name =>
      refine mirrors.onWire name fun wire _ => ⟨?_, rfl⟩
      exact Mirrors.hangUp (mirrors.dropWire name) lasting wire.peer
  | readWire name =>
      refine mirrors.onWire name fun wire _ => ⟨mirrors, ?_⟩
      have opened : other.isOpen (Wire.renumber number index wire).peer =
        session.isOpen wire.peer := mirrors.isOpen_eq wire.peer
      simp only [opened]

end Session
end SteeringChannel
