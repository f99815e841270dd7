import SteeringChannel.Proofs.Session.Reopening

/-!
The socket of a server that listens. The path of the server names it from then on, in either
spelling; what clients do leaves the file system alone, and after a stop nothing is left at the path.
-/

namespace SteeringChannel.Session

variable {σ : Type} [Outlet σ] {session cleared next : Session σ} {index : Nat} {server : Server σ}
  {path : String}

/-- Both spellings of a path name a socket of a server, and lead to it. -/
def Lodged (session : Session σ) (index : Nat) (path : String) : Prop :=
  Path.hasNul (Path.normalize path) = false ∧
    ∃ place, ∀ spelling ∈ [path, Path.normalize path], ∀ followLast, ∃ entry,
      session.tree.lookup followLast spelling = .ok (place, entry) ∧
        entry.node = .socket (.served index)

omit [Outlet σ] in
theorem Lodged.same (lodged : session.Lodged index path) (tree : next.tree = session.tree) :
    next.Lodged index path := by
  rw [Lodged, tree]
  exact lodged

omit [Outlet σ] in
theorem Lodged.setMode (lodged : session.Lodged index path) (other : String) (mode : Int) :
    (session.setMode other mode).1.Lodged index path := by
  simp only [Session.setMode]
  split
  · exact lodged.same rfl
  · split
    · exact lodged
    · split
      next changed changes =>
        obtain ⟨clean, place, names⟩ := lodged
        refine ⟨clean, place, fun spelling spelt followLast => ?_⟩
        obtain ⟨entry, looked, socket⟩ := names spelling spelt followLast
        obtain ⟨bits, there⟩ := Filesystem.lookup_changeMode changes looked
        exact ⟨_, there, socket⟩
      next => exact lodged.same rfl

omit [Outlet σ] in
theorem bindAddress_lodges (clean : Path.hasNul (Path.normalize path) = false)
    (absent : session.tree.nodeAt (Path.normalize path) = .error SystemError.notFound) {mode : Int}
    (binds : session.bindAddress index path mode = (next, none)) : next.Lodged index path := by
  have short := Filesystem.short_of_absent absent
  rcases bindAddress_cases session index path mode with ⟨_, _, shape⟩ | ⟨tree, records, bound, shape⟩ <;>
    rw [shape] at binds
  · simp at binds
  obtain ⟨place, _, located, free, rfl⟩ := Filesystem.bind_eq_ok bound
  obtain ⟨rfl, _⟩ := Prod.mk.inj binds
  refine Lodged.same (Lodged.setMode ?_ path mode) (tree_foldl_note ..)
  refine ⟨clean, place, fun spelling spelt followLast => ?_⟩
  have here : session.tree.locate false spelling = .ok (.free place) := by
    rcases List.mem_pair.mp spelt with rfl | rfl
    · exact located
    · exact Filesystem.locate_normalize located short
  rw [tree_onServer]
  exact ⟨_, Filesystem.lookup_add here free (by simp) _, rfl⟩

theorem listen_lodges (found : session.server? index = some server)
    (listens : session.listen index = (next, none)) : next.Lodged index server.path := by
  cases result : session.clearStale (Path.normalize server.path) with
  | mk cleared error =>
    cases error with
    | some error =>
        rw [listen_of_fails found result] at listens
        simp at listens
    | none =>
        rw [listen_of_clears found result] at listens
        have absent := absent_of_clears result
        refine bindAddress_lodges (clearStale_keeps result).1 ?_ listens
        rw [tree_clearAddress absent]
        exact absent

def Step.isTraffic : Step → Prop
  | .listen _ | .stop _ | .start _ _ => False
  | _ => True

theorem tree_arrive (session : Session σ) (listener : Address.Listener) (arrival : Connection) :
    (session.arrive listener arrival).tree = session.tree := by
  cases listener with
  | unattended => rfl
  | server index => exact tree_onServer ..

theorem tree_hangUp (session : Session σ) (peer : Peer) :
    (session.hangUp peer).tree = session.tree := by
  cases peer with
  | unattended => rfl
  | server index id => exact tree_onServer ..

theorem tree_deliver (session : Session σ) (peer : Peer) (bytes : List UInt8) :
    (session.deliver peer bytes).tree = session.tree := by
  cases peer with
  | unattended => rfl
  | server index id => exact tree_onServer ..

omit [Outlet σ] in
theorem tree_foldl_onServer {α : Type} (entries : List α) (index : α → Nat)
    (change : Session σ → α → Server σ → Server σ) (session : Session σ) :
    (entries.foldl (fun session entry =>
      session.onServer (index entry) (change session entry)) session).tree = session.tree := by
  induction entries generalizing session with
  | nil => rfl
  | cons entry rest ih => exact (ih _).trans (tree_onServer ..)

theorem tree_connectClient (session : Session σ) (name : String) (client : Client) :
    (session.connectClient name client).1.tree = session.tree := by
  simp only [connectClient]
  split
  · rfl
  · exact tree_arrive ..

theorem tree_reconnect (session : Session σ) (name : String) :
    (session.reconnect name).1.tree = session.tree := by
  have left (link : Link) : (session.leaveForAnother link).tree = session.tree := by
    simp only [leaveForAnother]
    split
    · rfl
    · split
      · rfl
      · exact tree_onServer ..
  simp only [reconnect, settleServers, leaveLink]
  refine (tree_foldl_onServer _ id (fun session _ server => server.settle session.now) _).trans ?_
  refine (tree_connectClient ..).trans ?_
  split
  · rfl
  · exact left _

theorem tree_send (session : Session σ) (name : String) (command : Command) :
    (session.send name command).1.tree = session.tree := by
  have noted (session : Session σ) :
      ((Client.ambiguityRecord? command).toList.foldl note session).tree = session.tree :=
    tree_foldl_note ..
  simp only [send]
  split
  · split
    · rfl
    · simp only [transmit]
      split
      · exact noted _
      · split
        · exact (tree_deliver ..).trans (noted _)
        · exact noted _
  · rfl

theorem tree_perform (session : Session σ) (task : Nat) {request : Step}
    (traffic : request.isTraffic) : (session.perform task request).1.tree = session.tree := by
  cases request with
  | listen index => exact traffic.elim
  | stop index => exact traffic.elim
  | start index duty => exact traffic.elim
  | inject index bytes ending closeFails => exact tree_onServer ..
  | advance seconds =>
      simp only [perform, advance]
      exact (tree_foldl_onServer _ Prod.fst (fun _ entry server =>
        server.leaveExpired (session.now + seconds) entry.2) _).trans
          (tree_foldl_onServer _ Prod.fst (fun _ entry server =>
            server.expire (session.now + seconds) entry.2) _)
  | isLive path =>
      simp only [perform, isLive]
      split
      · exact tree_probe ..
      · rfl
  | modeOf path => rfl
  | connect name path => exact tree_connectClient ..
  | reconnect name => exact tree_reconnect ..
  | closeClient name =>
      simp only [perform, closeClient]
      split
      · rfl
      · split
        · rfl
        · exact tree_hangUp ..
  | send name command => exact tree_send ..
  | sendValue name value =>
      simp only [perform, sendValue]
      split
      · rfl
      · exact tree_send ..
  | sendText name text =>
      simp only [perform, sendText]
      split
      · rfl
      · simp only [sendValue]
        split
        · rfl
        · exact tree_send ..
  | openWire name path =>
      simp only [perform, openWire]
      cases Address.dial session.tree path with
      | error cause => rfl
      | ok listener =>
          have arrives := tree_arrive (session.setWire name { peer := session.peerOf listener })
            listener { id := 0 }
          cases session.wires.lookup name with
          | none => exact arrives
          | some before => exact (tree_hangUp ..).trans arrives
  | writeWire name bytes =>
      simp only [perform, onWire]
      split
      · simp only [writeWire]
        split
        · exact tree_deliver ..
        · rfl
      · rfl
  | endWire name =>
      simp only [perform, onWire]
      split
      · exact tree_hangUp ..
      · rfl
  | closeWire name =>
      simp only [perform, onWire]
      split
      · exact tree_hangUp ..
      · rfl
  | readWire name =>
      simp only [perform, onWire]
      split <;> rfl

omit [Outlet σ] in
/-- Where a server is lodged its stop succeeds, and leaves nothing there. -/
theorem Lodged.stop (lodged : session.Lodged index server.path)
    (found : session.server? index = some server) : ∃ next, session.stop index = (next, none) ∧
      ∀ spelling ∈ [server.path, Path.normalize server.path],
        next.tree.isThereItself spelling = false := by
  obtain ⟨clean, place, names⟩ := lodged
  let tree := if server.listening then session.tree.retire index else session.tree
  have named : ∀ spelling ∈ [server.path, Path.normalize server.path], ∀ followLast, ∃ entry kind,
      tree.lookup followLast spelling = .ok (place, entry) ∧ entry.node = .socket kind := by
    intro spelling spelt followLast
    obtain ⟨entry, looked, socket⟩ := names spelling spelt followLast
    simp only [tree]
    split
    · obtain ⟨kind, retired⟩ := Filesystem.retireNode_socket index (.served index)
      exact ⟨_, kind, by rw [Filesystem.lookup_retire, looked]; rfl, socket ▸ retired⟩
    · exact ⟨entry, _, looked, socket⟩
  let stopped := { session with tree := tree }.onServer index Server.stop
  have same : stopped.tree = tree := tree_onServer ..
  have somewhere : stopped.tree.leadsSomewhere (Path.normalize server.path) = .ok true := by
    obtain ⟨entry, _, looked, _⟩ := named (Path.normalize server.path) (by simp) true
    simp [same, Filesystem.leadsSomewhere, Filesystem.target, looked, Except.map]
  have unlinks : stopped.tree.unlink (Path.normalize server.path) = .ok (tree.remove place) := by
    obtain ⟨entry, kind, looked, socket⟩ := named (Path.normalize server.path) (by simp) false
    simp [same, Filesystem.unlink, looked, socket]
  have stops : session.stop index = stopped.removeAddress (Path.normalize server.path) := by
    simp only [Session.stop, found]
    rfl
  refine ⟨{ stopped with tree := tree.remove place }, ?_, fun spelling spelt => ?_⟩
  · simp [stops, removeAddress, clean, somewhere, unlinks]
  · obtain ⟨entry, kind, looked, socket⟩ := named spelling spelt false
    have gone := Filesystem.lookup_remove looked socket
    simp [Filesystem.isThereItself, Filesystem.nodeAt, gone, Except.map, Except.isOk, Except.toBool]

end SteeringChannel.Session
