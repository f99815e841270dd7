import SteeringChannel.Proofs.Server.Admission
import SteeringChannel.Proofs.Session.Course
import SteeringChannel.Proofs.Session.Listening

/-!
Listening that succeeds. The server can be dialled at its path then, whatever has happened before;
but only one that was never stopped admits anybody, and a stopped one turns everybody away.
-/

namespace SteeringChannel.Session

variable {σ : Type} [Outlet σ] {session cleared next : Session σ} {index : Nat} {server : Server σ}
  {path : String}

theorem clearStale_keeps (clears : session.clearStale path = (cleared, none)) :
    Path.hasNul path = false ∧ cleared.servers = session.servers := by
  simp only [clearStale] at clears
  split at clears
  · simp at clears
  next clean =>
    refine ⟨Bool.not_eq_true _ ▸ clean, ?_⟩
    split at clears
    · split at clears
      · exact (Prod.mk.inj clears).1 ▸ rfl
      · simp at clears
    · split at clears
      · simp at clears
      · split at clears
        · simp at clears
        · split at clears
          · simp at clears
          · split at clears
            · exact (Prod.mk.inj clears).1 ▸ rfl
            · simp at clears

omit [Outlet σ] in
theorem dial_setMode (clean : Path.hasNul path = false) (short : path.utf8ByteSize ≤ Address.limit)
    {place : Place} {entry : Entry} (looked : session.tree.lookup false path = .ok (place, entry))
    (socket : entry.node = .socket (.served index)) (mode : Int) :
    Address.dial (session.setMode path mode).1.tree path = .ok (.server index) := by
  have dials {tree : Filesystem} {entry : Entry} (looked : tree.lookup false path = .ok (place, entry))
      (socket : entry.node = .socket (.served index)) :
      Address.dial tree path = .ok (.server index) := by
    rw [Address.dial_socket clean looked socket, if_neg (Nat.not_lt.mpr short), socket]
    rfl
  simp only [setMode]
  split
  · exact dials looked socket
  · split
    · exact dials looked socket
    · split
      next changed changes =>
        obtain ⟨bits, there⟩ := Filesystem.lookup_changeMode changes looked
        exact dials there socket
      next => exact dials looked socket

omit [Outlet σ] in
theorem bindAddress_listens (found : session.server? index = some server)
    (clean : Path.hasNul path = false) {tree : Filesystem}
    (bound : Address.bind session.tree path index = .ok tree) (mode : Int) :
    let next := (session.bindAddress index path mode).1
    next.server? index = some server.listen.reported ∧
      Address.dial next.tree path = .ok (.server index) := by
  rcases bindAddress_cases session index path mode with
    ⟨_, refused, _⟩ | ⟨tree, records, bound, shape⟩
  · cases bound.symm.trans refused
  obtain ⟨place, short, located, free, rfl⟩ := Filesystem.bind_eq_ok bound
  rw [shape]
  simp only [server?, servers_foldl_note, servers_setMode, tree_foldl_note]
  constructor
  · rw [← server?, server?_onServer, if_pos rfl]
    exact congrArg (Option.map fun server => server.listen.reported) found
  · let tree := session.tree.add place (.socket (.served index)) Filesystem.directoryMode
    have same : ({ session with tree := tree }.onServer index Server.listen).tree = tree :=
      tree_onServer ..
    have made : tree.lookup false path =
        .ok (place, ⟨place, .socket (.served index), Filesystem.directoryMode⟩) :=
      Filesystem.lookup_add located free (by simp) _
    exact dial_setMode clean short (same ▸ made) rfl mode

theorem listen_listens (found : session.server? index = some server)
    (listens : session.listen index = (next, none)) :
    next.server? index = some server.listen.reported ∧
      Address.dial next.tree server.path = .ok (.server index) := by
  cases result : session.clearStale (Path.normalize server.path) with
  | mk cleared error =>
    cases error with
    | some error =>
        rw [listen_of_fails found result] at listens
        simp at listens
    | none =>
        rw [listen_of_clears found result] at listens
        obtain ⟨clean, servers⟩ := clearStale_keeps result
        have there : (cleared.clearAddress server.path).server? index = some server := by
          simp only [server?] at found ⊢
          rw [servers_clearAddress, servers, found]
        rcases bindAddress_cases (cleared.clearAddress server.path) index server.path server.mode
          with ⟨_, _, refused⟩ | ⟨tree, _, bound, _⟩
        · rw [refused] at listens
          cases listens
        · have bound := bindAddress_listens there (Path.hasNul_of_normalize clean) bound server.mode
          rwa [listens] at bound

theorem connect_arrives (found : session.server? index = some server) {name : String}
    (dials : Address.dial session.tree (session.client name path).path = .ok (.server index)) :
    ∃ after, session.connect name path = (after, none) ∧
      after.server? index = some (server.arrive session.now { id := 0 }).reported := by
  simp only [connect, connectClient, dials]
  refine ⟨_, rfl, ?_⟩
  simp only [arrive]
  rw [server?_onServer, if_pos rfl]
  exact congrArg (Option.map _) found

/-- Whenever listening succeeds, the server can be dialled at its path. If it was never stopped, it
then listens, tasks wait for connections, and a client that connects is admitted, if need be once no
other connection is open. If it was stopped before, it refuses every task and turns every client
away. -/
theorem listen_admits_unless_stopped {first : Server σ} (fresh : first.Fresh)
    (found : session.server? index = some first) (number : Nat) (requests : List Step)
    (listens : (session.run number requests).1.listen index = (next, none)) :
    ∃ server, next.server? index = some server ∧
      Address.dial next.tree server.path = .ok (.server index) ∧
      (.stop index ∉ requests → server.isListening = true ∧
        (∀ waiter, server.await waiter = { server with waiters := server.waiters ++ [waiter] }) ∧
        ∀ name path, (next.client name path).path = server.path →
          (server.rejecting = true → ∀ id, server.isOpen id = false) →
          ∃ after later, next.connect name path = (after, none) ∧
            after.server? index = some later ∧
            server.nextId ∈ later.accepted ++ later.queue ∧
            (server.neverWaits = false → later.isOpen server.nextId = true)) ∧
      (.stop index ∈ requests → server.isListening = false ∧
        (∀ waiter, server.await waiter = server.refuse waiter (.notOpen server.path)) ∧
        ∀ name path, (next.client name path).path = server.path →
          ∃ after later, next.connect name path = (after, none) ∧
            after.server? index = some later ∧
            later.standing? server.nextId = some .turnedAway ∧
            later.isOpen server.nextId = false) := by
  obtain ⟨moves, before, there, run, settled⟩ :=
    run_of_fresh fresh found number (keepsTo_anybody session index number requests)
  obtain ⟨same, also, stops⟩ := stopped_run found number requests
  obtain rfl : before = same := Option.some.inj (there.symm.trans also)
  have unstopped : first.stopped = false := by rw [fresh]
  simp only [unstopped, Bool.false_eq_true, false_or] at stops
  have coherent := run.coherent fresh.coherent
  have after : before.listen.reported.Coherent :=
    coherent.elsewhere before.waiters [] [] true
  obtain ⟨listening, dials⟩ := listen_listens there listens
  refine ⟨before.listen.reported, listening, dials, fun never => ?_, fun once => ?_⟩
  · have running : before.stopped = false := by
      rw [← Bool.not_eq_true, stops]
      exact never
    have listens : before.listen.reported.isListening = true := by
      simp [Server.isListening, Server.listen, Server.reported, running]
    refine ⟨listens, fun waiter => by simp [Server.await, listens], fun name path same free => ?_⟩
    obtain ⟨later, connects, arrives⟩ := connect_arrives listening (same ▸ dials)
    refine ⟨later, _, connects, arrives, ?_⟩
    have admits : before.listen.reported.fate = .queued := by
      have vacant : before.rejecting = true → before.active = none := fun rejects =>
        settled.vacant coherent (run.attended fresh running) running (free rejects)
      simp only [Server.fate, Server.listen, Server.reported, running, Bool.false_eq_true, if_false]
      refine if_neg fun taken => ?_
      obtain ⟨rejects, taken⟩ := Bool.and_eq_true_iff.mp taken
      simp [vacant rejects] at taken
    obtain ⟨line, opened⟩ := Server.arrive_admits after admits
      (show ({ id := 0 } : Connection).taken = [] from rfl) rfl next.now
    exact ⟨line, fun waits => opened waits rfl⟩
  · have stopped : before.listen.reported.stopped = true := stops.mpr once
    refine ⟨Server.isListening_of_stopped stopped, Server.await_stopped stopped,
      fun name path same => ?_⟩
    obtain ⟨later, connects, arrives⟩ := connect_arrives listening (same ▸ dials)
    exact ⟨later, _, connects, arrives, Server.arrive_turnsAway after.numbered stopped
      (show ({ id := 0 } : Connection).closes = 0 from rfl) next.now⟩

set_option maxRecDepth 8000 in
/-- A server listens, though the mode of its socket cannot be set, and a client connects. -/
theorem listen_admits_unless_stopped_first_client :
    let server : Server Recorder := { path := "s" }
    let session : Session Recorder := { modeFailure := some 1, servers := [server] }
    server.Fresh ∧ session.server? 0 = some server ∧ (session.listen 0).2 = none ∧
      (session.listen 0).1.server? 0 = some server.listen ∧ server.listen.isListening = true ∧
      ∃ after later, (session.listen 0).1.connect "c" "s" = (after, none) ∧
        after.server? 0 = some later ∧ later.isOpen 1 = true := by
  intro server session
  have fresh : server.Fresh := rfl
  have found : session.server? 0 = some server := rfl
  have succeeds : (session.listen 0).2 = none := by
    simp only [session, server]
    decide
  have dials : ((session.listen 0).1.client "c" "s").path = server.path := by
    simp only [session, server]
    decide
  generalize same : session.listen 0 = listened at succeeds dials
  obtain ⟨next, result⟩ := listened
  obtain rfl : result = none := succeeds
  obtain ⟨listening, there, _, first, _⟩ := listen_admits_unless_stopped fresh found 0 [] same
  obtain rfl : server.listen = listening :=
    Option.some.inj ((listen_listens found same).1.symm.trans there)
  obtain ⟨hears, _, admits⟩ := first List.not_mem_nil
  obtain ⟨after, later, connects, arrives, _, opened⟩ := admits "c" "s" dials fun _ _ => rfl
  exact ⟨fresh, found, rfl, there, hears, after, later, connects, arrives, opened rfl⟩

set_option maxRecDepth 8000 in
/-- Listening after a stop succeeds, but the server is deaf and closes the client that connects. -/
theorem listen_again_deaf :
    let session : Session Recorder := { modeFailure := some 1, servers := [{ path := "s" }] }
    let again := (session.run 0 [.listen 0, .stop 0]).1.listen 0
    again.2 = none ∧ (again.1.connect "c" "s").2 = none ∧
      ((again.1.connect "c" "s").1.server? 0).map (fun server =>
          (server.isListening, server.standing? 1, server.isOpen 1)) =
        some (false, some .turnedAway, false) := by
  intro session again
  simp only [again, session]
  refine ⟨?_, ?_, ?_⟩ <;> decide +kernel

end SteeringChannel.Session
