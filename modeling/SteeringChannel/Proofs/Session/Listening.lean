import Mathlib.Data.List.TakeWhile
import SteeringChannel.Proofs.Filesystem.Walk
import SteeringChannel.Proofs.Session.Removal
import SteeringChannel.Proofs.Session.Share

/-!
What listening does to the file system. It replaces a stale socket at its own path, and nothing
else; over anything else that is there it fails and leaves everything as it was.
-/

namespace SteeringChannel

namespace Address

variable {tree : Filesystem} {path : String}

theorem uptoNul_of_clean (clean : Path.hasNul path = false) : uptoNul path = path := by
  simp only [Path.hasNul, List.contains_eq_mem, decide_eq_false_iff_not] at clean
  have whole : path.toList.takeWhile (· != '\x00') = path.toList := by
    refine List.takeWhile_eq_self_iff.mpr fun letter member => ?_
    simpa using fun nul : letter = '\x00' => clean (nul ▸ member)
  rw [uptoNul, whole, String.ofList_toList]

theorem dial_socket (clean : Path.hasNul path = false) {place : Place} {entry : Entry}
    (looked : tree.lookup false path = .ok (place, entry)) {kind : SocketKind}
    (socket : entry.node = .socket kind) :
    dial tree path = if limit < path.utf8ByteSize then .error .tooLong else ofNode entry.node := by
  have filled : path ≠ "" := (Filesystem.lookup_eq_ok.mp looked).1.1
  have head : (path.toList.head? == some '\x00') = false := by
    simp only [Path.hasNul, List.contains_eq_mem, decide_eq_false_iff_not] at clean
    simpa using fun nul => clean (List.mem_of_head? nul)
  have followed := Filesystem.lookup_followed looked (by simp [socket])
  simp [dial, filled, head, uptoNul_of_clean clean, Filesystem.target, followed, Except.map]

theorem refusing_of_meansNobody (clean : Path.hasNul path = false) {place : Place} {entry : Entry}
    (looked : tree.lookup false path = .ok (place, entry)) (socket : entry.node.isSocket = true)
    {cause : Failure} (fails : dial tree path = .error cause) (nobody : cause.meansNobody = true) :
    entry.node = .socket .refusing ∧ cause = .system SystemError.connectionRefused := by
  obtain ⟨kind, node⟩ : ∃ kind, entry.node = .socket kind := by
    cases node : entry.node <;> simp [Node.isSocket, node] at socket ⊢
  rw [dial_socket clean looked node] at fails
  split at fails
  · rw [← Except.error.inj fails] at nobody
    simp [Failure.meansNobody] at nobody
  · rw [node] at fails ⊢
    cases kind with
    | refusing => exact ⟨rfl, (Except.error.inj fails).symm⟩
    | datagram =>
        rw [← Except.error.inj fails] at nobody
        exact absurd nobody (by decide)
    | unattended => cases fails
    | served index => cases fails

end Address

namespace Session

variable {σ : Type} [Outlet σ] {session cleared : Session σ} {index : Nat} {server : Server σ}
  {path : String}

/-- A stale socket at a path: the path itself names a socket that refuses connections. -/
def StaleAt (session : Session σ) (path : String) (place : Place) (entry : Entry) : Prop :=
  session.tree.lookup false path = .ok (place, entry) ∧ entry.node = .socket .refusing ∧
    Address.dial session.tree path = .error (.system SystemError.connectionRefused)

omit [Outlet σ] in
theorem nodeAt_eq_ok {tree : Filesystem} {node : Node} (there : tree.nodeAt path = .ok node) :
    ∃ place entry, tree.lookup false path = .ok (place, entry) ∧ entry.node = node := by
  cases looked : tree.lookup false path with
  | error number => simp [Filesystem.nodeAt, looked, Except.map] at there
  | ok found => exact ⟨found.1, found.2, rfl, by simpa [Filesystem.nodeAt, looked, Except.map] using there⟩

theorem clearStale_clears (clears : session.clearStale path = (cleared, none)) :
    session.tree.nodeAt path = .error SystemError.notFound ∧ cleared.tree = session.tree ∨
      ∃ place entry, session.StaleAt path place entry ∧
        cleared.tree = session.tree.remove place := by
  simp only [clearStale] at clears
  split at clears
  · simp at clears
  next clean =>
    rw [Bool.not_eq_true] at clean
    split at clears
    next number missing =>
      split at clears
      next absent =>
        obtain ⟨rfl, _⟩ := Prod.mk.inj clears
        exact .inl ⟨absent ▸ missing, rfl⟩
      next => simp at clears
    next node there =>
      obtain ⟨place, entry, looked, rfl⟩ := nodeAt_eq_ok there
      split at clears
      · simp at clears
      next sockets =>
        rw [Bool.not_eq_true, Bool.not_eq_false'] at sockets
        split at clears
        · simp at clears
        next cause refused =>
          split at clears
          · simp at clears
          next nobody =>
            rw [Bool.not_eq_true, Bool.not_eq_false'] at nobody
            obtain ⟨stale, rfl⟩ :=
              Address.refusing_of_meansNobody clean looked sockets refused nobody
            have unlinked : session.tree.unlink path = .ok (session.tree.remove place) := by
              simp [Filesystem.unlink, looked, stale]
            simp only [unlinked, Prod.mk.injEq, and_true] at clears
            exact .inr ⟨place, entry, ⟨looked, stale, refused⟩, clears ▸ rfl⟩

theorem clearStale_fails {error : ListenError}
    (fails : session.clearStale path = (cleared, some error)) :
    cleared.tree = session.tree := by
  simp only [clearStale] at fails
  split at fails
  · exact (Prod.mk.inj fails).1 ▸ rfl
  · split at fails
    · split at fails
      · simp at fails
      · exact (Prod.mk.inj fails).1 ▸ rfl
    · split at fails
      · exact (Prod.mk.inj fails).1 ▸ rfl
      · split at fails
        · exact (Prod.mk.inj fails).1 ▸ tree_probe session _
        · split at fails
          · exact (Prod.mk.inj fails).1 ▸ rfl
          · split at fails
            · simp at fails
            · exact (Prod.mk.inj fails).1 ▸ rfl

theorem clearStale_of_other {spelling : String} {node : Node}
    (spelt : spelling ∈ [path, Path.normalize path])
    (there : session.tree.nodeAt spelling = .ok node) (other : node ≠ .socket .refusing) :
    ∃ cleared error, session.clearStale (Path.normalize path) = (cleared, some error) := by
  obtain ⟨place, entry, looked, rfl⟩ := nodeAt_eq_ok there
  cases result : session.clearStale (Path.normalize path) with
  | mk cleared error =>
    cases error with
    | some error => exact ⟨cleared, error, rfl⟩
    | none =>
        exfalso
        have named : session.tree.nodeAt (Path.normalize path) = .error SystemError.nameTooLong ∨
            ∃ reached found, session.tree.lookup false (Path.normalize path) =
              .ok (reached, found) ∧ found.node ≠ .socket .refusing := by
          rcases List.mem_pair.mp spelt with rfl | rfl
          · rcases Filesystem.lookup_normalize looked with long | ⟨reached, found, named, same⟩
            · exact .inl (by simp [Filesystem.nodeAt, long, Except.map])
            · refine .inr ⟨reached, found, named, ?_⟩
              rcases same with ⟨_, rfl⟩ | ⟨target, link⟩
              · exact other
              · simp [link]
          · exact .inr ⟨place, entry, looked, other⟩
        rcases clearStale_clears result with ⟨absent, _⟩ | ⟨_, _, ⟨stale, refusing, _⟩, _⟩
        · rcases named with long | ⟨_, _, named, _⟩
          · rw [absent] at long
            exact absurd (Except.error.inj long) (by decide)
          · simp [Filesystem.nodeAt, named, Except.map] at absent
        · rcases named with long | ⟨_, _, named, unlike⟩
          · simp [Filesystem.nodeAt, stale, Except.map] at long
          · rw [stale] at named
            obtain ⟨rfl, rfl⟩ := Prod.mk.inj (Except.ok.inj named)
            exact unlike refusing

omit [Outlet σ] in
theorem tree_clearAddress
    (absent : session.tree.nodeAt (Path.normalize path) = .error SystemError.notFound) :
    (session.clearAddress path).tree = session.tree := by
  simp only [clearAddress]
  split
  · split <;> rfl
  next node there =>
    exfalso
    cases looked : session.tree.lookup true path with
    | error number => simp [Filesystem.target, looked, Except.map] at there
    | ok found =>
        rcases Filesystem.lookup_normalize looked with long | ⟨reached, other, named, _⟩
        · rw [Filesystem.nodeAt, long] at absent
          exact absurd (Except.error.inj absent) (by decide)
        · simp [Filesystem.nodeAt, named, Except.map] at absent

omit [Outlet σ] in
theorem mem_setMode {place : Place} {made entry : Entry}
    (looked : session.tree.lookup true path = .ok (place, made))
    (member : entry ∈ session.tree.entries) (elsewhere : entry.place ≠ place) (mode : Int) :
    entry ∈ (session.setMode path mode).1.tree.entries := by
  simp only [setMode]
  split
  · exact member
  · split
    · exact member
    · simp only [Filesystem.changeMode, looked]
      exact List.mem_map.mpr ⟨entry, member, by simp [elsewhere]⟩

omit [Outlet σ] in
theorem mem_bindAddress {entry : Entry} (member : entry ∈ session.tree.entries) (index : Nat)
    (path : String) (mode : Int) :
    entry ∈ (session.bindAddress index path mode).1.tree.entries := by
  rcases bindAddress_cases session index path mode with ⟨_, _, shape⟩ | ⟨tree, records, bound, shape⟩ <;>
    rw [shape]
  · exact member
  obtain ⟨place, _, located, free, rfl⟩ := Filesystem.bind_eq_ok bound
  have elsewhere : entry.place ≠ place := by
    have unmatched := List.find?_eq_none.mp (Option.map_eq_none_iff.mp free) entry member
    simpa using unmatched
  let tree := session.tree.add place (.socket (.served index)) Filesystem.directoryMode
  have made : tree.lookup true path =
      .ok (place, ⟨place, .socket (.served index), Filesystem.directoryMode⟩) :=
    Filesystem.lookup_add located free (by simp) _
  have same : ({ session with tree := tree }.onServer index Server.listen).tree = tree :=
    tree_onServer ..
  rw [tree_foldl_note]
  refine mem_setMode (same ▸ made) ?_ elsewhere mode
  rw [same]
  exact List.mem_append_left _ member

theorem listen_of_fails (found : session.server? index = some server) {error : ListenError}
    (fails : session.clearStale (Path.normalize server.path) = (cleared, some error)) :
    session.listen index = (cleared, some error) := by
  simp only [listen, found, fails]

theorem listen_of_clears (found : session.server? index = some server)
    (clears : session.clearStale (Path.normalize server.path) = (cleared, none)) :
    session.listen index =
      (cleared.clearAddress server.path).bindAddress index server.path server.mode := by
  simp only [listen, found, clears]

theorem absent_of_clears (clears : session.clearStale path = (cleared, none)) :
    cleared.tree.nodeAt path = .error SystemError.notFound := by
  rcases clearStale_clears clears with ⟨absent, same⟩ | ⟨place, other, ⟨looked, stale, _⟩, removed⟩
  · rwa [same]
  · rw [removed, Filesystem.nodeAt, Filesystem.lookup_remove looked stale]
    rfl

theorem mem_listen (found : session.server? index = some server)
    (clears : session.clearStale (Path.normalize server.path) = (cleared, none)) {entry : Entry}
    (member : entry ∈ cleared.tree.entries) : entry ∈ (session.listen index).1.tree.entries := by
  rw [listen_of_clears found clears]
  refine mem_bindAddress ?_ index server.path server.mode
  rwa [tree_clearAddress (absent_of_clears clears)]

theorem isListening_clearStale (session : Session σ) (path : String) (other : Nat) :
    ((session.clearStale path).1.server? other).map Server.isListening =
      (session.server? other).map Server.isListening := by
  have shares : session.Shares (session.clearStale path).1 other Server.Operation.isTraffic :=
    shares_clearStale (fun _ traffic => traffic) session path
  obtain ⟨_, operations, traffic, shares⟩ := shares
  rw [shares, Option.map_map]
  congr 1
  funext server
  obtain ⟨listening, stopped⟩ := server.lifecycle_traffic session.now traffic
  simp only [Function.comp, Server.isListening, listening, stopped]

/-- Listening replaces nothing but a stale socket that its own path names. Over anything else that
the path names, in whatever spelling, it fails; then the tree is as it was, who was listening still
listens, and can be dialled as before. -/
theorem listen_replaces_stale (distinct : session.tree.Distinct)
    (found : session.server? index = some server) :
    let next := (session.listen index).1
    let path := Path.normalize server.path
    (∀ entry ∈ session.tree.entries, entry ∉ next.tree.entries →
      session.StaleAt path entry.place entry) ∧
    ∀ spelling ∈ [server.path, path], ∀ node, session.tree.nodeAt spelling = .ok node →
      node ≠ .socket .refusing →
        (session.listen index).2 ≠ none ∧ next.tree = session.tree ∧
        (∀ other, (next.server? other).map Server.isListening =
          (session.server? other).map Server.isListening) ∧
        ∀ address, Address.dial next.tree address = Address.dial session.tree address := by
  dsimp only
  constructor
  · intro entry member gone
    cases result : session.clearStale (Path.normalize server.path) with
    | mk cleared error =>
      cases error with
      | some error =>
          rw [listen_of_fails found result, clearStale_fails result] at gone
          exact absurd member gone
      | none =>
          have left : entry ∉ cleared.tree.entries :=
            fun stays => gone (mem_listen found result stays)
          rcases clearStale_clears result with ⟨_, same⟩ | ⟨place, other, stale, removed⟩
          · exact absurd member (same ▸ left)
          · obtain ⟨there, _, _⟩ := Filesystem.mem_of_lookup stale.1
            have here : entry.place = place := by
              rw [removed] at left
              by_contra elsewhere
              exact left (List.mem_filter.mpr ⟨member, by simpa using elsewhere⟩)
            have looked := distinct.entry? member
            rw [here, there] at looked
            rw [here]
            exact Option.some.inj looked ▸ stale
  · intro spelling spelt node there other
    obtain ⟨cleared, error, fails⟩ := clearStale_of_other spelt there other
    have same := clearStale_fails fails
    have listening := session.isListening_clearStale (Path.normalize server.path)
    rw [fails] at listening
    rw [listen_of_fails found fails, same]
    exact ⟨by simp, rfl, listening, fun _ => rfl⟩

/-- A stale socket is removed by a server that has its path, though with a slash at the end nothing
can be bound there, and left alone by a server that has the path of a link to it. -/
theorem listen_replaces_stale_not_linked :
    let socket : Entry := ⟨Filesystem.workingPlace ++ ["s"], .socket .refusing, 420⟩
    let link : Entry := ⟨Filesystem.workingPlace ++ ["l"], .link "s", 511⟩
    let session : Session Recorder :=
      { tree := ⟨Filesystem.empty.entries ++ [socket, link]⟩
        servers := [{ path := "s/" }, { path := "./l" }] }
    session.tree.Distinct ∧
      (session.listen 0).1.tree.entries = Filesystem.empty.entries ++ [link] ∧
      session.StaleAt "s" socket.place socket ∧
      (session.listen 1).2 ≠ none ∧ (session.listen 1).1.tree = session.tree := by
  intro socket link session
  have distinct : session.tree.Distinct := by
    simp [Filesystem.Distinct, session, socket, link, Filesystem.empty, Filesystem.workingPlace]
  have removes : (session.listen 0).1.tree.entries = Filesystem.empty.entries ++ [link] := by decide
  have gone : socket ∉ (session.listen 0).1.tree.entries := by
    rw [removes]
    simp [socket, link, Filesystem.empty, Filesystem.workingPlace]
  have form : Path.normalize "s/" = "s" := by decide
  have linked : session.tree.nodeAt "./l" = .ok (.link "s") := by decide
  have first : session.server? 0 = some { path := "s/" } := rfl
  have second : session.server? 1 = some { path := "./l" } := rfl
  have stale := (listen_replaces_stale distinct first).1 socket (by simp [session]) gone
  obtain ⟨fails, same, _⟩ :=
    (listen_replaces_stale distinct second).2 "./l" (by simp) (.link "s") linked (by simp)
  exact ⟨distinct, removes, form ▸ stale, fails, same⟩

end Session
end SteeringChannel
