import SteeringChannel.Proofs.Session.Reopening

/-!
The ways in which listening ends. It returns, or fails for want of a place to bind, and then nothing
new is left behind; but where the path cannot be looked at, and where the mode is no machine word, it
fails otherwise, in the second case with the socket already made.
-/

namespace SteeringChannel

namespace Filesystem

variable {tree : Filesystem} {path : String}

/-- What is left of a tree when a path is made free for a new socket: all of it where nothing is
there, and all but a socket that refuses connections. Anything else stays. -/
def freed? (tree : Filesystem) (path : String) : Option Filesystem :=
  match tree.lookup false path with
  | .error number => if number = SystemError.notFound then some tree else none
  | .ok (place, entry) =>
      if entry.node = .socket .refusing ∧ path.utf8ByteSize ≤ Address.limit then
        some (tree.remove place)
      else none

def Bindable (tree : Filesystem) (path : String) : Prop :=
  path.utf8ByteSize ≤ Address.limit ∧ ∃ freed place,
    tree.freed? (Path.normalize path) = some freed ∧ freed.locate false path = .ok (.free place)

theorem exists_bind_iff (server : Nat) : (∃ next, Address.bind tree path server = .ok next) ↔
    path.utf8ByteSize ≤ Address.limit ∧ ∃ place, tree.locate false path = .ok (.free place) := by
  constructor
  · rintro ⟨next, bound⟩
    obtain ⟨place, short, located, _⟩ := bind_eq_ok bound
    exact ⟨short, place, located⟩
  · rintro ⟨short, place, located⟩
    exact ⟨_, by rw [Address.bind, if_neg (Nat.not_lt.mpr short), located]⟩

theorem freed?_socket (clean : Path.hasNul path = false) {place : Place} {entry : Entry}
    (looked : tree.lookup false path = .ok (place, entry)) (socket : entry.node.isSocket = true) :
    tree.freed? path =
      if Address.dial tree path = .error (.system SystemError.connectionRefused) then
        some (tree.remove place)
      else none := by
  obtain ⟨kind, node⟩ : ∃ kind, entry.node = .socket kind := by
    cases node : entry.node <;> simp [Node.isSocket, node] at socket ⊢
  have refused : Address.dial tree path = .error (.system SystemError.connectionRefused) ↔
      entry.node = .socket .refusing ∧ path.utf8ByteSize ≤ Address.limit := by
    rw [Address.dial_socket clean looked node, node]
    by_cases long : Address.limit < path.utf8ByteSize
    · simp [long, Nat.not_le.mpr long]
    · cases kind <;> simp [long, Nat.not_lt.mp long, Address.ofNode, SystemError.wrongProtocol,
        SystemError.connectionRefused]
  simp only [freed?, looked, refused]

theorem freed?_other {place : Place} {entry : Entry}
    (looked : tree.lookup false path = .ok (place, entry)) (other : entry.node.isSocket = false) :
    tree.freed? path = none := by
  have differs : entry.node ≠ .socket .refusing := fun same => by simp [same, Node.isSocket] at other
  simp [freed?, looked, differs]

theorem freed?_error {number : Int} (unseen : tree.nodeAt path = .error number) :
    tree.freed? path = if number = SystemError.notFound then some tree else none := by
  cases looked : tree.lookup false path with
  | error other =>
      obtain rfl : other = number := by simpa [nodeAt, looked, Except.map] using unseen
      simp only [freed?, looked]
  | ok found => simp [nodeAt, looked, Except.map] at unseen

end Filesystem

namespace Session

variable {σ : Type} [Outlet σ] {session cleared next : Session σ} {index : Nat} {server : Server σ}
  {path : String}

def Seen (session : Session σ) (path : String) : Prop :=
  ∀ number, session.tree.nodeAt path = .error number → number = SystemError.notFound

theorem clearStale_cases (session : Session σ) (clean : Path.hasNul path = false) :
    (∃ cleared, session.clearStale path = (cleared, none) ∧ session.Seen path ∧
      session.tree.freed? path = some cleared.tree ∧ cleared.modeFailure = session.modeFailure) ∨
    (∃ cleared error, session.clearStale path = (cleared, some (.bind error)) ∧
      session.Seen path ∧ session.tree.freed? path = none) ∨
    ∃ number, session.tree.nodeAt path = .error number ∧ number ≠ SystemError.notFound ∧
      session.clearStale path = (session, some (.path (.system ⟨number, some path⟩))) ∧
      session.tree.freed? path = none := by
  cases there : session.tree.nodeAt path with
  | error number =>
      have freed := Filesystem.freed?_error there
      by_cases absent : number = SystemError.notFound
      · refine .inl ⟨session, by simp [clearStale, clean, there, absent], ?_, by simp [freed, absent],
          rfl⟩
        intro other unseen
        rw [there] at unseen
        exact Except.error.inj unseen ▸ absent
      · exact .inr (.inr ⟨number, rfl, absent, by simp [clearStale, clean, there, absent],
          by simp [freed, absent]⟩)
  | ok node =>
      have seen : session.Seen path := fun number unseen => by
        rw [there] at unseen
        cases unseen
      obtain ⟨place, entry, looked, rfl⟩ := nodeAt_eq_ok there
      by_cases socket : entry.node.isSocket = true
      · have freed := Filesystem.freed?_socket clean looked socket
        cases dialled : Address.dial session.tree path with
        | ok listener =>
            exact .inr (.inl ⟨session.probe listener, .alreadyBound path,
              by simp [clearStale, clean, there, socket, dialled], seen, by simp [freed, dialled]⟩)
        | error cause =>
            by_cases nobody : cause.meansNobody = true
            · obtain ⟨stale, rfl⟩ := Address.refusing_of_meansNobody clean looked socket dialled nobody
              have unlinked : session.tree.unlink path = .ok (session.tree.remove place) := by
                simp [Filesystem.unlink, looked, stale]
              refine .inl ⟨{ session with tree := session.tree.remove place }.note (removedRecord path),
                ?_, seen, by rw [freed, if_pos dialled]; rfl, rfl⟩
              simp [clearStale, clean, there, socket, dialled, nobody, unlinked]
            · have other : cause ≠ .system SystemError.connectionRefused := by
                rintro rfl
                exact nobody (by decide)
              exact .inr (.inl ⟨session, .uncheckable path cause,
                by simp [clearStale, clean, there, socket, dialled, nobody], seen,
                by simp [freed, dialled, other]⟩)
      · rw [Bool.not_eq_true] at socket
        exact .inr (.inl ⟨session, .notASocket path, by simp [clearStale, clean, there, socket], seen,
          Filesystem.freed?_other looked socket⟩)

/-- A mode can be given to a call if it is a machine word; where the call is known to fail it is not
looked at. -/
def ModeFits (session : Session σ) (mode : Int) : Prop :=
  session.modeFailure.isSome = true ∨ (-wordBound ≤ mode ∧ mode < wordBound)

instance (session : Session σ) (mode : Int) : Decidable (session.ModeFits mode) :=
  inferInstanceAs (Decidable (_ ∨ _))

omit [Outlet σ] in
theorem setMode_result (session : Session σ) (path : String) (mode : Int) :
    (session.setMode path mode).2 =
      if session.ModeFits mode then none else some .modeOutOfRange := by
  cases failure : session.modeFailure with
  | some number => simp [setMode, ModeFits, failure]
  | none =>
      by_cases out : (mode < -wordBound || wordBound ≤ mode) = true
      · have unfit : ¬ session.ModeFits mode := by
          simpa [ModeFits, failure, imp_iff_not_or] using out
        rw [if_neg unfit, setMode, failure]
        simp only [out, if_true]
      · have fits : session.ModeFits mode := by
          simpa [ModeFits, failure] using out
        rw [if_pos fits, setMode, failure]
        simp only [out]
        cases session.tree.changeMode path (mode % 4096) <;> rfl

omit [Outlet σ] in
theorem modeFailure_onServer (session : Session σ) (index : Nat)
    (change : Server σ → Server σ) :
    (session.onServer index change).modeFailure = session.modeFailure := by
  simp only [onServer]
  split <;> rfl

omit [Outlet σ] in
theorem modeFailure_clearAddress (session : Session σ) (path : String) :
    (session.clearAddress path).modeFailure = session.modeFailure := by
  have failed (number : Int) : (if number = SystemError.notFound then session
      else session.note (uncheckedRecord path number)).modeFailure = session.modeFailure := by
    split <;> rfl
  simp only [clearAddress]
  split
  · exact failed _
  · split
    · rfl
    · split
      · rfl
      · exact failed _

def Spared (session next : Session σ) : Prop :=
  (∀ other, (next.server? other).map Server.isListening =
    (session.server? other).map Server.isListening) ∧
  ∀ entry ∈ next.tree.entries, entry ∈ session.tree.entries

omit [Outlet σ] in
theorem mem_of_freed {tree freed : Filesystem} (frees : tree.freed? path = some freed)
    {entry : Entry} (member : entry ∈ freed.entries) : entry ∈ tree.entries := by
  simp only [Filesystem.freed?] at frees
  split at frees
  · split at frees
    · exact Option.some.inj frees ▸ member
    · cases frees
  · split at frees
    · rw [← Option.some.inj frees] at member
      exact List.mem_of_mem_filter member
    · cases frees

theorem listen_cases (found : session.server? index = some server)
    (clean : Path.hasNul server.path = false) :
    let path := Path.normalize server.path
    (∃ next, session.listen index =
        (next, if session.ModeFits server.mode then none else some .modeOutOfRange) ∧
      session.Seen path ∧ session.tree.Bindable server.path ∧
      next.server? index = some server.listen.reported ∧
      Address.dial next.tree server.path = .ok (.server index)) ∨
    (∃ next cause, session.listen index = (next, some (.bind cause)) ∧ session.Seen path ∧
      ¬ session.tree.Bindable server.path ∧ session.Spared next) ∨
    ∃ number, session.tree.nodeAt path = .error number ∧ number ≠ SystemError.notFound ∧
      session.listen index = (session, some (.path (.system ⟨number, some path⟩))) ∧
      ¬ session.tree.Bindable server.path := by
  intro path
  have unbindable (stays : session.tree.freed? path = none) :
      ¬ session.tree.Bindable server.path := by
    rintro ⟨_, _, _, frees, _⟩
    cases stays.symm.trans frees
  rcases session.clearStale_cases (Path.hasNul_normalize clean) with
    ⟨cleared, clears, seen, frees, failure⟩ | ⟨cleared, cause, fails, seen, stays⟩ |
      ⟨number, unseen, present, fails, stays⟩
  · have tree := tree_clearAddress (absent_of_clears clears)
    obtain ⟨_, servers⟩ := clearStale_keeps clears
    rw [listen_of_clears found clears]
    -- the path is free; from here on the address decides, and the mode only once the socket is made
    rcases bindAddress_cases (cleared.clearAddress server.path) index server.path server.mode with
      ⟨cause, refused, shape⟩ | ⟨next, records, bound, shape⟩
    · refine .inr (.inl ⟨_, _, shape, seen, ?_, fun other => ?_, fun entry member => ?_⟩)
      · rintro ⟨short, freed, place, frees', located⟩
        obtain rfl := Option.some.inj (frees.symm.trans frees')
        obtain ⟨made, bound⟩ := (Filesystem.exists_bind_iff index).mpr ⟨short, place, located⟩
        rw [tree, bound] at refused
        cases refused
      · simp only [server?, servers_clearAddress, servers]
      · exact mem_of_freed frees (tree ▸ member)
    · obtain ⟨place, short, located, _⟩ := Filesystem.bind_eq_ok bound
      have there : (cleared.clearAddress server.path).server? index = some server := by
        simp only [server?] at found ⊢
        rw [servers_clearAddress, servers, found]
      have result := congrArg Prod.snd shape
      simp only [setMode_result, ModeFits, modeFailure_onServer, modeFailure_clearAddress,
        failure] at result
      exact .inl ⟨_, Prod.ext rfl result, seen,
        ⟨short, cleared.tree, place, frees, tree ▸ located⟩,
        bindAddress_listens there clean bound server.mode⟩
  · have same := clearStale_fails fails
    refine .inr (.inl ⟨cleared, cause, listen_of_fails found fails, seen, unbindable stays,
      fun other => ?_, fun entry member => same ▸ member⟩)
    have listening := session.isListening_clearStale path other
    rwa [fails] at listening
  · exact .inr (.inr ⟨number, unseen, present, listen_of_fails found fails, unbindable stays⟩)

/-- Whatever the tree, the path and the mode, listening fails for a cause of binding only, just if
the path can be looked at and the mode fits wherever a socket can be made. Where one can be made, the
server can be dialled in any case, and listens if it was never stopped, though listening fails when
the mode does not fit. Where none can be made, listening fails and nothing new is left behind: for a
cause of binding if the path can be looked at, else as the look fails. -/
theorem listen_fails_bound_iff (found : session.server? index = some server)
    (clean : Path.hasNul server.path = false) :
    let path := Path.normalize server.path
    let next := (session.listen index).1
    let result := (session.listen index).2
    ((∀ error, result = some error → ∃ cause, error = .bind cause) ↔
      session.Seen path ∧
        (session.tree.Bindable server.path → session.ModeFits server.mode)) ∧
    (session.tree.Bindable server.path →
      result = (if session.ModeFits server.mode then none else some .modeOutOfRange) ∧
      (next.server? index).map Server.isListening = some (!server.stopped) ∧
      Address.dial next.tree server.path = .ok (.server index)) ∧
    (¬ session.tree.Bindable server.path →
      session.Spared next ∧
      (session.Seen path → ∃ cause, result = some (.bind cause)) ∧
      ∀ number, session.tree.nodeAt path = .error number → number ≠ SystemError.notFound →
        result = some (.path (.system ⟨number, some path⟩))) := by
  intro path next result
  rcases listen_cases found clean with ⟨after, listens, seen, bindable, running, dials⟩ |
    ⟨after, cause, listens, seen, unbindable, spared⟩ |
      ⟨number, unseen, present, listens, unbindable⟩
  · have state : next = after := congrArg Prod.fst listens
    have ends : result = if session.ModeFits server.mode then none else some .modeOutOfRange :=
      congrArg Prod.snd listens
    refine ⟨⟨fun bound => ⟨seen, fun _ => ?_⟩, fun fits error fails => ?_⟩, fun _ => ⟨ends, ?_, ?_⟩,
      fun never => absurd bindable never⟩
    · by_contra unfit
      obtain ⟨cause, other⟩ := bound .modeOutOfRange (by rw [ends, if_neg unfit])
      cases other
    · rw [ends, if_pos (fits.2 bindable)] at fails
      cases fails
    · rw [state, running]
      rfl
    · rwa [state]
  · have state : next = after := congrArg Prod.fst listens
    have ends : result = some (.bind cause) := congrArg Prod.snd listens
    refine ⟨⟨fun _ => ⟨seen, fun bindable => absurd bindable unbindable⟩, fun _ error fails => ?_⟩,
      fun bindable => absurd bindable unbindable, fun _ => ⟨state ▸ spared, fun _ => ⟨cause, ends⟩,
        fun number unseen present => absurd (seen number unseen) present⟩⟩
    exact ⟨cause, (Option.some.inj (ends.symm.trans fails)).symm⟩
  · have state : next = session := congrArg Prod.fst listens
    have ends : result = some (.path (.system ⟨number, some path⟩)) := congrArg Prod.snd listens
    have spared : session.Spared next := state ▸ ⟨fun _ => rfl, fun _ member => member⟩
    refine ⟨⟨fun bound => ?_, fun sees => absurd (sees.1 number unseen) present⟩,
      fun bindable => absurd bindable unbindable, fun _ => ⟨spared,
        fun seen => absurd (seen number unseen) present, fun other again _ => ?_⟩⟩
    · obtain ⟨cause, other⟩ := bound _ ends
      cases other
    · rw [ends, Except.error.inj (unseen.symm.trans again)]

/-- Over a stale socket a server listens, and over a directory it fails for a cause of binding. -/
theorem listen_fails_bound_iff_stale_and_directory :
    let place := Filesystem.workingPlace ++ ["s"]
    let stale : Session Recorder :=
      { tree := Filesystem.empty.add place (.socket .refusing) 420, servers := [{ path := "./s" }] }
    let taken : Session Recorder :=
      { tree := Filesystem.empty.add place .directory 493, servers := [{ path := "./s" }] }
    Path.hasNul "./s" = false ∧ stale.tree.Bindable "./s" ∧ (stale.listen 0).2 = none ∧
      ((stale.listen 0).1.server? 0).map Server.isListening = some true ∧
      taken.Seen "s" ∧ ¬ taken.tree.Bindable "./s" ∧
      (∃ cause, (taken.listen 0).2 = some (.bind cause)) ∧ taken.Spared (taken.listen 0).1 := by
  intro place stale taken
  have clean : Path.hasNul "./s" = false := by decide
  have form : Path.normalize "./s" = "s" := by decide
  have bindable : stale.tree.Bindable "./s" := by
    refine ⟨by decide, Filesystem.empty, place, ?_, ?_⟩
    · decide
    · decide
  have blocked : taken.tree.freed? "s" = none := by decide
  have unbindable : ¬ taken.tree.Bindable "./s" := by
    rintro ⟨_, _, _, frees, _⟩
    rw [form, blocked] at frees
    cases frees
  have there : taken.tree.nodeAt "s" = .ok .directory := by decide
  have seen : taken.Seen "s" := fun number unseen => by
    rw [there] at unseen
    cases unseen
  have first : stale.server? 0 = some { path := "./s" } := rfl
  have second : taken.server? 0 = some { path := "./s" } := rfl
  obtain ⟨_, made, _⟩ := listen_fails_bound_iff first clean
  obtain ⟨_, _, refused⟩ := listen_fails_bound_iff second clean
  obtain ⟨result, running, _⟩ := made bindable
  obtain ⟨spared, fails, _⟩ := refused unbindable
  exact ⟨clean, bindable, result, running, seen, unbindable, fails (form ▸ seen), spared⟩

/-- Below a file listening fails otherwise than for a cause of binding; and so it does with a mode
that is no machine word, and then it has left the server listening. -/
theorem listen_fails_unbound :
    let filed : Session Recorder :=
      { tree := Filesystem.empty.add (Filesystem.workingPlace ++ ["f"]) (.file "x") 420
        servers := [{ path := "f/s" }] }
    let broad : Session Recorder := { servers := [{ path := "s", mode := 2147483648 }] }
    (filed.listen 0).2 = some (.path (.system ⟨SystemError.notADirectory, some "f/s"⟩)) ∧
      (broad.listen 0).2 = some .modeOutOfRange ∧
      ((broad.listen 0).1.server? 0).map Server.isListening = some true ∧
      Address.dial (broad.listen 0).1.tree "s" = .ok (.server 0) := by
  intro filed broad
  have below : (filed.listen 0).2 =
      some (.path (.system ⟨SystemError.notADirectory, some "f/s"⟩)) := by decide
  have found : broad.server? 0 = some { path := "s", mode := 2147483648 } := rfl
  have clean : Path.hasNul "s" = false := by decide
  have bindable : broad.tree.Bindable "s" :=
    ⟨by decide, broad.tree, Filesystem.workingPlace ++ ["s"], by decide, by decide⟩
  have unfit : ¬ broad.ModeFits 2147483648 := by decide
  rcases listen_cases found clean with ⟨next, listens, _, _, running, dials⟩ |
    ⟨_, _, _, _, unbindable, _⟩ | ⟨_, _, _, _, unbindable⟩
  · rw [if_neg unfit] at listens
    rw [listens]
    exact ⟨below, rfl, congrArg (Option.map Server.isListening) running, dials⟩
  · exact absurd bindable unbindable
  · exact absurd bindable unbindable

end Session
end SteeringChannel
