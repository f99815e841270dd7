import SteeringChannel.Proofs.Daemon
import SteeringChannel.Proofs.Filesystem.Above
import SteeringChannel.Proofs.Session.Failure

/-!
What the checks before the start say about listening. They look at the path with other calls than
the server does, but both follow the same walks: where a check of the path fails, listening fails
and leaves everything as it was, and where listening fails by the path, a check has failed before,
unless the name of the directory above is too long for the checks themselves.
-/

namespace SteeringChannel

namespace Health

variable {surroundings : Surroundings} {settings : Settings} {findings : List Finding}

theorem check_eq_ok (checked : check surroundings settings = .ok findings) :
    ∃ directory address, checkDirectory surroundings settings = .ok directory ∧
      checkPath surroundings settings = .ok address ∧
      findings = [directory, address, checkDevice surroundings settings] := by
  cases directory : checkDirectory surroundings settings with
  | error error => simp [check, directory, Bind.bind, Except.bind] at checked
  | ok first =>
      cases address : checkPath surroundings settings with
      | error error => simp [check, directory, address, Bind.bind, Except.bind] at checked
      | ok second =>
          simp only [check, directory, address, Bind.bind, Except.bind] at checked
          exact ⟨first, second, rfl, rfl, (Except.ok.inj checked).symm⟩

theorem checkDirectory_ok (clean : Path.hasNul settings.socketPath = false) {finding : Finding}
    (told : checkDirectory surroundings settings = .ok finding) :
    finding.name = directoryName ∧
      (finding.detail = Path.parent settings.socketPath ++ " does not exist" →
        surroundings.tree.isDirectory (Path.parent settings.socketPath) = .ok false) := by
  have different {text : String} (other : text ≠ " does not exist") :
      Path.parent settings.socketPath ++ text ≠
        Path.parent settings.socketPath ++ " does not exist" :=
    fun same => other ((String.append_right_inj _).mp same)
  simp only [checkDirectory] at told
  rw [if_neg (by simp [Path.hasNul_parent clean])] at told
  split at told
  next => exact nomatch told
  next homeless =>
    obtain rfl := Except.ok.inj told
    exact ⟨rfl, fun _ => homeless⟩
  next =>
    split at told
    · obtain rfl := Except.ok.inj told
      exact ⟨rfl, fun same => absurd same (different (by decide))⟩
    · obtain rfl := Except.ok.inj told
      exact ⟨rfl, fun same => absurd same (different (by decide))⟩

theorem checkDirectory_error (clean : Path.hasNul settings.socketPath = false) {error : PathError}
    (told : checkDirectory surroundings settings = .error error) :
    error = .system ⟨SystemError.nameTooLong, some (Path.parent settings.socketPath)⟩ ∧
      surroundings.tree.locate true (Path.parent settings.socketPath) =
        .error SystemError.nameTooLong := by
  simp only [checkDirectory] at told
  rw [if_neg (by simp [Path.hasNul_parent clean])] at told
  split at told
  next number fails =>
    obtain ⟨rfl, located⟩ := Filesystem.isDirectory_error fails
    exact ⟨(Except.error.inj told).symm, located⟩
  next => exact nomatch told
  next => split at told <;> exact nomatch told

theorem exists_checkPath (surroundings : Surroundings)
    (clean : Path.hasNul settings.socketPath = false) :
    ∃ finding, checkPath surroundings settings = .ok finding := by
  simp only [checkPath]
  rw [if_neg (by simp [Path.hasNul_normalize clean])]
  split
  · split <;> exact ⟨_, rfl⟩
  · split <;> exact ⟨_, rfl⟩

theorem checkPath_ok {finding : Finding}
    (looked : checkPath surroundings settings = .ok finding) :
    let found := surroundings.tree.nodeAt (Path.normalize settings.socketPath)
    finding.name = pathName ∧ (finding.passed = true ↔
      found = .error SystemError.notFound ∨ ∃ node, found = .ok node ∧ node.isSocket = true) := by
  intro found
  simp only [checkPath] at looked
  split at looked
  next => exact nomatch looked
  next =>
    split at looked
    next number missing =>
      split at looked
      next absent =>
        obtain rfl := Except.ok.inj looked
        exact ⟨rfl, by simp [found, missing, absent]⟩
      next present =>
        obtain rfl := Except.ok.inj looked
        exact ⟨rfl, by simp [found, missing, present]⟩
    next node there =>
      split at looked
      next socket =>
        obtain rfl := Except.ok.inj looked
        exact ⟨rfl, by simp [found, there, socket]⟩
      next other =>
        obtain rfl := Except.ok.inj looked
        exact ⟨rfl, by simp [found, there, other]⟩

end Health

namespace Session

variable {σ : Type} [Outlet σ] {session next : Session σ} {index : Nat} {server : Server σ}

theorem listen_over (found : session.server? index = some server)
    (clean : Path.hasNul server.path = false) {node : Node}
    (there : session.tree.nodeAt (Path.normalize server.path) = .ok node)
    (other : node.isSocket = false) : ∃ error, session.listen index = (session, some error) := by
  have fails : session.clearStale (Path.normalize server.path) =
      (session, some (.bind (.notASocket (Path.normalize server.path)))) := by
    simp [clearStale, Path.hasNul_normalize clean, there, other]
  exact ⟨_, listen_of_fails found fails⟩

theorem listen_unseen (found : session.server? index = some server)
    (clean : Path.hasNul server.path = false) {number : Int}
    (unseen : session.tree.nodeAt (Path.normalize server.path) = .error number)
    (other : number ≠ SystemError.notFound) :
    session.listen index =
      (session, some (.path (.system ⟨number, some (Path.normalize server.path)⟩))) := by
  refine listen_of_fails found ?_
  simp [clearStale, Path.hasNul_normalize clean, unseen, other]

theorem listen_homeless (found : session.server? index = some server)
    (clean : Path.hasNul server.path = false)
    (homeless : session.tree.isDirectory (Path.parent server.path) = .ok false) :
    ∃ next error, session.listen index = (next, some error) ∧ next.tree = session.tree ∧
      next.servers = session.servers := by
  have nowhere (reached : Filesystem.Found) :
      session.tree.locate false (Path.normalize server.path) ≠ .ok reached := by
    intro located
    rw [Filesystem.isDirectory_parent located] at homeless
    exact absurd (Except.ok.inj homeless) (by decide)
  cases there : session.tree.nodeAt (Path.normalize server.path) with
  | ok node =>
      obtain ⟨place, entry, looked, _⟩ := nodeAt_eq_ok there
      exact absurd (Filesystem.locate_eq_ok.mpr (Filesystem.lookup_eq_ok.mp looked).1) (nowhere _)
  | error number =>
      by_cases absent : number = SystemError.notFound
      · subst absent
        have clear : session.clearStale (Path.normalize server.path) = (session, none) := by
          simp [clearStale, Path.hasNul_normalize clean, there]
        rw [listen_of_clears found clear]
        have tree := tree_clearAddress there
        have servers := session.servers_clearAddress server.path
        rcases bindAddress_cases (session.clearAddress server.path) index server.path server.mode
          with ⟨cause, _, refused⟩ | ⟨bound, _, binds, _⟩
        · exact ⟨_, _, refused, tree, servers⟩
        · obtain ⟨place, _, located, _⟩ := Filesystem.bind_eq_ok binds
          rw [tree] at located
          have short := Filesystem.short_of_absent there
          exact absurd (Filesystem.locate_normalize located short) (nowhere _)
      · exact ⟨session, _, listen_unseen found clean there absent, rfl, rfl⟩

theorem unseen_of_listen (found : session.server? index = some server)
    (clean : Path.hasNul server.path = false) {error : PathError}
    (fails : session.listen index = (next, some (.path error))) :
    ∃ number, session.tree.nodeAt (Path.normalize server.path) = .error number ∧
      number ≠ SystemError.notFound := by
  rcases listen_cases found clean with ⟨_, listens, _⟩ | ⟨_, _, listens, _⟩ |
    ⟨number, unseen, present, _⟩
  · have result := congrArg Prod.snd (fails.symm.trans listens)
    split at result <;> cases result
  · cases listens.symm.trans fails
  · exact ⟨number, unseen, present⟩

end Session

namespace Health

section Start

variable {session : Session Relay} {denied : List String} {settings : Settings}
  {device : Relay.Device}

theorem start_of_critical {findings : List Finding}
    (checked : check { tree := session.tree, denied := denied } settings = .ok findings)
    (critical : hasCriticalFailure findings = true) :
    (Daemon.start session denied settings device).phase = .ended 1 ∧
      (Daemon.start session denied settings device).session.servers = session.servers := by
  unfold Daemon.start
  rw [checked]
  dsimp only
  rw [if_pos critical]
  exact ⟨rfl, Session.servers_foldl_note (records findings) session⟩

theorem start_of_error {error : PathError}
    (checked : check { tree := session.tree, denied := denied } settings = .error error) :
    (Daemon.start session denied settings device).phase = .failed (.path error) := by
  unfold Daemon.start
  rw [checked]
  rfl

end Start

variable {σ : Type} [Outlet σ] {session next : Session σ} {index : Nat} {server : Server σ}
  {denied : List String} {settings : Settings} {findings : List Finding} {error : PathError}

theorem listen_of_pathFailed (found : session.server? index = some server)
    (clean : Path.hasNul server.path = false) (same : settings.socketPath = server.path)
    {address : Finding}
    (looked : checkPath { tree := session.tree, denied := denied } settings = .ok address)
    (failed : address.passed = false) : ∃ error, session.listen index = (session, some error) := by
  obtain ⟨_, passes⟩ := checkPath_ok looked
  rw [← Bool.not_eq_true, passes, same, not_or] at failed
  obtain ⟨taken, other⟩ := failed
  cases there : session.tree.nodeAt (Path.normalize server.path) with
  | ok node =>
      refine Session.listen_over found clean there ?_
      rw [← Bool.not_eq_true]
      exact fun socket => other ⟨node, there, socket⟩
  | error number =>
      have present : number ≠ SystemError.notFound := fun absent => taken (absent ▸ there)
      exact ⟨_, Session.listen_unseen found clean there present⟩

theorem listen_of_findings (found : session.server? index = some server)
    (clean : Path.hasNul server.path = false) (same : settings.socketPath = server.path)
    (checked : check { tree := session.tree, denied := denied } settings = .ok findings)
    (failed : (∃ finding ∈ findings, finding.name = pathName ∧ finding.passed = false) ∨
      ⟨directoryName, false, Path.parent server.path ++ " does not exist"⟩ ∈ findings) :
    ∃ next error, session.listen index = (next, some error) ∧ next.tree = session.tree ∧
      next.servers = session.servers := by
  obtain ⟨directory, address, told, looked, rfl⟩ := check_eq_ok checked
  obtain ⟨titled, homeless⟩ := checkDirectory_ok (same ▸ clean) told
  obtain ⟨named, _⟩ := checkPath_ok looked
  have device := checkDevice_name ⟨session.tree, denied⟩ settings
  simp only [List.mem_cons, List.not_mem_nil, or_false] at failed
  rcases failed with ⟨finding, member, about, failed⟩ | member
  · rcases member with rfl | rfl | rfl
    · exact absurd (titled.symm.trans about) (by decide)
    · obtain ⟨error, fails⟩ := listen_of_pathFailed found clean same looked failed
      exact ⟨session, error, fails, rfl, rfl⟩
    · exact absurd (device.symm.trans about) (by decide)
  · rcases member with rfl | rfl | other
    · rw [same] at homeless
      exact Session.listen_homeless found clean (homeless rfl)
    · exact absurd (show directoryName = pathName from named) (by decide)
    · rw [← other] at device
      exact absurd (show directoryName = deviceName from device) (by decide)

theorem critical_of_listen (found : session.server? index = some server)
    (clean : Path.hasNul server.path = false) (same : settings.socketPath = server.path)
    (checked : check { tree := session.tree, denied := denied } settings = .ok findings)
    (fails : session.listen index = (next, some (.path error))) :
    hasCriticalFailure findings = true := by
  obtain ⟨number, unseen, present⟩ := Session.unseen_of_listen found clean fails
  obtain ⟨directory, address, _, looked, rfl⟩ := check_eq_ok checked
  obtain ⟨named, passes⟩ := checkPath_ok looked
  have failed : address.passed = false := by
    rw [← Bool.not_eq_true, passes, same]
    simp [unseen, present]
  simp [hasCriticalFailure, failed, named]

theorem listen_of_error (found : session.server? index = some server)
    (clean : Path.hasNul server.path = false) (same : settings.socketPath = server.path)
    (checked : check { tree := session.tree, denied := denied } settings = .error error) :
    error = .system ⟨SystemError.nameTooLong, some (Path.parent server.path)⟩ ∧
      session.listen index = (session, some (.path
        (.system ⟨SystemError.nameTooLong, some (Path.normalize server.path)⟩))) := by
  have told : checkDirectory { tree := session.tree, denied := denied } settings =
      .error error := by
    obtain ⟨address, looked⟩ :=
      exists_checkPath ⟨session.tree, denied⟩ (same ▸ clean)
    cases told : checkDirectory { tree := session.tree, denied := denied } settings with
    | error cause =>
        simp only [check, told, Bind.bind, Except.bind] at checked
        rw [Except.error.inj checked]
    | ok directory =>
        simp [check, told, looked, Bind.bind, Except.bind, pure, Except.pure] at checked
  obtain ⟨rfl, located⟩ := checkDirectory_error (same ▸ clean) told
  rw [same] at located
  have tooLong : session.tree.locate false (Path.normalize server.path) =
      .error SystemError.nameTooLong := Filesystem.locate_above located
  have unseen : session.tree.nodeAt (Path.normalize server.path) =
      .error SystemError.nameTooLong := by
    simp [Filesystem.nodeAt, Filesystem.lookup, tooLong, Except.map]
  exact ⟨by rw [same], Session.listen_unseen found clean unseen (by decide)⟩

/-- What the checks find about the path, and what listening does on the same file system. A finding
against the path, or that there is no directory above, means that listening fails and changes
nothing. Listening fails by the path only where a daemon with such findings ends before it listens,
or where the checks themselves fail; and they fail only where the name of the directory above is too
long, and there listening fails as well. -/
theorem foretells_listening (found : session.server? index = some server)
    (clean : Path.hasNul server.path = false) (same : settings.socketPath = server.path)
    (denied : List String) :
    let surroundings : Surroundings := { tree := session.tree, denied := denied }
    let parent := Path.parent server.path
    (∀ findings, check surroundings settings = .ok findings →
      (∃ finding ∈ findings, finding.name = pathName ∧ finding.passed = false) ∨
        ⟨directoryName, false, parent ++ " does not exist"⟩ ∈ findings →
      ∃ next error, session.listen index = (next, some error) ∧ next.tree = session.tree ∧
        next.servers = session.servers) ∧
    (∀ next error, session.listen index = (next, some (.path error)) →
      (∃ findings, check surroundings settings = .ok findings ∧
        hasCriticalFailure findings = true ∧
        ∀ other : Session Relay, other.tree = session.tree → ∀ device,
          (Daemon.start other denied settings device).phase = .ended 1 ∧
          (Daemon.start other denied settings device).session.servers = other.servers) ∨
      ∃ error, check surroundings settings = .error error) ∧
    ∀ error, check surroundings settings = .error error →
      error = .system ⟨SystemError.nameTooLong, some parent⟩ ∧
      session.listen index = (session, some (.path
        (.system ⟨SystemError.nameTooLong, some (Path.normalize server.path)⟩))) ∧
      ∀ other : Session Relay, other.tree = session.tree → ∀ device,
        (Daemon.start other denied settings device).phase = .failed (.path error) := by
  intro surroundings parent
  refine ⟨fun findings checked => listen_of_findings found clean same checked,
    fun next error fails => ?_, fun error checked => ?_⟩
  · cases checked : check surroundings settings with
    | error error => exact .inr ⟨error, rfl⟩
    | ok findings =>
        have critical := critical_of_listen found clean same checked fails
        refine .inl ⟨findings, rfl, critical, fun other tree device => ?_⟩
        exact start_of_critical (tree ▸ checked) critical
  · obtain ⟨tooLong, fails⟩ := listen_of_error found clean same checked
    exact ⟨tooLong, fails, fun other tree device => start_of_error (tree ▸ checked)⟩

/-- Under a file there is no directory, and listening fails as the checks say. -/
theorem foretells_listening_under_file :
    let tree := Filesystem.empty.add (Filesystem.workingPlace ++ ["f"]) (.file "") 420
    let server : Server Relay := { path := "f//s" }
    let session : Session Relay := { tree := tree, servers := [server] }
    let settings : Settings := { socketPath := "f//s" }
    let error := PathError.system ⟨SystemError.notADirectory, some "f/s"⟩
    Path.hasNul server.path = false ∧
      check { tree := tree } settings = .ok [⟨directoryName, false, "f does not exist"⟩,
        ⟨pathName, false, error.message⟩, checkDevice { tree := tree } settings] ∧
      (∃ next failure, session.listen 0 = (next, some failure) ∧ next.tree = tree ∧
        next.servers = [server]) ∧
      (session.listen 0).2 = some (.path error) ∧
      (Daemon.start { tree := tree } [] settings {}).phase = .ended 1 := by
  intro tree server session settings error
  have found : session.server? 0 = some server := rfl
  have same : settings.socketPath = server.path := rfl
  obtain ⟨clean, parent, form, clear, clear', homeless, unseen⟩ :
      Path.hasNul server.path = false ∧ Path.parent server.path = "f" ∧
      Path.normalize server.path = "f/s" ∧ Path.hasNul "f" = false ∧ Path.hasNul "f/s" = false ∧
      tree.isDirectory "f" = .ok false ∧
      tree.nodeAt "f/s" = .error SystemError.notADirectory := by
    simp only [server, tree]
    decide
  have checked : check { tree := tree } settings = .ok [⟨directoryName, false, "f does not exist"⟩,
      ⟨pathName, false, error.message⟩, checkDevice { tree := tree } settings] := by
    simp only [check, checkDirectory, checkPath, same, parent, form, clear, clear', homeless,
      unseen]
    rfl
  have fails : session.listen 0 = (session, some (.path error)) := by
    rw [← form] at unseen
    have fails := Session.listen_unseen found clean unseen (by decide)
    rwa [form] at fails
  obtain ⟨against, before, _⟩ := foretells_listening found clean same []
  have missing := against _ checked (.inr (by rw [parent]; exact List.mem_cons_self))
  refine ⟨clean, checked, missing, congrArg Prod.snd fails, ?_⟩
  rcases before session error fails with ⟨_, _, _, ends⟩ | ⟨_, failed⟩
  · exact (ends { tree := tree } rfl {}).1
  · cases checked.symm.trans failed

section TooLong

variable {name : String} (proper : Path.IsName name) (moves : name ≠ ".")
  (clean : Path.hasNul name = false) (long : Filesystem.nameLimit < name.utf8ByteSize)
  (short : name.utf8ByteSize ≤ Filesystem.pathLimit)

include proper moves clean long short

theorem checkDirectory_tooLong {surroundings : Surroundings} {last : String}
    (below : Path.IsName last) (ends : last ≠ ".")
    (here : surroundings.tree.node? Filesystem.workingPlace = some .directory)
    (path : settings.socketPath = name ++ ("/" ++ last)) :
    checkDirectory surroundings settings =
      .error (.system ⟨SystemError.nameTooLong, some name⟩) := by
  have relative : Path.isAbsolute name = false := by
    simpa using Path.isAbsolute_append proper ""
  have located : surroundings.tree.locate true name = .error SystemError.nameTooLong := by
    simp only [Filesystem.locate, Filesystem.startOf, relative]
    rw [if_neg proper.1, if_neg (Nat.not_lt.mpr short), Path.steps_name proper]
    simp [Filesystem.walk_eq, Filesystem.walkWith, here, long]
  have told : surroundings.tree.isDirectory name = .error SystemError.nameTooLong := by
    simp [Filesystem.isDirectory, Filesystem.target, Filesystem.lookup, located, Except.map,
      Filesystem.meansAbsent, SystemError.nameTooLong, SystemError.notFound,
      SystemError.notADirectory, SystemError.badHandle, SystemError.tooManyLinks]
  simp [checkDirectory, path, Path.parent_below proper moves below ends, clean, told]

theorem fails_under_tooLong :
    let server : Server Relay := { path := name ++ "/s" }
    let session : Session Relay := { servers := [server] }
    let settings : Settings := { socketPath := server.path }
    let error := PathError.system ⟨SystemError.nameTooLong, some name⟩
    Path.hasNul server.path = false ∧
      session.listen 0 =
        (session, some (.path (.system ⟨SystemError.nameTooLong, some server.path⟩))) ∧
      check { tree := session.tree } settings = .error error ∧
      (∀ findings, check { tree := session.tree } settings ≠ .ok findings) ∧
      (Daemon.start {} [] settings {}).phase = .failed (.path error) := by
  intro server session settings error
  have found : session.server? 0 = some server := rfl
  have below : Path.IsName "s" := ⟨by decide, by decide⟩
  have path : server.path = name ++ ("/" ++ "s") := rfl
  have clear : Path.hasNul server.path = false := by
    simp only [Path.hasNul, List.contains_eq_mem, decide_eq_false_iff_not] at clean ⊢
    simp [server, clean]
  have checked : check { tree := session.tree } settings = .error error := by
    have told : checkDirectory { tree := session.tree } settings = .error error :=
      checkDirectory_tooLong proper moves clean long short below (by decide) rfl path
    simp [check, told, Bind.bind, Except.bind]
  have same : settings.socketPath = server.path := rfl
  obtain ⟨_, fails⟩ := listen_of_error found clear same checked
  have form : Path.normalize server.path = server.path := by
    rw [path]
    exact Path.normalize_below proper moves below (by decide)
  rw [form] at fails
  refine ⟨clear, fails, checked, fun findings passed => ?_, start_of_error checked⟩
  cases checked.symm.trans passed

end TooLong

def letters (count : Nat) : String := String.ofList (List.replicate count 'a')

theorem mem_letters {count : Nat} {letter : Char} (present : letter ∈ (letters count).toList) :
    letter = 'a' := by
  rw [letters, String.toList_ofList] at present
  exact List.eq_of_mem_replicate present

theorem utf8ByteSize_letters (count : Nat) : (letters count).utf8ByteSize = count := by
  induction count with
  | zero => rfl
  | succ count ih =>
      have one : 'a'.utf8Size = 1 := rfl
      rw [letters] at ih
      rw [letters, List.replicate_succ, String.ofList_cons, String.utf8ByteSize_append, ih,
        String.utf8ByteSize_singleton]
      omega

theorem isName_letters {count : Nat} (some : 0 < count) : Path.IsName (letters count) := by
  refine ⟨fun empty => ?_, fun slash => absurd (mem_letters slash) (by decide)⟩
  have size := utf8ByteSize_letters count
  rw [empty] at size
  exact absurd size (Nat.ne_of_lt some)

theorem letters_ne_dot (count : Nat) : letters count ≠ "." := by
  intro dot
  have member : '.' ∈ (letters count).toList := by simp [dot]
  exact absurd (mem_letters member) (by decide)

theorem hasNul_letters (count : Nat) : Path.hasNul (letters count) = false := by
  simp only [Path.hasNul, List.contains_eq_mem, decide_eq_false_iff_not]
  exact fun nul => absurd (mem_letters nul) (by decide)

/-- Where the name of the directory is too long, the checks fail as listening does, and no daemon
ends in order. -/
theorem checks_fail_under_long_name :
    let server : Server Relay := { path := letters 256 ++ "/s" }
    let session : Session Relay := { servers := [server] }
    let settings : Settings := { socketPath := server.path }
    let error := PathError.system ⟨SystemError.nameTooLong, some (letters 256)⟩
    Path.hasNul server.path = false ∧
      session.listen 0 =
        (session, some (.path (.system ⟨SystemError.nameTooLong, some server.path⟩))) ∧
      check { tree := session.tree } settings = .error error ∧
      (∀ findings, check { tree := session.tree } settings ≠ .ok findings) ∧
      (Daemon.start {} [] settings {}).phase = .failed (.path error) :=
  fails_under_tooLong (isName_letters (by decide)) (letters_ne_dot 256) (hasNul_letters 256)
    (by rw [utf8ByteSize_letters]; decide) (by rw [utf8ByteSize_letters]; decide)

end Health
end SteeringChannel
