import SteeringChannel.Proofs.Filesystem.Walk
import SteeringChannel.Proofs.Session.Silence

/-!
What a stop removes from the file system. It clears the place that its path names, whoever made
what is there; only where that is the server's own socket does it spare everything else.
-/

namespace SteeringChannel

namespace Filesystem

variable {tree : Filesystem}

def Distinct (tree : Filesystem) : Prop := (tree.entries.map Entry.place).Nodup

theorem Distinct.entry? (distinct : tree.Distinct) {entry : Entry} (member : entry ∈ tree.entries) :
    tree.entry? entry.place = some entry := by
  cases found : tree.entry? entry.place with
  | none => simpa using List.find?_eq_none.mp found entry member
  | some other =>
      have same : other.place = entry.place := by simpa using List.find?_some found
      exact congrArg some
        (List.inj_on_of_nodup_map distinct (List.mem_of_find?_eq_some found) member same)

theorem Distinct.remove (distinct : tree.Distinct) (place : Place) :
    (tree.remove place).Distinct :=
  distinct.sublist (List.filter_sublist.map _)

theorem Distinct.modify (distinct : tree.Distinct) (place : Place) {change : Entry → Entry}
    (keeps : ∀ entry, (change entry).place = entry.place) :
    (tree.modify place change).Distinct := by
  have same : (tree.modify place change).entries.map Entry.place =
      tree.entries.map Entry.place := by
    simp only [Filesystem.modify, List.map_map]
    apply List.map_congr_left
    intro entry _
    simp only [Function.comp]
    split <;> simp [keeps]
  rw [Distinct, same]
  exact distinct

theorem Distinct.add (distinct : tree.Distinct) {place : Place} (free : tree.node? place = none)
    (node : Node) (mode : Int) : (tree.add place node mode).Distinct := by
  have absent : place ∉ tree.entries.map Entry.place := by
    intro taken
    obtain ⟨entry, member, rfl⟩ := List.mem_map.mp taken
    simp [node?, distinct.entry? member] at free
  rw [Distinct, Filesystem.add, List.map_append]
  refine List.nodup_append.mpr ⟨distinct, List.nodup_singleton _, ?_⟩
  rintro taken before _ last rfl
  obtain rfl : taken = place := List.mem_singleton.mp last
  exact absent before

theorem walk_free {followLast : Bool} {links : Nat} {place found : Place} {names : List String}
    (free : tree.walk followLast links place names = .ok (.free found)) :
    tree.node? found = none := by
  have leads := leads_of_walk free
  clear free
  generalize ended : Found.free found = reached at leads
  induction leads with
  | free _ _ absent =>
      cases ended
      exact absent
  | here => cases ended
  | link => cases ended
  | stay _ _ ih => exact ih ended
  | up _ _ ih => exact ih ended
  | follow _ _ _ _ _ ih => exact ih ended
  | enter _ _ _ _ _ ih => exact ih ended

theorem bind_eq_ok {path : String} {server : Nat} {next : Filesystem}
    (bound : Address.bind tree path server = .ok next) :
    ∃ place, path.utf8ByteSize ≤ Address.limit ∧ tree.locate false path = .ok (.free place) ∧
      tree.node? place = none ∧ next = tree.add place (.socket (.served server)) directoryMode := by
  simp only [Address.bind] at bound
  split at bound
  · cases bound
  next short =>
    split at bound
    · cases bound
    · cases bound
    next place located =>
      obtain ⟨_, _, leads⟩ := locate_eq_ok.mp located
      exact ⟨place, Nat.not_lt.mp short, located, walk_free (walk_of_leads leads),
        (Except.ok.inj bound).symm⟩

def retireNode (server : Nat) (node : Node) : Node :=
  if node = .socket (.served server) then .socket .refusing else node

theorem retireNode_directory (server : Nat) : retireNode server .directory = .directory := rfl

theorem retireNode_link (server : Nat) (target : String) :
    retireNode server (.link target) = .link target := rfl

theorem retireNode_socket (server : Nat) (kind : SocketKind) :
    ∃ retired, retireNode server (.socket kind) = .socket retired := by
  unfold retireNode
  split
  · exact ⟨.refusing, rfl⟩
  · exact ⟨kind, rfl⟩

theorem retire_eq (tree : Filesystem) (server : Nat) :
    tree.retire server =
      ⟨tree.entries.map fun entry => { entry with node := retireNode server entry.node }⟩ := by
  simp only [retire, retireNode]
  congr 2
  funext entry
  split <;> rfl

theorem find_retire (server : Nat) (place : Place) :
    entry? (tree.retire server) place =
      (tree.entry? place).map fun entry => { entry with node := retireNode server entry.node } := by
  simp only [retire_eq, entry?, List.find?_map]
  rfl

theorem Distinct.retire (distinct : tree.Distinct) (server : Nat) :
    (tree.retire server).Distinct := by
  rw [Distinct, retire_eq, List.map_map]
  exact distinct

theorem node?_retire (server : Nat) (place : Place) :
    (tree.retire server).node? place = (tree.node? place).map (retireNode server) := by
  simp only [node?, find_retire, Option.map_map]
  rfl

theorem walkWith_retire (server : Nat) (followLast : Bool)
    (follow : Place → List String → Except Int Found) (place : Place) (names : List String) :
    (tree.retire server).walkWith followLast follow place names =
      tree.walkWith followLast follow place names := by
  fun_induction walkWith tree followLast follow place names
  case case1 => rw [walkWith]
  case case10 place name rest directory short dot dots next node other found ih =>
    replace found : tree.node? (place ++ [name]) = some node := found
    rw [walkWith]
    simp only [node?_retire, directory, found, Option.map_some, retireNode_directory, if_neg short,
      if_neg dot, if_neg dots]
    cases node with
    | link target => exact (other target rfl).elim
    | socket kind =>
        obtain ⟨retired, shape⟩ := retireNode_socket server kind
        rw [shape]
        exact ih
    | _ => exact ih
  case case11 place name rest node other found =>
    rw [walkWith, node?_retire, found, Option.map_some]
    cases node with
    | directory => exact (other rfl).elim
    | socket kind =>
        obtain ⟨retired, shape⟩ := retireNode_socket server kind
        rw [shape]
    | _ => rfl
  all_goals
    rw [walkWith]
    simp_all +zetaDelta only [node?_retire, Option.map_some, Option.map_none, retireNode_directory,
      retireNode_link, if_true, if_false, reduceCtorEq]

theorem walk_retire (server : Nat) (followLast : Bool) (links : Nat) (place : Place)
    (names : List String) :
    (tree.retire server).walk followLast links place names =
      tree.walk followLast links place names := by
  induction links generalizing place names with
  | zero => exact walkWith_retire ..
  | succ links ih =>
      have same : (tree.retire server).walk followLast links = tree.walk followLast links :=
        funext₂ ih
      rw [walk, same, walkWith_retire, walk]

theorem lookup_retire (server : Nat) (followLast : Bool) (path : String) :
    (tree.retire server).lookup followLast path =
      (tree.lookup followLast path).map fun found =>
        (found.1, { found.2 with node := retireNode server found.2.node }) := by
  have located : (tree.retire server).locate followLast path = tree.locate followLast path := by
    simp only [locate, walk_retire]
  simp only [lookup, located]
  split
  · rfl
  · rfl
  next place _ =>
    rw [find_retire]
    cases tree.entry? place <;> rfl

theorem leadsSomewhere_retire (server : Nat) (path : String) :
    (tree.retire server).leadsSomewhere path = tree.leadsSomewhere path := by
  simp only [leadsSomewhere, target, lookup_retire]
  cases tree.lookup true path <;> rfl

theorem mem_of_lookup {followLast : Bool} {path : String} {place : Place} {entry : Entry}
    (found : tree.lookup followLast path = .ok (place, entry)) :
    tree.entry? place = some entry ∧ entry ∈ tree.entries ∧ entry.place = place := by
  simp only [lookup] at found
  split at found
  · cases found
  · cases found
  · split at found
    next other there =>
      obtain ⟨rfl, rfl⟩ := Prod.mk.inj (Except.ok.inj found)
      exact ⟨there, List.mem_of_find?_eq_some there, by simpa using List.find?_some there⟩
    next => cases found

/-- What a stop removes at its path: the node that the path names, unless that is a directory or
the path leads nowhere. -/
def cleared? (tree : Filesystem) (path : String) : Option (Place × Entry) :=
  if Path.hasNul path then none
  else match tree.leadsSomewhere path with
    | .ok true =>
        match tree.lookup false path with
        | .ok (place, entry) => if entry.node = .directory then none else some (place, entry)
        | .error _ => none
    | _ => none

theorem cleared?_eq_some {path : String} {place : Place} {entry : Entry}
    (cleared : tree.cleared? path = some (place, entry)) :
    tree.entry? place = some entry ∧ entry ∈ tree.entries ∧ entry.place = place := by
  simp only [cleared?] at cleared
  split at cleared
  · cases cleared
  · split at cleared
    · split at cleared
      next found =>
        split at cleared
        · cases cleared
        · obtain ⟨rfl, rfl⟩ := Prod.mk.inj (Option.some.inj cleared)
          exact mem_of_lookup found
      next => cases cleared
    · cases cleared

theorem retireNode_eq_directory {server : Nat} {node : Node} :
    retireNode server node = .directory ↔ node = .directory := by
  unfold retireNode
  split
  next own => simp [own]
  next => rfl

theorem cleared?_retire (server : Nat) (path : String) :
    (tree.retire server).cleared? path =
      (tree.cleared? path).map fun found =>
        (found.1, { found.2 with node := retireNode server found.2.node }) := by
  simp only [cleared?, leadsSomewhere_retire, lookup_retire]
  split
  · rfl
  · cases tree.leadsSomewhere path with
    | error number => rfl
    | ok somewhere =>
        cases somewhere with
        | false => rfl
        | true =>
            cases tree.lookup false path with
            | error number => rfl
            | ok found =>
                by_cases directory : found.2.node = .directory
                · simp [Except.map, directory, retireNode_directory]
                · simp [Except.map, directory, retireNode_eq_directory]

theorem Distinct.unlink (distinct : tree.Distinct) {path : String} {next : Filesystem}
    (unlinked : tree.unlink path = .ok next) : next.Distinct := by
  simp only [Filesystem.unlink] at unlinked
  split at unlinked
  · cases unlinked
  · split at unlinked
    · cases unlinked
    · exact Except.ok.inj unlinked ▸ distinct.remove _

theorem Distinct.changeMode (distinct : tree.Distinct) {path : String} {mode : Int}
    {next : Filesystem} (changed : tree.changeMode path mode = .ok next) : next.Distinct := by
  simp only [Filesystem.changeMode] at changed
  split at changed
  · cases changed
  · exact Except.ok.inj changed ▸ distinct.modify _ fun _ => rfl

theorem Distinct.bind (distinct : tree.Distinct) {path : String} {server : Nat}
    {next : Filesystem} (bound : Address.bind tree path server = .ok next) : next.Distinct := by
  obtain ⟨place, _, _, free, rfl⟩ := bind_eq_ok bound
  exact distinct.add free _ _

end Filesystem

/-! The tree of a session. -/

namespace Session

variable {σ : Type} {session : Session σ} {index : Nat} {server : Server σ}

theorem tree_onServer (session : Session σ) (index : Nat) (change : Server σ → Server σ) :
    (session.onServer index change).tree = session.tree := by
  simp only [onServer]
  split <;> rfl

theorem tree_probe [Outlet σ] (session : Session σ) (listener : Address.Listener) :
    (session.probe listener).tree = session.tree := by
  cases listener with
  | unattended => rfl
  | server index => exact tree_onServer ..

theorem tree_foldl_note (records : List Journal.Record) (session : Session σ) :
    (records.foldl note session).tree = session.tree := by
  induction records generalizing session with
  | nil => rfl
  | cons record rest ih => exact ih (session.note record)

theorem tree_removeAddress (session : Session σ) (path : String) :
    (session.removeAddress path).1.tree =
      match session.tree.cleared? path with
      | none => session.tree
      | some (place, _) => session.tree.remove place := by
  simp only [removeAddress, Filesystem.cleared?, Filesystem.unlink]
  split
  · rfl
  · cases leads : session.tree.leadsSomewhere path with
    | error number => rfl
    | ok somewhere =>
        cases somewhere with
        | false => rfl
        | true =>
            cases session.tree.lookup false path with
            | error number => rfl
            | ok found => by_cases directory : found.2.node = .directory <;> simp [directory]

def retired (session : Session σ) (index : Nat) (server : Server σ) : Filesystem :=
  if server.listening then session.tree.retire index else session.tree

theorem tree_stop (found : session.server? index = some server) :
    (session.stop index).1.tree =
      match session.tree.cleared? (Path.normalize server.path) with
      | none => session.retired index server
      | some (place, _) => (session.retired index server).remove place := by
  simp only [stop, found]
  rw [tree_removeAddress, tree_onServer]
  cases listening : server.listening with
  | false => simp [retired, listening]
  | true =>
      simp only [retired, listening, if_true, Filesystem.cleared?_retire]
      cases session.tree.cleared? (Path.normalize server.path) <;> rfl

theorem mem_retired {entry : Entry} (member : entry ∈ session.tree.entries)
    (foreign : entry.node ≠ .socket (.served index)) :
    entry ∈ (session.retired index server).entries := by
  simp only [retired]
  split
  · rw [Filesystem.retire_eq]
    exact List.mem_map.mpr ⟨entry, member, by rw [Filesystem.retireNode, if_neg foreign]⟩
  · exact member

/-- A stop spares all that is not the server's own just if its path does not name such a thing. -/
theorem stop_spares_iff (distinct : session.tree.Distinct)
    (found : session.server? index = some server) :
    (∀ entry ∈ session.tree.entries, entry.node ≠ .socket (.served index) →
      entry ∈ (session.stop index).1.tree.entries) ↔
    ∀ place entry, session.tree.cleared? (Path.normalize server.path) = some (place, entry) →
      entry.node = .socket (.served index) := by
  rw [tree_stop found]
  constructor
  · intro spares place entry cleared
    obtain ⟨_, member, at_⟩ := Filesystem.cleared?_eq_some cleared
    by_cases own : entry.node = .socket (.served index)
    · exact own
    · have stays := spares entry member own
      rw [cleared] at stays
      simp [Filesystem.remove, at_] at stays
  · intro own entry member foreign
    have kept : entry ∈ (session.retired index server).entries := mem_retired member foreign
    cases cleared : session.tree.cleared? (Path.normalize server.path) with
    | none => exact kept
    | some removed =>
        obtain ⟨place, other⟩ := removed
        obtain ⟨there, _, at_⟩ := Filesystem.cleared?_eq_some cleared
        refine List.mem_filter.mpr ⟨kept, ?_⟩
        have elsewhere : entry.place ≠ place := by
          intro same
          have here := distinct.entry? member
          rw [same, there] at here
          obtain rfl := Option.some.inj here
          exact foreign (own place other cleared)
        simpa using elsewhere

theorem distinct_clearStale [Outlet σ] (distinct : session.tree.Distinct) (path : String) :
    (session.clearStale path).1.tree.Distinct := by
  simp only [clearStale]
  split
  · exact distinct
  · split
    · split <;> exact distinct
    · split
      · exact distinct
      · split
        · rw [tree_probe]
          exact distinct
        · split
          · exact distinct
          · split
            next unlinked => exact distinct.unlink unlinked
            next => exact distinct

theorem distinct_clearAddress (distinct : session.tree.Distinct) (path : String) :
    (session.clearAddress path).tree.Distinct := by
  have failed (number : Int) : (if number = SystemError.notFound then session
      else session.note (uncheckedRecord path number)).tree.Distinct := by
    split <;> exact distinct
  simp only [clearAddress]
  split
  · exact failed _
  · split
    · exact distinct
    · split
      next unlinked => exact distinct.unlink unlinked
      next => exact failed _

theorem distinct_setMode (distinct : session.tree.Distinct) (path : String) (mode : Int) :
    (session.setMode path mode).1.tree.Distinct := by
  simp only [setMode]
  split
  · exact distinct
  · split
    · exact distinct
    · split
      next changed => exact distinct.changeMode changed
      next => exact distinct

theorem distinct_bindAddress (distinct : session.tree.Distinct) (index : Nat) (path : String)
    (mode : Int) : (session.bindAddress index path mode).1.tree.Distinct := by
  rcases bindAddress_cases session index path mode with ⟨_, _, shape⟩ | ⟨tree, records, bound, shape⟩ <;>
    rw [shape]
  · exact distinct
  rw [tree_foldl_note]
  refine distinct_setMode ?_ path mode
  rw [tree_onServer]
  exact distinct.bind bound

theorem distinct_listen [Outlet σ] (distinct : session.tree.Distinct) (index : Nat) :
    (session.listen index).1.tree.Distinct := by
  simp only [listen]
  split
  · exact distinct
  next server _ =>
    have cleared := distinct_clearStale distinct (Path.normalize server.path)
    split
    next shape =>
      rw [shape] at cleared
      exact cleared
    next shape =>
      rw [shape] at cleared
      exact distinct_bindAddress (distinct_clearAddress cleared _) _ _ _

theorem distinct_stop (distinct : session.tree.Distinct) (index : Nat) :
    (session.stop index).1.tree.Distinct := by
  cases found : session.server? index with
  | none => simpa [stop, found] using distinct
  | some server =>
      have retired : (session.retired index server).Distinct := by
        simp only [Session.retired]
        split
        · exact distinct.retire index
        · exact distinct
      rw [tree_stop found]
      split
      · exact retired
      · exact retired.remove _

def Step.isAddressing : Step → Prop
  | .listen _ | .stop _ => True
  | _ => False

theorem distinct_run [Outlet σ] (distinct : session.tree.Distinct) {requests : List Step}
    (addressing : ∀ request ∈ requests, request.isAddressing) (number : Nat) :
    (session.run number requests).1.tree.Distinct := by
  induction requests generalizing session number with
  | nil => exact distinct
  | cons request rest ih =>
      refine ih ?_ (fun later member => addressing later (List.mem_cons_of_mem request member)) _
      have here := addressing request List.mem_cons_self
      cases request with
      | listen index =>
          exact @distinct_listen _ { session with records := [], finished := [] } _ distinct index
      | stop index =>
          exact @distinct_stop _ { session with records := [], finished := [] } distinct index
      | _ => exact here.elim

/-- After any listening and stopping, a stop spares everything that is not the server's own socket
just if its path names that socket, or nothing that can be removed. -/
theorem stop_spares_others_iff [Outlet σ] (distinct : session.tree.Distinct)
    {requests : List Step} (addressing : ∀ request ∈ requests, request.isAddressing)
    (number : Nat) (found : (session.run number requests).1.server? index = some server) :
    (∀ entry ∈ (session.run number requests).1.tree.entries,
      entry.node ≠ .socket (.served index) →
        entry ∈ ((session.run number requests).1.stop index).1.tree.entries) ↔
    ∀ place entry, (session.run number requests).1.tree.cleared? (Path.normalize server.path) =
      some (place, entry) → entry.node = .socket (.served index) :=
  stop_spares_iff (distinct_run distinct addressing number) found

/-- A server that listens beside a file of somebody else, while another one cannot listen. -/
theorem stop_spares_others_iff_neighbour :
    let note : Entry := ⟨Filesystem.workingPlace ++ ["note"], .file "keep me", 420⟩
    let socket : Entry := ⟨Filesystem.workingPlace ++ ["s"], .socket (.served 0), 438⟩
    let session : Session Recorder :=
      { tree := ⟨Filesystem.empty.entries ++ [note, socket]⟩
        servers := [{ path := "s", listening := true }, { path := "s" }] }
    let last := (session.run 0 [.listen 1]).1
    session.tree.Distinct ∧ last.tree = session.tree ∧
      (last.stop 0).1.tree.isThereItself "s" = false ∧ note ∈ (last.stop 0).1.tree.entries := by
  intro note socket session last
  have distinct : session.tree.Distinct := by
    simp [Filesystem.Distinct, session, note, socket, Filesystem.empty, Filesystem.workingPlace]
  have addressing : ∀ request ∈ [Step.listen 1], request.isAddressing := by
    simp [Step.isAddressing]
  have tree : last.tree = session.tree := by
    change (session.listen 1).1.tree = session.tree
    decide
  have freed : (last.stop 0).1.tree.isThereItself "s" = false := by
    change ((session.listen 1).1.stop 0).1.tree.isThereItself "s" = false
    decide
  have found : (last.server? 0).map Server.path = some "s" := by
    change ((session.listen 1).1.server? 0).map Server.path = some "s"
    decide
  have cleared : session.tree.cleared? (Path.normalize "s") = some (socket.place, socket) := by
    decide
  obtain ⟨server, found, path⟩ := Option.map_eq_some_iff.mp found
  have own : ∀ place entry, last.tree.cleared? (Path.normalize server.path) =
      some (place, entry) → entry.node = .socket (.served 0) := by
    intro place entry clears
    rw [tree, path, cleared] at clears
    obtain ⟨rfl, rfl⟩ := Prod.mk.inj (Option.some.inj clears)
    rfl
  have present : note ∈ last.tree.entries := by simp [tree, session]
  exact ⟨distinct, tree, freed,
    (stop_spares_others_iff distinct addressing 0 found).mpr own note present (by simp [note])⟩

/-- Neither a file in the way nor the socket of another server survives the stop of a server that
could not listen because of it. -/
theorem stop_removes_foreign :
    let place := Filesystem.workingPlace ++ ["s"]
    let filed : Session Recorder :=
      { tree := Filesystem.empty.add place (.file "keep me") 420, servers := [{ path := "s" }] }
    let shared : Session Recorder :=
      { tree := Filesystem.empty.add place (.socket (.served 0)) 438
        servers := [{ path := "s", listening := true }, { path := "s" }] }
    (filed.listen 0).2 = some (.bind (.notASocket "s")) ∧
      (filed.listen 0).1.tree = filed.tree ∧
      ((filed.listen 0).1.stop 0).1.tree = Filesystem.empty ∧
      (shared.listen 1).2 = some (.bind (.alreadyBound "s")) ∧
      (shared.listen 1).1.tree = shared.tree ∧
      ((shared.listen 1).1.stop 1).1.tree = Filesystem.empty ∧
      (((shared.listen 1).1.stop 1).1.server? 0).map Server.isListening = some true := by
  intro place filed shared
  refine ⟨?_, ?_, ?_, ?_, ?_, ?_, ?_⟩ <;> decide

end Session
end SteeringChannel
