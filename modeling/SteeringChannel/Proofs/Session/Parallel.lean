import SteeringChannel.Proofs.Server.Twins
import SteeringChannel.Proofs.Session.Share

/-!
Two sessions side by side, alike but for what has been written and for one server, where both are
related in some way. What a step answers then is the same in both, and the sessions stay alike.
-/

namespace SteeringChannel

def Peer.renumber (number : Nat → Nat) (index : Nat) : Peer → Peer
  | .server here id => .server here (if here = index then number id else id)
  | .unattended => .unattended

def Peer.within (index bound : Nat) : Peer → Prop
  | .server here id => here = index → id < bound
  | .unattended => True

def Link.renumber (number : Nat → Nat) (index : Nat) (link : Link) : Link :=
  { link with peer := link.peer.renumber number index }

def Client.renumber (number : Nat → Nat) (index : Nat) (client : Client) : Client :=
  { client with link := client.link.map (Link.renumber number index) }

def Client.within (index bound : Nat) (client : Client) : Prop :=
  ∀ link, client.link = some link → link.peer.within index bound

def Wire.renumber (number : Nat → Nat) (index : Nat) (wire : Wire) : Wire :=
  { wire with peer := wire.peer.renumber number index }

theorem Peer.within_mono {peer : Peer} {index bound more : Nat} (known : peer.within index bound)
    (le : bound ≤ more) : peer.within index more := by
  cases peer with
  | unattended => trivial
  | server here id => exact fun same => Nat.lt_of_lt_of_le (known same) le

namespace Session

variable {σ : Type} {number : Nat → Nat} {index slack left : Nat}
  {related after : Server σ → Server σ → Prop} {session other : Session σ}

def Knows (session : Session σ) (index bound : Nat) : Prop :=
  (∀ entry ∈ session.clients, entry.2.within index bound) ∧
    ∀ entry ∈ session.wires, entry.2.peer.within index bound

structure Parallel (number : Nat → Nat) (index slack : Nat)
    (related : Server σ → Server σ → Prop) (session other : Session σ) : Prop where
  tree : other.tree = session.tree
  now : other.now = session.now
  modeFailure : other.modeFailure = session.modeFailure
  count : other.servers.length = session.servers.length
  beside : ∀ here, here ≠ index → other.server? here = session.server? here
  clients : other.clients =
    session.clients.map fun entry => (entry.1, entry.2.renumber number index)
  wires : other.wires = session.wires.map fun entry => (entry.1, Wire.renumber number index entry.2)
  watched : ∃ server later, session.server? index = some server ∧
    other.server? index = some later ∧ related server later ∧
      session.Knows index (server.nextId + slack)

theorem Knows.mono {bound more : Nat} (knows : session.Knows index bound) (le : bound ≤ more) :
    session.Knows index more :=
  ⟨fun entry member link held => Peer.within_mono (knows.1 entry member link held) le,
    fun entry member => Peer.within_mono (knows.2 entry member) le⟩

theorem lookup_map {α β γ : Type} [BEq α] (entries : List (α × β)) (change : β → γ) (name : α) :
    (entries.map fun entry => (entry.1, change entry.2)).lookup name =
      (entries.lookup name).map change := by
  induction entries with
  | nil => rfl
  | cons entry rest ih =>
      obtain ⟨here, value⟩ := entry
      by_cases same : name == here <;> simp [List.lookup_cons, same, ih]

theorem mem_of_lookup_eq {α β : Type} [BEq α] [LawfulBEq α] {entries : List (α × β)} {name : α}
    {value : β} (found : entries.lookup name = some value) : (name, value) ∈ entries := by
  obtain ⟨before, after, shape, _⟩ := List.lookup_eq_some_iff.mp found
  simp [shape]

theorem length_onServer (session : Session σ) (index : Nat) (change : Server σ → Server σ) :
    (session.onServer index change).servers.length = session.servers.length := by
  simp only [onServer]
  split <;> simp

theorem frame_onServer (session : Session σ) (index : Nat) (change : Server σ → Server σ) :
    (session.onServer index change).tree = session.tree ∧
      (session.onServer index change).now = session.now ∧
      (session.onServer index change).modeFailure = session.modeFailure ∧
      (session.onServer index change).clients = session.clients ∧
      (session.onServer index change).wires = session.wires := by
  simp only [onServer]
  split <;> simp

namespace Parallel

section Read

variable (parallel : Parallel number index slack related session other)
include parallel

theorem client_eq (name path : String) :
    other.client name path = (session.client name path).renumber number index := by
  simp only [Session.client, parallel.clients, lookup_map]
  cases session.clients.lookup name <;> rfl

theorem wire_eq (name : String) :
    other.wires.lookup name = (session.wires.lookup name).map (Wire.renumber number index) := by
  rw [parallel.wires, lookup_map]

end Read

section Change

variable (parallel : Parallel number index slack related session other)
include parallel

theorem note (record otherRecord : Journal.Record) :
    Parallel number index slack related (session.note record) (other.note otherRecord) :=
  { parallel with }

theorem foldl_note (records : List Journal.Record) :
    Parallel number index slack related (records.foldl Session.note session)
      (records.foldl Session.note other) := by
  induction records generalizing session other with
  | nil => exact parallel
  | cons record rest ih => exact ih (parallel.note record record)

theorem noted (records : List Journal.Record) :
    Parallel number index slack related session (records.foldl Session.note other) := by
  induction records generalizing other with
  | nil => exact parallel
  | cons record rest ih => exact @ih (other.note record) { parallel with }

theorem loosen {more : Nat} (le : slack ≤ more) :
    Parallel number index more related session other := by
  obtain ⟨server, later, found, there, relates, knows⟩ := parallel.watched
  exact { parallel with
    watched := ⟨server, later, found, there, relates, knows.mono (Nat.add_le_add_left le _)⟩ }

theorem retree (tree : Filesystem) :
    Parallel number index slack related { session with tree := tree }
      { other with tree := tree } :=
  { parallel with tree := rfl }

theorem setClient (name : String) {client : Client}
    (within : ∀ server, session.server? index = some server →
      client.within index (server.nextId + slack)) :
    Parallel number index slack related (session.setClient name client)
      (other.setClient name (client.renumber number index)) := by
  obtain ⟨server, later, found, there, relates, knows⟩ := parallel.watched
  refine { parallel with clients := ?_, watched := ⟨server, later, found, there, relates, ?_, knows.2⟩ }
  · simp only [Session.setClient, parallel.clients, List.map_cons, List.filter_map,
      Function.comp_def]
  · intro entry member
    rcases List.mem_cons.mp member with rfl | member
    · exact within server found
    · exact knows.1 entry (List.mem_filter.mp member).1

theorem setWire (name : String) {wire : Wire}
    (within : ∀ server, session.server? index = some server →
      wire.peer.within index (server.nextId + slack)) :
    Parallel number index slack related (session.setWire name wire)
      (other.setWire name (Wire.renumber number index wire)) := by
  obtain ⟨server, later, found, there, relates, knows⟩ := parallel.watched
  refine { parallel with wires := ?_, watched := ⟨server, later, found, there, relates, knows.1, ?_⟩ }
  · simp only [Session.setWire, parallel.wires, List.map_cons, List.filter_map,
      Function.comp_def]
  · intro entry member
    rcases List.mem_cons.mp member with rfl | member
    · exact within server found
    · exact knows.2 entry (List.mem_filter.mp member).1

theorem dropWire (name : String) :
    Parallel number index slack related (session.dropWire name) (other.dropWire name) := by
  obtain ⟨server, later, found, there, relates, knows⟩ := parallel.watched
  refine { parallel with wires := ?_, watched := ⟨server, later, found, there, relates, knows.1, ?_⟩ }
  · simp only [Session.dropWire, parallel.wires, List.filter_map, Function.comp_def]
  · exact fun entry member => knows.2 entry (List.mem_filter.mp member).1

theorem elsewhere {changed : Nat} (differs : changed ≠ index)
    (change : Server σ → Server σ) :
    Parallel number index slack related (session.onServer changed change)
      (other.onServer changed change) := by
  obtain ⟨server, later, found, there, relates, knows⟩ := parallel.watched
  obtain ⟨tree, now, modeFailure, clients, wires⟩ := session.frame_onServer changed change
  obtain ⟨tree', now', modeFailure', clients', wires'⟩ := other.frame_onServer changed change
  refine ⟨?_, ?_, ?_, ?_, fun here apart => ?_, ?_, ?_, server, later, ?_, ?_, relates, ?_, ?_⟩
  · rw [tree, tree', parallel.tree]
  · rw [now, now', parallel.now]
  · rw [modeFailure, modeFailure', parallel.modeFailure]
  · rw [length_onServer, length_onServer, parallel.count]
  · rw [server?_onServer, server?_onServer, parallel.beside here apart]
  · rw [clients, clients', parallel.clients]
  · rw [wires, wires', parallel.wires]
  · rw [server?_onServer, if_neg differs, found]
  · rw [server?_onServer, if_neg differs, there]
  · exact clients ▸ knows.1
  · exact wires ▸ knows.2

theorem here {mine theirs : Server σ → Server σ}
    (goes : ∀ server later, session.server? index = some server →
      other.server? index = some later → related server later →
        after (mine server).reported (theirs later).reported ∧
          server.nextId + slack ≤ (mine server).nextId + left) :
    Parallel number index left after (session.onServer index mine)
      (other.onServer index theirs) := by
  obtain ⟨server, later, found, there, relates, knows⟩ := parallel.watched
  obtain ⟨tree, now, modeFailure, clients, wires⟩ := session.frame_onServer index mine
  obtain ⟨tree', now', modeFailure', clients', wires'⟩ := other.frame_onServer index theirs
  obtain ⟨relates, enough⟩ := goes server later found there relates
  have knows : session.Knows index ((mine server).nextId + left) := knows.mono enough
  refine ⟨?_, ?_, ?_, ?_, fun here apart => ?_, ?_, ?_, (mine server).reported,
    (theirs later).reported, ?_, ?_, relates, ?_, ?_⟩
  · rw [tree, tree', parallel.tree]
  · rw [now, now', parallel.now]
  · rw [modeFailure, modeFailure', parallel.modeFailure]
  · rw [length_onServer, length_onServer, parallel.count]
  · rw [server?_onServer, server?_onServer, if_neg (Ne.symm apart), if_neg (Ne.symm apart),
      parallel.beside here apart]
  · rw [clients, clients', parallel.clients]
  · rw [wires, wires', parallel.wires]
  · rw [server?_onServer, if_pos rfl, found, Option.map_some]
  · rw [server?_onServer, if_pos rfl, there, Option.map_some]
  · exact clients ▸ knows.1
  · exact wires ▸ knows.2

theorem there {theirs : Server σ → Server σ}
    (goes : ∀ server later, other.server? index = some later → related server later →
      after server (theirs later).reported) :
    Parallel number index slack after session (other.onServer index theirs) := by
  obtain ⟨server, later, found, there, relates, knows⟩ := parallel.watched
  obtain ⟨tree, now, modeFailure, clients, wires⟩ := other.frame_onServer index theirs
  refine ⟨tree.trans parallel.tree, now.trans parallel.now, modeFailure.trans parallel.modeFailure,
    (length_onServer ..).trans parallel.count, fun here apart => ?_, clients.trans parallel.clients,
    wires.trans parallel.wires, server, (theirs later).reported, found, ?_,
    goes server later there relates, knows⟩
  · exact (server?_onServer ..).trans ((if_neg (Ne.symm apart)).trans (parallel.beside here apart))
  · rw [server?_onServer, if_pos rfl, there, Option.map_some]

end Change

end Parallel

end Session
end SteeringChannel
