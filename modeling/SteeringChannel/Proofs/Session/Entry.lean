import SteeringChannel.Proofs.Number.Whole
import SteeringChannel.Proofs.Session.Acknowledgement
import SteeringChannel.Proofs.Text.Trim

/-!
Values as a user types them, from the text to the wire. A text that spells a number from 0 to 255
sends one byte, which is that number; any other text sends nothing.
-/

namespace SteeringChannel

def Spells (text : String) (value : Int) : Prop :=
  ∃ core, Text.Trimmed Text.isBlank text.toList core ∧ Whole.Denotes core value

theorem spells_iff {text : String} {value : Int} :
    Spells text value ↔ Whole.read (Text.strip text.toList) = some value := by
  constructor
  · rintro ⟨core, trimmed, denotes⟩
    rw [Text.strip, trimmed.trimBoth_eq]
    exact Whole.read_eq_some.mpr denotes
  · intro reads
    exact ⟨_, Text.trimmed_trimBoth _ _, Whole.read_eq_some.mp reads⟩

/-- A number that is spelled is read or out of range, and what spells none is no integer. -/
theorem parseValue_iff (text : String) :
    (∀ value, parseValue text = .ok value ↔ Spells text value ∧ 0 ≤ value ∧ value ≤ 255) ∧
    (∀ value, parseValue text = .error (.outOfRange value) ↔
      Spells text value ∧ ¬(0 ≤ value ∧ value ≤ 255)) ∧
    ∀ other, parseValue text = .error (.notAnInteger other) ↔
      other = text ∧ ∀ value, ¬ Spells text value := by
  simp only [spells_iff, parseValue]
  cases Whole.read (Text.strip text.toList) with
  | none => simp [eq_comm]
  | some spelled =>
      by_cases within : 0 ≤ spelled ∧ spelled ≤ 255
      · simp only [if_pos within, Except.ok.injEq, Option.some.injEq, reduceCtorEq, false_iff]
        refine ⟨fun value => ⟨?_, And.left⟩, ?_, ?_⟩
        · rintro rfl
          exact ⟨rfl, within⟩
        · rintro value ⟨rfl, outside⟩
          exact outside within
        · exact fun other silent => silent.2 spelled rfl
      · simp only [if_neg within, Except.error.injEq, EntryError.outOfRange.injEq,
          Option.some.injEq, reduceCtorEq, false_iff]
        refine ⟨?_, fun value => ⟨?_, And.left⟩, ?_⟩
        · rintro value ⟨rfl, inside⟩
          exact within inside
        · rintro rfl
          exact ⟨rfl, within⟩
        · exact fun other silent => silent.2 spelled rfl

namespace Server

variable {σ : Type} [Outlet σ] {server other : Server σ} {now : Rat}

def delivered (server : Server σ) (id : Nat) : List UInt8 :=
  ((server.connection? id).map Connection.delivered).getD []

omit [Outlet σ] in
theorem delivered_eq (server : Server σ) (id : Nat) :
    server.delivered id = server.taken id ++ server.unread id := by
  simp only [delivered, taken, unread]
  cases server.connection? id <;> rfl

omit [Outlet σ] in
theorem SameStream.delivered {id : Nat} (same : server.SameStream other id) :
    other.delivered id = server.delivered id := by
  rw [delivered_eq, delivered_eq, same.taken, same.unread]

omit [Outlet σ] in
theorem delivered_reported (server : Server σ) (id : Nat) :
    server.reported.delivered id = server.delivered id := rfl

theorem delivered_consume {id : Nat} {bytes : List UInt8} (arrived : bytes <+: server.unread id)
    (other : Nat) : (server.consume now id bytes).delivered other = server.delivered other := by
  rw [delivered_eq, delivered_eq, server.taken_consume now id other bytes arrived, unread_consume]
  split
  next same =>
    obtain ⟨rest, whole⟩ := arrived
    rw [same, ← whole, List.drop_left, List.append_assoc]
  next => rfl

omit [Outlet σ] in
theorem delivered_dismiss (server : Server σ) (id other : Nat) (record : Journal.Record) :
    (server.dismiss id record).delivered other = server.delivered other := by
  simp [delivered_eq]

theorem Works.delivered (works : server.Works now other) (id : Nat) :
    other.delivered id = server.delivered id := by
  refine works.keeps (fun later => later.delivered id = server.delivered id) ?_ rfl
  intro before move own fits same
  refine Eq.trans ?_ same
  cases move with
  | hand moment => exact (before.sameStream_handFirst moment id).delivered
  | consume moment reading bytes => exact delivered_consume fits.2 id
  | conclude closing ending => exact before.delivered_dismiss closing id _
  | giveUp moment closing => exact before.delivered_dismiss closing id _
  | leave handler => exact (before.sameStream_leave handler id).delivered
  | _ => exact own.elim

theorem delivered_deliver {id : Nat} (opened : server.isOpen id = true)
    (lasts : server.ending? id = none) (now : Rat) (bytes : List UInt8) (other : Nat) :
    (server.deliver now id bytes).delivered other =
      server.delivered other ++ if other = id then bytes else [] := by
  have works := (works_readIfHandled (server.receive id bytes) now id).trans (works_settle _ now)
  rw [deliver, if_pos opened, works.delivered, delivered_eq, delivered_eq, taken_receive,
    unread_receive]
  split
  next same => rw [if_pos same.1, List.append_assoc]
  next differs =>
    rw [if_neg fun same => differs ⟨same, opened, lasts⟩, List.append_nil]

end Server

namespace Session

variable {σ : Type} [Outlet σ] {session : Session σ} {name : String} {peer : Peer}

structure Connected (session : Session σ) (name : String) (peer : Peer) : Prop where
  link : (session.client name defaultPath).link = some { peer := peer }
  opened : session.isOpen peer = true

def Lasts (session : Session σ) : Peer → Prop
  | .unattended => True
  | .server index id => ∀ server, session.server? index = some server → server.ending? id = none

def delivered (session : Session σ) (index id : Nat) : List UInt8 :=
  ((session.server? index).map fun server => server.delivered id).getD []

omit [Outlet σ] in
theorem Lasts.same {other : Session σ} (lasts : session.Lasts peer)
    (servers : other.servers = session.servers) : other.Lasts peer := by
  cases peer with
  | unattended => trivial
  | server index id =>
      simp only [Lasts, server?]
      rw [servers]
      exact lasts

omit [Outlet σ] in
theorem delivered_congr {other : Session σ} (servers : other.servers = session.servers)
    (index id : Nat) : other.delivered index id = session.delivered index id := by
  simp only [delivered, server?]
  rw [servers]

def forewarned (session : Session σ) (name : String) (command : Command) : Session σ :=
  (Client.ambiguityRecord? command).toList.foldl note
    (session.setClient name (session.client name defaultPath))

theorem delivered_deliver (opened : session.isOpen peer = true) (lasts : session.Lasts peer)
    (bytes : List UInt8) (index id : Nat) :
    (session.deliver peer bytes).delivered index id =
      session.delivered index id ++ if peer = .server index id then bytes else [] := by
  cases peer with
  | unattended => simp [deliver]
  | server listener connection =>
      simp only [deliver, delivered]
      rw [server?_onServer]
      by_cases same : listener = index
      · subst same
        cases found : session.server? listener with
        | none => simp [isOpen, found] at opened
        | some server =>
            simp only [isOpen, found] at opened
            have arrived := Server.delivered_deliver opened (lasts server found) session.now
              bytes id
            rw [if_pos rfl, Option.map_some, Option.map_some, Option.map_some]
            simpa [Server.delivered_reported, eq_comm] using arrived
      · simp [same]

theorem Connected.send (connected : session.Connected name peer) {command : Command} {byte : UInt8}
    (encoded : command.encode = .ok byte) :
    session.send name command = ((session.forewarned name command).deliver peer [byte],
      .ok { ok := true, command := some command }) := by
  have opened : (session.setClient name (session.client name defaultPath)).isOpen peer = true :=
    (isOpen_congr rfl peer).trans connected.opened
  simp only [Session.send, connected.link, transmit, encoded]
  rw [if_neg Bool.false_ne_true, if_pos opened]
  rfl

omit [Outlet σ] in
theorem servers_forewarned (session : Session σ) (name : String) (command : Command) :
    (session.forewarned name command).servers = session.servers :=
  servers_foldl_note _ _

/-- A text is sent just if it spells a number from 0 to 255: the client's connection then gets one
byte more, which is that number, and no other connection gets anything. Any other text is answered
with the reason, and the session stays as it is. -/
theorem typed_text_sent_iff (text : String) :
    (∀ value, parseValue text = .ok value ↔ Spells text value ∧ 0 ≤ value ∧ value ≤ 255) ∧
    (∀ value, parseValue text = .error (.outOfRange value) ↔
      Spells text value ∧ ¬(0 ≤ value ∧ value ≤ 255)) ∧
    (∀ other, parseValue text = .error (.notAnInteger other) ↔
      other = text ∧ ∀ value, ¬ Spells text value) ∧
    ∀ (session : Session σ) (name : String),
      (∀ value peer, parseValue text = .ok value → session.Connected name peer →
        ∃ byte : UInt8, (byte.toNat : Int) = value ∧
          session.sendText name text =
            ((session.forewarned name ⟨.set, some value⟩).deliver peer [byte],
              .ok { ok := true, command := some ⟨.set, some value⟩ }) ∧
          (session.Lasts peer → ∀ index id,
            (session.sendText name text).1.delivered index id =
              session.delivered index id ++ if peer = .server index id then [byte] else [])) ∧
      ∀ error, parseValue text = .error error →
        session.sendText name text =
          (session, .ok { ok := false, error := some error.message }) := by
  obtain ⟨inRange, outOfRange, notAnInteger⟩ := parseValue_iff text
  refine ⟨inRange, outOfRange, notAnInteger, fun session name => ⟨?_, ?_⟩⟩
  · intro value peer reads connected
    have within := ((inRange value).mp reads).2
    obtain ⟨byte, same, encoded⟩ := Command.encode_set within
    have sent := connected.send encoded
    have typed : session.sendText name text = session.send name ⟨.set, some value⟩ := by
      simp only [sendText, sendValue, reads, Command.set, if_pos within]
    refine ⟨byte, same, typed.trans sent, fun lasts index id => ?_⟩
    have servers := session.servers_forewarned name ⟨.set, some value⟩
    rw [typed, sent, delivered_deliver ((isOpen_congr servers peer).trans connected.opened)
      (lasts.same servers), delivered_congr servers]
  · intro error refused
    simp only [sendText, refused]

/-- The reserved value 80 in digits of two scripts, with a sign, an underscore and blanks around it;
and the same value in a form that is not read. -/
theorem typed_text_sent_iff_reserved :
    let server : Server Recorder := { path := "s", connections := [{ id := 1 }], queue := [1] }
    let client : Client := { path := "s", link := some { peer := .server 0 1 } }
    let session : Session Recorder := { servers := [server], clients := [("a", client)] }
    session.Connected "a" (.server 0 1) ∧ session.Lasts (.server 0 1) ∧
      parseValue " +0_8\u0660\n" = .ok 80 ∧
      (session.sendText "a" " +0_8\u0660\n").1.delivered 0 1 = [0x50] ∧
      session.sendText "a" "0x50" =
        (session, .ok { ok := false, error := some "Not an integer: '0x50'" }) := by
  intro server client session
  have connected : session.Connected "a" (.server 0 1) := ⟨by decide, by decide⟩
  have lasts : session.Lasts (.server 0 1) := by
    rintro _ ⟨⟩
    rfl
  have reads : parseValue " +0_8\u0660\n" = .ok 80 := by decide +kernel
  obtain ⟨_, _, _, sends⟩ := @typed_text_sent_iff Recorder _ " +0_8\u0660\n"
  obtain ⟨byte, same, _, arrives⟩ := (sends session "a").1 80 (.server 0 1) reads connected
  obtain rfl : byte = 0x50 := UInt8.toNat_inj.mp (Int.ofNat_inj.mp same)
  obtain ⟨_, _, _, refuses⟩ := @typed_text_sent_iff Recorder _ "0x50"
  have told : (EntryError.notAnInteger "0x50").message = "Not an integer: '0x50'" := by
    decide +kernel
  refine ⟨connected, lasts, reads, arrives lasts 0 1, ?_⟩
  exact told ▸ (refuses session "a").2 (.notAnInteger "0x50") (by decide +kernel)

end Session
end SteeringChannel
