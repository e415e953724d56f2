/-
Two nodes that connect, talk, lose each other, restart and connect again.  At
the moment a handshake has completed on both sides, the counters of the new
session may not fit: a node that restarted raises its receive counter to its
floor, while its peer, if it kept running, counts from 1 again.
-/
import AshiChat.RestartFloors

namespace AshiChat

open EventRun SessionHistory Function List

/-- An ACK on its way to the initiator. -/
structure SessionOffer where
  responder : Side
  hello : Nat
  sessionId : Bytes
  encryptionKey : Bytes
deriving DecidableEq

/-- Two nodes and the network between them.  HELLOs are numbered in the order
of their creation.  Nothing on the network is ever used up: packets may be
lost, delayed and duplicated. -/
structure FloorWorld where
  history : Side → SessionHistory := fun _ => {}
  /-- The position of the registered session, if there is one. -/
  current : Side → Option Nat := fun _ => none
  /-- The HELLO whose ACK the node waits for. -/
  pending : Side → Option Nat := fun _ => none
  /-- HELLO handlers that are past the guards. -/
  handling : Side → List Nat := fun _ => []
  hellos : List Side := []
  offers : List SessionOffer := []
  /-- Sender, session id and number of each DATA packet. -/
  packets : List (Side × Bytes × Nat) := []

inductive FloorEvent where
  /-- `connect_to_peer` -/
  | connect (side : Side)
  /-- The retry task has used up its attempts. -/
  | giveUp (side : Side)
  /-- `_handle_hello` up to its first await. -/
  | hello (side : Side) (hello : Nat)
  /-- `_handle_hello` from `process_hello` on. -/
  | accept (side : Side) (hello : Nat) (sessionId encryptionKey : Bytes)
  /-- `_handle_hello_ack` -/
  | answer (side : Side) (offer : SessionOffer)
  | disconnect (side : Side)
  | send (side : Side) (ref : Nat)
  /-- A SYNC retransmission, under a number used before. -/
  | resend (side : Side) (ref seq : Nat)
  | receive (side : Side) (ref seq : Nat)
  | save (side : Side) (ref : Nat)
  | restart (side : Side) (known : PeerId → Bool)
      (rows : OrderedDict Bytes SessionRecord)

namespace FloorWorld

variable (peerIds : Side → PeerId)

/-- A session event at one node. -/
def act (world : FloorWorld) (side : Side) (event : HistoryEvent) :
    FloorWorld :=
  { world with
    history := update world.history side ((world.history side).step event) }

/-- The keys that the node at `side` derives for its peer. -/
def keysFor (side : Side) (sessionId encryptionKey : Bytes) : SessionKeys where
  encryptionKey := encryptionKey
  sessionId := sessionId
  remotePeerId := peerIds side.other
  remotePublicKeyBytes := []

/-- The handshake handlers' `register`. -/
def register (world : FloorWorld) (side : Side) (keys : SessionKeys) :
    FloorWorld :=
  { world.act side (.establish keys) with
    current := update world.current side
      (some (world.history side).objects.length) }

/-- The ACK makes the initiator register a session. -/
def Completes (world : FloorWorld) (side : Side) (offer : SessionOffer) :
    Prop :=
  offer ∈ world.offers ∧ offer.responder = side.other ∧
    world.pending side = some offer.hello ∧ world.current side = none ∧
    (world.history side).storage.sessions.contains offer.sessionId = false

instance (world : FloorWorld) (side : Side) (offer : SessionOffer) :
    Decidable (world.Completes side offer) :=
  inferInstanceAs (Decidable (_ ∧ _ ∧ _ ∧ _ ∧ _))

/-- The new session id is one that neither node has seen. -/
def FreshId (world : FloorWorld) (sessionId : Bytes) : Prop :=
  (world.history .left).storage.sessions.contains sessionId = false ∧
    (world.history .right).storage.sessions.contains sessionId = false

instance (world : FloorWorld) (sessionId : Bytes) :
    Decidable (world.FreshId sessionId) :=
  inferInstanceAs (Decidable (_ ∧ _))

def step (world : FloorWorld) : FloorEvent → FloorWorld
  | .connect side =>
    if world.current side = none ∧ world.pending side = none then
      { world with
        pending := update world.pending side (some world.hellos.length)
        hellos := world.hellos ++ [side] }
    else world
  | .giveUp side =>
    { world with pending := update world.pending side none }
  | .hello side hello =>
    if world.hellos[hello]? = some side.other ∧ world.current side = none ∧
        ¬ (world.pending side ≠ none ∧ peerIds side < peerIds side.other) then
      { world with
        pending := update world.pending side none
        handling := update world.handling side
          (world.handling side ++ [hello]) }
    else world
  | .accept side hello sessionId encryptionKey =>
    if hello ∈ world.handling side ∧ world.FreshId sessionId then
      { world.register side (keysFor peerIds side sessionId encryptionKey)
          with
        handling := update world.handling side
          ((world.handling side).erase hello)
        offers := world.offers ++ [⟨side, hello, sessionId, encryptionKey⟩] }
    else world
  | .answer side offer =>
    -- Any ACK of the peer uses up the pending state.
    if offer ∈ world.offers ∧ offer.responder = side.other then
      { (if world.Completes side offer then
          world.register side
            (keysFor peerIds side offer.sessionId offer.encryptionKey)
        else world) with
        pending := update world.pending side none }
    else world
  | .disconnect side =>
    { world with current := update world.current side none }
  | .send side ref =>
    match (world.history side).objects[ref]? with
    | none => world
    | some session =>
      { world.act side (.send ref) with
        packets := world.packets ++
          [(side, session.sessionId, session.sendSequence)] }
  | .resend side ref seq =>
    match (world.history side).objects[ref]? with
    | none => world
    | some session =>
      if (peerIds side.other, seq) ∈ (world.history side).used then
        { world with
          packets := world.packets ++ [(side, session.sessionId, seq)] }
      else world
  | .receive side ref seq =>
    match (world.history side).objects[ref]? with
    | none => world
    | some session =>
      if (side.other, session.sessionId, seq) ∈ world.packets then
        world.act side (.receive ref seq)
      else world
  | .save side ref => world.act side (.save ref)
  | .restart side known rows =>
    if rows.entries.Perm (world.history side).storage.sessions.entries then
      { world.act side (.restart known rows) with
        current := update world.current side none
        pending := update world.pending side none
        handling := update world.handling side [] }
    else world

/-- Both nodes persist their counters, and every number on the network or
accepted from it was used by its sender. -/
structure Honest (world : FloorWorld) : Prop where
  persisted : ∀ side, (world.history side).Persisted
  remote : ∀ side, ∀ session ∈ (world.history side).objects,
    session.remotePeerId = peerIds side.other
  accepted : ∀ side peerId seq, (peerId, seq) ∈ (world.history side).accepted →
      (peerIds side, seq) ∈ (world.history side.other).used
  packets : ∀ side sessionId seq, (side, sessionId, seq) ∈ world.packets →
    (peerIds side.other, seq) ∈ (world.history side).used

theorem honest_initial : Honest peerIds {} where
  persisted _ := persisted_initial
  remote := by simp
  accepted := by simp
  packets := by simp

variable {peerIds} {world : FloorWorld}

variable {side : Side} {later : FloorWorld} {offer : SessionOffer}

theorem Honest.congr (hhonest : Honest peerIds world)
    (hhistory : later.history = world.history)
    (hpackets : later.packets = world.packets) : Honest peerIds later where
  persisted := by
    rw [hhistory]
    exact hhonest.persisted
  remote := by
    rw [hhistory]
    exact hhonest.remote
  accepted := by
    rw [hhistory]
    exact hhonest.accepted
  packets := by
    rw [hhistory, hpackets]
    exact hhonest.packets

/-- The session events that fit the two nodes. -/
def Fits (peerIds : Side → PeerId) (world : FloorWorld) (side : Side) :
    HistoryEvent → Prop
  | .establish keys => keys.remotePeerId = peerIds side.other ∧
    (world.history side).storage.sessions.contains keys.sessionId = false
  | .receive _ seq => (peerIds side, seq) ∈ (world.history side.other).used
  | _ => True

theorem Honest.act (hhonest : Honest peerIds world) (side : Side)
    (event : HistoryEvent) (hfits : Fits peerIds world side event) :
    Honest peerIds (world.act side event) := by
  have hused : ∀ other, (world.history other).used ⊆
      ((world.act side event).history other).used := by
    intro other
    rcases eq_or_ne other side with rfl | hne
    · simpa [FloorWorld.act] using used_subset_step _ event
    · simp [FloorWorld.act, update_of_ne hne]
  refine ⟨?_, ?_, ?_, ?_⟩
  · intro other
    rcases eq_or_ne other side with rfl | hne
    · have hfresh : (world.history other).FreshId event := by
        cases event with
        | establish => exact hfits.2
        | _ => trivial
      simpa [FloorWorld.act] using (hhonest.persisted other).step hfresh
    · simpa [FloorWorld.act, update_of_ne hne] using hhonest.persisted other
  · intro other session hmem
    rcases eq_or_ne other side with rfl | hne
    · simp only [FloorWorld.act, update_self] at hmem
      rcases mem_objects_step hmem with
        ⟨old, hold, hpeer⟩ | ⟨_, rfl, hpeer⟩
      · exact hpeer.trans (hhonest.remote other old hold)
      · exact hpeer.trans hfits.1
    · simp only [FloorWorld.act, update_of_ne hne] at hmem
      exact hhonest.remote other session hmem
  · intro other peerId seq hmem
    apply hused
    rcases eq_or_ne other side with rfl | hne
    · simp only [FloorWorld.act, update_self] at hmem
      rcases mem_accepted_step hmem with hold | ⟨_, rfl⟩
      · exact hhonest.accepted other peerId seq hold
      · exact hfits
    · simp only [FloorWorld.act, update_of_ne hne] at hmem
      exact hhonest.accepted other peerId seq hmem
  · intro other sessionId seq hmem
    exact hused other (hhonest.packets other sessionId seq hmem)

theorem Honest.register (hhonest : Honest peerIds world)
    {sessionId : Bytes} (encryptionKey : Bytes)
    (hfresh : (world.history side).storage.sessions.contains sessionId =
      false) :
    Honest peerIds
      (world.register side (keysFor peerIds side sessionId encryptionKey)) :=
  (hhonest.act side (.establish (keysFor peerIds side sessionId encryptionKey))
    ⟨rfl, hfresh⟩).congr rfl rfl

/-- A packet goes out under a number that its sender has used. -/
theorem Honest.emit (hhonest : Honest peerIds later) {sessionId : Bytes}
    {seq : Nat} (hused : (peerIds side.other, seq) ∈ (later.history side).used) :
    Honest peerIds { later with
      packets := later.packets ++ [(side, sessionId, seq)] } where
  persisted := hhonest.persisted
  remote := hhonest.remote
  accepted := hhonest.accepted
  packets := by
    intro other sessionId' seq' hmem
    rcases mem_append.mp hmem with hmem | hmem
    · exact hhonest.packets other sessionId' seq' hmem
    · cases mem_singleton.mp hmem
      exact hused

theorem Honest.step (hhonest : Honest peerIds world) (event : FloorEvent) :
    Honest peerIds (world.step peerIds event) := by
  cases event with
  | connect =>
    simp only [FloorWorld.step]
    split
    · exact hhonest.congr rfl rfl
    · exact hhonest
  | giveUp => exact hhonest.congr rfl rfl
  | hello =>
    simp only [FloorWorld.step]
    split
    · exact hhonest.congr rfl rfl
    · exact hhonest
  | accept side _ _ encryptionKey =>
    simp only [FloorWorld.step]
    split
    · next haccept =>
      refine (hhonest.register encryptionKey ?_).congr rfl rfl
      cases side with
      | left => exact haccept.2.1
      | right => exact haccept.2.2
    · exact hhonest
  | answer =>
    simp only [FloorWorld.step]
    split
    · split
      · next hcompletes =>
        exact (hhonest.register _ hcompletes.2.2.2.2).congr rfl rfl
      · exact hhonest.congr rfl rfl
    · exact hhonest
  | disconnect => exact hhonest.congr rfl rfl
  | send side ref =>
    simp only [FloorWorld.step]
    split
    · exact hhonest
    · next session hget =>
      have hpeer := hhonest.remote side session (mem_of_getElem? hget)
      have hused : (peerIds side.other, session.sendSequence) ∈
          ((world.act side (.send ref)).history side).used := by
        simp only [FloorWorld.act, update_self,
          SessionHistory.step, hget, ← hpeer]
        exact mem_append_right _ (mem_singleton_self _)
      exact (hhonest.act side (.send ref) trivial).emit hused
  | resend =>
    simp only [FloorWorld.step]
    split
    · exact hhonest
    · split
      · next hused => exact hhonest.emit hused
      · exact hhonest
  | receive side _ seq =>
    simp only [FloorWorld.step]
    split
    · exact hhonest
    · split
      · next hpacket =>
        refine hhonest.act side _ ?_
        simpa [Fits] using hhonest.packets side.other _ seq hpacket
      · exact hhonest
  | save side => exact hhonest.act side _ trivial
  | restart side known rows =>
    simp only [FloorWorld.step]
    split
    · exact (hhonest.act side (.restart known rows) trivial).congr rfl rfl
    · exact hhonest

/-- The node has used no number towards `peerId` from `send` on. -/
def NumbersBelow (history : SessionHistory) (peerId : PeerId) (send : Nat) :
    Prop :=
  ∀ number ∈ history.used, number.1 = peerId → number.2 < send

/-- Each side of the handshake that the ACK completes either starts to receive
from zero, or its peer continues its own numbering. -/
def Continued (peerIds : Side → PeerId) (world : FloorWorld) : FloorEvent → Prop
  | .answer side offer => world.Completes side offer →
      ∀ theirs ∈ (world.history side.other).objects,
        theirs.sessionId = offer.sessionId →
        let start := startCounters (world.history side).floors
          (peerIds side.other)
        (theirs.recvSequence = 0 ∨ NumbersBelow (world.history side)
          (peerIds side.other) start.1) ∧
        (start.2 = 0 ∨ NumbersBelow (world.history side.other)
          (peerIds side) theirs.sendSequence)
  | _ => True

/-- When the event completes a handshake on both sides, each side's next number
passes the other's replay check. -/
def HearEachOther (peerIds : Side → PeerId) (world : FloorWorld) :
    FloorEvent → Prop
  | .answer side offer => world.Completes side offer →
      let after := world.step peerIds (.answer side offer)
      ∀ mine ∈ (after.history side).objects,
        ∀ theirs ∈ (after.history side.other).objects,
          mine.sessionId = offer.sessionId →
          theirs.sessionId = offer.sessionId →
            theirs.recvSequence < mine.sendSequence ∧
              mine.recvSequence < theirs.sendSequence
  | _ => True

instance (history : SessionHistory) (peerId : PeerId) (send : Nat) :
    Decidable (NumbersBelow history peerId send) :=
  inferInstanceAs (Decidable (∀ number ∈ history.used, _ → _))

instance (world : FloorWorld) (event : FloorEvent) :
    Decidable (Continued peerIds world event) := by
  cases event with
  | answer side =>
    exact inferInstanceAs (Decidable (_ → ∀ theirs ∈
      (world.history side.other).objects, _ → _ ∧ _))
  | _ => exact inferInstanceAs (Decidable True)

instance (world : FloorWorld) (event : FloorEvent) :
    Decidable (HearEachOther peerIds world event) := by
  cases event with
  | answer side offer =>
    exact inferInstanceAs (Decidable (_ → ∀ mine ∈ ((world.step peerIds
      (.answer side offer)).history side).objects, ∀ theirs ∈
      ((world.step peerIds (.answer side offer)).history side.other).objects,
        _ → _ → _ ∧ _))
  | _ => exact inferInstanceAs (Decidable True)

/-- The objects of both sides once the initiator has registered. -/
theorem objects_answer (peerIds : Side → PeerId)
    (hcompletes : world.Completes side offer) :
    ((world.step peerIds (.answer side offer)).history side).objects =
        (world.history side).objects ++ [establish (world.history side).floors
          (keysFor peerIds side offer.sessionId offer.encryptionKey)] ∧
      (world.step peerIds (.answer side offer)).history side.other =
        world.history side.other := by
  simp only [FloorWorld.step, hcompletes, hcompletes.1, hcompletes.2.1,
    and_self, ↓reduceIte, register, FloorWorld.act, update_self]
  constructor
  · simp [SessionHistory.step, keysFor, establish]
  · rw [update_of_ne (Side.other_ne side)]

section

variable (hhonest : Honest peerIds world)

include hhonest

/-- The receive counter of a session is zero or a number that the peer has
used. -/
theorem Honest.recv_used {session : Session}
    (hmem : session ∈ (world.history side).objects) :
    session.recvSequence = 0 ∨ (peerIds side, session.recvSequence) ∈
      (world.history side.other).used := by
  have hrow := (hhonest.persisted side).saved session hmem
  refine ((hhonest.persisted side).rows _ _ hrow).2.2.imp_right ?_
  exact fun haccepted => hhonest.accepted side _ _ haccepted

theorem Honest.start_used (side : Side) (peerId : PeerId) :
    (startCounters (world.history side).floors peerId).2 = 0 ∨
      (peerIds side, (startCounters (world.history side).floors peerId).2) ∈
        (world.history side.other).used := by
  refine ((hhonest.persisted side).reached_startCounters peerId).2.2.imp_right
    ?_
  exact fun haccepted => hhonest.accepted side _ _ haccepted

theorem Honest.heard_of_continued
    (hcontinued : Continued peerIds world (.answer side offer)) :
    HearEachOther peerIds world (.answer side offer) := by
  intro hcompletes after mine hmine theirs htheirs hid hid'
  obtain ⟨hobjects, hother⟩ := objects_answer peerIds hcompletes
  rw [hobjects] at hmine
  rw [hother] at htheirs
  obtain ⟨hrecv, hstart⟩ := hcontinued hcompletes theirs htheirs hid'
  rcases mem_append.mp hmine with hold | hnew
  · -- The initiator has no row under the new id, so no old object has it.
    have hrow := (hhonest.persisted side).saved mine hold
    have hnone := (OrderedDict.contains_eq_false_iff _ _).mp hcompletes.2.2.2.2
    rw [hid, hnone] at hrow
    cases hrow
  · rw [mem_singleton.mp hnew]
    obtain ⟨hsend', hrecv'⟩ := establish_counters (world.history side).floors
      (keysFor peerIds side offer.sessionId offer.encryptionKey)
    rw [hsend', hrecv']
    constructor
    · have hpos : 0 < max 1 (startCounters (world.history side).floors
          (peerIds side.other)).1 := lt_max_of_lt_left Nat.one_pos
      rcases hhonest.recv_used htheirs with hzero | hused
      · exact hzero.trans_lt hpos
      · rw [Side.other_other] at hused
        rcases hrecv with hzero | hbelow
        · exact hzero.trans_lt hpos
        · exact lt_max_of_lt_right (hbelow _ hused rfl)
    · have hpos := ((hhonest.persisted side.other).rows _ _
        ((hhonest.persisted side.other).saved theirs htheirs)).1
      rcases hhonest.start_used side (peerIds side.other) with hzero | hused
      · exact hzero.trans_lt hpos
      · rcases hstart with hzero | hbelow
        · exact hzero.trans_lt hpos
        · exact hbelow _ hused rfl

end

end FloorWorld

open FloorWorld

/-- In every history of two nodes in which each completed handshake finds each
side receiving from zero or its peer continuing its numbering, the next
message of either side of each completed handshake passes the replay check. -/
theorem fresh_session_heard (peerIds : Side → PeerId) (events : List FloorEvent)
    (hcontinued : EveryStep (FloorWorld.step peerIds) (Continued peerIds) {}
      events) :
    EveryStep (FloorWorld.step peerIds) (HearEachOther peerIds) {}
      events := by
  have hstep : ∀ world event, Honest peerIds world →
      Honest peerIds (world.step peerIds event) :=
    fun _ event hhonest => hhonest.step event
  have hheard : ∀ world event, Honest peerIds world →
      Continued peerIds world event → HearEachOther peerIds world event := by
    intro world event hhonest hgood
    cases event with
    | answer => exact hhonest.heard_of_continued hgood
    | _ => trivial
  exact everyStep_imp hstep hheard (honest_initial peerIds) hcontinued

namespace FreshSessionWitness

def peerIds : Side → PeerId
  | .left => replicate 32 1
  | .right => replicate 32 2

/-- The ACK of the responder `.right` for the HELLO of that number. -/
def offer (hello : Nat) : SessionOffer where
  responder := .right
  hello := hello
  sessionId := replicate 8 hello.toUInt8
  encryptionKey := replicate 32 hello.toUInt8

/-- A handshake that `.left` starts, with the HELLO of that number. -/
def handshake (hello : Nat) : List FloorEvent :=
  [.connect .left, .hello .right hello,
    .accept .right hello (offer hello).sessionId (offer hello).encryptionKey,
    .answer .left (offer hello)]

/-- One message from `.right`, then `.left` starts again. -/
def leftRestarted : List FloorEvent :=
  handshake 0 ++ [.send .right 0, .receive .left 0 1,
    .restart .left (fun _ => true)
      ((run (FloorWorld.step peerIds) {} (handshake 0 ++
        [.send .right 0, .receive .left 0 1])).history .left).storage.sessions]

/-- The heartbeat of `.right` notices, and `.left` connects again. -/
def reconnectedAfterRestart : List FloorEvent :=
  leftRestarted ++ [.disconnect .right] ++ handshake 1

/-- Where `.right` starts again as well, both numberings go on. -/
def bothRestarted : List FloorEvent := leftRestarted ++
    [.restart .right (fun _ => true)
      ((run (FloorWorld.step peerIds) {} leftRestarted).history
        .right).storage.sessions] ++ handshake 1

theorem fresh_session_heard_both_restarted :
    EveryStep (FloorWorld.step peerIds) (HearEachOther peerIds) {}
      bothRestarted :=
  fresh_session_heard peerIds bothRestarted (by decide +kernel)

/-- The new session of `.left` drops the first message of `.right`. -/
theorem restarted_side_deaf :
    ¬ EveryStep (FloorWorld.step peerIds) (HearEachOther peerIds) {}
      reconnectedAfterRestart := by
  decide +kernel

end FreshSessionWitness

end AshiChat
