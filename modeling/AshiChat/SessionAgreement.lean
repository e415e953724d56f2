/-
Whether two honest nodes end up with the same session.  `_handle_hello` looks
for an existing session before its awaits and registers the new one after them,
so a HELLO may be accepted when it should no longer be.
-/
import AshiChat.TwoNodes

namespace AshiChat

open EventRun List Side Option World

variable {P : Primitives}

namespace World

variable (ids : Side → LocalIdentity P)

/-- What verifies under the other node's key in a delivered HELLO_ACK was
signed by that node. -/
def IdealSignatures (world : World P) : Side × NodeEvent → Prop
  | (side, .receive packet ..) => ∀ index,
      HandshakeHistory.IdealSignatures [ids side.other] world.history
        (.receiveAck index packet
          (world.process side).node.peerTable.getDirectPeerIds)
  | _ => True

/-- A HELLO_ACK on the wire would give the node of `side` a session. -/
def AckAcceptable (world : World P) (side : Side) : Prop :=
  ∃ packet ack state keys, (side.other, packet) ∈ world.wire ∧
    packet.packetType = .helloAck ∧
    HelloAckPayload.deserialize packet.payload = .ok ack ∧
    (world.process side).node.pendingHello.get?
      (derivePeerId P ack.identityPublicKey) = some state ∧
    (world.process side).node.hasSession
      (derivePeerId P ack.identityPublicKey) = false ∧
    processHelloAck P packet state
      (world.process side).node.peerTable.getDirectPeerIds = .ok (some keys)

/-- Once both nodes have a session and no answer is still to be accepted, the
sessions are the same. -/
def SessionsAgree (world : World P) : Prop :=
  ∀ first second, session ids world .left = some first →
    session ids world .right = some second →
    (∀ side, ¬ world.AckAcceptable side) →
    first.sessionId = second.sessionId ∧
      first.encryptionKey = second.encryptionKey

/-- The other node has accepted the HELLO that `side` is waiting on. -/
def helloAccepted (world : World P) (side : Side) : Bool :=
  match awaiting ids world side with
  | none => false
  | some state => world.history.accepted.any fun accepted =>
    accepted.responder = ids side.other ∧
      accepted.hello.randomNonce = state.localNonce

/-- A coroutine about to accept a HELLO finds the other node without a session
and neither node waiting on a HELLO that was accepted before. -/
def acceptsInStep (world : World P) : Side × NodeEvent → Bool
  | (side, .resume index ..) =>
    match (world.process side).tasks[index]? with
    | some (.helloRemembered ..) =>
      (session ids world side.other).isNone &&
        !helloAccepted ids world side.other && !helloAccepted ids world side
    | _ => true
  | _ => true

/-- If the other node has accepted the HELLO that `side` is waiting on, it has
no other session than the one it made then. -/
def AnswerHeld (world : World P) (side : Side) : Prop :=
  ∀ state accepted found, awaiting ids world side = some state →
    accepted ∈ world.history.accepted →
    accepted.responder = ids side.other →
    accepted.hello.randomNonce = state.localNonce →
    session ids world side.other = some found →
    found.sessionId = accepted.keys.sessionId ∧
      found.encryptionKey = accepted.keys.encryptionKey

/-- The invariant behind the agreement; at most one of the two HELLOs under way
has been accepted. -/
structure Agreeing (world : World P) : Prop where
  sessions : ∀ side first second, session ids world side = some first →
    session ids world side.other = some second →
    first.sessionId = second.sessionId ∧
      first.encryptionKey = second.encryptionKey
  answer : ∀ side, AnswerHeld ids world side
  single : ∀ side, helloAccepted ids world side = true →
    helloAccepted ids world side.other = false

variable {ids}

theorem helloAccepted_iff {world : World P} {side : Side} :
    helloAccepted ids world side = true ↔
      ∃ state, awaiting ids world side = some state ∧
        ∃ accepted ∈ world.history.accepted,
          accepted.responder = ids side.other ∧
            accepted.hello.randomNonce = state.localNonce := by
  unfold helloAccepted
  cases awaiting ids world side with
  | none | some => simp

theorem agreeing_start (storage : Side → Storage) (now : ℚ) :
    Agreeing ids (start ids storage now) where
  sessions side first second hfirst := by
    simp [session, start, Node.start, SessionRegistry.sessionFor_eq,
      SessionRegistry.empty] at hfirst
  answer side state accepted found hstate := by
    simp [awaiting, start, Node.start] at hstate
  single side haccepted := by
    simp [helloAccepted, awaiting, start, Node.start] at haccepted

variable {world : World P} {side : Side} {event : NodeEvent}

variable {world' : World P} {state : HandshakeState} {accepted : Acceptance P}
  {found : Session} {acting : Side}

/-- An accepted answer carries the keys of the acceptance it answers for. -/
theorem Sound.answered_keys (hcomm : P.ExchangeCommutes)
    (hsound : Sound ids world) {packet : Packet} {addr : Address} {now : ℚ}
    {ack : HelloAckPayload} {keys : SessionKeys}
    (henabled : world.Enabled (side, .receive packet addr now))
    (hideal : IdealSignatures ids world (side, .receive packet addr now))
    (htype : packet.packetType = .helloAck)
    (hdec : HelloAckPayload.deserialize packet.payload = .ok ack)
    (hwaiting : awaiting ids world side = some state)
    (hprocess : processHelloAck P packet state
      (world.process side).node.peerTable.getDirectPeerIds = .ok (some keys)) :
    ∃ accepted ∈ world.history.accepted, accepted.responder = ids side.other ∧
      accepted.hello.randomNonce = state.localNonce ∧
      accepted.keys.sessionId = keys.sessionId ∧
      accepted.keys.encryptionKey = keys.encryptionKey := by
  obtain ⟨sent, hsent, _, rfl, _⟩ := hsound.answer henabled htype hdec
  obtain ⟨draw, hstarted, rfl⟩ := hsound.pending side _ _ hwaiting
  obtain ⟨index, hindex⟩ := getElem?_of_mem hstarted
  have hkeys : keys.sessionId = sent.draw.sessionId.val ∧
      keys.remotePublicKeyBytes = (ids side.other).publicKeyBytes := by
    obtain ⟨_, _, hdec', _, _, rfl⟩ := processHelloAck_eq_some_iff.mp hprocess
    rw [hdec, Except.ok.injEq] at hdec'
    subst hdec'
    exact ⟨rfl, rfl⟩
  obtain ⟨accepted, hmem, ⟨hresponder, _, hnonce, hid⟩, hsame⟩ :=
    HandshakeHistory.everyAckMeets_of_ideal hcomm hsound.recorded _
      (hideal index) (ids side) (draw.state P) _ keys hindex hdec hprocess
      (ids side.other) mem_cons_self hkeys.2.symm
  -- The session id tells which acceptance was answered.
  have hsentId : sent.keys.sessionId = sent.draw.sessionId.val := by
    obtain ⟨_, _, _, hsentKeys⟩ := hsound.recorded.accepted sent hsent
    rw [hsentKeys]
    rfl
  have heq : sent = accepted := hsound.sessionIds sent hsent accepted hmem
    (hsentId.trans (hkeys.1.symm.trans hid.symm))
  subst heq
  exact ⟨sent, hmem, hresponder, hnonce, hid, hsame rfl⟩

/-- The invariant, stated from one side. -/
theorem Agreeing.of_side (side : Side)
    (hsessions : ∀ first second, session ids world side = some first →
      session ids world side.other = some second →
      first.sessionId = second.sessionId ∧
        first.encryptionKey = second.encryptionKey)
    (hown : AnswerHeld ids world side)
    (htheirs : AnswerHeld ids world side.other)
    (hsingle : helloAccepted ids world side = true →
      helloAccepted ids world side.other = false) :
    Agreeing ids world where
  sessions acting first second hfirst hsecond := by
    rcases acting.eq_or_eq_other side with rfl | rfl
    · exact hsessions first second hfirst hsecond
    · rw [other_other] at hsecond
      exact (hsessions second first hsecond hfirst).imp Eq.symm Eq.symm
  answer acting := by
    rcases acting.eq_or_eq_other side with rfl | rfl
    · exact hown
    · exact htheirs
  single acting haccepted := by
    rcases acting.eq_or_eq_other side with rfl | rfl
    · exact hsingle haccepted
    · rw [other_other]
      refine Bool.eq_false_of_not_eq_true fun hboth => ?_
      rw [hsingle hboth] at haccepted
      cases haccepted

/-- Nothing was accepted and no new HELLO is awaited. -/
theorem helloAccepted_of_lose
    (haccepted : world'.history.accepted = world.history.accepted)
    (hawaiting : ∀ state, awaiting ids world' acting = some state →
      awaiting ids world acting = some state)
    (hhello : helloAccepted ids world' acting = true) :
    helloAccepted ids world acting = true := by
  obtain ⟨state, hstate, hrest⟩ := helloAccepted_iff.mp hhello
  rw [haccepted] at hrest
  exact helloAccepted_iff.mpr ⟨state, hawaiting state hstate, hrest⟩

/-- Losing the session or the HELLO on either end keeps the answer held. -/
theorem AnswerHeld.of_lose (hheld : AnswerHeld ids world acting)
    (haccepted : world'.history.accepted = world.history.accepted)
    (hawaiting : ∀ state, awaiting ids world' acting = some state →
      awaiting ids world acting = some state)
    (hsession : ∀ found, session ids world' acting.other = some found →
      session ids world acting.other = some found) :
    AnswerHeld ids world' acting := by
  intro state accepted found hstate hmem hresponder hnonce hfound
  exact hheld state accepted found (hawaiting state hstate)
    (haccepted ▸ hmem) hresponder hnonce (hsession found hfound)

section

variable (hagree : Agreeing ids world)
  (hotherSession : session ids world' side.other = session ids world side.other)
  (hotherAwaiting : awaiting ids world' side.other =
    awaiting ids world side.other)
  (haccepted : world'.history.accepted = world.history.accepted)

include hagree hotherSession hotherAwaiting haccepted

/-- An event after which `side` has at most what it had before. -/
theorem Agreeing.of_lose
    (hsession : ∀ found, session ids world' side = some found →
      session ids world side = some found)
    (hawaiting : ∀ state, awaiting ids world' side = some state →
      awaiting ids world side = some state) :
    Agreeing ids world' := by
  have hkeptSession : ∀ found, session ids world' side.other = some found →
      session ids world side.other = some found := by
    rw [hotherSession]
    exact fun _ hfound => hfound
  have hkeptAwaiting : ∀ state, awaiting ids world' side.other = some state →
      awaiting ids world side.other = some state := by
    rw [hotherAwaiting]
    exact fun _ hstate => hstate
  refine .of_side side ?_ ?_ ?_ ?_
  · intro first second hfirst hsecond
    exact hagree.sessions side first second (hsession first hfirst)
      (hkeptSession second hsecond)
  · exact (hagree.answer side).of_lose haccepted hawaiting hkeptSession
  · refine (hagree.answer side.other).of_lose haccepted hkeptAwaiting ?_
    rw [other_other]
    exact hsession
  · intro hhello
    have hbefore := hagree.single side
      (helloAccepted_of_lose haccepted hawaiting hhello)
    refine Bool.eq_false_of_not_eq_true fun hboth => ?_
    rw [helloAccepted_of_lose haccepted hkeptAwaiting hboth] at hbefore
    cases hbefore

/-- A new HELLO has not been accepted by anyone. -/
theorem Agreeing.of_create
    (hsession : session ids world' side = session ids world side)
    (hawaiting : awaiting ids world' side = some state)
    (hfresh : ∀ accepted ∈ world.history.accepted,
      accepted.hello.randomNonce ≠ state.localNonce) :
    Agreeing ids world' := by
  refine .of_side side ?_ ?_ ?_ ?_
  · rw [hsession, hotherSession]
    exact hagree.sessions side
  · intro state' accepted found hstate hmem _ hnonce
    rw [hawaiting, some.injEq] at hstate
    rw [haccepted] at hmem
    exact absurd (hstate ▸ hnonce) (hfresh accepted hmem)
  · refine (hagree.answer side.other).of_lose haccepted ?_ ?_
    · rw [hotherAwaiting]
      exact fun _ hstate => hstate
    · rw [other_other, hsession]
      exact fun _ hfound => hfound
  · intro hhello
    obtain ⟨state', hstate, accepted, hmem, _, hnonce⟩ :=
      helloAccepted_iff.mp hhello
    rw [hawaiting, some.injEq] at hstate
    rw [haccepted] at hmem
    exact absurd (hstate ▸ hnonce) (hfresh accepted hmem)

/-- The answer to the HELLO under way is accepted: its sender has no other
session, and had no HELLO of its own accepted. -/
theorem Agreeing.of_answered
    (hwaiting : awaiting ids world side = some state)
    (hmem : accepted ∈ world.history.accepted)
    (hresponder : accepted.responder = ids side.other)
    (hnonce : accepted.hello.randomNonce = state.localNonce)
    (hsession : session ids world' side = some found)
    (hfound : found.sessionId = accepted.keys.sessionId ∧
      found.encryptionKey = accepted.keys.encryptionKey)
    (hawaiting : awaiting ids world' side = none) :
    Agreeing ids world' := by
  have hhello : helloAccepted ids world side = true :=
    helloAccepted_iff.mpr ⟨state, hwaiting, accepted, hmem, hresponder, hnonce⟩
  have hother := hagree.single side hhello
  refine .of_side side ?_ ?_ ?_ ?_
  · intro first second hfirst hsecond
    rw [hsession, some.injEq] at hfirst
    subst hfirst
    obtain ⟨hid, hkey⟩ := hagree.answer side state accepted second hwaiting hmem
      hresponder hnonce (hotherSession ▸ hsecond)
    exact ⟨hfound.1.trans hid.symm, hfound.2.trans hkey.symm⟩
  · intro state' _ _ hstate
    rw [hawaiting] at hstate
    cases hstate
  · intro state' other found' hstate hotherMem hby hothers _
    rw [haccepted] at hotherMem
    rw [helloAccepted_iff.mpr ⟨state', hotherAwaiting ▸ hstate, other,
      hotherMem, hby, hothers⟩] at hother
    cases hother
  · intro hhello'
    obtain ⟨state', hstate, _⟩ := helloAccepted_iff.mp hhello'
    rw [hawaiting] at hstate
    cases hstate

end

/-- A HELLO accepted in step: the other node has no session, and neither HELLO
under way had been accepted. -/
theorem Agreeing.of_accept (hids : ids side ≠ ids side.other)
    (hotherSession : session ids world' side.other = none)
    (hotherAwaiting : awaiting ids world' side.other =
      awaiting ids world side.other)
    (hresponder : accepted.responder = ids side)
    (hmem : ∀ other, other ∈ world'.history.accepted ↔
      other ∈ world.history.accepted ∨ other = accepted)
    (hsession : session ids world' side = some found)
    (hfound : found.sessionId = accepted.keys.sessionId ∧
      found.encryptionKey = accepted.keys.encryptionKey)
    (hawaiting : awaiting ids world' side = awaiting ids world side)
    (hown : helloAccepted ids world side = false)
    (htheirs : helloAccepted ids world side.other = false) :
    Agreeing ids world' := by
  have hown' : helloAccepted ids world' side = false := by
    refine Bool.eq_false_of_not_eq_true fun hhello => ?_
    obtain ⟨state, hstate, other, hother, hby, hnonce⟩ :=
      helloAccepted_iff.mp hhello
    rcases (hmem other).mp hother with hold | rfl
    · rw [helloAccepted_iff.mpr ⟨state, hawaiting ▸ hstate, other, hold, hby,
        hnonce⟩] at hown
      cases hown
    · exact hids (hresponder.symm.trans hby)
  refine .of_side side ?_ ?_ ?_ ?_
  · intro first second _ hsecond
    rw [hotherSession] at hsecond
    cases hsecond
  · intro state other found' _ _ _ _ hfound'
    rw [hotherSession] at hfound'
    cases hfound'
  · intro state other found' hstate hother hby hnonce hfound'
    rw [other_other, hsession, some.injEq] at hfound'
    subst hfound'
    rcases (hmem other).mp hother with hold | rfl
    · rw [helloAccepted_iff.mpr ⟨state, hotherAwaiting ▸ hstate, other, hold,
        hby, hnonce⟩] at htheirs
      cases htheirs
    · exact hfound
  · intro hhello
    rw [hown'] at hhello
    cases hhello

/-- A node with a session accepts no answer. -/
theorem Sound.not_ackAcceptable (hsound : Sound ids world)
    (hsession : session ids world side = some found) :
    ¬ world.AckAcceptable side := by
  rintro ⟨packet, ack, _, _, hwire, htype, hdec, _, hnone, _⟩
  have henabled : world.Enabled (side, .receive packet ("", 0) 0) := hwire
  obtain ⟨_, _, _, _, hpeer⟩ := hsound.answer henabled htype hdec
  obtain ⟨_, hentry, _⟩ := map_eq_some_iff.mp hsession
  rw [hpeer, Node.hasSession, hentry] at hnone
  cases hnone

/-- What the condition on a step says of an acceptance. -/
theorem acceptsInStep_acceptance
    (hinstep : acceptsInStep ids world (side, event) = true)
    (hacc : (world.process side).acceptance event = some accepted) :
    session ids world side.other = none ∧
      helloAccepted ids world side.other = false ∧
      helloAccepted ids world side = false := by
  obtain ⟨_, _, _, _, _, rfl, htask, _⟩ := Process.acceptance_eq_some hacc
  simpa [acceptsInStep, htask, and_assoc] using hinstep

theorem Agreeing.perform (hcomm : P.ExchangeCommutes)
    (hids : ids side ≠ ids side.other) (hsound : Sound ids world)
    (hagree : Agreeing ids world) (henabled : world.Enabled (side, event))
    (hideal : IdealSignatures ids world (side, event))
    (hinstep : acceptsInStep ids world (side, event) = true) :
    Agreeing ids (world.perform (side, event)) := by
  have hotherSession := session_perform_other ids world side event
  have hotherAwaiting := awaiting_perform_other ids world side event
  cases hsound.linkMove henabled with
  | keep haccepted hsession hawaiting =>
    refine hagree.of_lose hotherSession hotherAwaiting haccepted ?_ hawaiting
    rw [hsession]
    exact fun _ hfound => hfound
  | drop _ haccepted hsession hawaiting =>
    exact hagree.of_lose hotherSession hotherAwaiting haccepted hsession
      hawaiting
  | create haccepted hsession _ hawaiting hfresh =>
    exact hagree.of_create hotherSession hotherAwaiting haccepted hsession
      hawaiting hfresh
  | accept hacc hsession hfound hawaiting =>
    obtain ⟨hnone, htheirs, hown⟩ := acceptsInStep_acceptance hinstep hacc
    refine .of_accept hids (hotherSession.trans hnone) hotherAwaiting
      (hsound.acceptance hacc).1 ?_ hsession hfound hawaiting hown htheirs
    intro other
    rw [history_perform, mem_accepted_record, hacc, some.injEq, eq_comm]
  | answered hevent htype hdec hprocess haccepted hbefore hwaiting hsession
      hfound hawaiting =>
    subst hevent
    obtain ⟨_, hmem, hresponder, hnonce, hid, hkey⟩ :=
      hsound.answered_keys hcomm henabled hideal htype hdec hwaiting hprocess
    exact hagree.of_answered hotherSession hotherAwaiting haccepted hwaiting
      hmem hresponder hnonce hsession
      ⟨hfound.1.trans hid.symm, hfound.2.trans hkey.symm⟩ hawaiting

end World

/-- In a run in which every HELLO is accepted in step, the sessions of the two
nodes agree in every state. -/
theorem sessions_agree (hcomm : P.ExchangeCommutes)
    {ids : Side → LocalIdentity P} (hdistinct : ids .left ≠ ids .right)
    (storage : Side → Storage) (now : ℚ) {events : List (Side × NodeEvent)}
    (hideal : EveryStep step (World.IdealSignatures ids)
      (.start ids storage now) events)
    (hinstep : EveryStep step
      (fun world event => acceptsInStep ids world event = true)
      (.start ids storage now) events) :
    Along step (World.SessionsAgree ids) (.start ids storage now)
      events := by
  have hids := apply_ne_other hdistinct
  have hkeep : ∀ (world : World P) (event : Side × NodeEvent),
      World.Sound ids world ∧ World.Agreeing ids world →
      World.IdealSignatures ids world event ∧
        acceptsInStep ids world event = true →
      World.Sound ids (world.step event) ∧
        World.Agreeing ids (world.step event) := by
    rintro world ⟨side, event⟩ ⟨hsound, hagree⟩ ⟨hideal, hinstep⟩
    refine ⟨hsound.step _, ?_⟩
    unfold step
    split
    · next henabled =>
      exact hagree.perform hcomm (hids side) hsound henabled hideal hinstep
    · exact hagree
  refine along_of_everyStep hkeep ?_ ⟨sound_start storage now, agreeing_start
    storage now⟩ ((everyStep_and ..).mpr ⟨hideal, hinstep⟩)
  rintro world ⟨_, hagree⟩ first second hfirst hsecond _
  exact hagree.sessions .left first second hfirst hsecond

namespace AgreementWitness

open KeyAgreementWitness Reference

def ids : Side → LocalIdentity primitives
  | .left => alice
  | .right => bob

/-- Each node has the other among its contacts. -/
def storage (side : Side) : Storage where
  peers := .set .empty (ids side.other).peerId {
    publicKey := (ids side.other).publicKeyBytes
    lastKnownEndpoint := none
    versionCounter := 0
    lastSeen := none
    nickname := none
    archived := false
    endpointSignature := none }
  sessions := .empty

def addr : Address := ("10.0.0.1", 9000)

def secondDraw : AckDraw where
  ephemeral := constant 32 8
  nonce := constant 16 9
  sessionId := constant 8 10

def answerPacket : Packet := makePacket .helloAck answer.serialize

/-- The first node's HELLO reaches the second. -/
def opening : List (Side × NodeEvent) :=
  [(.left, .connect bob.peerId addr helloDraw 1), (.left, .resume 0 ackDraw 2),
    (.right, .receive hello addr 3)]

/-- The HELLO is accepted, and so is the answer. -/
def undisturbed : List (Side × NodeEvent) :=
  opening ++ [(.right, .resume 0 ackDraw 4), (.left, .receive answerPacket addr 5)]

/-- A second copy of the HELLO passes the guard before the first is
accepted. -/
def duplicated : List (Side × NodeEvent) :=
  opening ++ [(.right, .receive hello addr 4), (.right, .resume 0 ackDraw 5),
    (.left, .receive answerPacket addr 6), (.right, .resume 0 secondDraw 7)]

def initial : World primitives := .start ids storage 0

/-- A HELLO is too short for a HELLO_ACK. -/
theorem ideal_hello (world : World primitives) (side : Side) (now : ℚ) :
    World.IdealSignatures ids world (side, .receive hello addr now) := by
  intro index node state ack _ hdec
  have hbad : ∀ ack, HelloAckPayload.deserialize hello.payload ≠ .ok ack := by
    have herror : (HelloAckPayload.deserialize hello.payload).toOption =
        none := by decide +kernel
    intro ack hok
    rw [hok] at herror
    cases herror
  exact absurd hdec (hbad ack)

theorem ideal_answer {world : World primitives} (now : ℚ)
    (hstarted : world.history.started = [(alice, helloDraw.state primitives)])
    (hsigned : (bob, ackSignedData answer.sessionId answer.ephemeralPublicKey
      (helloDraw.state primitives).ephemeralPublicKeyBytes
      (helloDraw.state primitives).localNonce) ∈ world.history.signed) :
    World.IdealSignatures ids world (.left, .receive answerPacket addr now) := by
  intro index node state ack hindex hdec owner howner _ data _
  have hmem := mem_of_getElem? hindex
  rw [hstarted, mem_singleton, Prod.mk.injEq] at hmem
  obtain ⟨rfl, rfl⟩ := hmem
  simp only [answerPacket, makePacket, Except.ok.injEq,
    HelloAckPayload.deserialize_serialize answer_sized] at hdec
  subst hdec
  rw [mem_singleton.mp howner]
  exact hsigned

theorem duplicated_ideal : EveryStep step (World.IdealSignatures ids)
    initial duplicated := by
  refine ⟨trivial, trivial, ideal_hello _ _ _, ideal_hello _ _ _, trivial,
    ideal_answer 6 ?_ ?_, trivial, trivial⟩
  · decide +kernel
  · decide +kernel

theorem undisturbed_ideal : EveryStep step (World.IdealSignatures ids)
    initial undisturbed := by
  refine ⟨trivial, trivial, ideal_hello _ _ _, trivial, ideal_answer 5 ?_ ?_,
    trivial⟩
  · decide +kernel
  · decide +kernel

/-- The second node answers both copies and keeps the later session, the first
node has the earlier one. -/
theorem duplicated_hello_splits_sessions :
    primitives.ExchangeCommutes ∧ ids .left ≠ ids .right ∧
      EveryStep step (World.IdealSignatures ids) initial duplicated ∧
      ¬ Along step (World.SessionsAgree ids) initial duplicated := by
  refine ⟨exchangeCommutes, by decide +kernel, duplicated_ideal, ?_⟩
  intro halong
  have hagree := halong duplicated prefix_rfl
  have hkeep : ∀ (world : World primitives) event,
      World.Sound ids world → World.Sound ids (world.step event) :=
    fun _ event hsound => hsound.step event
  have hsound := inv_run hkeep (sound_start storage 0) duplicated
  have hfirstId : (session ids (run step initial duplicated)
      .left).map Session.sessionId = some (List.replicate 8 7) := by
    decide +kernel
  have hsecondId : (session ids (run step initial duplicated)
      .right).map Session.sessionId = some (List.replicate 8 10) := by
    decide +kernel
  obtain ⟨first, hfirst, hfirstId⟩ := map_eq_some_iff.mp hfirstId
  obtain ⟨second, hsecond, hsecondId⟩ := map_eq_some_iff.mp hsecondId
  have hnone : ∀ side, ¬ (run step initial duplicated).AckAcceptable
      side := by
    intro side
    cases side with
    | left => exact hsound.not_ackAcceptable hfirst
    | right => exact hsound.not_ackAcceptable hsecond
  have hsame := (hagree first second hfirst hsecond hnone).1
  rw [hfirstId, hsecondId] at hsame
  exact absurd hsame (by decide)

/-- A handshake without duplicates gives both nodes the session. -/
theorem undisturbed_sessions_agree :
    (session ids (run step initial undisturbed) .left).isSome ∧
      (session ids (run step initial undisturbed) .right).isSome ∧
      Along step (World.SessionsAgree ids) initial undisturbed :=
  ⟨by decide +kernel, by decide +kernel,
    sessions_agree exchangeCommutes (by decide +kernel) storage 0
      undisturbed_ideal (by decide +kernel)⟩

end AgreementWitness

end AshiChat
