/-
Simultaneous open: two nodes have each sent the other a HELLO and wait for the
answer (`connect_to_peer`, the tie-break in `_handle_hello`, and
`_handle_hello_ack`).  Every handler runs from the datagram to its end before
anything else happens; the network may deliver any of the packets at any time,
any number of times, or never.
-/
import AshiChat.Node
import AshiChat.EndToEnd
import AshiChat.Kit.EventRun

namespace AshiChat

open EventRun SessionRegistry HelloPayload Node Side List

variable {P : Primitives}

namespace Node

/-- The rest of a coroutine, at most `fuel` stretches of it. -/
def finish (draw : AckDraw) (now : ℚ) : Nat → Outcome P → Outcome P
  | 0, outcome => outcome
  | fuel + 1, outcome =>
    match outcome.next with
    | none => outcome
    | some task =>
      let after := outcome.node.resume draw now task
      finish draw now fuel { after with sent := outcome.sent ++ after.sent }

/-- A handler from the datagram to its end; none is suspended more than four
times. -/
def deliver (node : Node P) (packet : Packet) (addr : Address)
    (draw : AckDraw) (now : ℚ) : Outcome P :=
  finish draw now 4 (Process.stretch ⟨node, []⟩ (.receive packet addr now))

/-- The stretches a coroutine has left. -/
def left : Option Task → Nat
  | some (.helloAdded ..) => 4
  | some (.helloFetched ..) | some (.ackSaved ..) => 3
  | some (.helloRemembered ..) | some (.ackRemembered ..) => 2
  | some (.helloSaved ..) | some (.connecting ..) | some (.ackFlushed ..) => 1
  | none => 0

variable (node : Node P)

theorem left_resume (draw : AckDraw) (now : ℚ) (task : Task) :
    left (node.resume draw now task).next < left (some task) := by
  cases task with
  | helloRemembered =>
    simp only [resume, acceptHello]
    repeat' split
    all_goals simp [left]
  | _ => simp [resume, left]

theorem next_finish (draw : AckDraw) (now : ℚ) (fuel : Nat)
    (outcome : Outcome P) (hfuel : left outcome.next ≤ fuel) :
    (finish draw now fuel outcome).next = none := by
  induction fuel generalizing outcome with
  | zero =>
    cases hnext : outcome.next with
    | none => exact hnext
    | some task =>
      rw [hnext] at hfuel
      cases task <;> simp [left] at hfuel
  | succ _ ih =>
    cases hnext : outcome.next with
    | none => simp only [finish, hnext]
    | some task =>
      simp only [finish, hnext]
      apply ih
      have hless := left_resume outcome.node draw now task
      rw [hnext] at hfuel
      exact Nat.le_of_lt_succ (lt_of_lt_of_le hless hfuel)

theorem left_receive (packet : Packet) (addr : Address) (now : ℚ) :
    left (Process.stretch ⟨node, []⟩ (.receive packet addr now)).next ≤ 4 := by
  have hleft : ∀ next : Option Task, left next ≤ 4 := by
    intro next
    cases next with
    | none => simp [left]
    | some task => cases task <;> simp [left]
  exact hleft _

/-- Every handler comes to its end. -/
theorem next_deliver (packet : Packet) (addr : Address)
    (draw : AckDraw) (now : ℚ) :
    (node.deliver packet addr draw now).next = none :=
  next_finish draw now 4 _ (left_receive node packet addr now)

end Node

/-- The two nodes and the HELLO_ACKs each of them has sent. -/
structure Opening (P : Primitives) where
  node : Side → Node P
  acks : Side → List Packet

/-- The network delivers the other node's HELLO, or one of its HELLO_ACKs. -/
inductive OpeningEvent where
  | hello (side : Side) (addr : Address) (draw : AckDraw) (now : ℚ)
  | helloAck (side : Side) (index : Nat) (addr : Address) (draw : AckDraw)
      (now : ℚ)

namespace Opening

/-- One node handles a packet. -/
def handle (opening : Opening P) (side : Side) (packet : Packet)
    (addr : Address) (draw : AckDraw) (now : ℚ) : Opening P :=
  let outcome := (opening.node side).deliver packet addr draw now
  { node := Function.update opening.node side outcome.node
    acks := Function.update opening.acks side (opening.acks side ++
      (outcome.sent.map Prod.fst).filter (·.packetType = .helloAck)) }

def step (hellos : Side → Packet) (opening : Opening P) :
    OpeningEvent → Opening P
  | .hello side addr draw now =>
    opening.handle side (hellos side.other) addr draw now
  | .helloAck side index addr draw now =>
    match (opening.acks side.other)[index]? with
    | none => opening
    | some ack => opening.handle side ack addr draw now

/-- Before anything is delivered. -/
def begin (start : Side → Node P) : Opening P := ⟨start, fun _ => []⟩

/-- The id of a node. -/
def idOf (start : Side → Node P) (side : Side) : PeerId :=
  (start side).identity.peerId

/-- The sessions a node has made since the start. -/
def created (start : Side → Node P) (opening : Opening P) (side : Side) :
    List Session :=
  (opening.node side).registry.objects.drop (start side).registry.objects.length

/-- The HELLO each node has sent. -/
def hellosOf (start : Side → Node P) (draws : Side → HelloDraw) (side : Side) :
    Packet :=
  (createHello (start side).identity (draws side)).1

/-- Two nodes that know each other, have no session with each other, and wait
for the answer to their HELLO. -/
structure Crossed (start : Side → Node P) (draws : Side → HelloDraw) :
    Prop where
  known : ∀ side, idOf start side.other ∈
    (start side).peerTable.getDirectPeerIds
  unconnected : ∀ side,
    (start side).registry.sessionFor (idOf start side.other) = none
  pending : ∀ side, (start side).pendingHello.get? (idOf start side.other) =
      some { (draws side).state P with
        targetPeerId := some (idOf start side.other) }

end Opening

/-- The node has made exactly one session since `before`, from the keys. -/
structure Holds (before after : Node P) (keys : SessionKeys) : Prop where
  identity : after.identity = before.identity
  session : ∃ floors, after.registry.objects =
        before.registry.objects ++ [establish floors keys] ∧
      after.registry.sessionFor keys.remotePeerId = some (establish floors keys)

/-- A registration with room succeeds. -/
theorem Node.exists_registerSession (node : Node P)
    (hroom : node.registry.bySession.size < maxSessions) (keys : SessionKeys) :
    ∃ after, node.registerSession keys = .ok after ∧
      Holds node after keys ∧ after.pendingHello = node.pendingHello := by
  obtain ⟨registry, hregister⟩ := exists_register hroom
    (establish node.floors keys)
  refine ⟨_, registerSession_of_register hregister,
    ⟨rfl, node.floors, ?_, ?_⟩, rfl⟩
  · exact objects_register hregister
  · have hsession := sessionFor_register hregister keys.remotePeerId
    rwa [establish_remotePeerId, if_pos rfl] at hsession

/-- What the end of `_handle_hello` leaves. -/
def Node.connected (node : Node P) (keys : SessionKeys) (addr : Address) :
    Node P :=
  (node.markConnected keys.remotePeerId).registerHeartbeat keys addr

section Delivery

variable {node : Node P} (addr : Address) (draw : AckDraw) (now : ℚ)

/-- A HELLO that a guard drops changes nothing. -/
theorem deliver_guarded {initiator : LocalIdentity P} {helloDraw : HelloDraw}
    (hguard : node.helloGuarded initiator.peerId) :
    node.deliver (createHello initiator helloDraw).1 addr draw now =
      { node := node } := by
  have hdec := deserialize_createHello initiator helloDraw
  have hremote := derivePeerId_helloPayload initiator helloDraw
  have hhandled := handleHello_guarded addr now hdec (hremote.symm ▸ hguard)
  simp only [deliver, Process.stretch, createHello, makePacket] at hhandled ⊢
  rw [hhandled]
  rfl

/-- A HELLO that gets past the guards makes a session and is answered. -/
theorem deliver_accepted (hexchange : P.ExchangeAgrees)
    (hsignatures : P.SignaturesVerify) {initiator : LocalIdentity P}
    (helloDraw : HelloDraw) (hguard : ¬ node.helloGuarded initiator.peerId)
    (hknown : initiator.peerId ∈ node.peerTable.getDirectPeerIds)
    (hroom : node.registry.bySession.size < maxSessions) :
    ∃ after secret, P.x25519Exchange helloDraw.ephemeral.val
          (P.x25519PublicKey draw.ephemeral.val) = some secret ∧
      node.deliver (createHello initiator helloDraw).1 addr draw now =
        { node := after
          sent := [(makePacket .helloAck (ackPayload node.identity
            (helloPayload initiator helloDraw) draw).serialize, addr)] } ∧
      Holds node after
        (responderKeys P (helloPayload initiator helloDraw) draw secret) := by
  obtain ⟨secret, hleft, hright⟩ := hexchange helloDraw.ephemeral draw.ephemeral
  have hdec := deserialize_createHello initiator helloDraw
  have hremote := derivePeerId_helloPayload initiator helloDraw
  have hhandled := handleHello_known addr now hdec
    (hremote.symm ▸ hguard) (hremote.symm ▸ hknown)
  simp only [hremote] at hhandled
  -- The node at its second stretch: the entry and the row have the address.
  set prepared := ((node.yielded initiator.peerId).setEndpoint
    initiator.peerId addr).rememberEndpoint initiator.peerId addr now
    with hprepared
  have hdirect : prepared.peerTable.getDirectPeerIds =
      node.peerTable.getDirectPeerIds :=
    PeerTable.getDirectPeerIds_setEndpoint ..
  have hprocess : processHello (createHello initiator helloDraw).1
      prepared.peerTable.getDirectPeerIds prepared.identity draw =
        .ok (some (_, _)) :=
    processHello_eq_some_iff.mpr ⟨_, secret, hdec,
      helloVerifies_helloPayload initiator hsignatures helloDraw
        (hdirect ▸ hknown), hright, rfl, rfl⟩
  obtain ⟨after, hregister, hholds, -⟩ := prepared.exists_registerSession hroom
    (responderKeys P (helloPayload initiator helloDraw) draw secret)
  have haccept : prepared.acceptHello (createHello initiator helloDraw).1 addr
      draw = {
        node := after
        next := some (.helloSaved
          (responderKeys P (helloPayload initiator helloDraw) draw secret)
          addr)
        sent := [(makePacket .helloAck (ackPayload node.identity
          (helloPayload initiator helloDraw) draw).serialize, addr)] } := by
    simp only [acceptHello, hprocess, hregister]
    rfl
  refine ⟨after.connected (responderKeys P (helloPayload initiator helloDraw)
    draw secret) addr, secret, hleft, ?_, hholds.identity, hholds.session⟩
  have hstretch : Process.stretch ⟨node, []⟩
      (.receive (createHello initiator helloDraw).1 addr now) =
        node.handleHello (createHello initiator helloDraw).1 addr now := rfl
  rw [deliver, hstretch, hhandled]
  simp [finish, resume, haccept, connected]

/-- The answer of a node to the HELLO of another. -/
def answer (responder initiator : LocalIdentity P) (helloDraw : HelloDraw)
    (ackDraw : AckDraw) : HelloAckPayload :=
  ackPayload responder (helloPayload initiator helloDraw) ackDraw

theorem deserialize_answer (responder initiator : LocalIdentity P)
    (helloDraw : HelloDraw) (ackDraw : AckDraw) :
    HelloAckPayload.deserialize
        (answer responder initiator helloDraw ackDraw).serialize =
      .ok (answer responder initiator helloDraw ackDraw) :=
  HelloAckPayload.deserialize_serialize (ackPayload_sized ..)

/-- An answer that nobody waits for changes nothing. -/
theorem deliver_answer_unexpected {responder initiator : LocalIdentity P}
    {helloDraw : HelloDraw} {ackDraw : AckDraw}
    (hpending : node.pendingHello.get? responder.peerId = none) :
    node.deliver (makePacket .helloAck
        (answer responder initiator helloDraw ackDraw).serialize) addr draw
        now = { node := node } := by
  have hremote : derivePeerId P
      (answer responder initiator helloDraw ackDraw).identityPublicKey =
        responder.peerId := responder.peerId_eq.symm
  have hhandled : node.handleHelloAck (makePacket .helloAck
      (answer responder initiator helloDraw ackDraw).serialize) addr =
        { node := node } := by
    simp only [handleHelloAck, makePacket, deserialize_answer, hremote,
      hpending]
  have hstretch : Process.stretch ⟨node, []⟩ (.receive (makePacket .helloAck
      (answer responder initiator helloDraw ackDraw).serialize) addr now) =
        node.handleHelloAck (makePacket .helloAck
          (answer responder initiator helloDraw ackDraw).serialize) addr := rfl
  rw [deliver, hstretch, hhandled]
  rfl

/-- An answer to the HELLO a node waits on makes the session of the same
keys. -/
theorem deliver_answer (hsignatures : P.SignaturesVerify)
    {responder : LocalIdentity P} {helloDraw : HelloDraw} {ackDraw : AckDraw}
    {secret : Bytes}
    (hsecret : P.x25519Exchange helloDraw.ephemeral.val
      (P.x25519PublicKey ackDraw.ephemeral.val) = some secret)
    {target : Option PeerId}
    (hpending : node.pendingHello.get? responder.peerId =
      some { helloDraw.state P with targetPeerId := target })
    (hsession : node.hasSession responder.peerId = false)
    (hknown : responder.peerId ∈ node.peerTable.getDirectPeerIds)
    (hroom : node.registry.bySession.size < maxSessions) :
    ∃ after, node.deliver (makePacket .helloAck
          (answer responder node.identity helloDraw ackDraw).serialize) addr
          draw now = { node := after } ∧
      Holds node after (initiatorKeys P
        (answer responder node.identity helloDraw ackDraw)
        (helloDraw.state P) secret) ∧
      after.pendingHello.get? responder.peerId = none := by
  have hremote : derivePeerId P
      (answer responder node.identity helloDraw ackDraw).identityPublicKey =
        responder.peerId := responder.peerId_eq.symm
  have hverifies : ackVerifies P node.peerTable.getDirectPeerIds
      { helloDraw.state P with targetPeerId := target }
      (answer responder node.identity helloDraw ackDraw) = true :=
    ackVerifies_ackPayload responder hsignatures node.identity helloDraw
      ackDraw hknown
  have hprocess : processHelloAck P (makePacket .helloAck
      (answer responder node.identity helloDraw ackDraw).serialize)
      { helloDraw.state P with targetPeerId := target }
      node.peerTable.getDirectPeerIds = .ok (some (initiatorKeys P
        (answer responder node.identity helloDraw ackDraw)
        (helloDraw.state P) secret)) :=
    processHelloAck_eq_some_iff.mpr ⟨_, secret,
      deserialize_answer responder node.identity helloDraw ackDraw, hverifies,
      hsecret, rfl⟩
  obtain ⟨after, hregister, hholds, hkept⟩ :=
    (node.yielded responder.peerId).exists_registerSession hroom
      (initiatorKeys P (answer responder node.identity helloDraw ackDraw)
        (helloDraw.state P) secret)
  have hyielded : (node.yielded responder.peerId).hasSession
      responder.peerId = false := hsession
  have hhandled : node.handleHelloAck (makePacket .helloAck
      (answer responder node.identity helloDraw ackDraw).serialize) addr =
        { node := after
          next := some (.ackSaved (initiatorKeys P
            (answer responder node.identity helloDraw ackDraw)
            (helloDraw.state P) secret) addr) } := by
    unfold yielded at hyielded hregister
    simp only [handleHelloAck, makePacket, deserialize_answer, hremote,
      hpending, hyielded, Bool.false_eq_true, ↓reduceIte]
    simp only [makePacket] at hprocess
    rw [hprocess]
    simp only [hregister]
  have hstretch : Process.stretch ⟨node, []⟩ (.receive (makePacket .helloAck
      (answer responder node.identity helloDraw ackDraw).serialize) addr now) =
        node.handleHelloAck (makePacket .helloAck
          (answer responder node.identity helloDraw ackDraw).serialize)
          addr := rfl
  rw [deliver, hstretch, hhandled]
  refine ⟨_, rfl, ⟨hholds.identity, hholds.session⟩, ?_⟩
  change after.pendingHello.get? responder.peerId = none
  rw [hkept]
  exact OrderedDict.get?_erase_self ..

end Delivery

namespace Opening

variable {opening : Opening P}

variable {side : Side}

/-- A packet that changes nothing at its node changes nothing. -/
theorem handle_of_same {packet : Packet}
    {addr : Address} {draw : AckDraw} {now : ℚ}
    (hsame : (opening.node side).deliver packet addr draw now =
      { node := opening.node side }) :
    opening.handle side packet addr draw now = opening := by
  unfold handle
  simp [hsame]

variable (start : Side → Node P) (draws : Side → HelloDraw) (low : Side)

/-- The keys of the node that answers. -/
def answerKeys (ackDraw : AckDraw) (secret : Bytes) : SessionKeys :=
  responderKeys P (helloPayload (start low).identity (draws low)) ackDraw secret

/-- The answer the higher node gives. -/
def answerOf (ackDraw : AckDraw) : HelloAckPayload :=
  answer (start low.other).identity (start low).identity (draws low) ackDraw

/-- The keys of the node that gets the answer. -/
def answeredKeys (ackDraw : AckDraw) (secret : Bytes) : SessionKeys :=
  initiatorKeys P (answerOf start draws low ackDraw) ((draws low).state P)
    secret

/-- How far the two nodes are.  The lower node keeps waiting until the answer
of the higher node arrives. -/
inductive Phase (opening : Opening P) : Prop where
  | waiting (hnode : opening.node = start)
      (hacks : ∀ side, opening.acks side = [])
  | answered (ackDraw : AckDraw) (secret : Bytes)
      (hsecret : P.x25519Exchange (draws low).ephemeral.val
        (P.x25519PublicKey ackDraw.ephemeral.val) = some secret)
      (hlow : opening.node low = start low)
      (hhigh : Holds (start low.other) (opening.node low.other)
        (answerKeys start draws low ackDraw secret))
      (hquiet : opening.acks low = [])
      (hacks : opening.acks low.other =
        [makePacket .helloAck (answerOf start draws low ackDraw).serialize])
  | agreed (ackDraw : AckDraw) (secret : Bytes)
      (hlow : Holds (start low) (opening.node low)
        (answeredKeys start draws low ackDraw secret))
      (hdone : (opening.node low).pendingHello.get?
        (idOf start low.other) = none)
      (hhigh : Holds (start low.other) (opening.node low.other)
        (answerKeys start draws low ackDraw secret))
      (hquiet : opening.acks low = [])
      (hacks : opening.acks low.other =
        [makePacket .helloAck (answerOf start draws low ackDraw).serialize])

variable {start draws low}

variable {keys : SessionKeys}

/-- Whoever holds the session drops the HELLO of its peer. -/
theorem guarded_of_holds {before node : Node P}
    (hholds : Holds before node keys) : node.helloGuarded keys.remotePeerId := by
  obtain ⟨_, -, hsession⟩ := hholds.session
  refine Or.inl ?_
  rw [hasSession_eq, hsession]
  rfl

theorem remotePeerId_answerKeys (ackDraw : AckDraw) (secret : Bytes) :
    (answerKeys start draws low ackDraw secret).remotePeerId = idOf start low :=
  (start low).identity.peerId_eq.symm

theorem remotePeerId_answeredKeys (ackDraw : AckDraw) (secret : Bytes) :
    (answeredKeys start draws low ackDraw secret).remotePeerId =
      idOf start low.other :=
  (start low.other).identity.peerId_eq.symm

section Steps

variable {opening : Opening P} (addr : Address) (draw : AckDraw) (now : ℚ)

/-- The lower node never takes up the HELLO of the higher one. -/
theorem Phase.hello_low (hcrossed : Crossed start draws)
    (hlower : idOf start low < idOf start low.other)
    (hphase : Phase start draws low opening) :
    opening.step (hellosOf start draws) (.hello low addr draw now) =
      opening := by
  have hwaiting : (start low).helloGuarded (idOf start low.other) :=
    Or.inr ⟨((start low).pendingHello.contains_iff _).mpr
      ⟨_, hcrossed.pending low⟩, hlower⟩
  refine handle_of_same (deliver_guarded addr draw now ?_)
  cases hphase with
  | waiting hnode => rwa [hnode]
  | answered _ _ _ hlow => rwa [hlow]
  | agreed _ _ hlow =>
    have hguard := guarded_of_holds hlow
    rwa [remotePeerId_answeredKeys] at hguard

/-- The higher node answers the first copy of the lower one's HELLO and drops
the others. -/
theorem Phase.hello_high (hexchange : P.ExchangeAgrees)
    (hsignatures : P.SignaturesVerify) (hcrossed : Crossed start draws)
    (hroom : (start low.other).registry.bySession.size < maxSessions)
    (hlower : idOf start low < idOf start low.other)
    (hphase : Phase start draws low opening) :
    Phase start draws low (opening.step (hellosOf start draws)
      (.hello low.other addr draw now)) := by
  have hdropped : ∀ {ackDraw secret}, Holds (start low.other)
      (opening.node low.other) (answerKeys start draws low ackDraw secret) →
        opening.step (hellosOf start draws)
          (.hello low.other addr draw now) = opening := by
    intro ackDraw secret hhigh
    have hguard := guarded_of_holds hhigh
    rw [remotePeerId_answerKeys] at hguard
    refine handle_of_same ?_
    rw [other_other]
    exact deliver_guarded addr draw now hguard
  cases hphase with
  | answered ackDraw secret hsecret hlow hhigh hquiet hacks =>
    rw [hdropped hhigh]
    exact .answered ackDraw secret hsecret hlow hhigh hquiet hacks
  | agreed ackDraw secret hlow hdone hhigh hquiet hacks =>
    rw [hdropped hhigh]
    exact .agreed ackDraw secret hlow hdone hhigh hquiet hacks
  | waiting hnode hacks =>
    have hknown := hcrossed.known low.other
    have hnone := hcrossed.unconnected low.other
    rw [other_other] at hknown hnone
    have hguard : ¬ (start low.other).helloGuarded (idOf start low) := by
      rintro (hsession | ⟨-, hless⟩)
      · rw [hasSession_eq, hnone] at hsession
        cases hsession
      · exact List.lt_asymm hless hlower
    obtain ⟨after, secret, hsecret, hdeliver, hholds⟩ :=
      deliver_accepted addr draw now hexchange hsignatures (draws low)
        hguard hknown hroom
    have hstep : opening.step (hellosOf start draws)
        (.hello low.other addr draw now) =
          { node := Function.update start low.other after
            acks := Function.update opening.acks low.other [makePacket .helloAck
                (answerOf start draws low draw).serialize] } := by
      simp only [step, handle, hnode, other_other, hellosOf, hdeliver, hacks]
      rfl
    have hne : low ≠ low.other := (other_ne low).symm
    rw [hstep]
    refine .answered draw secret hsecret ?_ ?_ ?_ ?_
    · exact Function.update_of_ne hne ..
    · simp only [Function.update_self]
      exact hholds
    · exact (Function.update_of_ne hne ..).trans (hacks low)
    · exact Function.update_self ..

/-- The lower node takes the session of the first answer that arrives and
ignores further copies. -/
theorem Phase.ack_low (index : Nat) (hsignatures : P.SignaturesVerify)
    (hcrossed : Crossed start draws)
    (hroom : (start low).registry.bySession.size < maxSessions)
    (hphase : Phase start draws low opening) :
    Phase start draws low (opening.step (hellosOf start draws)
      (.helloAck low index addr draw now)) := by
  cases hphase with
  | waiting hnode hacks =>
    simp only [step, hacks low.other, getElem?_nil]
    exact .waiting hnode hacks
  | answered ackDraw secret hsecret hlow hhigh hquiet hacks =>
    cases index with
    | succ =>
      simp only [step, hacks, getElem?_cons_succ, getElem?_nil]
      exact .answered ackDraw secret hsecret hlow hhigh hquiet hacks
    | zero =>
      have hnone : (start low).hasSession (idOf start low.other) =
          false := by
        rw [hasSession_eq, hcrossed.unconnected low]
        rfl
      obtain ⟨after, hdeliver, hholds, hdone⟩ :=
        deliver_answer addr draw now hsignatures hsecret
          (hcrossed.pending low) hnone (hcrossed.known low) hroom
      have hstep : opening.step (hellosOf start draws)
          (.helloAck low 0 addr draw now) =
            { node := Function.update opening.node low after
              acks := opening.acks } := by
        simp [step, hacks, handle, hlow, answerOf, hdeliver]
      have hne : low.other ≠ low := other_ne low
      rw [hstep]
      refine .agreed ackDraw secret ?_ ?_ ?_ hquiet hacks
      · simp only [Function.update_self]
        exact hholds
      · simp only [Function.update_self]
        exact hdone
      · simp only [Function.update_of_ne hne]
        exact hhigh
  | agreed ackDraw secret hlow hdone hhigh hquiet hacks =>
    have hsame : opening.step (hellosOf start draws)
        (.helloAck low index addr draw now) = opening := by
      cases index with
      | succ => simp [step, hacks]
      | zero =>
        simp only [step, hacks, getElem?_cons_zero]
        exact handle_of_same (deliver_answer_unexpected addr draw now hdone)
    rw [hsame]
    exact .agreed ackDraw secret hlow hdone hhigh hquiet hacks

/-- No answer is ever on its way to the higher node. -/
theorem Phase.ack_high (index : Nat) (hphase : Phase start draws low opening) :
    opening.step (hellosOf start draws)
      (.helloAck low.other index addr draw now) = opening := by
  have hquiet : opening.acks low = [] := by
    cases hphase with
    | waiting _ hacks => exact hacks low
    | answered _ _ _ _ _ hquiet => exact hquiet
    | agreed _ _ _ _ _ hquiet => exact hquiet
  simp [step, hquiet]

end Steps

theorem Phase.step (hexchange : P.ExchangeAgrees)
    (hsignatures : P.SignaturesVerify) (hcrossed : Crossed start draws)
    (hroom : ∀ side, (start side).registry.bySession.size < maxSessions)
    (hlower : idOf start low < idOf start low.other)
    (hphase : Phase start draws low opening) (event : OpeningEvent) :
    Phase start draws low (opening.step (hellosOf start draws) event) := by
  cases event with
  | hello side addr draw now =>
    rcases side.eq_or_eq_other low with rfl | rfl
    · rwa [hphase.hello_low addr draw now hcrossed hlower]
    · exact hphase.hello_high addr draw now hexchange hsignatures hcrossed
        (hroom low.other) hlower
  | helloAck side index addr draw now =>
    rcases side.eq_or_eq_other low with rfl | rfl
    · exact hphase.ack_low addr draw now index hsignatures hcrossed (hroom side)
    · rwa [hphase.ack_high addr draw now index]

theorem mem_created_of_holds
    (hholds : Holds (start side) (opening.node side) keys) {session : Session} :
    session ∈ created start opening side → session.sessionId = keys.sessionId ∧
        session.encryptionKey = keys.encryptionKey := by
  obtain ⟨_, hobjects, -⟩ := hholds.session
  intro hmem
  simp only [created, hobjects, drop_left, mem_singleton] at hmem
  rw [hmem]
  exact ⟨establish_sessionId .., establish_encryptionKey ..⟩

theorem created_of_same (hsame : opening.node side = start side) :
    created start opening side = [] := by
  simp [created, hsame]

/-- All sessions made so far are of one id and one key. -/
theorem Phase.one_key (hphase : Phase start draws low opening) :
    ∃ sessionId key, ∀ side, ∀ session ∈ created start opening side,
      session.sessionId = sessionId ∧ session.encryptionKey = key := by
  cases hphase with
  | waiting hnode =>
    refine ⟨[], [], ?_⟩
    intro side session hmem
    rw [created_of_same (by rw [hnode])] at hmem
    cases hmem
  | answered ackDraw secret _ hlow hhigh =>
    refine ⟨(answerKeys start draws low ackDraw secret).sessionId,
      (answerKeys start draws low ackDraw secret).encryptionKey, ?_⟩
    intro side session hmem
    rcases side.eq_or_eq_other low with rfl | rfl
    · rw [created_of_same hlow] at hmem
      cases hmem
    · exact mem_created_of_holds hhigh hmem
  | agreed ackDraw secret hlow _ hhigh =>
    refine ⟨(answerKeys start draws low ackDraw secret).sessionId,
      (answerKeys start draws low ackDraw secret).encryptionKey, ?_⟩
    intro side session hmem
    rcases side.eq_or_eq_other low with rfl | rfl
    · exact mem_created_of_holds hlow hmem
    · exact mem_created_of_holds hhigh hmem

theorem held_of_holds
    (hholds : Holds (start side) (opening.node side) keys) {session : Session}
    (hsession : (opening.node side).registry.sessionFor keys.remotePeerId =
      some session) : session ∈ created start opening side := by
  obtain ⟨_, hobjects, hfound⟩ := hholds.session
  rw [hfound, Option.some.injEq] at hsession
  simp only [created, hobjects, drop_left, mem_singleton]
  exact hsession.symm

/-- The session a node holds with the other is one of those. -/
theorem Phase.held (hcrossed : Crossed start draws)
    (hphase : Phase start draws low opening) {session : Session}
    (hsession : (opening.node side).registry.sessionFor
      (idOf start side.other) = some session) :
    session ∈ created start opening side := by
  have hnone : ∀ side, opening.node side = start side →
      (opening.node side).registry.sessionFor (idOf start side.other) ≠
        some session := by
    intro side hsame hheld
    rw [hsame, hcrossed.unconnected side] at hheld
    cases hheld
  cases hphase with
  | waiting hnode => exact absurd hsession (hnone side (by rw [hnode]))
  | answered ackDraw secret _ hlow hhigh =>
    rcases side.eq_or_eq_other low with rfl | rfl
    · exact absurd hsession (hnone side hlow)
    · rw [other_other, ← remotePeerId_answerKeys ackDraw secret] at hsession
      exact held_of_holds hhigh hsession
  | agreed ackDraw secret hlow _ hhigh =>
    rcases side.eq_or_eq_other low with rfl | rfl
    · rw [← remotePeerId_answeredKeys ackDraw secret] at hsession
      exact held_of_holds hlow hsession
    · rw [other_other, ← remotePeerId_answerKeys ackDraw secret] at hsession
      exact held_of_holds hhigh hsession

theorem exists_lower (hdistinct : idOf start .left ≠ idOf start .right) :
    ∃ low, idOf start low < idOf start low.other := by
  by_cases hleft : idOf start .left < idOf start .right
  · exact ⟨.left, hleft⟩
  · by_cases hright : idOf start .right < idOf start .left
    · exact ⟨.right, hright⟩
    · exact absurd (List.le_antisymm (List.not_lt.mp hright)
        (List.not_lt.mp hleft)) hdistinct

/-- While both registries have room, only the node with the higher id ever
answers, all sessions are of one key, and two sessions are the same one. -/
theorem one_session (hexchange : P.ExchangeAgrees)
    (hsignatures : P.SignaturesVerify) (start : Side → Node P)
    (draws : Side → HelloDraw) (hcrossed : Crossed start draws)
    (hdistinct : idOf start .left ≠ idOf start .right)
    (hroom : ∀ side, (start side).registry.bySession.size < maxSessions)
    (events : List OpeningEvent) :
    let final := run (step (hellosOf start draws)) (begin start) events
    (∀ side, final.acks side ≠ [] → idOf start side.other < idOf start side) ∧
    (∃ sessionId key, ∀ side, ∀ session ∈ created start final side,
      session.sessionId = sessionId ∧ session.encryptionKey = key) ∧
    (∀ left right, (final.node .left).registry.sessionFor (idOf start .right) =
        some left →
      (final.node .right).registry.sessionFor (idOf start .left) = some right →
      left.sessionId = right.sessionId ∧
        left.encryptionKey = right.encryptionKey) := by
  intro final
  obtain ⟨low, hlower⟩ := exists_lower hdistinct
  have hphase : Phase start draws low final :=
    inv_run (fun _ event hphase => hphase.step hexchange hsignatures hcrossed
      hroom hlower event) (.waiting rfl fun _ => rfl) events
  obtain ⟨sessionId, key, hone⟩ := hphase.one_key
  refine ⟨?_, ⟨sessionId, key, hone⟩, ?_⟩
  · intro side hacks
    rcases side.eq_or_eq_other low with rfl | rfl
    · cases hphase with
      | waiting _ hnone => exact absurd (hnone side) hacks
      | answered _ _ _ _ _ hquiet => exact absurd hquiet hacks
      | agreed _ _ _ _ _ hquiet => exact absurd hquiet hacks
    · rw [other_other]
      exact hlower
  · intro left right hleft hright
    obtain ⟨hleftId, hleftKey⟩ := hone .left left (hphase.held hcrossed hleft)
    obtain ⟨hrightId, hrightKey⟩ :=
      hone .right right (hphase.held hcrossed hright)
    exact ⟨hleftId.trans hrightId.symm, hleftKey.trans hrightKey.symm⟩

end Opening

namespace SimultaneousOpenWitness

open Opening Reference

def identity : Side → LocalIdentity primitives
  | .left => .ofPrivateKey _ (replicate 32 1)
  | .right => .ofPrivateKey _ (replicate 32 2)

def addr : Address := ("10.0.0.1", 9000)

def draws : Side → HelloDraw
  | .left => ⟨constant 32 3, constant 16 4⟩
  | .right => ⟨constant 32 5, constant 16 6⟩

def ackDraw : AckDraw := ⟨constant 32 7, constant 16 8, constant 8 9⟩

/-- A node that has loaded the other as a contact and called
`connect_to_peer`. -/
def waiting (side : Side) : Node primitives :=
  let other := identity side.other
  ((start (identity side) (Storage.empty.addPeer other.peerId
    other.publicKeyBytes addr 0) 0).connectToPeer other.peerId addr
      (draws side) 0).node

/-- Both HELLOs cross, and the first answer arrives twice. -/
def crossing : List OpeningEvent :=
  [.hello .left addr ackDraw 0, .hello .right addr ackDraw 0,
    .hello .right addr ackDraw 0, .helloAck .left 0 addr ackDraw 0,
    .helloAck .left 0 addr ackDraw 0, .hello .left addr ackDraw 0]

theorem waiting_crossed : Crossed waiting draws where
  known side := by cases side <;> decide +kernel
  unconnected side := by cases side <;> decide +kernel
  pending side := by cases side <;> decide +kernel

theorem crossing_agrees :
    let final := run (step (hellosOf waiting draws)) (begin waiting) crossing
    ((final.node .left).hasSession (idOf waiting .right) = true ∧
      (final.node .right).hasSession (idOf waiting .left) = true) ∧
    (∀ side, final.acks side ≠ [] →
      idOf waiting side.other < idOf waiting side) ∧
    (∃ sessionId key, ∀ side, ∀ session ∈ created waiting final side,
      session.sessionId = sessionId ∧ session.encryptionKey = key) ∧
    (∀ left right,
      (final.node .left).registry.sessionFor (idOf waiting .right) = some left →
      (final.node .right).registry.sessionFor (idOf waiting .left) =
        some right →
      left.sessionId = right.sessionId ∧
        left.encryptionKey = right.encryptionKey) :=
  ⟨by decide +kernel, one_session exchangeAgrees signaturesVerify waiting
      draws waiting_crossed (by decide +kernel)
      (fun side => by cases side <;> decide +kernel) crossing⟩

/-- A registry with a hundred sessions of other peers. -/
def crowd : SessionRegistry := (range maxSessions).foldl (fun registry number =>
      match registry.register {
          sessionId := replicate 8 (UInt8.ofNat number)
          encryptionKey := replicate 32 0
          remotePeerId := [UInt8.ofNat number] } with
      | .ok registry => registry
      | .error _ => registry)
    .empty

/-- The same two nodes, the lower one with a full registry. -/
def crowded : Side → Node primitives
  | .left => { waiting .left with registry := crowd }
  | .right => waiting .right

theorem crowded_crossed : Crossed crowded draws where
  known side := by cases side <;> decide +kernel
  unconnected side := by cases side <;> decide +kernel
  pending side := by cases side <;> decide +kernel

/-- The lower node cannot register the session of the answer, has given up its
own HELLO by then, and answers the next copy of the other one. -/
def overrun : List OpeningEvent :=
  [.hello .right addr ackDraw 0, .helloAck .left 0 addr ackDraw 0,
    .hello .left addr ackDraw 0]

theorem lower_node_answers :
    Crossed crowded draws ∧ idOf crowded .left ≠ idOf crowded .right ∧
      ¬ ∀ side, (run (step (hellosOf crowded draws)) (begin crowded)
          overrun).acks side ≠ [] →
        idOf crowded side.other < idOf crowded side := by
  refine ⟨crowded_crossed, by decide +kernel, fun hall => ?_⟩
  have hlower : ¬ idOf crowded .right < idOf crowded .left := by decide +kernel
  exact hlower (hall .left (by decide +kernel))

end SimultaneousOpenWitness

end AshiChat
