/-
Two honest nodes over a network that may lose, duplicate, delay and reorder
their handshake packets.  Packets stay on the wire once sent and may be
delivered any number of times; each node's coroutines, retry timers, heartbeat
disconnects and restarts are interleaved at will.  Random nonces and session
ids do not repeat.
-/
import AshiChat.NodeMoves

namespace AshiChat

open EventRun OrderedDict List Option SessionRegistry Except

variable {P : Primitives}

/-- The two ways in which a session ends. -/
def NodeEvent.drops : NodeEvent → Bool
  | .disconnect .. | .restart .. => true
  | _ => false

/-- The two nodes and the wire.  `history` records what the identity keys
signed and which HELLOs were accepted. -/
structure World (P : Primitives) where
  process : Side → Process P
  wire : List (Side × Packet) := []
  history : HandshakeHistory P := {}

namespace World

/-- Both nodes have just been started. -/
def start (ids : Side → LocalIdentity P) (storage : Side → Storage) (now : ℚ) :
    World P where
  process side := ⟨.start (ids side) (storage side) now, []⟩

/-- Only packets of the other node are delivered; drawn nonces and session ids
are new. -/
def Enabled (world : World P) : Side × NodeEvent → Prop
  | (side, .receive packet ..) => (side.other, packet) ∈ world.wire
  | (_, .connect _ _ draw _) =>
    draw.nonce.val ∉ world.history.started.map (fun entry =>
      entry.2.localNonce)
  | (_, .resume _ draw _) =>
    draw.sessionId.val ∉ world.history.accepted.map (fun accepted =>
      accepted.keys.sessionId)
  | _ => True

instance (world : World P) :
    (event : Side × NodeEvent) → Decidable (world.Enabled event)
  | (side, .receive packet ..) =>
    inferInstanceAs (Decidable ((side.other, packet) ∈ world.wire))
  | (_, .connect _ _ draw _) =>
    inferInstanceAs (Decidable (draw.nonce.val ∉ world.history.started.map
      (fun entry => entry.2.localNonce)))
  | (_, .resume _ draw _) =>
    inferInstanceAs (Decidable (draw.sessionId.val ∉
      world.history.accepted.map (fun accepted => accepted.keys.sessionId)))
  | (_, .retry ..) => isTrue trivial
  | (_, .disconnect ..) => isTrue trivial
  | (_, .restart ..) => isTrue trivial

/-- The history after an event of the process. -/
def record (history : HandshakeHistory P) (process : Process P)
    (event : NodeEvent) : HandshakeHistory P :=
  match process.handshake event with
  | none => history
  | some use => history.step use

/-- The world after an enabled event. -/
def perform (world : World P) (event : Side × NodeEvent) : World P :=
  let process := world.process event.1
  { process := Function.update world.process event.1 (process.step event.2)
    wire := world.wire ++ (process.stretch event.2).sent.map fun sent =>
      (event.1, sent.1)
    history := record world.history process event.2 }

def step (world : World P) (event : Side × NodeEvent) : World P :=
  if world.Enabled event then world.perform event else world

theorem accepted_record (history : HandshakeHistory P) (process : Process P)
    (event : NodeEvent) :
    (record history process event).accepted =
      history.accepted ++ (process.acceptance event).toList := by
  unfold record Process.acceptance
  cases process.handshake event with
  | none => simp
  | some use =>
    cases use with
    | receiveHello node packet known draw =>
      simp only [HandshakeHistory.step]
      cases HelloPayload.deserialize packet.payload with
      | error => simp
      | ok =>
        rcases processHello packet known node draw with
          err | _ | ⟨ack, keys⟩ <;> simp
    | start | receiveAck => simp [HandshakeHistory.step]
    | advertise =>
      simp only [HandshakeHistory.step]
      split <;> simp

variable {history : HandshakeHistory P} {process : Process P}

theorem mem_accepted_record {event : NodeEvent} {accepted : Acceptance P} :
    accepted ∈ (record history process event).accepted ↔
      accepted ∈ history.accepted ∨
        process.acceptance event = some accepted := by
  rw [accepted_record, mem_append, mem_toList]

theorem mem_started_record (process : Process P) (event : NodeEvent)
    {entry : LocalIdentity P × HandshakeState} (hmem : entry ∈ history.started) :
    entry ∈ (record history process event).started := by
  unfold record
  cases process.handshake event with
  | none => exact hmem
  | some use =>
    cases use with
    | receiveHello =>
      simp only [HandshakeHistory.step]
      split <;> exact hmem
    | start => exact mem_append_left _ hmem
    | receiveAck => exact hmem
    | advertise =>
      simp only [HandshakeHistory.step]
      split <;> exact hmem

theorem recorded_record (hrec : history.Recorded) (process : Process P)
    (event : NodeEvent) :
    (record history process event).Recorded := by
  unfold record
  cases process.handshake event with
  | none => exact hrec
  | some use => exact hrec.step use

/-- A HELLO that is created is recorded. -/
theorem mem_started_connect (history : HandshakeHistory P) {peerId : PeerId}
    (endpoint : Address) (draw : HelloDraw) (now : ℚ)
    (hsession : process.node.hasSession peerId = false)
    (hfree : process.node.pendingHello.contains peerId = false) :
    (process.node.identity, draw.state P) ∈ (record history process
      (.connect peerId endpoint draw now)).started := by
  simp [record, Process.handshake, hsession, hfree, HandshakeHistory.step,
    createHello]

section Sound

variable (ids : Side → LocalIdentity P)

/-- A HELLO that the node of `side` created. -/
def HelloFrom (history : HandshakeHistory P) (side : Side)
    (packet : Packet) : Prop :=
  ∃ draw : HelloDraw, (ids side, draw.state P) ∈ history.started ∧
    packet = (createHello (ids side) draw).1

/-- The answer to a HELLO that the node of `side` accepted. -/
def AckFrom (history : HandshakeHistory P) (side : Side) (packet : Packet) :
    Prop :=
  ∃ accepted ∈ history.accepted, accepted.responder = ids side ∧
    packet = Process.answerTo accepted

/-- The HELLO was created by the node of `side`. -/
def HelloOf (history : HandshakeHistory P) (side : Side)
    (hello : HelloPayload) : Prop :=
  ∃ draw : HelloDraw, (ids side, draw.state P) ∈ history.started ∧
    hello = helloPayload (ids side) draw

/-- What holds of two honest nodes whatever the schedule: packets, coroutines
and pending states are genuine, and each registry is about the other node. -/
structure Sound (world : World P) : Prop where
  identity : ∀ side, (world.process side).node.identity = ids side
  recorded : world.history.Recorded
  wire : ∀ side packet, (side, packet) ∈ world.wire →
    HelloFrom ids world.history side packet ∨
      AckFrom ids world.history side packet
  packets : ∀ side, (world.process side).From
    (HelloFrom ids world.history side) (HelloFrom ids world.history side.other)
  pending : ∀ side peerId state,
    (world.process side).node.pendingHello.get? peerId = some state →
      ∃ draw : HelloDraw, (ids side, draw.state P) ∈ world.history.started ∧
        state = { draw.state P with targetPeerId := some peerId }
  accepted : ∀ accepted ∈ world.history.accepted,
    ∃ side, accepted.responder = ids side ∧
      HelloOf ids world.history side.other accepted.hello
  sessionIds : ∀ first ∈ world.history.accepted,
    ∀ second ∈ world.history.accepted,
      first.keys.sessionId = second.keys.sessionId → first = second
  registry : ∀ side,
    (world.process side).node.registry.OnlyFor (ids side.other).peerId

variable {ids}

theorem sound_start (storage : Side → Storage) (now : ℚ) :
    Sound ids (start ids storage now) where
  identity _ := rfl
  recorded := HandshakeHistory.recorded_empty
  wire := by simp [start]
  packets side := ⟨by simp [start], by simp [start, Node.start]⟩
  pending := by simp [start, Node.start]
  accepted := by simp [start]
  sessionIds := by simp [start]
  registry _ := onlyFor_empty _

variable {packet : Packet} {history : HandshakeHistory P}
  {ack : HelloAckPayload} {hello : HelloPayload} {addr : Address} {now : ℚ}
  {state : HandshakeState} {keys : SessionKeys} {peerId : PeerId}

theorem HelloFrom.record {side : Side}
    (hfrom : HelloFrom ids history side packet) (process : Process P)
    (event : NodeEvent) :
    HelloFrom ids (record history process event) side packet := by
  obtain ⟨draw, hmem, hpacket⟩ := hfrom
  exact ⟨draw, mem_started_record process event hmem, hpacket⟩

theorem AckFrom.record {side : Side} (hfrom : AckFrom ids history side packet)
    (process : Process P) (event : NodeEvent) :
    AckFrom ids (record history process event) side packet := by
  obtain ⟨accepted, hmem, hfacts⟩ := hfrom
  exact ⟨accepted, mem_accepted_record.mpr (.inl hmem), hfacts⟩

theorem HelloOf.record {side : Side} (hof : HelloOf ids history side hello)
    (process : Process P) (event : NodeEvent) :
    HelloOf ids (record history process event) side hello := by
  obtain ⟨draw, hmem, hhello⟩ := hof
  exact ⟨draw, mem_started_record process event hmem, hhello⟩

theorem HelloFrom.deserialize {side : Side}
    (hfrom : HelloFrom ids history side packet)
    (hdec : HelloPayload.deserialize packet.payload = .ok hello) :
    HelloOf ids history side hello := by
  obtain ⟨draw, hmem, rfl⟩ := hfrom
  rw [deserialize_createHello, ok.injEq] at hdec
  exact ⟨draw, hmem, hdec.symm⟩

theorem AckFrom.deserialize {side : Side}
    (hfrom : AckFrom ids history side packet)
    (hdec : HelloAckPayload.deserialize packet.payload = .ok ack) :
    ∃ accepted ∈ history.accepted, accepted.responder = ids side ∧
      ack = ackPayload (ids side) accepted.hello accepted.draw := by
  obtain ⟨accepted, hmem, hresponder, rfl⟩ := hfrom
  simp only [Process.answerTo, makePacket, ok.injEq,
    HelloAckPayload.deserialize_serialize (ackPayload_sized ..)] at hdec
  exact ⟨accepted, hmem, hresponder, by rw [← hdec, hresponder]⟩

@[simp] theorem process_perform_self (world : World P) (side : Side)
    (event : NodeEvent) :
    (world.perform (side, event)).process side =
      (world.process side).step event :=
  Function.update_self ..

@[simp] theorem process_perform_other (world : World P) (side : Side)
    (event : NodeEvent) :
    (world.perform (side, event)).process side.other =
      world.process side.other :=
  Function.update_of_ne side.other_ne ..

@[simp] theorem history_perform (world : World P) (side : Side)
    (event : NodeEvent) :
    (world.perform (side, event)).history =
      record world.history (world.process side) event := rfl

variable {world : World P} {side : Side} {event : NodeEvent}

section

variable (hsound : Sound ids world)

include hsound

/-- An accepted HELLO is one of the other node's. -/
theorem Sound.acceptance {accepted : Acceptance P}
    (hacc : (world.process side).acceptance event = some accepted) :
    accepted.responder = ids side ∧
      HelloOf ids world.history side.other accepted.hello ∧
      accepted.keys.sessionId = accepted.draw.sessionId.val ∧
      accepted.keys.remotePeerId = (ids side.other).peerId := by
  obtain ⟨_, _, _, _, _, _, htask, hdec, hprocess,
    hresponder⟩ := Process.acceptance_eq_some hacc
  have hof : HelloOf ids world.history side.other accepted.hello :=
    HelloFrom.deserialize
      ((hsound.packets side).tasks _ (mem_of_getElem? htask)) hdec
  obtain ⟨hello, _, hdec', _, _, _, hkeys⟩ :=
    processHello_eq_some_iff.mp hprocess
  rw [hdec, ok.injEq] at hdec'
  subst hdec'
  refine ⟨hresponder.trans (hsound.identity side), hof, by rw [hkeys]; rfl, ?_⟩
  obtain ⟨draw, _, hhello⟩ := hof
  rw [hkeys, hhello, (ids side.other).peerId_eq]
  rfl

/-- A delivered HELLO_ACK is an answer the other node gave. -/
theorem Sound.answer (henabled : world.Enabled (side, .receive packet addr now))
    (htype : packet.packetType = .helloAck)
    (hdec : HelloAckPayload.deserialize packet.payload = .ok ack) :
    ∃ accepted ∈ world.history.accepted, accepted.responder = ids side.other ∧
      ack = ackPayload (ids side.other) accepted.hello accepted.draw ∧
      derivePeerId P ack.identityPublicKey = (ids side.other).peerId := by
  rcases hsound.wire side.other packet henabled with hhello | hack
  · obtain ⟨draw, _, rfl⟩ := hhello
    cases htype
  · obtain ⟨accepted, hmem, hresponder, rfl⟩ := hack.deserialize hdec
    exact ⟨accepted, hmem, hresponder, rfl, (ids side.other).peerId_eq.symm⟩

/-- The answer's session is one with the other node. -/
theorem Sound.remotePeerId_answer {known : List PeerId}
    (henabled : world.Enabled (side, .receive packet addr now))
    (htype : packet.packetType = .helloAck)
    (hdec : HelloAckPayload.deserialize packet.payload = .ok ack)
    (hprocess : processHelloAck P packet state known = .ok (some keys)) :
    keys.remotePeerId = (ids side.other).peerId := by
  obtain ⟨_, _, _, _, hpeer⟩ := hsound.answer henabled htype hdec
  obtain ⟨ack, _, hdec', _, _, rfl⟩ := processHelloAck_eq_some_iff.mp hprocess
  rw [hdec, ok.injEq] at hdec'
  subst hdec'
  exact hpeer

/-- A registry about one peer has room for one more session. -/
theorem Sound.register_ne_error (session : Session) (error : PyError) :
    (world.process side).node.registry.register session ≠ .error error := by
  obtain ⟨registry, hok⟩ := (hsound.registry side).exists_register session
  rw [hok]
  rintro ⟨⟩

theorem Sound.supplies (henabled : world.Enabled (side, event)) :
    (world.process side).Supplies
      (HelloFrom ids (record world.history (world.process side) event) side)
      (HelloFrom ids (record world.history (world.process side) event)
        side.other) event := by
  cases event with
  | receive packet =>
    intro htype
    rcases hsound.wire side.other packet henabled with hhello | hack
    · exact hhello.record ..
    · obtain ⟨_, _, _, rfl⟩ := hack
      cases htype
  | connect _ endpoint draw now =>
    intro hsession hfree
    have hmem := mem_started_connect world.history endpoint draw now
      hsession hfree
    rw [hsound.identity side] at hmem ⊢
    exact ⟨draw, hmem, rfl⟩
  | _ => trivial

/-- The registry stays about the other node. -/
theorem Sound.registry_stretch (henabled : world.Enabled (side, event)) :
    ((world.process side).stretch event).node.registry.OnlyFor
      (ids side.other).peerId := by
  have honly := hsound.registry side
  have hmoves := (world.process side).moves_stretch event
  generalize ((world.process side).stretch event).node = node' at hmoves
  cases hmoves with
  | quiet _ hregistry => exact hregistry ▸ honly
  | giveUp _ _ hregistry => exact hregistry ▸ honly
  | connect _ _ hregistry => exact hregistry ▸ honly
  | accept hacc hregister =>
    obtain ⟨_, _, _, hpeer⟩ := hsound.acceptance hacc
    exact honly.register ((establish_remotePeerId ..).trans hpeer) hregister
  | overfull _ hregister =>
    exact absurd hregister (hsound.register_ne_error _ _)
  | answered htype hdec _ _ hprocess hregister =>
    have hpeer := hsound.remotePeerId_answer henabled htype hdec hprocess
    exact honly.register ((establish_remotePeerId ..).trans hpeer) hregister
  | disconnect hregistry => exact hregistry ▸ honly.remove _
  | restart hregistry =>
    exact hregistry ▸ onlyFor_empty _

/-- Pending states come from HELLOs the node created. -/
theorem Sound.pending_stretch
    (hget : ((world.process side).stretch event).node.pendingHello.get?
      peerId = some state) :
    ∃ draw : HelloDraw, (ids side, draw.state P) ∈
        (record world.history (world.process side) event).started ∧
      state = { draw.state P with targetPeerId := some peerId } := by
  have hkept : (world.process side).node.pendingHello.get? peerId =
      some state → ∃ draw : HelloDraw, (ids side, draw.state P) ∈
          (record world.history (world.process side) event).started ∧
        state = { draw.state P with targetPeerId := some peerId } := by
    intro hold
    obtain ⟨draw, hmem, hstate⟩ := hsound.pending side peerId state hold
    exact ⟨draw, mem_started_record _ _ hmem, hstate⟩
  have hmoves := (world.process side).moves_stretch event
  generalize ((world.process side).stretch event).node = node' at hmoves hget
  cases hmoves with
  | quiet _ _ hpending => exact hkept (hpending ▸ hget)
  | giveUp _ _ _ hpending => exact hkept (hpending _ _ hget)
  | @connect target endpoint draw now _ hsession hfree hregistry hpending =>
    rw [hpending, get?_set] at hget
    split at hget
    · next heq =>
      subst heq
      cases hget
      have hmem := mem_started_connect world.history endpoint draw now
        hsession hfree
      rw [hsound.identity side] at hmem
      exact ⟨draw, hmem, rfl⟩
    · exact hkept hget
  | accept _ _ hpending => exact hkept (hpending ▸ hget)
  | overfull _ hregister =>
    exact absurd hregister (hsound.register_ne_error _ _)
  | answered _ _ _ _ _ _ hpending =>
    rw [hpending] at hget
    exact hkept (get?_of_get?_erase hget)
  | disconnect _ hpending => exact hkept (hpending ▸ hget)
  | restart _ hpending =>
    rw [hpending] at hget
    cases hget

/-- A session id drawn now has not been seen before. -/
theorem Sound.fresh_sessionId (henabled : world.Enabled (side, event))
    {old new : Acceptance P} (hold : old ∈ world.history.accepted)
    (hacc : (world.process side).acceptance event = some new) :
    old.keys.sessionId ≠ new.keys.sessionId := by
  intro heq
  obtain ⟨_, _, _, _, _, rfl, _⟩ := Process.acceptance_eq_some hacc
  refine henabled (mem_map.mpr ⟨old, hold, ?_⟩)
  exact heq.trans (hsound.acceptance hacc).2.2.1

theorem Sound.perform (henabled : world.Enabled (side, event)) :
    Sound ids (world.perform (side, event)) where
  identity acting := by
    rcases acting.eq_or_eq_other side with rfl | rfl
    · rw [process_perform_self]
      have hfrom := ((hsound.packets acting).mono
        (fun _ h => h.record _ event) (fun _ h => h.record _ event)).stretch
          (hsound.supplies henabled)
      exact hfrom.identity.trans (hsound.identity acting)
    · rw [process_perform_other]
      exact hsound.identity _
  recorded := recorded_record hsound.recorded ..
  wire acting packet hmem := by
    rcases mem_append.mp hmem with hold | hnew
    · exact (hsound.wire acting packet hold).imp
        (fun h => h.record ..) (fun h => h.record ..)
    · obtain ⟨sent, hsent, heq⟩ := mem_map.mp hnew
      cases heq
      rcases (hsound.packets side).sent hsent with hown | ⟨accepted, hacc, hack⟩
      · exact .inl (hown.record ..)
      · exact .inr ⟨accepted, mem_accepted_record.mpr (.inr hacc),
          (hsound.acceptance hacc).1, hack⟩
  packets acting := by
    have hmono := (hsound.packets acting).mono
      (fun _ h => h.record (world.process side) event)
      (fun _ h => h.record (world.process side) event)
    rcases acting.eq_or_eq_other side with rfl | rfl
    · rw [process_perform_self]
      exact hmono.step (hsound.supplies henabled)
    · rw [process_perform_other]
      exact hmono
  pending acting peerId state hget := by
    rcases acting.eq_or_eq_other side with rfl | rfl
    · rw [process_perform_self] at hget
      exact hsound.pending_stretch hget
    · rw [process_perform_other] at hget
      obtain ⟨draw, hmem, hstate⟩ := hsound.pending _ peerId state hget
      exact ⟨draw, mem_started_record _ _ hmem, hstate⟩
  accepted accepted hmem := by
    rcases mem_accepted_record.mp hmem with hold | hacc
    · obtain ⟨acting, hresponder, hof⟩ := hsound.accepted accepted hold
      exact ⟨acting, hresponder, hof.record ..⟩
    · obtain ⟨hresponder, hof, _⟩ := hsound.acceptance hacc
      exact ⟨side, hresponder, hof.record ..⟩
  sessionIds := by
    intro first hfirst second hsecond heq
    rcases mem_accepted_record.mp hfirst with hfirst | hfirst <;>
      rcases mem_accepted_record.mp hsecond with hsecond | hsecond
    · exact hsound.sessionIds first hfirst second hsecond heq
    · exact absurd heq (hsound.fresh_sessionId henabled hfirst hsecond)
    · exact absurd heq.symm (hsound.fresh_sessionId henabled hsecond hfirst)
    · exact some.inj (hfirst.symm.trans hsecond)
  registry acting := by
    rcases acting.eq_or_eq_other side with rfl | rfl
    · rw [process_perform_self]
      exact hsound.registry_stretch henabled
    · rw [process_perform_other]
      exact hsound.registry _

theorem Sound.step (event : Side × NodeEvent) :
    Sound ids (world.step event) := by
  unfold World.step
  split
  · next henabled => exact hsound.perform henabled
  · exact hsound

end

/-- Two honest nodes stay so, whatever the schedule. -/
theorem handshakes_sound (storage : Side → Storage) (now : ℚ)
    (events : List (Side × NodeEvent)) :
    Along step (Sound ids) (start ids storage now) events :=
  fun pre _ => inv_run (fun _ event hsound => hsound.step event)
    (sound_start storage now) pre

variable (ids world) in
/-- The session of `side` with the other node. -/
def session (side : Side) : Option Session :=
  (world.process side).node.registry.sessionFor (ids side.other).peerId

variable (ids world) in
/-- The HELLO of `side` that waits for the other node's answer. -/
def awaiting (side : Side) : Option HandshakeState :=
  (world.process side).node.pendingHello.get? (ids side.other).peerId

variable (ids) in
theorem session_perform_other (world : World P) (side : Side)
    (event : NodeEvent) :
    session ids (world.perform (side, event)) side.other =
      session ids world side.other := by
  simp only [session, process_perform_other]

variable (ids) in
theorem awaiting_perform_other (world : World P) (side : Side)
    (event : NodeEvent) :
    awaiting ids (world.perform (side, event)) side.other =
      awaiting ids world side.other := by
  simp only [awaiting, process_perform_other]

variable (ids world side event) in
/-- What one event of `side` does to its end of the link. -/
inductive LinkMove : World P → Prop where
  /-- The session stays. -/
  | keep {world' : World P}
      (haccepted : world'.history.accepted = world.history.accepted)
      (hsession : session ids world' side = session ids world side)
      (hawaiting : ∀ state, awaiting ids world' side = some state →
        awaiting ids world side = some state)
      (hwaits : (world.process side).givesUp event = false →
        awaiting ids world' side = awaiting ids world side) : LinkMove world'
  /-- The session goes, and the HELLO may go with it. -/
  | drop {world' : World P} (hdrops : event.drops = true)
      (haccepted : world'.history.accepted = world.history.accepted)
      (hsession : ∀ found, session ids world' side = some found →
        session ids world side = some found)
      (hawaiting : ∀ state, awaiting ids world' side = some state →
        awaiting ids world side = some state) : LinkMove world'
  /-- A new HELLO, which nobody has accepted. -/
  | create {world' : World P} {state : HandshakeState}
      (haccepted : world'.history.accepted = world.history.accepted)
      (hsession : session ids world' side = session ids world side)
      (hbefore : awaiting ids world side = none)
      (hawaiting : awaiting ids world' side = some state)
      (hfresh : ∀ accepted ∈ world.history.accepted,
        accepted.hello.randomNonce ≠ state.localNonce) : LinkMove world'
  /-- A HELLO of the other node is accepted. -/
  | accept {world' : World P} {accepted : Acceptance P} {found : Session}
      (hacc : (world.process side).acceptance event = some accepted)
      (hsession : session ids world' side = some found)
      (hfound : found.sessionId = accepted.keys.sessionId ∧
        found.encryptionKey = accepted.keys.encryptionKey)
      (hawaiting : awaiting ids world' side = awaiting ids world side) :
      LinkMove world'
  /-- An answer of the other node is accepted. -/
  | answered {world' : World P} {packet : Packet} {addr : Address} {now : ℚ}
      {ack : HelloAckPayload} {state : HandshakeState} {keys : SessionKeys}
      {found : Session} (hevent : event = .receive packet addr now)
      (htype : packet.packetType = .helloAck)
      (hdec : HelloAckPayload.deserialize packet.payload = .ok ack)
      (hprocess : processHelloAck P packet state
        (world.process side).node.peerTable.getDirectPeerIds = .ok (some keys))
      (haccepted : world'.history.accepted = world.history.accepted)
      (hbefore : session ids world side = none)
      (hwaiting : awaiting ids world side = some state)
      (hsession : session ids world' side = some found)
      (hfound : found.sessionId = keys.sessionId ∧
        found.encryptionKey = keys.encryptionKey)
      (hawaiting : awaiting ids world' side = none) : LinkMove world'

theorem accepted_perform_of_none
    (hacc : (world.process side).acceptance event = none) :
    (world.perform (side, event)).history.accepted =
      world.history.accepted := by
  rw [history_perform, accepted_record, hacc]
  exact append_nil _

/-- A nonce drawn now is in no HELLO that was accepted. -/
theorem Sound.fresh_nonce (hsound : Sound ids world) {draw : HelloDraw}
    (hnew : draw.nonce.val ∉ world.history.started.map (fun entry =>
      entry.2.localNonce)) :
    ∀ accepted ∈ world.history.accepted,
      accepted.hello.randomNonce ≠ draw.nonce.val := by
  intro accepted hmem heq
  obtain ⟨_, _, _, hstarted, hhello⟩ := hsound.accepted accepted hmem
  refine hnew (mem_map.mpr ⟨_, hstarted, ?_⟩)
  rw [← heq, hhello]
  rfl

/-- The session registered last is the session of the link. -/
theorem session_register {floors : SequenceFloors}
    {registry registry' : SessionRegistry}
    (hregister : registry.register (establish floors keys) = .ok registry')
    (hpeer : keys.remotePeerId = peerId) :
    registry'.sessionFor peerId = some (establish floors keys) := by
  rw [sessionFor_register hregister, establish_remotePeerId, if_pos hpeer]

theorem Sound.linkMove (hsound : Sound ids world)
    (henabled : world.Enabled (side, event)) :
    LinkMove ids world side event (world.perform (side, event)) := by
  have hnode : ((world.perform (side, event)).process side).node =
      ((world.process side).stretch event).node := by
    rw [process_perform_self]
    rfl
  have hsession : session ids (world.perform (side, event)) side =
      ((world.process side).stretch event).node.registry.sessionFor
        (ids side.other).peerId := by rw [session, hnode]
  have hawaiting : awaiting ids (world.perform (side, event)) side =
      ((world.process side).stretch event).node.pendingHello.get?
        (ids side.other).peerId := by rw [awaiting, hnode]
  have hmoves := (world.process side).moves_stretch event
  generalize ((world.process side).stretch event).node = node'
    at hmoves hsession hawaiting
  cases hmoves with
  | quiet hacc hregistry hpending =>
    have hkept : awaiting ids (world.perform (side, event)) side =
        awaiting ids world side := by
      rw [hawaiting, hpending]
      rfl
    refine .keep (accepted_perform_of_none hacc) ?_ ?_ fun _ => hkept
    · rw [hsession, hregistry]
      rfl
    · rw [hkept]
      exact fun _ hstate => hstate
  | giveUp hgives hacc hregistry hpending =>
    refine .keep (accepted_perform_of_none hacc) ?_ ?_ ?_
    · rw [hsession, hregistry]
      rfl
    · rw [hawaiting]
      exact hpending _
    · rw [hgives]
      rintro ⟨⟩
  | @connect target endpoint draw now _ hnone hfree hregistry hpending =>
    have hacc : (world.process side).acceptance
        (.connect target endpoint draw now) = none := by
      simp [Process.acceptance, Process.handshake, hnone, hfree]
    have hsame : session ids (world.perform
        (side, .connect target endpoint draw now)) side =
          session ids world side := by
      rw [hsession, hregistry]
      rfl
    rw [hpending, get?_set] at hawaiting
    split at hawaiting
    · next heq =>
      have hbefore : awaiting ids world side = none := by
        rw [awaiting, ← heq, ← not_isSome_iff_eq_none]
        exact Bool.not_eq_true _ ▸ hfree
      exact .create (accepted_perform_of_none hacc) hsame hbefore hawaiting
        (hsound.fresh_nonce henabled)
    · refine .keep (accepted_perform_of_none hacc) hsame ?_ fun _ => hawaiting
      rw [hawaiting]
      exact fun _ hstate => hstate
  | accept hacc hregister hpending =>
    refine .accept hacc (hsession.trans (session_register hregister
      (hsound.acceptance hacc).2.2.2)) ⟨?_, ?_⟩ ?_
    · exact establish_sessionId ..
    · exact establish_encryptionKey ..
    · rw [hawaiting, hpending]
      rfl
  | overfull _ hregister =>
    exact absurd hregister (hsound.register_ne_error _ _)
  | @answered packet addr now _ ack state keys htype hdec hstate hnone hprocess
      hregister hpending =>
    obtain ⟨_, _, _, _, hpeer⟩ := hsound.answer henabled htype hdec
    have hkeys := hsound.remotePeerId_answer henabled htype hdec hprocess
    rw [hpeer] at hstate hnone hpending
    refine .answered rfl htype hdec hprocess (accepted_perform_of_none rfl) ?_
      hstate (hsession.trans (session_register hregister hkeys)) ⟨?_, ?_⟩ ?_
    · simpa [Node.hasSession, session, sessionFor] using hnone
    · exact establish_sessionId ..
    · exact establish_encryptionKey ..
    · rw [hawaiting, hpending, get?_erase_self]
  | disconnect hregistry hpending =>
    refine .drop rfl (accepted_perform_of_none rfl) ?_ ?_
    · intro found hfound
      rw [hsession, hregistry] at hfound
      rcases sessionFor_remove _ _ _ with hkept | hgone
      · exact hkept.symm.trans hfound
      · rw [hgone] at hfound
        cases hfound
    · rw [hawaiting, hpending]
      exact fun _ hstate => hstate
  | restart hregistry hpending =>
    refine .drop rfl (accepted_perform_of_none rfl) ?_ ?_
    · rw [hsession, hregistry]
      intro found hfound
      cases hfound
    · rw [hawaiting, hpending]
      intro state hstate
      cases hstate

end Sound

end World

end AshiChat
