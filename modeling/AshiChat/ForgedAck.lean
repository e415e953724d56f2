/-
What a HELLO_ACK that fails verification does to the handshakes under way.
`_handle_hello_ack` pops the pending state before it verifies the packet, and
both the genuine answer and the retry task look for that state.
-/
import AshiChat.RejectedHello

namespace AshiChat

open EventRun OrderedDict Process

variable {P : Primitives}

/-- What a node has for the connection to one peer. -/
structure ConnectionView where
  session : Option Session
  pending : Option HandshakeState
  retry : Option RetryTask
  state : PeerState
deriving DecidableEq

def Node.connectionView (node : Node P) (peerId : PeerId) : ConnectionView where
  session := node.registry.sessionFor peerId
  pending := node.pendingHello.get? peerId
  retry := node.retryTasks.get? peerId
  state := node.peerStates.getState peerId

/-- `process_hello_ack` does not give keys for the packet and the state that is
pending for its sender. -/
def Node.RejectsAck (node : Node P) (packet : Packet) : Prop :=
  ∀ ack state, HelloAckPayload.deserialize packet.payload = .ok ack →
    node.pendingHello.get? (derivePeerId P ack.identityPublicKey) = some state →
    ∀ keys, processHelloAck P packet state node.peerTable.getDirectPeerIds ≠
      .ok (some keys)

/-- Nothing is pending for the identity the packet names. -/
def Node.NotAwaiting (node : Node P) (packet : Packet) : Prop :=
  ∀ ack, HelloAckPayload.deserialize packet.payload = .ok ack →
    node.pendingHello.get? (derivePeerId P ack.identityPublicKey) = none

namespace Process

/-- Whatever happens afterwards, the connections under way fare as if the
packet had not been delivered. -/
def Undisturbed (process : Process P) (packet : Packet) (addr : Address)
    (now : ℚ) : Prop :=
  ∀ peerId, process.node.pendingHello.contains peerId = true →
    ∀ continuation : List NodeEvent,
      (run step (process.step (.receive packet addr now))
          continuation).node.connectionView peerId =
        (run step process continuation).node.connectionView peerId

variable {packet : Packet}

theorem step_receive_ack {process : Process P}
    (htype : packet.packetType = .helloAck) (addr : Address) (now : ℚ) :
    process.step (.receive packet addr now) =
      { node := (process.node.handleHelloAck packet addr).node
        tasks := process.tasks ++
          (process.node.handleHelloAck packet addr).next.toList } := by
  simp only [step, stretch, suspended, htype]

theorem step_ack_not_awaited {process : Process P}
    (htype : packet.packetType = .helloAck) (addr : Address) (now : ℚ)
    (hfree : process.node.NotAwaiting packet) :
    process.step (.receive packet addr now) = process := by
  rw [step_receive_ack htype]
  cases hdec : HelloAckPayload.deserialize packet.payload with
  | error => simp [Node.handleHelloAck, hdec]
  | ok ack => simp [Node.handleHelloAck, hdec, hfree ack hdec]

/-- Whether or not the packet verifies, the pending state is gone. -/
theorem pendingHello_handleHelloAck {node : Node P}
    {ack : HelloAckPayload} (addr : Address)
    (hdec : HelloAckPayload.deserialize packet.payload = .ok ack) :
    (node.handleHelloAck packet addr).node.pendingHello.get?
      (derivePeerId P ack.identityPublicKey) = none := by
  simp only [Node.handleHelloAck, hdec]
  split
  · next hnone => exact hnone
  · split
    · exact get?_erase_self ..
    · split
      · exact get?_erase_self ..
      · exact get?_erase_self ..
      · split
        · next hreg =>
          obtain ⟨_, rfl⟩ := Node.registerSession_eq_error hreg
          exact get?_erase_self ..
        · next hreg =>
          obtain ⟨_, _, rfl⟩ := Node.registerSession_eq_ok hreg
          exact get?_erase_self ..

end Process

/-- A rejected HELLO_ACK leaves the connections under way undisturbed exactly
if it names an identity to which no HELLO is pending. -/
theorem rejected_ack_undisturbed_iff {process : Process P} {packet : Packet}
    (htype : packet.packetType = .helloAck) (addr : Address) (now : ℚ) :
    (process.node.RejectsAck packet → process.Undisturbed packet addr now) ↔
      (process.node.RejectsAck packet → process.node.NotAwaiting packet) := by
  refine imp_congr_right fun _ => ⟨?_, ?_⟩
  · intro hsame ack hdec
    cases hpending : process.node.pendingHello.get?
        (derivePeerId P ack.identityPublicKey) with
    | none => rfl
    | some state =>
      -- Without any continuation the pending state already differs.
      have hview := congrArg ConnectionView.pending
        (hsame _ ((contains_iff _ _).mpr ⟨state, hpending⟩) [])
      rw [run_nil, run_nil, step_receive_ack htype] at hview
      exact (hpending.symm.trans hview.symm).trans
        (pendingHello_handleHelloAck addr hdec)
  · intro hfree peerId _ continuation
    rw [step_ack_not_awaited htype addr now hfree]

namespace ForgedAckWitness

open RejectedHelloWitness Reference

def stranger : LocalIdentity primitives := .ofPrivateKey _ (List.replicate 32 9)

/-- The peer is known, its session was lost, and a HELLO is on its way to
it. -/
def waiting : Process primitives :=
  run Process.step ⟨.start self .empty 0, []⟩ reconnecting

/-- The answer of `owner`, and the same with a broken signature. -/
def answer (owner : LocalIdentity primitives) : HelloAckPayload :=
  ackPayload owner (helloPayload self (helloDraw 4)) ackDraw

def forgedFrom (owner : LocalIdentity primitives) : Packet :=
  makePacket .helloAck
    { answer owner with signature := List.replicate 64 0 }.serialize

def genuine : Packet := makePacket .helloAck (answer peer).serialize

theorem waiting_pending : waiting.node.pendingHello.get? peer.peerId =
    some { (helloDraw 4).state primitives with
      targetPeerId := some peer.peerId } := by decide +kernel

theorem deserialize_forged : HelloAckPayload.deserialize
    (forgedFrom peer).payload =
      .ok { answer peer with signature := List.replicate 64 0 } := by
  decide +kernel

theorem waiting_rejects : waiting.node.RejectsAck (forgedFrom peer) := by
  intro ack state hdec hpending keys
  rw [deserialize_forged, Except.ok.injEq] at hdec
  subst hdec
  have hpeer : derivePeerId primitives
      (answer peer).identityPublicKey = peer.peerId := by decide +kernel
  simp only [hpeer, waiting_pending, Option.some.injEq] at hpending
  subst hpending
  have hnone : processHelloAck primitives (forgedFrom peer)
      { (helloDraw 4).state primitives with
        targetPeerId := some peer.peerId }
      waiting.node.peerTable.getDirectPeerIds = .ok none := by
    decide +kernel
  rw [hnone]
  simp

/-- The genuine answer gives a session, but not after the forged one. -/
theorem forged_ack_prevents_session :
    waiting.node.RejectsAck (forgedFrom peer) ∧
      ¬ waiting.Undisturbed (forgedFrom peer) elsewhere 9 := by
  refine ⟨waiting_rejects, ?_⟩
  intro hsame
  have hview := congrArg (fun view : ConnectionView => view.session.isSome)
    (hsame peer.peerId (by decide +kernel) [.receive genuine home 10])
  exact absurd hview (by decide +kernel)

theorem waiting_free : waiting.node.NotAwaiting (forgedFrom stranger) := by
  intro ack hdec
  have hforged : HelloAckPayload.deserialize (forgedFrom stranger).payload =
      .ok { answer stranger with signature := List.replicate 64 0 } := by
    decide +kernel
  rw [hforged, Except.ok.injEq] at hdec
  subst hdec
  decide +kernel

/-- A forged answer in the name of someone else does no harm. -/
theorem stranger_ack_undisturbed :
    waiting.node.RejectsAck (forgedFrom stranger) ∧
      waiting.Undisturbed (forgedFrom stranger) elsewhere 9 := by
  have hreject : waiting.node.RejectsAck (forgedFrom stranger) := by
    intro ack state hdec hpending
    rw [waiting_free ack hdec] at hpending
    cases hpending
  exact ⟨hreject, (rejected_ack_undisturbed_iff rfl elsewhere 9).mpr
    (fun _ => waiting_free) hreject⟩

end ForgedAckWitness

end AshiChat
