/-
What `_handle_hello` leaves behind when `process_hello` rejects the packet.
The handler records the sender before it verifies anything, so a rejected HELLO
is without effect only if a guard stops it or if the node already holds exactly
what the handler would write.
-/
import AshiChat.Node
import AshiChat.Kit.EventRun
import AshiChat.Reference

namespace AshiChat

open EventRun OrderedDict Node

variable {P : Primitives}

/-- The next stretch of the same coroutine, with nothing in between. -/
def Outcome.proceed (outcome : Outcome P) (draw : AckDraw) (now : ℚ) :
    Outcome P :=
  match outcome.next with
  | none => outcome
  | some task =>
    let following := outcome.node.resume draw now task
    { following with sent := outcome.sent ++ following.sent }

/-- The row says that the peer was seen at `addr` at that time. -/
def PeerRecord.SeenAt (row : PeerRecord) (addr : Address) (now : ℚ) : Prop :=
  row.lastKnownEndpoint = some (formatEndpoint addr) ∧ row.lastSeen = some now

namespace Node

/-- `_handle_hello` from its first line to its last; `clock` gives the time of
each stretch. -/
def handleHelloToEnd (node : Node P) (packet : Packet) (addr : Address)
    (draw : AckDraw) (clock : Nat → ℚ) : Outcome P :=
  (((node.handleHello packet addr (clock 0)).proceed draw (clock 1)).proceed
    draw (clock 2)).proceed draw (clock 3) |>.proceed draw (clock 4)

/-- The peer table, the stored peers, the pending handshakes and the sessions
are the same. -/
structure SameRecords (before after : Node P) : Prop where
  table : after.peerTable.peers = before.peerTable.peers
  stored : after.storage.peers = before.storage.peers
  pending : after.pendingHello = before.pendingHello
  registry : after.registry = before.registry

theorem SameRecords.refl (node : Node P) : SameRecords node node :=
  ⟨rfl, rfl, rfl, rfl⟩

/-- The node already holds what the handler would write: a direct peer at that
address, or a row under the node's own id. -/
def alreadyRecorded (node : Node P) (hello : HelloPayload) (addr : Address)
    (clock : Nat → ℚ) : Prop :=
  let remote := derivePeerId P hello.identityPublicKey
  (remote ∈ node.peerTable.getDirectPeerIds ∧
    (∀ entry, node.peerTable.peers.get? remote = some entry →
      entry.endpoint = some addr) ∧
    ∀ row, node.storage.getPeer remote = some row → row.SeenAt addr (clock 0)) ∨
  (remote = node.identity.peerId ∧
    ∃ row, node.storage.getPeer remote = some row ∧
      row.publicKey = hello.identityPublicKey ∧ row.SeenAt addr (clock 2))

/-- From the verification on, the peer table stays. -/
theorem peerTable_acceptHello (node : Node P) (packet : Packet)
    (addr : Address) (draw : AckDraw) (now : ℚ) :
    ((node.acceptHello packet addr draw).proceed draw now).node.peerTable =
      node.peerTable := by
  unfold acceptHello
  split
  · rfl
  · rfl
  · split
    · next hreg =>
      obtain ⟨_, rfl⟩ := registerSession_eq_error hreg
      rfl
    · next hreg =>
      obtain ⟨_, _, rfl⟩ := registerSession_eq_ok hreg
      rfl

variable {hello : HelloPayload} {node : Node P} {packet : Packet}

variable (addr : Address)

variable (draw : AckDraw)

theorem acceptHello_rejected
    (hdec : HelloPayload.deserialize packet.payload = .ok hello)
    (hreject : helloVerifies P node.peerTable.getDirectPeerIds hello = false) :
    node.acceptHello packet addr draw = { node := node } := by
  simp only [acceptHello, (processHello_eq_none_iff hdec).mpr hreject]

variable (storage : Storage)

variable (peerId : PeerId)

/-- The stored row after `add_peer` and `remember_endpoint`. -/
theorem rememberEndpoint_addPeer
    (publicKey : Bytes) (addr : Address) (added remembered : ℚ) :
    (storage.addPeer peerId publicKey addr added).rememberEndpoint peerId addr
        remembered =
      storage.addPeer peerId publicKey addr remembered := by
  simp only [Storage.addPeer, Storage.rememberEndpoint, modify_set]
  cases storage.peers.get? peerId <;> rfl

/-- The node once an unknown sender has been added. -/
def autoAdded (node : Node P) (hello : HelloPayload) (addr : Address)
    (clock : Nat → ℚ) : Node P :=
  let remote := derivePeerId P hello.identityPublicKey
  let stored := node.storage.addPeer remote hello.identityPublicKey addr
    (clock 0)
  (({ node.yielded remote with storage := stored }).addDirectPeer remote
    hello.identityPublicKey
    ((stored.getPeer remote).bind PeerRecord.nickname) addr
    (clock 2)).rememberEndpoint remote addr (clock 2)

theorem storage_autoAdded (node : Node P) (hello : HelloPayload)
    (addr : Address) (clock : Nat → ℚ) :
    (node.autoAdded hello addr clock).storage =
      node.storage.addPeer (derivePeerId P hello.identityPublicKey)
        hello.identityPublicKey addr (clock 2) :=
  rememberEndpoint_addPeer ..

/-- The peer table ignores the node's own id. -/
theorem peerTable_autoAdded_own (clock : Nat → ℚ)
    (hown : derivePeerId P hello.identityPublicKey = node.identity.peerId) :
    (node.autoAdded hello addr clock).peerTable = node.peerTable := by
  have hlocal := hown.trans node.table_local.symm
  simp [autoAdded, rememberEndpoint, addDirectPeer, yielded,
    PeerTable.addDirectPeer, hlocal]

theorem mem_direct_autoAdded (node : Node P) (addr : Address) (clock : Nat → ℚ)
    (hother : derivePeerId P hello.identityPublicKey ≠ node.identity.peerId) :
    ∃ entry, (node.autoAdded hello addr clock).peerTable.peers.get?
        (derivePeerId P hello.identityPublicKey) = some entry ∧
      entry.isDirect = true := by
  have hlocal : derivePeerId P hello.identityPublicKey ≠
      node.peerTable.localId := node.table_local.symm ▸ hother
  simp only [autoAdded, rememberEndpoint, addDirectPeer, yielded,
    PeerTable.addDirectPeer, hlocal, ↓reduceDIte, get?_set_self]
  exact ⟨_, rfl, rfl⟩

theorem rememberEndpoint_eq_self_iff (addr : Address) (now : ℚ) :
    (storage.rememberEndpoint peerId addr now).peers = storage.peers ↔
      ∀ row, storage.getPeer peerId = some row → row.SeenAt addr now := by
  simp only [Storage.rememberEndpoint, modify_eq_self_iff, Storage.getPeer]
  refine forall₂_congr fun row _ => ?_
  simp only [PeerRecord.ext_iff, PeerRecord.SeenAt]
  tauto

theorem addPeer_eq_self_iff (publicKey : Bytes) (addr : Address) (now : ℚ) :
    (storage.addPeer peerId publicKey addr now).peers = storage.peers ↔
      ∃ row, storage.getPeer peerId = some row ∧
        row.publicKey = publicKey ∧ row.SeenAt addr now := by
  simp only [Storage.addPeer, set_eq_self_iff, Storage.getPeer]
  cases storage.peers.get? peerId with
  | none => simp
  | some =>
    simp only [Option.some.injEq, exists_eq_left', PeerRecord.SeenAt]
    rw [PeerRecord.ext_iff]
    tauto

theorem setEndpoint_eq_self_iff (table : PeerTable) (peerId : PeerId)
    (addr : Address) :
    (table.setEndpoint peerId addr).peers = table.peers ↔
      ∀ entry, table.peers.get? peerId = some entry →
        entry.endpoint = some addr := by
  simp only [PeerTable.setEndpoint, PeerTable.modifyEntry, modify_eq_self_iff]
  refine forall₂_congr fun entry _ => ?_
  simp only [PeerEntry.ext_iff]
  tauto

section

variable (clock : Nat → ℚ)
  (hdec : HelloPayload.deserialize packet.payload = .ok hello)
  (hguard : ¬ node.helloGuarded (derivePeerId P hello.identityPublicKey))

include hdec hguard

theorem handleHelloToEnd_known
    (hreject : helloVerifies P node.peerTable.getDirectPeerIds hello = false)
    (hdirect : derivePeerId P hello.identityPublicKey ∈
      node.peerTable.getDirectPeerIds) :
    let remote := derivePeerId P hello.identityPublicKey
    (node.handleHelloToEnd packet addr draw clock).node =
      ((node.yielded remote).setEndpoint remote addr).rememberEndpoint remote
        addr (clock 0) := by
  intro remote
  have hreject' : helloVerifies P (((node.yielded remote).setEndpoint remote
      addr).rememberEndpoint remote addr
        (clock 0)).peerTable.getDirectPeerIds hello = false :=
    (node.peerTable.getDirectPeerIds_setEndpoint remote addr).symm ▸ hreject
  simp only [handleHelloToEnd, handleHello_known addr _ hdec hguard hdirect,
    Outcome.proceed, resume, acceptHello_rejected addr draw hdec hreject',
    remote]

theorem handleHelloToEnd_unknown
    (hdirect : derivePeerId P hello.identityPublicKey ∉
      node.peerTable.getDirectPeerIds) :
    (node.handleHelloToEnd packet addr draw clock).node =
      (((node.autoAdded hello addr clock).acceptHello packet addr
        draw).proceed draw (clock 4)).node := by
  rw [handleHelloToEnd, handleHello_unknown addr _ hdec hguard hdirect]
  rfl

theorem sameRecords_known_iff
    (hreject : helloVerifies P node.peerTable.getDirectPeerIds hello = false)
    (hdirect : derivePeerId P hello.identityPublicKey ∈
      node.peerTable.getDirectPeerIds) :
    let remote := derivePeerId P hello.identityPublicKey
    SameRecords node (node.handleHelloToEnd packet addr draw clock).node ↔
      node.pendingHello.get? remote = none ∧
      (∀ entry, node.peerTable.peers.get? remote = some entry →
        entry.endpoint = some addr) ∧
      ∀ row, node.storage.getPeer remote = some row →
        row.SeenAt addr (clock 0) := by
  intro remote
  rw [handleHelloToEnd_known addr draw clock hdec hguard hreject hdirect,
    ← erase_eq_self_iff, ← setEndpoint_eq_self_iff,
    ← rememberEndpoint_eq_self_iff]
  constructor
  · rintro ⟨htable, hstored, hpending, _⟩
    exact ⟨hpending, htable, hstored⟩
  · rintro ⟨hpending, htable, hstored⟩
    exact ⟨htable, hstored, hpending, rfl⟩

theorem sameRecords_own_iff
    (hreject : helloVerifies P node.peerTable.getDirectPeerIds hello = false)
    (hdirect : derivePeerId P hello.identityPublicKey ∉
      node.peerTable.getDirectPeerIds)
    (hown : derivePeerId P hello.identityPublicKey = node.identity.peerId) :
    let remote := derivePeerId P hello.identityPublicKey
    SameRecords node (node.handleHelloToEnd packet addr draw clock).node ↔
      node.pendingHello.get? remote = none ∧
      ∃ row, node.storage.getPeer remote = some row ∧
        row.publicKey = hello.identityPublicKey ∧
        row.SeenAt addr (clock 2) := by
  intro remote
  have htable := peerTable_autoAdded_own addr clock hown
  have hreject' : helloVerifies P
      (node.autoAdded hello addr clock).peerTable.getDirectPeerIds hello =
        false := htable.symm ▸ hreject
  rw [handleHelloToEnd_unknown addr draw clock hdec hguard hdirect,
    acceptHello_rejected addr draw hdec hreject', ← erase_eq_self_iff,
    ← addPeer_eq_self_iff, ← storage_autoAdded]
  constructor
  · rintro ⟨_, hstored, hpending, _⟩
    exact ⟨hpending, hstored⟩
  · rintro ⟨hpending, hstored⟩
    exact ⟨congrArg PeerTable.peers htable, hstored, hpending, rfl⟩

/-- An unknown sender with another id ends up among the direct peers. -/
theorem not_sameRecords_other
    (hdirect : derivePeerId P hello.identityPublicKey ∉
      node.peerTable.getDirectPeerIds)
    (hother : derivePeerId P hello.identityPublicKey ≠ node.identity.peerId) :
    ¬ SameRecords node (node.handleHelloToEnd packet addr draw clock).node := by
  intro hsame
  have htable := hsame.table
  rw [handleHelloToEnd_unknown addr draw clock hdec hguard hdirect,
    peerTable_acceptHello] at htable
  obtain ⟨entry, hentry, hisDirect⟩ :=
    mem_direct_autoAdded node addr clock hother
  rw [htable] at hentry
  exact hdirect (PeerTable.mem_getDirectPeerIds.mpr ⟨entry, hentry, hisDirect⟩)

end

end Node

/-- After a HELLO that `process_hello` rejects, the records of the node are
the same exactly if a guard dropped the packet, or the node had no HELLO of its
own under way and already held what the handler writes. -/
theorem rejected_hello_changes_nothing_iff {node : Node P} {packet : Packet}
    {hello : HelloPayload} (addr : Address) (draw : AckDraw) (clock : Nat → ℚ)
    (hdec : HelloPayload.deserialize packet.payload = .ok hello)
    (hreject : processHello packet node.peerTable.getDirectPeerIds
      node.identity draw = .ok none) :
    let remote := derivePeerId P hello.identityPublicKey
    Node.SameRecords node (node.handleHelloToEnd packet addr draw clock).node ↔
      node.helloGuarded remote ∨ (node.pendingHello.get? remote = none ∧
        node.alreadyRecorded hello addr clock) := by
  intro remote
  have hverifies := (processHello_eq_none_iff hdec).mp hreject
  by_cases hguard : node.helloGuarded remote
  · refine iff_of_true ?_ (Or.inl hguard)
    rw [Node.handleHelloToEnd, handleHello_guarded addr _ hdec hguard]
    exact .refl node
  have hown_indirect : remote = node.identity.peerId →
      remote ∉ node.peerTable.getDirectPeerIds := by
    intro hown
    rw [hown, ← node.table_local]
    exact node.peerTable.localId_not_mem
  simp only [hguard, false_or, Node.alreadyRecorded]
  by_cases hdirect : remote ∈ node.peerTable.getDirectPeerIds
  · refine (sameRecords_known_iff addr draw clock hdec hguard hverifies
      hdirect).trans ?_
    refine and_congr_right fun _ => ⟨fun hheld => Or.inl ⟨hdirect, hheld⟩, ?_⟩
    rintro (⟨_, hheld⟩ | ⟨hown, _⟩)
    · exact hheld
    · exact absurd hdirect (hown_indirect hown)
  · by_cases hown : remote = node.identity.peerId
    · refine (sameRecords_own_iff addr draw clock hdec hguard hverifies
        hdirect hown).trans ?_
      refine and_congr_right fun _ => ⟨fun hrow => Or.inr ⟨hown, hrow⟩, ?_⟩
      rintro (⟨hknown, _⟩ | ⟨_, hrow⟩)
      · exact absurd hknown hdirect
      · exact hrow
    · refine iff_of_false (not_sameRecords_other addr draw clock hdec hguard
        hdirect hown) ?_
      rintro ⟨_, hknown | hself⟩
      · exact hdirect hknown.1
      · exact hown hself.1

namespace RejectedHelloWitness

open Reference

def self : LocalIdentity primitives := .ofPrivateKey _ (List.replicate 32 2)

def peer : LocalIdentity primitives := .ofPrivateKey _ (List.replicate 32 1)

def helloDraw (byte : UInt8) : HelloDraw where
  ephemeral := constant 32 byte
  nonce := constant 16 byte

def ackDraw : AckDraw where
  ephemeral := constant 32 5
  nonce := constant 16 6
  sessionId := constant 8 7

def home : Address := ("10.0.0.1", 9000)

def elsewhere : Address := ("10.6.6.6", 9000)

/-- A HELLO in the peer's name that the peer did not sign. -/
def forged : HelloPayload :=
  { helloPayload peer (helloDraw 3) with signature := List.replicate 64 0 }

def forgedPacket : Packet := makePacket .hello forged.serialize

/-- The peer connects, is added, and gets a session. -/
def connected : List NodeEvent :=
  [.receive (createHello peer (helloDraw 3)).1 home 1, .resume 0 ackDraw 2,
    .resume 0 ackDraw 3, .resume 0 ackDraw 4, .resume 0 ackDraw 5]

/-- The session is lost, and the node starts a handshake of its own. -/
def reconnecting : List NodeEvent := connected ++ [.disconnect peer.peerId 6,
    .connect peer.peerId home (helloDraw 4) 7, .resume 0 ackDraw 8]

def nodeAfter (events : List NodeEvent) : Node primitives :=
  (run Process.step ⟨.start self .empty 0, []⟩ events).node

/-- The forged packet takes away the handshake under way. -/
theorem forged_hello_drops_pending :
    HelloPayload.deserialize forgedPacket.payload = .ok forged ∧
      processHello forgedPacket
        (nodeAfter reconnecting).peerTable.getDirectPeerIds
        (nodeAfter reconnecting).identity ackDraw = .ok none ∧
      ¬ Node.SameRecords (nodeAfter reconnecting)
        ((nodeAfter reconnecting).handleHelloToEnd forgedPacket elsewhere
          ackDraw (fun _ => 9)).node := by
  refine ⟨by decide +kernel, by decide +kernel, ?_⟩
  intro hsame
  have hbefore : (nodeAfter reconnecting).pendingHello.contains peer.peerId =
      true := by decide +kernel
  have hafter : ((nodeAfter reconnecting).handleHelloToEnd forgedPacket
      elsewhere ackDraw (fun _ => 9)).node.pendingHello.contains peer.peerId =
        false := by decide +kernel
  rw [hsame.pending, hbefore] at hafter
  cases hafter

/-- While the session is there, the forged packet changes nothing. -/
theorem forged_hello_on_session_ignored : processHello forgedPacket
        (nodeAfter connected).peerTable.getDirectPeerIds
        (nodeAfter connected).identity ackDraw = .ok none ∧
      Node.SameRecords (nodeAfter connected)
        ((nodeAfter connected).handleHelloToEnd forgedPacket elsewhere
          ackDraw (fun _ => 9)).node :=
  ⟨by decide +kernel,
    (rejected_hello_changes_nothing_iff elsewhere ackDraw (fun _ => 9)
      (show HelloPayload.deserialize forgedPacket.payload = .ok forged by
        decide +kernel)
      (by decide +kernel)).mpr (Or.inl (Or.inl (by decide +kernel)))⟩

end RejectedHelloWitness

end AshiChat
