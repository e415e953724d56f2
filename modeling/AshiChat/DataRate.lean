/-
The per-peer rate limit at the head of `handle_packet`, in front of the
handlers of a node.  The limiter is asked for the peer that
`_peer_id_from_addr` finds for the source address; the session of a DATA packet
is found by the id the packet carries.  Time is the clock of the limiter and
only moves forward.
-/
import AshiChat.EndpointNode
import AshiChat.WireRoundTrip
import AshiChat.Kit.Amortised

namespace AshiChat

open EventRun PeerRateLimiter

structure LimitedNode (P : Primitives) where
  inner : EndpointNode P
  rateLimiter : PeerRateLimiter
  clock : ℚ

/-- A datagram, the passing of time, or anything else that makes the node
run. -/
inductive LimitedEvent where
  | packet (packet : Packet) (addr : Address)
  | elapse (seconds : ℚ≥0)
  | other (event : EndpointNodeEvent)

/-- The types `handle_packet` limits. -/
def limitedTypes : List PacketType := [.data, .resolveRequest, .endpointUpdate]

namespace LimitedNode

variable {P : Primitives} (ip : IpLibrary)

/-- A process that has received nothing yet. -/
def ofNode (inner : EndpointNode P) (clock : ℚ) : LimitedNode P :=
  ⟨inner, .empty, clock⟩

def peerIdFromAddr (state : LimitedNode P) (addr : Address) : Option PeerId :=
  match state.inner.node.heartbeat.first? fun _ info => info.2 = addr with
  | some (peerId, _) => some peerId
  | none =>
    ((state.inner.node.peerTable.peers.values.filter PeerEntry.isDirect).find?
        fun entry => entry.endpoint = some addr).map PeerEntry.peerId

/-- The limit at the head of `handle_packet`. -/
def checkPeer (state : LimitedNode P) (packetType : PacketType)
    (addr : Address) : Bool × PeerRateLimiter :=
  if packetType ∈ limitedTypes then
    match state.peerIdFromAddr addr with
    | none => (true, state.rateLimiter)
    | some peerId => state.rateLimiter.check peerId packetType state.clock
  else (true, state.rateLimiter)

/-- The handler of a packet, up to its first await.  A payload that does not
decode ends the handler; the types that are left out change nothing here. -/
def dispatch (inner : EndpointNode P) (packet : Packet) (addr : Address)
    (now : ℚ) : EndpointNode P :=
  match packet.packetType with
  | .hello | .helloAck => inner.step (.node (.receive packet addr now))
  | .data =>
    match DataPayload.deserialize packet.payload with
    | .ok payload => inner.step (.receiveData payload addr)
    | .error _ => inner
  | .endpointUpdate =>
    match EndpointUpdatePayload.deserialize ip packet.payload with
    | .ok update => inner.step (.receiveUpdate update)
    | .error _ => inner
  | _ => inner

def handlePacket (state : LimitedNode P) (packet : Packet) (addr : Address) :
    LimitedNode P :=
  let checked := state.checkPeer packet.packetType addr
  { state with
    inner :=
      if checked.1 then dispatch ip state.inner packet addr state.clock
      else state.inner
    rateLimiter := checked.2 }

def step (state : LimitedNode P) : LimitedEvent → LimitedNode P
  | .packet packet addr => state.handlePacket ip packet addr
  | .elapse seconds => { state with clock := state.clock + seconds }
  | .other (.node (.restart graceful now)) =>
    ofNode (state.inner.restart graceful now) state.clock
  | .other event => { state with inner := state.inner.step event }

/-- The peer of the session that a DATA packet names. -/
def sessionPeer (state : LimitedNode P) (packet : Packet) : Option PeerId :=
  match packet.packetType, DataPayload.deserialize packet.payload with
  | .data, .ok payload =>
    (state.inner.node.registry.getBySessionId payload.sessionId).map
      fun found => found.2.remotePeerId
  | _, _ => none

/-- The event brings a DATA packet of the peer's session to
`decrypt_data_packet`. -/
def decrypts (peerId : PeerId) (state : LimitedNode P) : LimitedEvent → Bool
  | .packet packet addr =>
    state.sessionPeer packet == some peerId &&
      (state.checkPeer packet.packetType addr).1
  | _ => false

/-- DATA packets of the peer's session come from an address that is known as
the peer's, and the process is not restarted. -/
def fromHome (peerId : PeerId) (state : LimitedNode P) : LimitedEvent → Bool
  | .packet packet addr =>
    state.sessionPeer packet != some peerId ||
      state.peerIdFromAddr addr == some peerId
  | .other (.node (.restart ..)) => false
  | _ => true

/-- How many DATA packets of the peer's session a run decrypts. -/
def decryptions (peerId : PeerId) (state : LimitedNode P)
    (events : List LimitedEvent) : ℚ :=
  total (step ip) (fun state event => if decrypts peerId state event then 1
    else 0) state events

/-- The seconds that pass at an event. -/
def seconds (_ : LimitedNode P) : LimitedEvent → ℚ
  | .elapse seconds => seconds
  | _ => 0

variable {ip} {state : LimitedNode P}

theorem clock_step (state : LimitedNode P) (event : LimitedEvent) :
    (state.step ip event).clock = state.clock + state.seconds event := by
  cases event with
  | packet => exact (add_zero _).symm
  | elapse => rfl
  | other event =>
    cases event with
    | node event => cases event <;> exact (add_zero _).symm
    | _ => exact (add_zero _).symm

/-- The buckets are sound at the time of the node. -/
def Sound (state : LimitedNode P) : Prop := state.rateLimiter.Sound state.clock

theorem sound_ofNode (inner : EndpointNode P) (clock : ℚ) :
    (ofNode inner clock).Sound :=
  sound_empty clock

theorem sound_checkPeer (hsound : state.Sound)
    (packetType : PacketType) (addr : Address) :
    (state.checkPeer packetType addr).2.Sound state.clock := by
  unfold checkPeer
  split
  · split
    · exact hsound
    · exact PeerRateLimiter.Sound.check hsound _ packetType
  · exact hsound

theorem sound_step (hsound : state.Sound) (event : LimitedEvent) :
    (state.step ip event).Sound := by
  cases event with
  | packet packet addr => exact sound_checkPeer hsound packet.packetType addr
  | elapse seconds =>
    exact PeerRateLimiter.Sound.later hsound (le_add_of_nonneg_right seconds.2)
  | other event =>
    cases event with
    | node event =>
      cases event with
      | restart => exact sound_empty _
      | _ => exact hsound
    | _ => exact hsound

/-- `_PEER_LIMITS` for DATA. -/
theorem peerLimits_data : peerLimits .data = some (100, 100) := rfl

/-- What is left in the peer's bucket for DATA. -/
def dataLevel (peerId : PeerId) (state : LimitedNode P) : ℚ :=
  state.rateLimiter.level peerId .data 100 state.clock

/-- A packet takes a token of the peer exactly if it is a DATA packet that is
let through from one of its addresses. -/
theorem dataLevel_handlePacket (peerId : PeerId) (state : LimitedNode P)
    (packet : Packet) (addr : Address) :
    dataLevel peerId (state.handlePacket ip packet addr) =
      dataLevel peerId state -
        if packet.packetType = .data ∧ state.peerIdFromAddr addr = some peerId ∧
            (state.checkPeer packet.packetType addr).1 = true
        then 1 else 0 := by
  simp only [dataLevel, handlePacket]
  by_cases hlimited : packet.packetType ∈ limitedTypes
  · cases hfound : state.peerIdFromAddr addr with
    | none => simp [checkPeer, hlimited, hfound]
    | some other =>
      have hcheck : state.checkPeer packet.packetType addr =
          state.rateLimiter.check other packet.packetType state.clock := by
        simp [checkPeer, hlimited, hfound]
      rw [hcheck]
      by_cases hsame : (other, packet.packetType) = (peerId, PacketType.data)
      · obtain ⟨rfl, htype⟩ := Prod.mk.inj hsame
        rw [htype, level_check_self state.rateLimiter other peerLimits_data]
        simp
      · rw [level_check_of_ne state.rateLimiter hsame, if_neg, sub_zero]
        rintro ⟨htype, hother, -⟩
        rw [htype, Option.some.inj hother] at hsame
        exact hsame rfl
  · have htype : packet.packetType ≠ .data := by
      rintro heq
      exact hlimited (heq ▸ List.mem_cons_self)
    simp [checkPeer, hlimited, htype]

variable {peerId : PeerId}

theorem packetType_of_sessionPeer {packet : Packet}
    (hpeer : state.sessionPeer packet = some peerId) :
    packet.packetType = .data := by
  unfold sessionPeer at hpeer
  split at hpeer
  · next htype _ => exact htype
  · cases hpeer

/-- Every packet from home is paid for with a token. -/
theorem cost_step (hsound : state.Sound)
    {event : LimitedEvent} (hhome : state.fromHome peerId event = true) :
    (if state.decrypts peerId event then (1 : ℚ) else 0) +
        dataLevel peerId (state.step ip event) ≤
      dataLevel peerId state + 100 * state.seconds event := by
  cases event with
  | packet packet addr =>
    have hseconds : state.seconds (.packet packet addr) = 0 := rfl
    rw [step, dataLevel_handlePacket, hseconds, mul_zero, add_zero]
    by_cases hcounts : state.decrypts peerId (.packet packet addr) = true
    · have hboth := hcounts
      simp only [decrypts, Bool.and_eq_true, beq_iff_eq] at hboth
      simp only [fromHome, hboth.1, bne_self_eq_false, Bool.false_or,
        beq_iff_eq] at hhome
      rw [if_pos hcounts, if_pos ⟨packetType_of_sessionPeer hboth.1, hhome,
        hboth.2⟩]
      linarith
    · rw [if_neg hcounts]
      split <;> linarith
  | elapse seconds =>
    have hincome := PeerRateLimiter.Sound.level_add_le hsound peerId
      peerLimits_data seconds.2
    rw [mul_comm] at hincome
    simpa [decrypts, dataLevel, step, LimitedNode.seconds] using hincome
  | other event =>
    cases event with
    | node event =>
      cases event with
      | restart => cases hhome
      | _ => simp [decrypts, dataLevel, step, LimitedNode.seconds]
    | _ => simp [decrypts, dataLevel, step, LimitedNode.seconds]

/-- From a sound state on, while the peer's DATA comes from home, no more of it
is decrypted than a full bucket and the refill allow. -/
theorem decryptions_le (hsound : state.Sound) {window : List LimitedEvent}
    (hhome : EveryStep (step ip)
      (fun state event => state.fromHome peerId event = true) state window) :
    decryptions ip peerId state window ≤
      100 + 100 * ((run (step ip) state window).clock - state.clock) := by
  have hkeep : ∀ (state : LimitedNode P) (event : LimitedEvent),
      state.Sound → (state.step ip event).Sound :=
    fun _ event hsound => sound_step hsound event
  refine total_le_capacity_add
    (fun state event hsound _ => hkeep state event hsound)
    (fun _ _ hsound hhome => cost_step hsound hhome) clock_step ?_ hsound hhome
  intro state hsound
  have hle := PeerRateLimiter.Sound.level_le hsound peerId peerLimits_data
  exact ⟨PeerRateLimiter.Sound.level_nonneg hsound peerId peerLimits_data,
    by exact_mod_cast hle⟩

/-- The DATA of a peer that comes from home, in any window of any run. -/
theorem data_rate_bounded (inner : EndpointNode P) (clock : ℚ)
    (before window : List LimitedEvent) (peerId : PeerId) {length : ℚ}
    (hhome : EveryStep (step ip)
      (fun state event => state.fromHome peerId event = true)
      (run (step ip) (ofNode inner clock) before) window)
    (hlength : (run (step ip) (ofNode inner clock) (before ++ window)).clock -
      (run (step ip) (ofNode inner clock) before).clock ≤ length) :
    decryptions ip peerId (run (step ip) (ofNode inner clock) before) window ≤
      100 + 100 * length := by
  have hkeep : ∀ (state : LimitedNode P) (event : LimitedEvent),
      state.Sound → (state.step ip event).Sound :=
    fun _ event hsound => sound_step hsound event
  have hsound := inv_run hkeep (sound_ofNode inner clock) before
  have hcount := decryptions_le hsound hhome
  rw [run_append] at hlength
  linarith

end LimitedNode

namespace DataRateWitness

open LimitedNode EndpointNodeWitness

def fresh : LimitedNode Reference.primitives := ofNode (.fresh self 0) 0

/-- The peer's HELLO from home, up to the session and its heartbeat. -/
def connected : List LimitedEvent :=
  [.packet hello home, .other (.node (.resume 0 ackDraw 0)),
    .other (.node (.resume 0 ackDraw 0)), .other (.node (.resume 0 ackDraw 0)),
    .other (.node (.resume 0 ackDraw 0))]

/-- A DATA packet that names the peer's session. -/
def data : Packet :=
  makePacket .data (ackDraw.sessionId.val ++ [0, 0, 0, 1] ++ [0, 0, 0, 0] ++
    List.replicate 16 0)

/-- Many of them at one moment. -/
def flood (addr : Address) : List LimitedEvent :=
  List.replicate 101 (.packet data addr)

/-- From an address that no peer is known by, all of them are decrypted. -/
theorem flood_unlimited :
    (run (step WireWitness.ipaddress) fresh connected).inner.node.hasSession
        peer.peerId = true ∧
      (run (step WireWitness.ipaddress) fresh
          (connected ++ flood elsewhere)).clock -
        (run (step WireWitness.ipaddress) fresh connected).clock ≤ 0 ∧
      ¬ decryptions WireWitness.ipaddress peer.peerId
          (run (step WireWitness.ipaddress) fresh connected)
          (flood elsewhere) ≤ 100 + 100 * 0 := by
  refine ⟨by decide +kernel, by decide +kernel, ?_⟩
  have hall : decryptions WireWitness.ipaddress peer.peerId
      (run (step WireWitness.ipaddress) fresh connected) (flood elsewhere) =
        101 := by decide +kernel
  rw [hall]
  norm_num

/-- From home the limit holds. -/
theorem flood_limited : EveryStep (step WireWitness.ipaddress)
        (fun state event => state.fromHome peer.peerId event = true)
        (run (step WireWitness.ipaddress) fresh connected) (flood home) ∧
      decryptions WireWitness.ipaddress peer.peerId
          (run (step WireWitness.ipaddress) fresh connected) (flood home) ≤
        100 + 100 * 0 := by
  have hhome : EveryStep (step WireWitness.ipaddress)
      (fun state event => state.fromHome peer.peerId event = true)
      (run (step WireWitness.ipaddress) fresh connected) (flood home) := by
    decide +kernel
  exact ⟨hhome, data_rate_bounded (.fresh self 0) 0 connected (flood home)
    peer.peerId hhome (by decide +kernel)⟩

end DataRateWitness

end AshiChat
