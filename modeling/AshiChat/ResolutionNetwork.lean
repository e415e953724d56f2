/-
Nodes that resolve peers for each other.  A network without address
translation: a node is reached at one fixed address, and a datagram arrives
with the address of its sender.  Listeners are bound to IPv4 addresses, whose
texts the wire gives back as they were sent, so payloads travel as values.
-/
import AshiChat.Resolution
import AshiChat.Reference
import AshiChat.Kit.Datagrams

namespace AshiChat

inductive ResolutionMessage where
  | request (packet : ResolveRequestPayload)
  | update (packet : EndpointUpdatePayload)
deriving DecidableEq

/-- What a node keeps to resolve peers.  `updates` are the database writes it
has scheduled. -/
structure ResolutionNode (P : Primitives) where
  identity : LocalIdentity P
  peerTable : PeerTable
  heartbeat : OrderedDict PeerId (Bytes × Address)
  resolver : Resolver
  localEndpointVersion : Nat
  rateLimiter : PeerRateLimiter
  globalLimiter : TokenBucket
  updates : List UpdateTask
  table_local : peerTable.localId = identity.peerId

/-- Calls made on a node: `resolve_peer`, its end by a result or a timeout, and
the rotation of the overlay. -/
inductive ResolutionCall where
  | resolvePeer (target : PeerId) (forceNetwork : Bool) (requestId : Random 16)
  | finish (target : PeerId)
  | setOverlay (overlay : List PeerId)

namespace ResolutionNode

variable {P : Primitives}

def peerIdFromAddr (node : ResolutionNode P) (addr : Address) : Option PeerId :=
  match node.heartbeat.first? fun _ info => info.2 = addr with
  | some (peerId, _) => some peerId
  | none =>
    ((node.peerTable.peers.values.filter PeerEntry.isDirect).find?
      fun entry => entry.endpoint = some addr).map PeerEntry.peerId

/-- The requests a resolver sends, as messages. -/
def requests (sent : List (ResolveRequestPayload × Address)) :
    List (ResolutionMessage × Address) :=
  sent.map fun packet => (.request packet.1, packet.2)

/-- `resolve_peer`, unless the endpoint is known and not forced. -/
def resolvePeer (node : ResolutionNode P) (target : PeerId)
    (forceNetwork : Bool) (requestId : Random 16) :
    ResolutionNode P × List (ResolutionMessage × Address) :=
  if (node.peerTable.getEndpoint target).isSome ∧ forceNetwork = false then
    (node, [])
  else
    let (resolver, sent) :=
      node.resolver.request node.peerTable target requestId
    ({ node with resolver := resolver }, requests sent)

/-- What `_handle_resolve_request` does with a request that the global limiter
lets through: answer for oneself, answer from the cache, forward to a known
address, or hand it to the resolver.  The advertised address is the source
address of the request with the node's own port. -/
def answer (node : ResolutionNode P) (self : Address)
    (packet : ResolveRequestPayload) (source : Address) (now : ℚ) :
    ResolutionNode P × List (ResolutionMessage × Address) :=
  if packet.targetPeerId = node.identity.peerId then
    let (version, built) := buildEndpointUpdate node.identity
      node.localEndpointVersion (source.1, self.2)
    ({ node with localEndpointVersion := version },
      match built with
      | .ok update => [(.update update, source)]
      | .error _ => [])
  else
    match node.peerTable.cachedUpdate packet.targetPeerId with
    | some update => (node, [(.update update, source)])
    | none =>
      match node.peerTable.getEndpoint packet.targetPeerId with
      | some known => (node, [(.request packet, known)])
      | none =>
        let (resolver, sent) := node.resolver.handleResolveRequest
          node.identity.peerId node.peerTable packet source now
        ({ node with resolver := resolver }, requests sent)

def handleResolveRequest (node : ResolutionNode P) (self : Address)
    (packet : ResolveRequestPayload) (source : Address) (now : ℚ) :
    ResolutionNode P × List (ResolutionMessage × Address) :=
  let (allowed, limiter) := node.globalLimiter.consume now
  let node := { node with globalLimiter := limiter }
  if allowed then node.answer self packet source now else (node, [])

def handleEndpointUpdate (node : ResolutionNode P)
    (update : EndpointUpdatePayload) : ResolutionNode P :=
  if verifyEndpointSignature P node.peerTable update then
    { node with
      peerTable := node.peerTable.applyEndpointUpdate update
      table_local := node.table_local
      updates := node.updates ++ [.ofUpdate update]
      resolver := node.resolver.complete update.peerId
        (update.endpointIp, update.endpointPort) }
  else node

def packetType : ResolutionMessage → PacketType
  | .request _ => .resolveRequest
  | .update _ => .endpointUpdate

/-- The per-peer limit at the head of `handle_packet`. -/
def checkPeer (node : ResolutionNode P) (source : Address)
    (message : ResolutionMessage) (now : ℚ) : Bool × ResolutionNode P :=
  match node.peerIdFromAddr source with
  | none => (true, node)
  | some peerId =>
    let (allowed, limiter) :=
      node.rateLimiter.check peerId (packetType message) now
    (allowed, { node with rateLimiter := limiter })

/-- `handle_packet` for the two types. -/
def handlePacket (self : Address) (node : ResolutionNode P) (now : ℚ)
    (source : Address) (message : ResolutionMessage) :
    ResolutionNode P × List (ResolutionMessage × Address) :=
  let (allowed, node) := node.checkPeer source message now
  if allowed then
    match message with
    | .request packet => node.handleResolveRequest self packet source now
    | .update update => (node.handleEndpointUpdate update, [])
  else (node, [])

def call (_self : Address) (node : ResolutionNode P) :
    ResolutionCall → ResolutionNode P × List (ResolutionMessage × Address)
  | .resolvePeer target forceNetwork requestId =>
    node.resolvePeer target forceNetwork requestId
  | .finish target =>
    ({ node with resolver := node.resolver.finish target }, [])
  | .setOverlay overlay =>
    ({ node with resolver := { node.resolver with overlay := overlay } }, [])

/-- No limit is hit. -/
def permits (node : ResolutionNode P) (now : ℚ) (source : Address)
    (message : ResolutionMessage) : Bool :=
  let (allowed, node) := node.checkPeer source message now
  allowed &&
    match message with
    | .request _ => (node.globalLimiter.consume now).1
    | .update _ => true

/-- The node after its limiters have counted a packet. -/
def charged (node : ResolutionNode P) (rateLimiter : PeerRateLimiter)
    (globalLimiter : TokenBucket) : ResolutionNode P :=
  { node with rateLimiter := rateLimiter, globalLimiter := globalLimiter }

variable (node : ResolutionNode P)

theorem checkPeer_eq (source : Address)
    (message : ResolutionMessage) (now : ℚ) :
    ∃ rateLimiter, node.checkPeer source message now =
      ((node.checkPeer source message now).1,
        node.charged rateLimiter node.globalLimiter) := by
  unfold checkPeer
  split
  · exact ⟨node.rateLimiter, rfl⟩
  · exact ⟨_, rfl⟩

theorem handleResolveRequest_eq (self : Address)
    (packet : ResolveRequestPayload) (source : Address) (now : ℚ) :
    let counted :=
      node.charged node.rateLimiter (node.globalLimiter.consume now).2
    node.handleResolveRequest self packet source now =
      if (node.globalLimiter.consume now).1 then
        counted.answer self packet source now
      else (counted, []) := by
  simp only [handleResolveRequest, charged]

variable (self : Address)

/-- A packet is counted; if no limit is hit, a request is answered and an
update is handled. -/
theorem handlePacket_cases (node : ResolutionNode P) (now : ℚ)
    (source : Address) (message : ResolutionMessage) :
    ∃ rateLimiter globalLimiter,
      let counted := node.charged rateLimiter globalLimiter
      (node.permits now source message = false ∧
        handlePacket self node now source message = (counted, [])) ∨
      (∃ packet, message = .request packet ∧
        handlePacket self node now source message =
          counted.answer self packet source now) ∨
      ∃ update, message = .update update ∧
        handlePacket self node now source message =
          (counted.handleEndpointUpdate update, []) := by
  obtain ⟨rateLimiter, hcheck⟩ := node.checkPeer_eq source message now
  unfold handlePacket permits
  rw [hcheck]
  cases (node.checkPeer source message now).1 with
  | false =>
    exact ⟨rateLimiter, node.globalLimiter, .inl ⟨rfl, if_neg (by decide)⟩⟩
  | true =>
    cases message with
    | update update =>
      exact ⟨rateLimiter, node.globalLimiter,
        .inr (.inr ⟨update, rfl, if_pos rfl⟩)⟩
    | request packet =>
      refine ⟨rateLimiter, (node.globalLimiter.consume now).2, ?_⟩
      simp only [↓reduceIte, Bool.true_and]
      rw [handleResolveRequest_eq]
      cases hglobal : (node.globalLimiter.consume now).1 with
      | false => exact .inl ⟨hglobal, if_neg (ne_true_of_eq_false hglobal)⟩
      | true => exact .inr (.inl ⟨packet, rfl, if_pos hglobal⟩)

/-- The four ways to answer a request. -/
theorem answer_cases (self : Address)
    (packet : ResolveRequestPayload) (source : Address) (now : ℚ) :
    (packet.targetPeerId = node.identity.peerId ∧
      ∃ version sent, node.answer self packet source now =
          ({ node with localEndpointVersion := version }, sent) ∧
        ∀ message ∈ sent, ∃ update, message = (.update update, source) ∧
          update.peerId = node.identity.peerId ∧
          (update.endpointIp, update.endpointPort) = (source.1, self.2)) ∨
    (packet.targetPeerId ≠ node.identity.peerId ∧
      ∃ update, node.peerTable.cachedUpdate packet.targetPeerId = some update ∧
        node.answer self packet source now =
          (node, [(.update update, source)])) ∨
    (packet.targetPeerId ≠ node.identity.peerId ∧
      node.peerTable.cachedUpdate packet.targetPeerId = none ∧
      ∃ known, node.peerTable.getEndpoint packet.targetPeerId = some known ∧
        node.answer self packet source now =
          (node, [(.request packet, known)])) ∨
    (node.peerTable.getEndpoint packet.targetPeerId = none ∧
      ∃ resolver sent, node.answer self packet source now =
          ({ node with resolver := resolver }, requests sent) ∧
        resolver.pending = node.resolver.pending ∧
        resolver.futures = node.resolver.futures ∧
        ∀ message ∈ sent, 0 < packet.ttl ∧
          message.1 = { packet with ttl := packet.ttl - 1 }) := by
  by_cases howned : packet.targetPeerId = node.identity.peerId
  · refine .inl ⟨howned, _, _, if_pos howned, ?_⟩
    intro message hmem
    split at hmem
    · next update hbuilt =>
      refine ⟨update, List.mem_singleton.mp hmem, ?_⟩
      obtain ⟨hpeer, hendpoint, -⟩ := buildEndpointUpdate_names hbuilt
      exact ⟨hpeer, hendpoint⟩
    · cases hmem
  · rw [answer, if_neg howned]
    cases hcached : node.peerTable.cachedUpdate packet.targetPeerId with
    | some update => exact .inr (.inl ⟨howned, update, rfl, rfl⟩)
    | none =>
      cases hknown : node.peerTable.getEndpoint packet.targetPeerId with
      | some known => exact .inr (.inr (.inl ⟨howned, rfl, known, rfl, rfl⟩))
      | none =>
        obtain ⟨hpending, hfutures⟩ :=
          node.resolver.handleResolveRequest_frame node.identity.peerId
            node.peerTable packet source now
        exact .inr (.inr (.inr ⟨rfl, _, _, rfl, hpending, hfutures,
          fun _ => Resolver.mem_handleResolveRequest⟩))

/-- A call keeps table and scheduled writes, and sends fresh requests only. -/
theorem call_cases (node : ResolutionNode P) (request : ResolutionCall) :
    ∃ resolver sent, call self node request =
        ({ node with resolver := resolver }, requests sent) ∧
      ∀ message ∈ sent, message.1.ttl = maxTtl := by
  have hnone : ∀ message ∈ ([] : List (ResolveRequestPayload × Address)),
      message.1.ttl = maxTtl := by
    simp
  cases request with
  | finish | setOverlay => exact ⟨_, [], rfl, hnone⟩
  | resolvePeer =>
    simp only [call, resolvePeer]
    split
    · exact ⟨node.resolver, [], rfl, hnone⟩
    · refine ⟨_, _, rfl, ?_⟩
      intro message hmem
      obtain ⟨_, -, rfl⟩ := List.mem_map.mp hmem
      rfl

/-- Besides limiters, request cache and version counter, a packet changes
something only if it is an update that verifies. -/
theorem handlePacket_records (node : ResolutionNode P)
    (now : ℚ) (source : Address) (message : ResolutionMessage) :
    let after := (handlePacket self node now source message).1
    after.identity = node.identity ∧ ((after.peerTable = node.peerTable ∧
        after.resolver.pending = node.resolver.pending ∧
        after.resolver.futures = node.resolver.futures) ∨
      ∃ update, message = .update update ∧
        verifyEndpointSignature P node.peerTable update = true ∧
        after.peerTable = node.peerTable.applyEndpointUpdate update ∧
        after.resolver = node.resolver.complete update.peerId
          (update.endpointIp, update.endpointPort)) := by
  obtain ⟨_, _, hcases⟩ := handlePacket_cases self node now source message
  rcases hcases with ⟨-, heq⟩ | ⟨packet, -, heq⟩ | ⟨update, rfl, heq⟩
  · rw [heq]
    exact ⟨rfl, .inl ⟨rfl, rfl, rfl⟩⟩
  · rw [heq]
    rcases answer_cases _ self packet source now with
      ⟨-, _, _, hanswer, -⟩ | ⟨-, _, -, hanswer⟩ | ⟨-, -, _, -, hanswer⟩ |
      ⟨-, resolver, _, hanswer, hpending, hfutures, -⟩
    · rw [hanswer]
      exact ⟨rfl, .inl ⟨rfl, rfl, rfl⟩⟩
    · rw [hanswer]
      exact ⟨rfl, .inl ⟨rfl, rfl, rfl⟩⟩
    · rw [hanswer]
      exact ⟨rfl, .inl ⟨rfl, rfl, rfl⟩⟩
    · rw [hanswer]
      exact ⟨rfl, .inl ⟨rfl, hpending, hfutures⟩⟩
  · rw [heq, handleEndpointUpdate]
    split
    · next hverified => exact ⟨rfl, .inr ⟨update, rfl, hverified, rfl, rfl⟩⟩
    · exact ⟨rfl, .inl ⟨rfl, rfl, rfl⟩⟩

theorem identity_handlePacket (node : ResolutionNode P)
    (now : ℚ) (source : Address) (message : ResolutionMessage) :
    (handlePacket self node now source message).1.identity = node.identity :=
  (handlePacket_records self node now source message).1

end ResolutionNode

/-- The network of resolving nodes; a delivery happens at a time. -/
def resolution (P : Primitives) : Datagrams.Protocol Address
    (ResolutionNode P) ResolutionMessage ResolutionCall ℚ where
  call := ResolutionNode.call
  receive := ResolutionNode.handlePacket

abbrev ResolutionNet (P : Primitives) :=
  Datagrams.Network Address (ResolutionNode P) ResolutionMessage

abbrev ResolutionEvent := Datagrams.Event Address ResolutionCall ℚ

namespace ResolutionNet

variable {P : Primitives}

def step : ResolutionNet P → ResolutionEvent → ResolutionNet P :=
  Datagrams.step (resolution P)

/-- The node at the address has the peer id. -/
def Owns (net : ResolutionNet P) (peerId : PeerId) (address : Address) :
    Prop :=
  (net.nodes.get? address).map (·.identity.peerId) = some peerId

end ResolutionNet

namespace ResolutionWitness

def identity (key : UInt8) : LocalIdentity Reference.primitives :=
  .ofPrivateKey _ (Reference.constant 32 key).val

def table (key : UInt8) (peers : List (UInt8 × Option Address)) : PeerTable :=
  peers.foldl (fun table peer => table.addDirectPeer (identity peer.1).peerId
    (identity peer.1).publicKeyBytes none peer.2 0)
    (.empty (identity key).peerId)

theorem localId_table (key : UInt8) (peers : List (UInt8 × Option Address)) :
    (table key peers).localId = (identity key).peerId := by
  unfold table
  refine List.foldlRecOn (motive := fun table : PeerTable =>
    table.localId = (identity key).peerId) peers _ rfl ?_
  intro table hlocal peer _
  simpa using hlocal

theorem cachedUpdate_table (key : UInt8)
    (peers : List (UInt8 × Option Address)) (target : PeerId) :
    (table key peers).cachedUpdate target = none := by
  have hunsigned : ∀ peerId entry,
      (table key peers).peers.get? peerId = some entry →
        entry.endpointSignature = none := by
    refine List.foldlRecOn (motive := fun table : PeerTable =>
      ∀ peerId entry, table.peers.get? peerId = some entry →
        entry.endpointSignature = none) peers _ (by simp [PeerTable.empty]) ?_
    intro table hunsigned peer _ peerId entry hget
    rcases PeerTable.get?_addDirectPeer hget with ⟨-, rfl⟩ | hold
    · rfl
    · exact hunsigned peerId entry hold
  rw [PeerTable.cachedUpdate]
  cases hget : (table key peers).peers.get? target with
  | none => rfl
  | some entry =>
    rw [Option.bind_some, PeerTable.servedUpdate, hunsigned target entry hget]
    split
    · next hsome => cases hsome
    · rfl

/-- A node with the peers it has in its table, all in its overlay. -/
def node (key : UInt8) (peers : List (UInt8 × Option Address)) :
    ResolutionNode Reference.primitives where
  identity := identity key
  peerTable := table key peers
  heartbeat := .empty
  resolver := { Resolver.empty with
    overlay := peers.map fun peer => (identity peer.1).peerId }
  localEndpointVersion := 0
  rateLimiter := OrderedDict.empty
  globalLimiter := globalResolveLimit 0
  updates := []
  table_local := localId_table key peers

end ResolutionWitness

end AshiChat
