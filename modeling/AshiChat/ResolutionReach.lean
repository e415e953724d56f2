/-
When a resolution comes back.  A node answers a request to the address it came
from, so the answer reaches the node that asked first only if it is given by a
neighbour of that node.
-/
import AshiChat.ResolutionNetwork

namespace AshiChat

open EventRun OrderedDict PeerTable Resolver List Datagrams ResolutionNode

variable {P : Primitives} {target : PeerId} {key : Bytes} {future : Nat}

namespace ResolutionNode

/-- The node has the peer in its table, with this public key. -/
def holdsKey (target : PeerId) (key : Bytes) (node : ResolutionNode P) : Bool :=
  (node.peerTable.peers.get? target).map PeerEntry.publicKey = some key

/-- The node is the target, or it holds a signed record of the target. -/
def answersFor (target : PeerId) (key : Bytes) (node : ResolutionNode P) :
    Bool :=
  node.identity.peerId = target && node.identity.publicKeyBytes = key ||
    node.holdsKey target key &&
      match node.peerTable.cachedUpdate target with
      | some update => update.signedBy P key
      | none => false

/-- The future has a result, an endpoint that the target signed. -/
def Resolved (target : PeerId) (key : Bytes) (future : Nat)
    (node : ResolutionNode P) : Prop :=
  ∃ update : EndpointUpdatePayload, node.resolver.futures[future]? =
      some (some (update.endpointIp, update.endpointPort)) ∧
    update.peerId = target ∧ update.signedBy P key = true

/-- The future waits for an update about the target. -/
def Waiting (target : PeerId) (future : Nat) (node : ResolutionNode P) :
    Prop :=
  node.resolver.pending.get? target = some future ∧
    node.resolver.futures[future]? = some none

/-- The peer a call is about. -/
def callTarget : ResolutionCall → Option PeerId
  | .resolvePeer target _ _ => some target
  | .finish target => some target
  | .setOverlay _ => none

variable {node : ResolutionNode P}

theorem answersFor_iff : node.answersFor target key = true ↔
    (node.identity.peerId = target ∧ node.identity.publicKeyBytes = key) ∨
      (node.holdsKey target key = true ∧
        ∃ update, node.peerTable.cachedUpdate target = some update ∧
          update.signedBy P key = true) := by
  cases hcached : node.peerTable.cachedUpdate target <;>
    simp [answersFor, hcached]

variable {update : EndpointUpdatePayload} {now : ℚ} {source self : Address}
  {packet : ResolveRequestPayload}

/-- An update about the target is checked with the key the node holds. -/
theorem verify_of_holdsKey (hkey : node.holdsKey target key = true)
    (hid : update.peerId = target) :
    verifyEndpointSignature P node.peerTable update =
      update.signedBy P key := by
  refine verifyEndpointSignature_eq ?_
  rw [hid]
  exact of_decide_eq_true hkey

section Packet

variable (self : Address) (now : ℚ) (source : Address)
  (message : ResolutionMessage)

theorem holdsKey_handlePacket (hkey : node.holdsKey target key = true) :
    (handlePacket self node now source message).1.holdsKey target key =
      true := by
  rcases (handlePacket_records self node now source message).2 with
    ⟨htable, -⟩ | ⟨_, -, -, htable, -⟩
  · rw [holdsKey, htable]
    exact hkey
  · rw [holdsKey, htable, publicKey_applyEndpointUpdate]
    exact hkey

/-- A record is replaced only by another that verifies. -/
theorem answersFor_handlePacket (hanswers : node.answersFor target key = true) :
    (handlePacket self node now source message).1.answersFor target key =
      true := by
  obtain ⟨hidentity, hrecords⟩ :=
    handlePacket_records self node now source message
  rw [answersFor_iff] at hanswers ⊢
  rw [hidentity]
  refine hanswers.imp_right ?_
  rintro ⟨hkey, cached, hcached, hsigned⟩
  refine ⟨holdsKey_handlePacket self now source message hkey, ?_⟩
  rcases hrecords with ⟨htable, -⟩ | ⟨update, -, hverified, htable, -⟩
  · rw [htable]
    exact ⟨cached, hcached, hsigned⟩
  · rw [htable]
    obtain ⟨served, hserved⟩ := Option.isSome_iff_exists.mp
      (isSome_cachedUpdate_applyEndpointUpdate update
        (Option.isSome_of_mem hcached))
    refine ⟨served, hserved, ?_⟩
    rcases cachedUpdate_applyEndpointUpdate hserved with
      hold | ⟨htarget, rfl⟩
    · cases hcached.symm.trans hold
      exact hsigned
    · rw [← verify_of_holdsKey hkey htarget.symm]
      exact hverified

theorem resolved_handlePacket (hresolved : node.Resolved target key future) :
    (handlePacket self node now source message).1.Resolved target key
      future := by
  obtain ⟨result, hdone, hsigned⟩ := hresolved
  rcases (handlePacket_records self node now source message).2 with
    ⟨-, -, hfutures⟩ | ⟨_, -, -, -, hresolver⟩
  · exact ⟨result, hfutures ▸ hdone, hsigned⟩
  · rw [Resolved, hresolver]
    exact ⟨result, complete_done hdone _ _, hsigned⟩

/-- A future waits until it gets the endpoint of an update that verifies. -/
theorem waiting_handlePacket (hkey : node.holdsKey target key = true)
    (hwaiting : node.Waiting target future) :
    (handlePacket self node now source message).1.Waiting target future ∨
      (handlePacket self node now source message).1.Resolved target key
        future := by
  obtain ⟨hpending, hnone⟩ := hwaiting
  rcases (handlePacket_records self node now source message).2 with
    ⟨-, hsame, hfutures⟩ | ⟨update, -, hverified, -, hresolver⟩
  · exact .inl ⟨hsame ▸ hpending, hfutures ▸ hnone⟩
  · rw [Waiting, Resolved, hresolver, pending_complete]
    by_cases htarget : update.peerId = target
    · refine .inr ⟨update, ?_, htarget, ?_⟩
      · rw [htarget]
        exact complete_waiting hpending hnone _
      · rw [← verify_of_holdsKey hkey htarget]
        exact hverified
    · rw [complete_other hpending htarget]
      exact .inl ⟨hpending, hnone⟩

end Packet

/-- An update about the target that gets past the limits and verifies resolves
the future. -/
theorem resolved_of_update (self : Address)
    (hpermits : node.permits now source (.update update) = true)
    (hkey : node.holdsKey target key = true)
    (hwaiting : node.Waiting target future) (hid : update.peerId = target)
    (hsigned : update.signedBy P key = true) :
    (handlePacket self node now source (.update update)).1.Resolved target key
      future := by
  obtain ⟨rateLimiter, globalLimiter, hcases⟩ :=
    handlePacket_cases self node now source (.update update)
  rcases hcases with ⟨hlimit, -⟩ | ⟨_, hmessage, -⟩ | ⟨_, hmessage, heq⟩
  · rw [hpermits] at hlimit
    cases hlimit
  · cases hmessage
  · cases hmessage
    have hverified : verifyEndpointSignature P
        (node.charged rateLimiter globalLimiter).peerTable update = true :=
      (verify_of_holdsKey hkey hid).trans hsigned
    rw [heq, handleEndpointUpdate, if_pos hverified]
    refine ⟨update, ?_, hid, hsigned⟩
    rw [hid]
    exact complete_waiting hwaiting.1 hwaiting.2 _

/-- A node has no entry of its own. -/
theorem ne_peerId_of_holdsKey (hkey : node.holdsKey target key = true) :
    target ≠ node.identity.peerId := by
  rintro rfl
  have habsent := node.peerTable.localAbsent
  rw [node.table_local] at habsent
  simp [holdsKey, habsent] at hkey

/-- A node that can answer a request does so, to the address it came from. -/
theorem answersFor_answer (hverify : P.SignaturesVerify) (source : Address)
    (now : ℚ)
    (hfits : packet.targetPeerId = node.identity.peerId →
      self.2 < 2 ^ 16 ∧ node.localEndpointVersion + 1 < 2 ^ 64)
    (hanswers : node.answersFor packet.targetPeerId key = true) :
    ∃ update, (.update update, source) ∈
        (node.answer self packet source now).2 ∧
      update.peerId = packet.targetPeerId ∧
      update.signedBy P key = true := by
  rcases answersFor_iff.mp hanswers with
    ⟨hself, rfl⟩ | ⟨hkey, cached, hcached, hsigned⟩
  · obtain ⟨hport, hversion⟩ := hfits hself.symm
    have hendpoint : (source.1, self.2).2 < 2 ^ 16 := hport
    obtain ⟨update, hbuilt, hid, hsigned⟩ :=
      buildEndpointUpdate_signed hverify node.identity hendpoint hversion
    refine ⟨update, ?_, hid.trans hself, hsigned⟩
    rw [answer, if_pos hself.symm]
    simp only [hbuilt, mem_singleton]
  · refine ⟨cached, ?_, peerId_of_cachedUpdate hcached, hsigned⟩
    rw [answer, if_neg (ne_peerId_of_holdsKey hkey)]
    simp only [hcached, mem_singleton]

theorem answers_request (hverify : P.SignaturesVerify)
    (hpermits : node.permits now source (.request packet) = true)
    (hfits : packet.targetPeerId = node.identity.peerId →
      self.2 < 2 ^ 16 ∧ node.localEndpointVersion + 1 < 2 ^ 64)
    (hanswers : node.answersFor packet.targetPeerId key = true) :
    ∃ update, (.update update, source) ∈
        (handlePacket self node now source (.request packet)).2 ∧
      update.peerId = packet.targetPeerId ∧
      update.signedBy P key = true := by
  obtain ⟨_, _, hcases⟩ :=
    handlePacket_cases self node now source (.request packet)
  rcases hcases with ⟨hlimit, -⟩ | ⟨_, hmessage, heq⟩ | ⟨update, hmessage, -⟩
  · rw [hpermits] at hlimit
    cases hlimit
  · cases hmessage
    rw [heq]
    exact answersFor_answer hverify source now hfits hanswers
  · cases hmessage

section Call

variable (self : Address) (request : ResolutionCall)

theorem holdsKey_call : (call self node request).1.holdsKey target key =
    node.holdsKey target key := by
  obtain ⟨_, _, heq, -⟩ := node.call_cases self request
  rw [heq]
  rfl

theorem answersFor_call : (call self node request).1.answersFor target key =
    node.answersFor target key := by
  obtain ⟨_, _, heq, -⟩ := node.call_cases self request
  rw [heq]
  rfl

/-- Calls add futures and set no result. -/
theorem futures_call {result : Option Address}
    (hresult : node.resolver.futures[future]? = some result) :
    (call self node request).1.resolver.futures[future]? = some result := by
  cases request with
  | finish | setOverlay => exact hresult
  | resolvePeer =>
    simp only [call, resolvePeer]
    split
    · exact hresult
    · rw [request, getElem?_append_left]
      · exact hresult
      · exact (List.getElem?_eq_some_iff.mp hresult).1

theorem resolved_call (hresolved : node.Resolved target key future) :
    (call self node request).1.Resolved target key future := by
  obtain ⟨result, hdone, hsigned⟩ := hresolved
  exact ⟨result, futures_call self request hdone, hsigned⟩

theorem waiting_call (hother : callTarget request ≠ some target)
    (hwaiting : node.Waiting target future) :
    (call self node request).1.Waiting target future := by
  refine ⟨?_, futures_call self request hwaiting.2⟩
  cases request with
  | setOverlay => exact hwaiting.1
  | finish other =>
    have hne : other ≠ target := fun heq => hother (congrArg some heq)
    simp only [call, finish, get?_erase, hne, ↓reduceIte]
    exact hwaiting.1
  | resolvePeer other =>
    have hne : other ≠ target := fun heq => hother (congrArg some heq)
    simp only [call, resolvePeer]
    split
    · exact hwaiting.1
    · simp only [request, get?_set, hne, ↓reduceIte]
      exact hwaiting.1

end Call

/-- No limit is hit by a delivery. -/
def permitsDatagram (node : ResolutionNode P) (now : ℚ)
    (datagram : Datagrams.Datagram Address ResolutionMessage) : Bool :=
  node.permits now datagram.source datagram.message

/-- If the node is asked about itself, its port and its next version fit the
wire. -/
def fitsWire (node : ResolutionNode P) (_now : ℚ)
    (datagram : Datagrams.Datagram Address ResolutionMessage) : Bool :=
  match datagram.message with
  | .request packet =>
    packet.targetPeerId ≠ node.identity.peerId ||
      datagram.target.2 < 2 ^ 16 && node.localEndpointVersion + 1 < 2 ^ 64
  | .update _ => true

end ResolutionNode

namespace ResolutionNet

/-- Some node that can answer for the target is at most so many overlay hops
away. -/
def reachable (net : ResolutionNet P) (target : PeerId) (key : Bytes) :
    Nat → Address → Bool
  | 0, _ => false
  | hops + 1, address =>
    match net.nodes.get? address with
    | none => false
    | some node =>
      (node.resolver.overlay.filterMap node.peerTable.getEndpoint).any
        fun next =>
          (match net.nodes.get? next with
            | none => false
            | some other => other.answersFor target key) ||
          net.reachable target key hops next

/-- While its future waits, the requester makes no call about the target: a
second resolution would replace the future, and a timeout would drop it. -/
def callsElsewhere (self : Address) (target : PeerId) (future : Nat)
    (net : ResolutionNet P) : ResolutionEvent → Bool
  | .call address request =>
    address ≠ self || callTarget request ≠ some target ||
      (match net.nodes.get? self with
        | none => true
        | some node => node.resolver.futures[future]? ≠ some none)
  | .deliver _ _ => true

/-- The datagram asks the node at `address` for the target, or it brings the
answer. -/
def Pursues (P : Primitives) (self address : Address) (target : PeerId)
    (key : Bytes) (datagram : Datagrams.Datagram Address ResolutionMessage) :
    Prop :=
  (datagram.source = self ∧ datagram.target = address ∧
    ∃ packet, datagram.message = .request packet ∧
      packet.targetPeerId = target) ∨
  (datagram.target = self ∧
    ∃ update, datagram.message = .update update ∧ update.peerId = target ∧
      update.signedBy P key = true)

/-- The future of the requester is resolved, or something on the wire will
resolve it. -/
structure Pursued (self address : Address) (target : PeerId) (key : Bytes)
    (future : Nat) (net : ResolutionNet P) : Prop where
  requester : ∃ node, net.nodes.get? self = some node ∧
    node.holdsKey target key = true ∧
    (node.Resolved target key future ∨ node.Waiting target future ∧
      ∃ datagram ∈ net.wire, Pursues P self address target key datagram)
  answerer : ∃ node, net.nodes.get? address = some node ∧
    node.answersFor target key = true

variable {net : ResolutionNet P} {self address : Address}
  {event : ResolutionEvent} {node : ResolutionNode P}

theorem answerer_step (hnode : net.nodes.get? address = some node)
    (hanswers : node.answersFor target key = true) :
    ∃ after, (net.step event).nodes.get? address = some after ∧
      after.answersFor target key = true := by
  refine node_step (resolution P) event hnode hanswers ?_ ?_
  · intro request _
    exact (answersFor_call address request).trans hanswers
  · intro now source message
    exact answersFor_handlePacket address now _ _ hanswers

/-- The requester keeps the key, and what is resolved stays so. -/
theorem resolved_step (hnode : net.nodes.get? self = some node)
    (hkey : node.holdsKey target key = true)
    (hresolved : node.Resolved target key future) :
    ∃ after, (net.step event).nodes.get? self = some after ∧
      after.holdsKey target key = true ∧ after.Resolved target key future := by
  refine node_step (resolution P) event hnode ⟨hkey, hresolved⟩ ?_ ?_
  · intro request _
    exact ⟨(holdsKey_call self request).trans hkey,
      resolved_call self request hresolved⟩
  · intro now source message
    exact ⟨holdsKey_handlePacket self now _ _ hkey,
      resolved_handlePacket self now _ _ hresolved⟩

theorem waiting_step (hnode : net.nodes.get? self = some node)
    (hkey : node.holdsKey target key = true)
    (hwaiting : node.Waiting target future)
    (hcalls : net.callsElsewhere self target future event = true) :
    ∃ after, (net.step event).nodes.get? self = some after ∧
      after.holdsKey target key = true ∧
      (after.Waiting target future ∨ after.Resolved target key future) := by
  refine node_step (resolution P) event hnode ⟨hkey, .inl hwaiting⟩ ?_ ?_
  · rintro request rfl
    have hother : callTarget request ≠ some target := by
      simpa [callsElsewhere, hnode, hwaiting.2] using hcalls
    exact ⟨(holdsKey_call self request).trans hkey,
      .inl (waiting_call self request hother hwaiting)⟩
  · intro now source message
    exact ⟨holdsKey_handlePacket self now _ _ hkey,
      waiting_handlePacket self now _ _ hkey hwaiting⟩

/-- The answer is on its way once the question has been delivered. -/
theorem answered_step (hverify : P.SignaturesVerify) {index : Nat} {now : ℚ}
    {datagram : Datagrams.Datagram Address ResolutionMessage}
    {rest : List (Datagrams.Datagram Address ResolutionMessage)}
    {packet : ResolveRequestPayload}
    (htake : Pool.take? net.wire index = some (datagram, rest))
    (hmessage : datagram.message = .request packet)
    (hnode : net.nodes.get? datagram.target = some node)
    (hanswers : node.answersFor packet.targetPeerId key = true)
    (hpermits : node.permitsDatagram now datagram = true)
    (hfits : node.fitsWire now datagram = true) :
    ∃ answer ∈ (net.step (.deliver index now)).wire,
      Pursues P datagram.source address packet.targetPeerId key answer := by
  obtain ⟨source, target, message, _⟩ := datagram
  cases hmessage
  have hwire : packet.targetPeerId = node.identity.peerId →
      target.2 < 2 ^ 16 ∧ node.localEndpointVersion + 1 < 2 ^ 64 := by
    simpa [fitsWire, ← imp_iff_not_or] using hfits
  obtain ⟨update, hsent, hid, hsigned⟩ :=
    answers_request hverify hpermits hwire hanswers
  exact ⟨_, mem_wire_deliver htake hnode hsent,
    .inr ⟨rfl, update, rfl, hid, hsigned⟩⟩

theorem Pursued.step (hverify : P.SignaturesVerify)
    (hpursued : net.Pursued self address target key future)
    (hpermits : allowedStep permitsDatagram net event = true)
    (hfits : allowedStep fitsWire net event = true)
    (hcalls : net.callsElsewhere self target future event = true) :
    (net.step event).Pursued self address target key future := by
  obtain ⟨⟨_, hnode, hkey, hfuture⟩, _, hother, hanswers⟩ := hpursued
  refine ⟨?_, answerer_step hother hanswers⟩
  rcases hfuture with hresolved | ⟨hwaiting, datagram, hmem, hpursues⟩
  · obtain ⟨after, hafter, hkey, hresolved⟩ :=
      resolved_step hnode hkey hresolved
    exact ⟨after, hafter, hkey, .inl hresolved⟩
  obtain ⟨after, hafter, hkey', hfuture⟩ :=
    waiting_step hnode hkey hwaiting hcalls
  refine ⟨after, hafter, hkey', ?_⟩
  -- Either the datagram is still in flight or this step delivers it.
  rcases mem_wire_step (resolution P) hmem event with
    hflight | ⟨_, now, _, rfl, htake⟩
  · exact hfuture.symm.imp_right fun hwaits =>
      ⟨hwaits, datagram, hflight, hpursues⟩
  · rcases hpursues with ⟨rfl, rfl, _, hmessage, rfl⟩ |
      ⟨rfl, _, hmessage, hid, hsigned⟩
    · have hpermit := allowed_of_deliver hpermits htake hother
      have hfit := allowed_of_deliver hfits htake hother
      exact hfuture.symm.imp_right fun hwaits => ⟨hwaits,
        answered_step hverify htake hmessage hother hanswers hpermit hfit⟩
    · have hpermit := allowed_of_deliver hpermits htake hnode
      have hreceived := get?_deliver (resolution P) now htake hnode
      cases hafter.symm.trans hreceived
      refine .inl ?_
      rw [permitsDatagram, hmessage] at hpermit
      rw [hmessage]
      exact resolved_of_update datagram.target hpermit hkey hwaiting hid hsigned

/-- One hop: a neighbour of the node can answer. -/
theorem neighbour_of_reachable (hnode : net.nodes.get? self = some node)
    (hreach : net.reachable target key 1 self = true) :
    ∃ next ∈ node.resolver.overlay.filterMap node.peerTable.getEndpoint,
      ∃ other, net.nodes.get? next = some other ∧
        other.answersFor target key = true := by
  simp only [reachable, hnode, Bool.or_false, any_eq_true] at hreach
  obtain ⟨next, hmem, hanswers⟩ := hreach
  cases hother : net.nodes.get? next with
  | none =>
    rw [hother] at hanswers
    cases hanswers
  | some other =>
    rw [hother] at hanswers
    exact ⟨next, hmem, other, hother, hanswers⟩

/-- `resolve_peer` creates the future and asks the neighbours. -/
theorem pursued_resolvePeer (hnode : net.nodes.get? self = some node)
    (hkey : node.holdsKey target key = true)
    (hunknown : node.peerTable.getEndpoint target = none)
    (hreach : net.reachable target key 1 self = true) (requestId : Random 16) :
    ∃ address, (net.step (.call self (.resolvePeer target false
      requestId))).Pursued self address target key
        node.resolver.futures.length := by
  obtain ⟨next, hnext, _, hother, hanswers⟩ :=
    neighbour_of_reachable hnode hreach
  have hcall : call self node (.resolvePeer target false requestId) =
        ({ node with resolver := (node.resolver.request node.peerTable target
            requestId).1 },
          requests (node.resolver.request node.peerTable target
            requestId).2) := by
    simp [call, resolvePeer, hunknown]
  refine ⟨next, ?_, answerer_step hother hanswers⟩
  refine ⟨_, get?_call (resolution P) _ hnode,
    (holdsKey_call self _).trans hkey, .inr ⟨?_, ?_⟩⟩
  · dsimp only [resolution]
    rw [ResolutionNode.Waiting, hcall]
    exact ⟨get?_set_self .., getElem?_concat_length ..⟩
  · have hsent : (.request ⟨requestId.val, target, maxTtl⟩, next) ∈
        (call self node (.resolvePeer target false requestId)).2 := by
      rw [hcall]
      exact mem_map.mpr ⟨_, mem_map.mpr ⟨next, hnext, rfl⟩, rfl⟩
    exact ⟨_, mem_wire_call hnode hsent, .inl ⟨rfl, rfl, _, rfl, rfl⟩⟩

/-- Resolution reaches a requester whose own neighbour can answer: once all
packets are processed, the future has an endpoint that the target signed. -/
theorem resolution_reaches_requester (hverify : P.SignaturesVerify)
    (hnode : net.nodes.get? self = some node)
    (hkey : node.holdsKey target key = true)
    (hunknown : node.peerTable.getEndpoint target = none)
    (hreach : net.reachable target key 1 self = true)
    (requestId : Random 16) (events : List ResolutionEvent)
    (hsteps : EveryStep step (fun state event =>
      allowedStep permitsDatagram state event = true ∧
      allowedStep fitsWire state event = true ∧
      state.callsElsewhere self target node.resolver.futures.length event =
        true)
      (net.step (.call self (.resolvePeer target false requestId))) events)
    (hquiet : (run step (net.step (.call self (.resolvePeer target false
      requestId))) events).wire = []) :
    ∃ after, (run step (net.step (.call self (.resolvePeer target false
        requestId))) events).nodes.get? self = some after ∧
      after.Resolved target key node.resolver.futures.length := by
  obtain ⟨_, hstart⟩ := pursued_resolvePeer hnode hkey hunknown hreach requestId
  have hpursued := inv_run_of_everyStep
    (fun _ _ hinv hgood => Pursued.step hverify hinv hgood.1 hgood.2.1
      hgood.2.2) hstart hsteps
  obtain ⟨⟨after, hafter, -, hresolved | ⟨-, _, hmem, -⟩⟩, -⟩ := hpursued
  · exact ⟨after, hafter, hresolved⟩
  · rw [hquiet] at hmem
    cases hmem

end ResolutionNet

namespace ResolutionWitness

open Reference

def requester : Address := ("10.0.0.1", 9000)

def middle : Address := ("10.0.0.2", 9000)

def wanted : Address := ("10.0.0.3", 9000)

/-- What node 3 signs about itself when it is first asked. -/
def signedRecord : Option EndpointUpdatePayload :=
  (buildEndpointUpdate (identity 3) 0 wanted).2.toOption

/-- Node 2, with a signed record of node 3. -/
def informed : ResolutionNode primitives :=
  match signedRecord with
  | none => node 2 [(3, none)]
  | some update => (node 2 [(3, none)]).handleEndpointUpdate update

def first : ResolutionNode primitives := node 1 [(2, some middle), (3, none)]

/-- Node 1 knows the key of node 3 and the address of node 2, which is as
given. -/
def line (second : ResolutionNode primitives) : ResolutionNet primitives where
  nodes := ((empty.set wanted (node 3 [])).set middle second).set
    requester first
  wire := []

/-- Node 1 resolves node 3, and so many packets are delivered. -/
def resolved (second : ResolutionNode primitives) (count : Nat) :
    ResolutionNet primitives :=
  run ResolutionNet.step ((line second).step (.call requester (.resolvePeer
    (identity 3).peerId false (constant 16 9))))
    (replicate count (.deliver 0 0))

/-- A neighbour with a signed record answers node 1. -/
theorem informed_neighbour_answers : ∃ after,
    (resolved informed 2).nodes.get? requester = some after ∧
    after.Resolved (identity 3).peerId (identity 3).publicKeyBytes 0 := by
  have hfirst : (line informed).nodes.get? requester = some first :=
    get?_set_self ..
  exact ResolutionNet.resolution_reaches_requester signaturesVerify hfirst (by
    decide +kernel) (by decide +kernel) (by decide +kernel) (constant 16 9)
    (replicate 2 (.deliver 0 0)) (by decide +kernel) (by decide +kernel)

/-- Node 2 passes the request on to node 3, whose answer ends at node 2: when
all packets are processed, node 1 still waits. -/
theorem second_hop_unanswered :
    let second := node 2 [(3, some wanted)]
    (line second).nodes.get? requester = some first ∧
    first.holdsKey (identity 3).peerId (identity 3).publicKeyBytes = true ∧
    first.peerTable.getEndpoint (identity 3).peerId = none ∧
    (line second).reachable (identity 3).peerId (identity 3).publicKeyBytes
      (maxTtl + 1) requester = true ∧
    EveryStep ResolutionNet.step (fun state event => allowedStep
      permitsDatagram state event = true)
      (resolved second 0) (replicate 3 (.deliver 0 0)) ∧
    (resolved second 3).wire = [] ∧
    ((resolved second 3).nodes.get? requester).map
      (fun node => node.resolver.futures[first.resolver.futures.length]?) =
        some (some none) := by
  refine ⟨get?_set_self .., ?_⟩
  decide +kernel

end ResolutionWitness

end AshiChat
