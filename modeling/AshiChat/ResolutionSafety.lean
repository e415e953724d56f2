/-
What holds across any exchange of `RESOLVE_REQUEST` and `ENDPOINT_UPDATE`
packets: which addresses signed records name, and how far one request
travels.
-/
import AshiChat.ResolutionNetwork

namespace AshiChat

open EventRun List ResolutionNode Option OrderedDict ResolutionNet Reference

variable {P : Primitives}

/-- The update names the address of the peer it is about. -/
def EndpointUpdatePayload.NamesOwner (owns : PeerId → Address → Prop)
    (update : EndpointUpdatePayload) : Prop :=
  ∀ address, owns update.peerId address →
    (update.endpointIp, update.endpointPort) = address

namespace ResolutionNode

/-- Every signed endpoint of the table, and every one on its way to the
database, is the address of its peer. -/
structure TrueRecords (owns : PeerId → Address → Prop)
    (node : ResolutionNode P) : Prop where
  table : ∀ target update, node.peerTable.cachedUpdate target = some update →
    update.NamesOwner owns
  scheduled : ∀ task ∈ node.updates, ∀ address, owns task.peerId address →
    task.endpoint = formatEndpoint address

/-- A request for the node itself comes from the node's own host. -/
def askedFromOwnHost (node : ResolutionNode P) (_now : ℚ)
    (datagram : Datagrams.Datagram Address ResolutionMessage) : Bool :=
  match datagram.message with
  | .request packet =>
    packet.targetPeerId ≠ node.identity.peerId ||
      datagram.source.1 = datagram.target.1
  | .update _ => true

variable {owns : PeerId → Address → Prop} {node : ResolutionNode P}

theorem TrueRecords.handleEndpointUpdate (htrue : node.TrueRecords owns)
    {update : EndpointUpdatePayload} (hupdate : update.NamesOwner owns) :
    (node.handleEndpointUpdate update).TrueRecords owns := by
  unfold ResolutionNode.handleEndpointUpdate
  split
  · constructor
    · intro target served hserved
      rcases PeerTable.cachedUpdate_applyEndpointUpdate hserved with
        hold | ⟨-, rfl⟩
      · exact htrue.table target served hold
      · exact hupdate
    · intro task hmem address howns
      rcases mem_append.mp hmem with hmem | hmem
      · exact htrue.scheduled task hmem address howns
      · cases mem_singleton.mp hmem
        exact congrArg formatEndpoint (hupdate address howns)
  · exact htrue

/-- Answering a request sends true updates only. -/
theorem TrueRecords.answer (htrue : node.TrueRecords owns) {self : Address}
    (hself : ∀ address, owns node.identity.peerId address → self = address)
    (packet : ResolveRequestPayload) (source : Address) (now : ℚ)
    (hhost : packet.targetPeerId = node.identity.peerId → source.1 = self.1) :
    (node.answer self packet source now).1.TrueRecords owns ∧
      ∀ message ∈ (node.answer self packet source now).2,
        ∀ update, message.1 = .update update → update.NamesOwner owns := by
  rcases answer_cases node self packet source now with
    ⟨howned, _, sent, heq, hsent⟩ | ⟨-, cached, hcached, heq⟩ |
    ⟨-, -, _, -, heq⟩ | ⟨-, _, sent, heq, -⟩
  · rw [heq]
    refine ⟨⟨htrue.table, htrue.scheduled⟩, ?_⟩
    intro message hmem update hupdate
    obtain ⟨_, rfl, hid, hnames⟩ := hsent message hmem
    cases hupdate
    intro address howns
    rw [hid] at howns
    rw [hnames, hhost howned, hself address howns]
  · rw [heq]
    refine ⟨htrue, ?_⟩
    intro message hmem update hupdate
    cases mem_singleton.mp hmem
    cases hupdate
    exact htrue.table _ cached hcached
  · rw [heq]
    refine ⟨htrue, ?_⟩
    intro message hmem update hupdate
    cases mem_singleton.mp hmem
    cases hupdate
  · rw [heq]
    refine ⟨⟨htrue.table, htrue.scheduled⟩, ?_⟩
    intro message hmem update hupdate
    obtain ⟨_, -, rfl⟩ := mem_map.mp hmem
    cases hupdate

end ResolutionNode

namespace ResolutionNet

/-- Updates in flight and signed endpoints kept by nodes are true. -/
def TrueRecords (owns : PeerId → Address → Prop) : ResolutionNet P → Prop :=
  Datagrams.AllOk (fun _ node => node.TrueRecords owns) fun datagram =>
    ∀ update, datagram.message = .update update → update.NamesOwner owns

/-- What the nodes keep while they exchange packets: their place and true
records. -/
theorem keeps_trueRecords {owns : PeerId → Address → Prop}
    (hdistinct : ∀ peerId left right, owns peerId left → owns peerId right →
      left = right) :
    Datagrams.Keeps (resolution P)
      (fun self node => owns node.identity.peerId self ∧ node.TrueRecords owns)
      (fun datagram => ∀ update, datagram.message = .update update →
        update.NamesOwner owns)
      askedFromOwnHost := by
  constructor
  · rintro self node request ⟨howns, htrue⟩
    obtain ⟨_, _, heq, -⟩ := node.call_cases self request
    rw [show (resolution P).call self node request = _ from heq]
    refine ⟨⟨howns, htrue.table, htrue.scheduled⟩, ?_⟩
    intro message hmem update hupdate
    obtain ⟨packet, -, rfl⟩ := mem_map.mp hmem
    cases hupdate
  · rintro node now ⟨source, self, message, causes⟩ ⟨howns, htrue⟩ hwire hhost
    have hidentity := node.identity_handlePacket self now source message
    obtain ⟨rateLimiter, globalLimiter, hcases⟩ :=
      handlePacket_cases self node now source message
    have hcounted : (node.charged rateLimiter globalLimiter).TrueRecords owns :=
      ⟨htrue.table, htrue.scheduled⟩
    dsimp only [resolution]
    rcases hcases with ⟨-, heq⟩ | ⟨packet, rfl, heq⟩ | ⟨update, rfl, heq⟩
    · rw [heq] at hidentity ⊢
      refine ⟨⟨howns, hcounted⟩, ?_⟩
      simp
    · rw [hidentity, heq]
      have hself : ∀ address, owns node.identity.peerId address →
          self = address := fun address => hdistinct _ self address howns
      have hsource : packet.targetPeerId = node.identity.peerId →
          source.1 = self.1 := by
        simpa [askedFromOwnHost, ← imp_iff_not_or] using hhost
      obtain ⟨hafter, hsent⟩ := hcounted.answer hself packet source now hsource
      exact ⟨⟨howns, hafter⟩, hsent⟩
    · rw [hidentity, heq]
      refine ⟨⟨howns, hcounted.handleEndpointUpdate (hwire update rfl)⟩, ?_⟩
      simp

/-- While nodes are asked about themselves from their own hosts only, every
update in flight and every signed endpoint kept for a peer names the peer's
own address. -/
theorem signed_endpoints_true {net : ResolutionNet P}
    (hdistinct : ∀ peerId left right, net.Owns peerId left →
      net.Owns peerId right → left = right)
    (hstart : net.TrueRecords net.Owns) (events : List ResolutionEvent)
    (hhosts : EveryStep step (fun state event => Datagrams.allowedStep
      askedFromOwnHost state event = true) net events) :
    Along step (TrueRecords net.Owns) net events := by
  have hplaced : Datagrams.AllOk
      (fun self node => net.Owns node.identity.peerId self ∧
        node.TrueRecords net.Owns)
      (fun datagram => ∀ update, datagram.message = .update update →
        update.NamesOwner net.Owns) net := by
    refine ⟨?_, hstart.2⟩
    intro self node hnode
    refine ⟨?_, hstart.1 self node hnode⟩
    rw [Owns, hnode, map_some]
  intro pre hpre
  obtain ⟨hnodes, hwire⟩ :=
    (keeps_trueRecords hdistinct).along hplaced hhosts pre hpre
  exact ⟨fun self node hnode => (hnodes self node hnode).2, hwire⟩

end ResolutionNet

namespace ResolutionWitness

open Reference

def host : Address := ("10.0.0.2", 9000)

def neighbour : Address := ("10.0.0.2", 9001)

def elsewhere : Address := ("10.0.0.1", 9000)

/-- Node 2 at `host`, and node 1 that knows it, at the given address. -/
def askers (address : Address) : ResolutionNet primitives where
  nodes := (empty.set host (node 2 [])).set address (node 1 [(2, some host)])
  wire := []

/-- Node 1 resolves node 2 over the network, and all packets arrive. -/
def asking (address : Address) : List ResolutionEvent :=
  [.call address (.resolvePeer (identity 2).peerId true (constant 16 9)),
    .deliver 0 0, .deliver 0 0]

theorem get?_askers {address self : Address} {found : ResolutionNode primitives}
    (hget : (askers address).nodes.get? self = some found) :
    self = address ∧ found = node 1 [(2, some host)] ∨
      self = host ∧ found = node 2 [] := by
  rcases get?_set_cases hget with hasker | ⟨-, hget⟩
  · exact .inl hasker
  · rcases get?_set_cases hget with hhost | ⟨-, hget⟩
    · exact .inr hhost
    · cases hget

theorem owns_askers {address : Address} {peerId : PeerId} {self : Address}
    (howns : (askers address).Owns peerId self) :
    self = address ∧ peerId = (identity 1).peerId ∨
      self = host ∧ peerId = (identity 2).peerId := by
  obtain ⟨_, hget, rfl⟩ := map_eq_some_iff.mp howns
  rcases get?_askers hget with ⟨rfl, rfl⟩ | ⟨rfl, rfl⟩
  · exact .inl ⟨rfl, rfl⟩
  · exact .inr ⟨rfl, rfl⟩

theorem distinct_askers {address : Address} (peerId : PeerId)
    (left right : Address) (hleft : (askers address).Owns peerId left)
    (hright : (askers address).Owns peerId right) : left = right := by
  have hne : (identity 1).peerId ≠ (identity 2).peerId := by decide
  rcases owns_askers hleft with ⟨rfl, hl⟩ | ⟨rfl, hl⟩ <;>
    rcases owns_askers hright with ⟨rfl, hr⟩ | ⟨rfl, hr⟩
  · rfl
  · exact absurd (hl.symm.trans hr) hne
  · exact absurd (hr.symm.trans hl) hne
  · rfl

theorem trueRecords_askers (address : Address) :
    (askers address).TrueRecords (askers address).Owns := by
  refine ⟨?_, by simp [askers]⟩
  have hunsigned : ∀ key peers, (node key peers).TrueRecords
      (askers address).Owns := by
    intro key peers
    refine ⟨?_, by simp [node]⟩
    intro target update hcached
    rw [show (node key peers).peerTable = table key peers from rfl,
      cachedUpdate_table] at hcached
    cases hcached
  intro self found hget
  rcases get?_askers hget with ⟨-, rfl⟩ | ⟨-, rfl⟩
  · exact hunsigned _ _
  · exact hunsigned _ _

/-- Asked by a process of its own host, node 2 signs its own address. -/
theorem own_host_true : (run step (askers neighbour)
      (asking neighbour)).TrueRecords (askers neighbour).Owns :=
  signed_endpoints_true distinct_askers
    (trueRecords_askers neighbour) (asking neighbour) (by decide +kernel)
    (asking neighbour) (prefix_refl _)

/-- Asked from another host, node 2 signs the address of the one who asks, who
then keeps it. -/
theorem requester_address_signed :
    (∀ peerId left right, (askers elsewhere).Owns peerId left →
        (askers elsewhere).Owns peerId right → left = right) ∧
      (askers elsewhere).TrueRecords (askers elsewhere).Owns ∧
      ¬ (run step (askers elsewhere)
        (asking elsewhere)).TrueRecords (askers elsewhere).Owns := by
  refine ⟨distinct_askers, trueRecords_askers elsewhere, ?_⟩
  intro htrue
  have hstored : (((run step (askers elsewhere)
      (asking elsewhere)).nodes.get? elsewhere).bind fun found =>
        found.peerTable.cachedUpdate (identity 2).peerId).map (fun update =>
          (update.peerId, update.endpointIp, update.endpointPort)) =
      some ((identity 2).peerId, elsewhere) := by
    decide +kernel
  obtain ⟨update, hserved, hnames⟩ := map_eq_some_iff.mp hstored
  obtain ⟨found, hfound, hupdate⟩ := bind_eq_some_iff.mp hserved
  obtain ⟨hid, hendpoint⟩ := Prod.mk.inj hnames
  have howns : (askers elsewhere).Owns update.peerId host := by
    rw [hid, ResolutionNet.Owns]
    decide +kernel
  have hhost := (htrue.1 elsewhere found hfound).table _ update hupdate host
    howns
  rw [hendpoint] at hhost
  exact absurd hhost (by decide)

end ResolutionWitness

namespace ResolutionNode

/-- The node does not hold an unsigned endpoint of the target: it is the
target, it has a signed record, or it has no endpoint at all. -/
def noRawEndpoint (node : ResolutionNode P) (_now : ℚ)
    (datagram : Datagrams.Datagram Address ResolutionMessage) : Bool :=
  match datagram.message with
  | .request packet =>
    packet.targetPeerId = node.identity.peerId ||
      (node.peerTable.cachedUpdate packet.targetPeerId).isSome ||
      (node.peerTable.getEndpoint packet.targetPeerId).isNone
  | .update _ => true

/-- The requests a datagram descends from, itself included. -/
def requestChain (datagram : Datagrams.Datagram Address ResolutionMessage) :
    List ResolveRequestPayload :=
  (datagram.message :: datagram.causes).filterMap fun message =>
    match message with
    | .request packet => some packet
    | .update _ => none

/-- The hops a request has made and those it may still make are within the
limit. -/
def HopsLeft (datagram : Datagrams.Datagram Address ResolutionMessage) :
    Prop :=
  match datagram.message with
  | .request packet => datagram.causes.length + packet.ttl ≤ maxTtl
  | .update _ => datagram.causes.length ≤ maxTtl + 1

theorem HopsLeft.length_requestChain
    {datagram : Datagrams.Datagram Address ResolutionMessage}
    (hhops : HopsLeft datagram) :
    (requestChain datagram).length ≤ maxTtl + 1 := by
  obtain ⟨_, _, message, causes⟩ := datagram
  cases message with
  | request =>
    have hcauses : causes.length ≤ maxTtl := Nat.le_of_add_right_le hhops
    exact (length_filterMap_le _ _).trans (Nat.succ_le_succ hcauses)
  | update =>
    have hlength : causes.length ≤ maxTtl + 1 := hhops
    rw [requestChain, filterMap_cons_none rfl]
    exact (length_filterMap_le _ _).trans hlength

/-- Only a request leads to further packets: an update one hop on, or requests
with one hop less. -/
theorem hopsLeft_answer (node : ResolutionNode P) {self source : Address}
    {packet : ResolveRequestPayload} {causes : List ResolutionMessage}
    {now : ℚ} (hhops : causes.length + packet.ttl ≤ maxTtl)
    (hraw : node.noRawEndpoint now ⟨source, self, .request packet, causes⟩ =
      true) :
    ∀ message ∈ (node.answer self packet source now).2,
      HopsLeft ⟨self, message.2, message.1, .request packet :: causes⟩ := by
  have hupdate : (ResolutionMessage.request packet :: causes).length ≤
      maxTtl + 1 := by
    rw [length_cons]
    omega
  rcases answer_cases node self packet source now with
    ⟨-, _, sent, heq, hsent⟩ | ⟨-, _, -, heq⟩ |
    ⟨hother, hcached, _, hknown, -⟩ | ⟨-, _, sent, heq, -, -, hsent⟩
  · rw [heq]
    intro message hmem
    obtain ⟨_, rfl, -⟩ := hsent message hmem
    exact hupdate
  · rw [heq]
    intro message hmem
    cases mem_singleton.mp hmem
    exact hupdate
  · simp [noRawEndpoint, hother, hcached, hknown] at hraw
  · rw [heq]
    intro message hmem
    obtain ⟨request, hrequest, rfl⟩ := mem_map.mp hmem
    obtain ⟨_, hforward⟩ := hsent request hrequest
    simp only [HopsLeft, hforward, length_cons]
    omega

end ResolutionNode

namespace ResolutionNet

theorem keeps_hopsLeft : Datagrams.Keeps (resolution P) (fun _ _ => True)
    ResolutionNode.HopsLeft noRawEndpoint := by
  constructor
  · intro self node request _
    obtain ⟨_, _, heq, hsent⟩ := node.call_cases self request
    rw [show (resolution P).call self node request = _ from heq]
    refine ⟨trivial, ?_⟩
    intro message hmem
    obtain ⟨packet, hpacket, rfl⟩ := mem_map.mp hmem
    simp [ResolutionNode.HopsLeft, hsent packet hpacket]
  · rintro node now ⟨source, self, message, causes⟩ - hhops hraw
    obtain ⟨rateLimiter, globalLimiter, hcases⟩ :=
      handlePacket_cases self node now source message
    dsimp only [resolution]
    refine ⟨trivial, ?_⟩
    rcases hcases with ⟨-, heq⟩ | ⟨packet, rfl, heq⟩ | ⟨_, rfl, heq⟩
    · simp [heq]
    · rw [heq]
      exact (node.charged rateLimiter globalLimiter).hopsLeft_answer hhops hraw
    · simp [heq]

/-- While no node that is asked holds an unsigned endpoint of the target, a
chain of requests that starts with `resolve_peer` has at most `MAX_TTL + 1`
of them. -/
theorem request_chains_bounded {net : ResolutionNet P} (hquiet : net.wire = [])
    (events : List ResolutionEvent)
    (hraw : EveryStep step (fun state event => Datagrams.allowedStep
      noRawEndpoint state event = true) net events) :
    Along step (fun state => ∀ datagram ∈ state.wire,
      (requestChain datagram).length ≤ maxTtl + 1) net
      events := by
  have hstart : Datagrams.AllOk (fun _ _ => True) ResolutionNode.HopsLeft
      net := by
    refine ⟨fun _ _ _ => trivial, ?_⟩
    rw [hquiet]
    simp
  intro pre hpre datagram hmem
  obtain ⟨-, hwire⟩ := keeps_hopsLeft.along hstart hraw pre hpre
  exact (hwire datagram hmem).length_requestChain

end ResolutionNet

namespace ResolutionWitness

/-- Nodes 2 and 3 hold each other's address as the endpoint of node 4, which
is gone; node 1 asks node 2. -/
def stale : ResolutionNet primitives where
  nodes := ((empty.set host (node 2 [(4, some neighbour)])).set
    neighbour (node 3 [(4, some host)])).set elsewhere (node 1 [(2, some host)])
  wire := []

/-- A ring search: node 1 asks node 2, which asks node 3. -/
def ring : ResolutionNet primitives where
  nodes := ((empty.set host (node 2 [(3, some neighbour)])).set
    neighbour (node 3 [])).set elsewhere (node 1 [(2, some host)])
  wire := []

def searching (count : Nat) : List ResolutionEvent :=
  .call elsewhere (.resolvePeer (identity 4).peerId false (constant 16 9)) ::
    List.replicate count (.deliver 0 0)

theorem ring_search_bounded : Along step (fun state => ∀ datagram ∈ state.wire,
      (requestChain datagram).length ≤ maxTtl + 1) ring
      (searching 2) :=
  request_chains_bounded rfl (searching 2) (by decide +kernel)

/-- The request goes back and forth between the two nodes. -/
theorem stale_endpoints_circulate : stale.wire = [] ∧
    ∃ datagram ∈ (run step stale (searching 8)).wire,
      (requestChain datagram).length = maxTtl + 4 := by
  decide +kernel

end ResolutionWitness

end AshiChat
