/-
Peer resolution (`resolution.py` and its callbacks in `node.py`): the request
cache, the pending futures, and how a node answers `RESOLVE_REQUEST` and
`ENDPOINT_UPDATE`.  A future is a number; its result is set at most once.
-/
import AshiChat.EndpointStore
import AshiChat.KeyAgreement
import AshiChat.RateLimiter

namespace AshiChat

open OrderedDict Option Nat List

/-- The bytes an endpoint signature covers; `struct.pack` refuses a port or a
version that does not fit. -/
def endpointSigData (ip : String) (port version : Nat) : Except PyError Bytes :=
  if port < 2 ^ 16 ∧ version < 2 ^ 64 then
    .ok (endpointSignedData ip (UInt16.ofNat port) (UInt64.ofNat version))
  else .error .structError

/-- The signature of the update verifies under the key.  A key of another
length than 32 bytes is no key. -/
def EndpointUpdatePayload.signedBy (P : Primitives) (publicKey : Bytes)
    (update : EndpointUpdatePayload) : Bool :=
  match endpointSigData update.endpointIp update.endpointPort
      update.versionCounter with
  | .error _ => false
  | .ok data =>
    publicKey.length == 32 && verifySignature P publicKey data update.signature

/-- `_verify_endpoint_signature`; an exception ends the handler as a `False`
does. -/
def verifyEndpointSignature (P : Primitives) (table : PeerTable)
    (update : EndpointUpdatePayload) : Bool :=
  match table.peers.get? update.peerId with
  | none => false
  | some entry => update.signedBy P entry.publicKey

/-- `_build_endpoint_update` for the node's own id: the counter afterwards, and
the update or the exception. -/
def buildEndpointUpdate {P : Primitives} (identity : LocalIdentity P)
    (localVersion : Nat) (endpoint : Address) :
    Nat × Except PyError EndpointUpdatePayload :=
  let version := localVersion + 1
  (version, do
    let data ← endpointSigData endpoint.1 endpoint.2 version
    return {
      peerId := identity.peerId
      endpointIp := endpoint.1
      endpointPort := endpoint.2
      versionCounter := version
      signature := identity.sign data })

variable {P : Primitives} {localVersion : Nat} {endpoint : Address}
  {update : EndpointUpdatePayload}

/-- What a node says about itself is the address it was given, under the next
version, with a signature of its own. -/
theorem buildEndpointUpdate_names {identity : LocalIdentity P}
    (hbuilt : (buildEndpointUpdate identity localVersion endpoint).2 =
      .ok update) :
    update.peerId = identity.peerId ∧
      (update.endpointIp, update.endpointPort) = endpoint ∧
      update.versionCounter = localVersion + 1 ∧
      ∃ data, update.signature = identity.sign data := by
  simp only [buildEndpointUpdate] at hbuilt
  cases hdata : endpointSigData endpoint.1 endpoint.2 (localVersion + 1) with
  | error =>
    rw [hdata] at hbuilt
    cases hbuilt
  | ok data =>
    rw [hdata] at hbuilt
    cases hbuilt
    exact ⟨rfl, rfl, rfl, data, rfl⟩

/-- A port and a counter that fit give an update that verifies. -/
theorem buildEndpointUpdate_signed (hverify : P.SignaturesVerify)
    (identity : LocalIdentity P) (hport : endpoint.2 < 2 ^ 16)
    (hversion : localVersion + 1 < 2 ^ 64) :
    ∃ update, (buildEndpointUpdate identity localVersion endpoint).2 =
        .ok update ∧
      update.peerId = identity.peerId ∧
      update.signedBy P identity.publicKeyBytes = true := by
  have hdata : endpointSigData endpoint.1 endpoint.2 (localVersion + 1) =
      .ok (endpointSignedData endpoint.1 (UInt16.ofNat endpoint.2)
        (UInt64.ofNat (localVersion + 1))) :=
    if_pos ⟨hport, hversion⟩
  refine ⟨_, by rw [buildEndpointUpdate, hdata]; rfl, rfl, ?_⟩
  simp only [EndpointUpdatePayload.signedBy, hdata, beq_self_eq_true,
    identity.length_publicKeyBytes, Bool.true_and, verifySignature]
  rw [identity.publicKeyBytes_eq]
  exact hverify identity.privateKey _

theorem verifyEndpointSignature_eq {table : PeerTable} {key : Bytes}
    (hkey : (table.peers.get? update.peerId).map PeerEntry.publicKey =
      some key) :
    verifyEndpointSignature P table update = update.signedBy P key := by
  obtain ⟨_, hentry, rfl⟩ := map_eq_some_iff.mp hkey
  rw [verifyEndpointSignature, hentry]

namespace PeerTable

def getEndpoint (table : PeerTable) (peerId : PeerId) : Option Address :=
  (table.peers.get? peerId).bind PeerEntry.endpoint

/-- The signed record `_handle_resolve_request` serves from an entry. -/
def servedUpdate (target : PeerId) (entry : PeerEntry) :
    Option EndpointUpdatePayload :=
  match entry.endpoint, entry.endpointSignature with
  | some endpoint, some signature =>
    if 0 < entry.versionCounter then
      some {
        peerId := target
        endpointIp := endpoint.1
        endpointPort := endpoint.2
        versionCounter := entry.versionCounter
        signature := signature }
    else none
  | _, _ => none

variable {target : PeerId} {update : EndpointUpdatePayload} {table : PeerTable}

theorem servedUpdate_eq_some {entry : PeerEntry} :
    servedUpdate target entry = some update ↔
      ∃ endpoint signature, entry.endpoint = some endpoint ∧
        entry.endpointSignature = some signature ∧
        0 < entry.versionCounter ∧
        update = ⟨target, endpoint.1, endpoint.2, entry.versionCounter,
          signature⟩ := by
  unfold servedUpdate
  split
  · next endpoint signature hendpoint hsignature =>
    rw [hendpoint, hsignature]
    constructor
    · intro hserved
      split at hserved
      · next hversion =>
        exact ⟨endpoint, signature, rfl, rfl, hversion, (some.inj hserved).symm⟩
      · cases hserved
    · rintro ⟨_, _, ⟨⟩, ⟨⟩, hversion, rfl⟩
      rw [if_pos hversion]
  · next hmissing =>
    constructor
    · rintro ⟨⟩
    · rintro ⟨endpoint, signature, hendpoint, hsignature, -⟩
      exact absurd hsignature (hmissing endpoint signature hendpoint)

/-- The cached `ENDPOINT_UPDATE` for a target. -/
def cachedUpdate (table : PeerTable) (target : PeerId) :
    Option EndpointUpdatePayload :=
  (table.peers.get? target).bind (servedUpdate target)

/-- What `_apply_endpoint_update` does to an entry. -/
def updateEntry (update : EndpointUpdatePayload) (entry : PeerEntry) :
    PeerEntry :=
  if entry.versionCounter < update.versionCounter then
    { entry with
      endpoint := some (update.endpointIp, update.endpointPort)
      versionCounter := update.versionCounter
      endpointSignature := some update.signature }
  else entry

/-- `_apply_endpoint_update`, the part in memory. -/
def applyEndpointUpdate (table : PeerTable) (update : EndpointUpdatePayload) :
    PeerTable :=
  table.modifyEntry update.peerId (updateEntry update) (by
    intro entry
    unfold updateEntry
    split <;> rfl)

theorem publicKey_applyEndpointUpdate (table : PeerTable)
    (update : EndpointUpdatePayload) (peerId : PeerId) :
    ((table.applyEndpointUpdate update).peers.get? peerId).map
        PeerEntry.publicKey =
      (table.peers.get? peerId).map PeerEntry.publicKey := by
  simp only [applyEndpointUpdate, modifyEntry, get?_modify]
  split
  · rw [Option.map_map]
    refine congrArg (Option.map · _) (funext fun entry => ?_)
    rw [Function.comp_apply, updateEntry]
    split <;> rfl
  · rfl

theorem peerId_of_cachedUpdate
    (hcached : table.cachedUpdate target = some update) :
    update.peerId = target := by
  obtain ⟨_, -, hserved⟩ := bind_eq_some_iff.mp hcached
  obtain ⟨_, _, -, -, -, rfl⟩ := servedUpdate_eq_some.mp hserved
  rfl

/-- An update keeps records in the cache. -/
theorem isSome_cachedUpdate_applyEndpointUpdate (update : EndpointUpdatePayload)
    (hcached : (table.cachedUpdate target).isSome) :
    ((table.applyEndpointUpdate update).cachedUpdate target).isSome := by
  simp only [cachedUpdate, applyEndpointUpdate, modifyEntry,
    get?_modify] at hcached ⊢
  split
  · cases hentry : table.peers.get? target with
    | none =>
      rw [hentry] at hcached
      cases hcached
    | some =>
      rw [hentry] at hcached
      rw [map_some, bind_some, updateEntry]
      split
      · next hnewer => simp [servedUpdate, zero_lt_of_lt hnewer]
      · exact hcached
  · exact hcached

/-- What is served after an update was served before, or is the update. -/
theorem cachedUpdate_applyEndpointUpdate {served : EndpointUpdatePayload}
    (hserved : (table.applyEndpointUpdate update).cachedUpdate target =
      some served) :
    table.cachedUpdate target = some served ∨
      target = update.peerId ∧ served = update := by
  simp only [cachedUpdate, applyEndpointUpdate, modifyEntry,
    get?_modify] at hserved
  split at hserved
  · next htarget =>
    obtain ⟨_, hentry, hupdated⟩ := bind_eq_some_iff.mp hserved
    obtain ⟨_, hold, rfl⟩ := map_eq_some_iff.mp hentry
    unfold updateEntry at hupdated
    split at hupdated
    · next hnewer =>
      refine .inr ⟨htarget.symm, ?_⟩
      simp only [servedUpdate, zero_lt_of_lt hnewer,
        ↓reduceIte, some.injEq] at hupdated
      rw [← hupdated, ← htarget]
    · refine .inl ?_
      rw [cachedUpdate, hold]
      exact hupdated
  · exact .inl hserved

end PeerTable

def cacheTtl : ℚ := 300

def maxCache : Nat := 1000

/-- The overlay it asks for, the ids of requests it has seen, and the future
that waits for each target.  A waiting future has been created, and it waits
for one target. -/
structure Resolver where
  overlay : List PeerId
  requestCache : OrderedDict Bytes ℚ
  pending : OrderedDict PeerId Nat
  futures : List (Option Address)
  created : ∀ target future, pending.get? target = some future →
    future < futures.length
  distinct : ∀ left right future, pending.get? left = some future →
    pending.get? right = some future → left = right

namespace Resolver

def empty : Resolver where
  overlay := []
  requestCache := .empty
  pending := .empty
  futures := []
  created := by simp
  distinct := by simp

def cleanupCache (resolver : Resolver) (now : ℚ) : Resolver :=
  let expired := resolver.requestCache.entries.filter fun entry =>
    entry.2 < now - cacheTtl
  { resolver with
    requestCache := (expired.map Prod.fst).foldl erase resolver.requestCache }

/-- Enter a request id, and drop the oldest ids beyond `MAX_CACHE`. -/
def remember (resolver : Resolver) (requestId : Bytes) (now : ℚ) : Resolver :=
  let cache := resolver.requestCache.set requestId now
  let oldest := (cache.entries.mergeSort fun left right =>
    left.2 ≤ right.2).map Prod.fst
  { resolver with
    requestCache :=
      if cache.size > maxCache then
        (oldest.take (cache.size - maxCache)).foldl erase cache
      else cache }

/-- The network part of `resolve_peer`: a new future for the target, and a
request to every overlay peer with an endpoint. -/
def request (resolver : Resolver) (table : PeerTable) (target : PeerId)
    (requestId : Random 16) :
    Resolver × List (ResolveRequestPayload × Address) :=
  let packet : ResolveRequestPayload := ⟨requestId.val, target, maxTtl⟩
  ({ resolver with
      pending := resolver.pending.set target resolver.futures.length
      futures := resolver.futures ++ [none]
      created := by
        intro other future hother
        rw [get?_set] at hother
        rw [length_append, length_singleton]
        split at hother
        · cases hother
          exact lt_succ_self _
        · exact lt_succ_of_lt (resolver.created other future hother)
      distinct := by
        intro left right future hleft hright
        rw [get?_set] at hleft hright
        split at hleft <;> split at hright
        · next hl hr => exact hl.symm.trans hr
        · cases hleft
          exact absurd (resolver.created _ _ hright) (Nat.lt_irrefl _)
        · cases hright
          exact absurd (resolver.created _ _ hleft) (Nat.lt_irrefl _)
        · exact resolver.distinct left right future hleft hright },
    (resolver.overlay.filterMap table.getEndpoint).map fun endpoint =>
      (packet, endpoint))

/-- The `finally` of `resolve_peer`, after a result or a timeout. -/
def finish (resolver : Resolver) (target : PeerId) : Resolver := { resolver with
    pending := resolver.pending.erase target
    created := by
      intro other future hother
      rw [get?_erase] at hother
      split at hother
      · cases hother
      · exact resolver.created other future hother
    distinct := by
      intro left right future hleft hright
      rw [get?_erase] at hleft hright
      split at hleft
      · cases hleft
      · split at hright
        · cases hright
        · exact resolver.distinct left right future hleft hright }

def handleResolveRequest (resolver : Resolver) (localId : PeerId)
    (table : PeerTable) (packet : ResolveRequestPayload)
    (senderAddr : Address) (now : ℚ) :
    Resolver × List (ResolveRequestPayload × Address) :=
  let resolver := resolver.cleanupCache now
  if resolver.requestCache.contains packet.requestId then (resolver, [])
  else
    let resolver := resolver.remember packet.requestId now
    if packet.targetPeerId = localId then (resolver, [])
    else if (table.getEndpoint packet.targetPeerId).isSome then (resolver, [])
    else if 0 < packet.ttl then
      let forward := { packet with ttl := packet.ttl - 1 }
      (resolver, ((resolver.overlay.filterMap table.getEndpoint).filter
        (· ≠ senderAddr)).map fun endpoint => (forward, endpoint))
    else (resolver, [])

/-- Handling a request touches no future. -/
theorem handleResolveRequest_frame (resolver : Resolver) (localId : PeerId)
    (table : PeerTable) (packet : ResolveRequestPayload)
    (senderAddr : Address) (now : ℚ) :
    let after :=
      resolver.handleResolveRequest localId table packet senderAddr now
    after.1.pending = resolver.pending ∧ after.1.futures = resolver.futures := by
  simp only [handleResolveRequest]
  split_ifs <;> exact ⟨rfl, rfl⟩

/-- Requests are forwarded with one hop less. -/
theorem mem_handleResolveRequest {resolver : Resolver} {localId : PeerId}
    {table : PeerTable} {packet : ResolveRequestPayload}
    {senderAddr : Address} {now : ℚ} {sent : ResolveRequestPayload × Address}
    (hsent : sent ∈ (resolver.handleResolveRequest localId table packet
      senderAddr now).2) :
    0 < packet.ttl ∧ sent.1 = { packet with ttl := packet.ttl - 1 } := by
  simp only [handleResolveRequest] at hsent
  split_ifs at hsent with _ _ _ httl
  · cases hsent
  · cases hsent
  · cases hsent
  · obtain ⟨_, -, rfl⟩ := mem_map.mp hsent
    exact ⟨httl, rfl⟩
  · cases hsent

/-- The last part of `handle_endpoint_update`: the result of the future that
waits for the peer, unless it is done. -/
def complete (resolver : Resolver) (peerId : PeerId) (endpoint : Address) :
    Resolver :=
  match resolver.pending.get? peerId with
  | none => resolver
  | some future =>
    match resolver.futures[future]? with
    | some none =>
      { resolver with
        futures := resolver.futures.set future (some endpoint)
        created := by
          rw [length_set]
          exact resolver.created }
    | _ => resolver

variable {resolver : Resolver} {target : PeerId} {future : Nat}

theorem pending_complete (resolver : Resolver) (peerId : PeerId)
    (endpoint : Address) :
    (resolver.complete peerId endpoint).pending = resolver.pending := by
  unfold complete
  split
  · rfl
  · split <;> rfl

theorem complete_waiting (hpending : resolver.pending.get? target = some future)
    (hwaiting : resolver.futures[future]? = some none) (endpoint : Address) :
    (resolver.complete target endpoint).futures[future]? =
      some (some endpoint) := by
  simp only [complete, hpending, hwaiting]
  exact getElem?_set_self (resolver.created target future hpending)

/-- A result is set once. -/
theorem complete_done {result : Address}
    (hdone : resolver.futures[future]? = some (some result)) (peerId : PeerId)
    (endpoint : Address) :
    (resolver.complete peerId endpoint).futures[future]? =
      some (some result) := by
  unfold complete
  split
  · exact hdone
  · next other _ =>
    split
    · next hother =>
      have hne : other ≠ future := by
        rintro rfl
        rw [hdone] at hother
        cases hother
      rw [getElem?_set_ne hne]
      exact hdone
    · exact hdone

/-- An update for another peer leaves the future alone. -/
theorem complete_other (hpending : resolver.pending.get? target = some future)
    {peerId : PeerId} (hne : peerId ≠ target) (endpoint : Address) :
    (resolver.complete peerId endpoint).futures[future]? =
      resolver.futures[future]? := by
  unfold complete
  split
  · rfl
  · next other hother =>
    have hfuture : other ≠ future := by
      rintro rfl
      exact hne (resolver.distinct peerId target other hother hpending)
    split
    · exact getElem?_set_ne hfuture
    · rfl

end Resolver

end AshiChat
