/-
Endpoint updates in memory (`_apply_endpoint_update`): an entry follows the
newest version it has seen.  Whatever the order and the repetitions, the
endpoint, the version and the signature end up being those of one update, the
one with the greatest version.
-/
import AshiChat.Resolution

namespace AshiChat

open List

/-- The entry with the endpoint, the version and the signature of the update. -/
def PeerEntry.moved (entry : PeerEntry) (update : EndpointUpdatePayload) :
    PeerEntry :=
  { entry with
    endpoint := some (update.endpointIp, update.endpointPort)
    versionCounter := update.versionCounter
    endpointSignature := some update.signature }

/-- What an entry has become after some updates: it stayed, since none was
newer, or it has moved to one of them, and none is newer than that one. -/
inductive Newest (entry : PeerEntry) (seen : List EndpointUpdatePayload) :
    PeerEntry → Prop where
  | stayed (hold : ∀ update ∈ seen,
        update.versionCounter ≤ entry.versionCounter) :
      Newest entry seen entry
  | moved {update : EndpointUpdatePayload} (hmem : update ∈ seen)
      (hnewer : entry.versionCounter < update.versionCounter)
      (hgreatest : ∀ other ∈ seen,
        other.versionCounter ≤ update.versionCounter) :
      Newest entry seen (entry.moved update)

namespace Newest

variable {entry result : PeerEntry} {seen : List EndpointUpdatePayload}

section

variable (hnewest : Newest entry seen result)

include hnewest

/-- One more update. -/
theorem step (update : EndpointUpdatePayload) :
    Newest entry (seen ++ [update]) (PeerTable.updateEntry update result) := by
  have hsnoc : ∀ bound, (∀ other ∈ seen, other.versionCounter ≤ bound) →
      update.versionCounter ≤ bound →
        ∀ other ∈ seen ++ [update], other.versionCounter ≤ bound := by
    intro bound hseen hupdate other hmem
    rcases mem_append.mp hmem with hother | hother
    · exact hseen other hother
    · rw [mem_singleton.mp hother]
      exact hupdate
  have hlast : update ∈ seen ++ [update] :=
    mem_append_right seen (mem_singleton_self update)
  unfold PeerTable.updateEntry
  cases hnewest with
  | stayed hold =>
    split
    · next hnewer =>
      refine .moved hlast hnewer (hsnoc _ ?_ le_rfl)
      intro other hmem
      exact (hold other hmem).trans (Nat.le_of_lt hnewer)
    · next hnot => exact .stayed (hsnoc _ hold (Nat.not_lt.mp hnot))
  | @moved current hmem hnewer hgreatest =>
    split
    · next hnext =>
      have habove : current.versionCounter < update.versionCounter := hnext
      refine .moved hlast (hnewer.trans habove) (hsnoc _ ?_ le_rfl)
      intro other hother
      exact (hgreatest other hother).trans (Nat.le_of_lt habove)
    · next hnot =>
      exact .moved (mem_append_left _ hmem) hnewer
        (hsnoc _ hgreatest (Nat.not_lt.mp hnot))

/-- The entry that stayed is the only one possible if no update is newer. -/
theorem eq_of_old (hold : ∀ update ∈ seen,
      update.versionCounter ≤ entry.versionCounter) : result = entry := by
  cases hnewest with
  | stayed => rfl
  | moved hmem hnewer => exact absurd (hold _ hmem) (Nat.not_le.mpr hnewer)

/-- Otherwise it has moved to the one greatest version. -/
theorem eq_of_greatest (hdistinct : ∀ left ∈ seen, ∀ right ∈ seen,
      left.versionCounter = right.versionCounter → left = right)
    {update : EndpointUpdatePayload} (hmem : update ∈ seen)
    (hnewer : entry.versionCounter < update.versionCounter)
    (hgreatest : ∀ other ∈ seen, other.versionCounter ≤ update.versionCounter) :
    result = entry.moved update := by
  cases hnewest with
  | stayed hold => exact absurd (hold update hmem) (Nat.not_le.mpr hnewer)
  | @moved current hcurrent _ habove =>
    have hversion := Nat.le_antisymm (habove update hmem)
      (hgreatest current hcurrent)
    rw [hdistinct current hcurrent update hmem hversion.symm]

end

end Newest

namespace PeerTable

/-- The updates of one peer, in the order in which they are applied. -/
def applyEndpointUpdates (table : PeerTable)
    (updates : List EndpointUpdatePayload) : PeerTable :=
  updates.foldl applyEndpointUpdate table

theorem get?_applyEndpointUpdate (table : PeerTable)
    (update : EndpointUpdatePayload) (peerId : PeerId) :
    (table.applyEndpointUpdate update).peers.get? peerId =
      if update.peerId = peerId then
        (table.peers.get? peerId).map (updateEntry update)
      else table.peers.get? peerId :=
  OrderedDict.get?_modify ..

/-- Updates of one peer leave the entries of the others. -/
theorem get?_applyEndpointUpdates_of_ne {peerId other : PeerId}
    (hother : peerId ≠ other) {updates : List EndpointUpdatePayload}
    (hpeer : ∀ update ∈ updates, update.peerId = peerId) (table : PeerTable) :
    (table.applyEndpointUpdates updates).peers.get? other =
      table.peers.get? other := by
  induction updates generalizing table with
  | nil => rfl
  | cons update _ ih =>
    rw [forall_mem_cons] at hpeer
    refine (ih hpeer.2 (table.applyEndpointUpdate update)).trans ?_
    rw [get?_applyEndpointUpdate, hpeer.1, if_neg hother]

/-- The entry follows the newest update. -/
theorem newest_applyEndpointUpdates {peerId : PeerId}
    {entry current : PeerEntry} {seen updates : List EndpointUpdatePayload}
    (hpeer : ∀ update ∈ updates, update.peerId = peerId) {table : PeerTable}
    (hcurrent : table.peers.get? peerId = some current)
    (hnewest : Newest entry seen current) :
    ∃ final, (table.applyEndpointUpdates updates).peers.get? peerId =
        some final ∧ Newest entry (seen ++ updates) final := by
  -- The updates move one by one from those to come to those seen.
  induction updates generalizing table current seen with
  | nil =>
    rw [append_nil]
    exact ⟨current, hcurrent, hnewest⟩
  | cons update _ ih =>
    rw [forall_mem_cons] at hpeer
    have hnext : (table.applyEndpointUpdate update).peers.get? peerId =
        some (updateEntry update current) := by
      rw [get?_applyEndpointUpdate, if_pos hpeer.1, hcurrent, Option.map_some]
    obtain ⟨final, hfinal, hlast⟩ := ih hpeer.2 hnext (hnewest.step update)
    rw [append_assoc, singleton_append] at hlast
    exact ⟨final, hfinal, hlast⟩

/-- Applied in any order and with any repetitions, updates of one peer with
distinct versions leave its entry at the greatest version, if that is newer
than the entry was, and all other entries as they were. -/
theorem updates_converge (table : PeerTable) {peerId : PeerId}
    {entry : PeerEntry} (hentry : table.peers.get? peerId = some entry)
    (updates : Finset EndpointUpdatePayload)
    (hpeer : ∀ update ∈ updates, update.peerId = peerId)
    (hdistinct : Set.InjOn EndpointUpdatePayload.versionCounter ↑updates)
    (applied : List EndpointUpdatePayload)
    (happlied : applied.toFinset = updates) :
    (∀ update ∈ updates,
      (∀ other ∈ updates, other.versionCounter ≤ update.versionCounter) →
      entry.versionCounter < update.versionCounter →
        (table.applyEndpointUpdates applied).peers.get? peerId =
          some (entry.moved update)) ∧
    ((∀ update ∈ updates, update.versionCounter ≤ entry.versionCounter) →
      (table.applyEndpointUpdates applied).peers.get? peerId = some entry) ∧
    ∀ other, peerId ≠ other →
      (table.applyEndpointUpdates applied).peers.get? other =
        table.peers.get? other := by
  have hmem : ∀ update, update ∈ applied ↔ update ∈ updates := fun update => by
    rw [← happlied, mem_toFinset]
  have hpeer' : ∀ update ∈ applied, update.peerId = peerId :=
    fun update hupdate => hpeer update ((hmem update).mp hupdate)
  have hstart : Newest entry [] entry := .stayed (by simp)
  obtain ⟨_, hfinal, hnewest⟩ :=
    newest_applyEndpointUpdates hpeer' hentry hstart
  rw [nil_append] at hnewest
  refine ⟨?_, ?_, ?_⟩
  · intro update hupdate hgreatest hnewer
    rw [hfinal]
    refine congrArg some (hnewest.eq_of_greatest ?_ ((hmem update).mpr hupdate)
      hnewer fun other hother => hgreatest other ((hmem other).mp hother))
    intro left hleft right hright hversion
    exact hdistinct ((hmem left).mp hleft) ((hmem right).mp hright) hversion
  · intro hold
    rw [hfinal]
    exact congrArg some (hnewest.eq_of_old fun update hupdate =>
      hold update ((hmem update).mp hupdate))
  · intro other hother
    exact get?_applyEndpointUpdates_of_ne hother hpeer' table

end PeerTable

namespace UpdateOrderWitness

open Reference

def peer : PeerId := (constant 32 7).1

def entry : PeerEntry where
  peerId := peer
  publicKey := (constant 32 2).1
  isDirect := true
  nickname := none
  endpoint := some ("10.0.0.1", 9000)
  lastSeen := 0

def table : PeerTable := (PeerTable.empty (constant 32 1).1).addDirectPeer peer
    entry.publicKey none entry.endpoint 0

def update (ip : String) (version : Nat) : EndpointUpdatePayload where
  peerId := peer
  endpointIp := ip
  endpointPort := 9000
  versionCounter := version
  signature := (constant 64 3).1

/-- The second version wins although the first comes after it. -/
theorem updates_converge_to_second : table.peers.get? peer = some entry ∧
      (table.applyEndpointUpdates [update "10.0.0.3" 2, update "10.0.0.2" 1,
        update "10.0.0.3" 2]).peers.get? peer =
          some (entry.moved (update "10.0.0.3" 2)) := by
  have hentry : table.peers.get? peer = some entry := by decide +kernel
  have hdistinct : Set.InjOn EndpointUpdatePayload.versionCounter
      ↑({update "10.0.0.2" 1, update "10.0.0.3" 2} :
        Finset EndpointUpdatePayload) := by
    simp [Set.InjOn, update]
  have hconverge := PeerTable.updates_converge table hentry
    {update "10.0.0.2" 1, update "10.0.0.3" 2} (by simp [update]) hdistinct
    [update "10.0.0.3" 2, update "10.0.0.2" 1, update "10.0.0.3" 2]
    (by decide +kernel)
  exact ⟨hentry, hconverge.1 (update "10.0.0.3" 2) (by simp) (by simp [update])
    (by decide)⟩

end UpdateOrderWitness

end AshiChat
