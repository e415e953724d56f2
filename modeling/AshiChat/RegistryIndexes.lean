/-
The two indexes of the session registry (`session.py`).  `register` replaces
the peer's own session and overwrites whatever stands under the new session
id, which the remote party may have chosen.  As long as it never takes the id
of another peer's session, the indexes are inverse to each other.
-/
import AshiChat.Session
import AshiChat.Reference
import AshiChat.Kit.EventRun

namespace AshiChat

open EventRun OrderedDict Option SessionRegistry

/-- The calls that change the registry. -/
inductive RegistryCall where
  | register (session : Session)
  | remove (sessionId : Bytes)
deriving DecidableEq

namespace SessionRegistry

/-- One call; a `register` that raises changes nothing. -/
def call (registry : SessionRegistry) : RegistryCall → SessionRegistry
  | .register session =>
    match registry.register session with
    | .ok registry' => registry'
    | .error _ => registry
  | .remove sessionId => registry.remove sessionId

/-- The session id is free, or it is that of a session with the same peer; a
full registry refuses the session anyway. -/
def untaken (registry : SessionRegistry) : RegistryCall → Bool
  | .register session =>
    decide (maxSessions ≤ registry.bySession.size) ||
      match registry.getBySessionId session.sessionId with
      | none => true
      | some (_, found) => decide (found.remotePeerId = session.remotePeerId)
  | .remove _ => true

/-- A session is found under its peer exactly if it is found under its id, no
peer has two, and both indexes have the same size, which is within the
limit. -/
structure Consistent (registry : SessionRegistry) : Prop where
  inverse : ∀ ref session, registry.objects[ref]? = some session →
    (registry.byPeer.get? session.remotePeerId = some ref ↔
      registry.bySession.get? session.sessionId = some ref)
  single : ∀ left right first second,
    registry.getBySessionId left = some first →
    registry.getBySessionId right = some second →
    first.2.remotePeerId = second.2.remotePeerId → first = second
  sizes : registry.bySession.size = registry.byPeer.size
  limit : registry.bySession.size ≤ maxSessions

/-- Every reference in one index is in the other, under the key that the
session itself names. -/
structure Matched (registry : SessionRegistry) : Prop where
  byPeer : ∀ peerId ref, registry.byPeer.get? peerId = some ref →
    ∃ session, registry.objects[ref]? = some session ∧
      session.remotePeerId = peerId ∧
      registry.bySession.get? session.sessionId = some ref
  bySession : ∀ sessionId ref, registry.bySession.get? sessionId = some ref →
    ∃ session, registry.objects[ref]? = some session ∧
      session.sessionId = sessionId ∧
      registry.byPeer.get? session.remotePeerId = some ref

variable {registry registry' : SessionRegistry}

theorem matched_empty : empty.Matched := by
  constructor
  · rintro peerId ref ⟨⟩
  · rintro sessionId ref ⟨⟩

variable {session : Session}

theorem bySession_register (hreg : registry.register session = .ok registry') :
    registry.bySession.size < maxSessions ∧
      registry'.bySession = (registry.withoutOld session.remotePeerId).set
        session.sessionId registry.objects.length := by
  unfold register at hreg
  split at hreg
  · cases hreg
  · next hroom =>
    cases hreg
    exact ⟨Nat.lt_of_not_le hroom, rfl⟩

section

variable (hmatched : registry.Matched)

include hmatched

/-- What `register` leaves of the index of ids: all but the peer's own. -/
theorem Matched.get?_withoutOld (peerId : PeerId) {sessionId : Bytes}
    {ref : Nat} (hobj : registry.objects[ref]? = some session)
    (href : registry.bySession.get? sessionId = some ref) :
    (registry.withoutOld peerId).get? sessionId = some ref ↔
      session.remotePeerId ≠ peerId := by
  obtain ⟨_, hobject, hid, hpeer⟩ := hmatched.bySession sessionId ref href
  cases hobj.symm.trans hobject
  unfold withoutOld
  cases hold : registry.getByPeerId peerId with
  | none =>
    refine ⟨fun _ => ?_, fun _ => href⟩
    rintro rfl
    simp [getByPeerId, hpeer, hobj] at hold
  | some old =>
    obtain ⟨hindex, hobjold⟩ := getByPeerId_eq_some hold
    simp only [get?_erase]
    constructor
    · rintro hkept rfl
      cases hpeer.symm.trans hindex
      cases hobj.symm.trans hobjold
      rw [if_pos hid] at hkept
      cases hkept
    · intro hne
      rw [if_neg, href]
      rintro rfl
      obtain ⟨_, hother, hname, hback⟩ := hmatched.byPeer peerId old.1 hindex
      cases hother.symm.trans hobjold
      cases href.symm.trans hback
      cases hobj.symm.trans hobjold
      exact hne hname

theorem Matched.register
    (huntaken : registry.untaken (.register session) = true)
    (hreg : registry.register session = .ok registry') :
    registry'.Matched := by
  have hobjects := objects_register hreg
  have hpeers := byPeer_register hreg
  obtain ⟨hroom, hsessions⟩ := bySession_register hreg
  -- An object that was there is still there, under the same reference.
  have hkept : ∀ {ref : Nat} {object : Session},
      registry.objects[ref]? = some object →
        registry'.objects[ref]? = some object := by
    intro ref object hobj
    obtain ⟨hlt, -⟩ := List.getElem?_eq_some_iff.mp hobj
    rw [hobjects, List.getElem?_append_left hlt, hobj]
  have hnew : registry'.objects[registry.objects.length]? = some session := by
    rw [hobjects, List.getElem?_concat_length]
  constructor
  · intro peerId ref href
    rw [hpeers] at href
    rcases get?_set_cases href with ⟨rfl, rfl⟩ | ⟨hne, hold⟩
    · refine ⟨session, hnew, rfl, ?_⟩
      rw [hsessions, get?_set_self]
    · obtain ⟨object, hobj, rfl, hback⟩ := hmatched.byPeer peerId ref hold
      refine ⟨object, hkept hobj, rfl, ?_⟩
      have hother : session.sessionId ≠ object.sessionId := by
        intro hsame
        simp only [untaken, hsame, getBySessionId, hback, hobj, bind_eq_bind,
          bind_some, pure_def, Bool.or_eq_true, decide_eq_true_eq] at huntaken
        exact hne (huntaken.resolve_left (Nat.not_le_of_lt hroom))
      rw [hsessions, get?_set, if_neg hother]
      exact (hmatched.get?_withoutOld _ hobj hback).mpr hne
  · intro sessionId ref href
    rw [hsessions] at href
    rcases get?_set_cases href with ⟨rfl, rfl⟩ | ⟨hne, hold⟩
    · refine ⟨session, hnew, rfl, ?_⟩
      rw [hpeers, get?_set_self]
    · have hbefore := SessionRegistry.get?_withoutOld hold
      obtain ⟨object, hobj, rfl, hindex⟩ :=
        hmatched.bySession sessionId ref hbefore
      have hother := (hmatched.get?_withoutOld _ hobj hbefore).mp hold
      refine ⟨object, hkept hobj, rfl, ?_⟩
      rw [hpeers, get?_set, if_neg hother.symm]
      exact hindex

theorem Matched.remove (sessionId : Bytes) :
    (registry.remove sessionId).Matched := by
  unfold SessionRegistry.remove
  split
  · exact hmatched
  · next ref _ hfound =>
    obtain ⟨hindex, hobj⟩ := getBySessionId_eq_some hfound
    obtain ⟨_, hobject, hid, hpeer⟩ := hmatched.bySession sessionId ref hindex
    cases hobj.symm.trans hobject
    constructor
    · intro peerId other hother
      rw [get?_erase] at hother
      split at hother
      · cases hother
      · next hne =>
        obtain ⟨found, hget, rfl, hback⟩ := hmatched.byPeer peerId other hother
        refine ⟨found, hget, rfl, ?_⟩
        rw [get?_erase, if_neg]
        · exact hback
        · rintro rfl
          cases hindex.symm.trans hback
          cases hobj.symm.trans hget
          exact hne rfl
    · intro other back hother
      rw [get?_erase] at hother
      split at hother
      · cases hother
      · next hne =>
        obtain ⟨found, hget, rfl, hback⟩ := hmatched.bySession other back hother
        refine ⟨found, hget, rfl, ?_⟩
        rw [get?_erase, if_neg]
        · exact hback
        · intro hsame
          rw [← hsame, hpeer] at hback
          cases hback
          cases hobj.symm.trans hget
          exact hne hid.symm

theorem Matched.sizes : registry.bySession.size = registry.byPeer.size := by
  apply Nat.le_antisymm
  · apply size_le_of_values
    · intro left right ref hleft hright
      obtain ⟨first, hfirst, rfl, -⟩ := hmatched.bySession left ref hleft
      obtain ⟨second, hsecond, rfl, -⟩ := hmatched.bySession right ref hright
      cases hfirst.symm.trans hsecond
      rfl
    · intro sessionId ref href
      obtain ⟨session, -, -, hpeer⟩ := hmatched.bySession sessionId ref href
      exact ⟨session.remotePeerId, hpeer⟩
  · apply size_le_of_values
    · intro left right ref hleft hright
      obtain ⟨first, hfirst, rfl, -⟩ := hmatched.byPeer left ref hleft
      obtain ⟨second, hsecond, rfl, -⟩ := hmatched.byPeer right ref hright
      cases hfirst.symm.trans hsecond
      rfl
    · intro peerId ref href
      obtain ⟨session, -, -, hid⟩ := hmatched.byPeer peerId ref href
      exact ⟨session.sessionId, hid⟩

end

theorem size_withoutOld_le (registry : SessionRegistry) (peerId : PeerId) :
    (registry.withoutOld peerId).size ≤ registry.bySession.size := by
  unfold withoutOld
  split
  · exact registry.bySession.size_erase_le _
  · exact le_rfl

theorem size_register_le (hreg : registry.register session = .ok registry') :
    registry'.bySession.size ≤ maxSessions := by
  obtain ⟨_, hsessions⟩ := bySession_register hreg
  rw [hsessions]
  have hset := (registry.withoutOld session.remotePeerId).size_set_le
    session.sessionId registry.objects.length
  have hold := registry.size_withoutOld_le session.remotePeerId
  omega

theorem size_remove_le (registry : SessionRegistry) (sessionId : Bytes) :
    (registry.remove sessionId).bySession.size ≤ registry.bySession.size := by
  unfold remove
  split
  · exact le_rfl
  · exact registry.bySession.size_erase_le _

/-- What one call keeps. -/
theorem matched_call (call : RegistryCall)
    (hmatched : registry.Matched ∧ registry.bySession.size ≤ maxSessions)
    (huntaken : registry.untaken call = true) :
    (registry.call call).Matched ∧
      (registry.call call).bySession.size ≤ maxSessions := by
  cases call with
  | register =>
    simp only [call]
    split
    · next hreg =>
      exact ⟨hmatched.1.register huntaken hreg, size_register_le hreg⟩
    · exact hmatched
  | remove sessionId =>
    exact ⟨hmatched.1.remove sessionId,
      (registry.size_remove_le sessionId).trans hmatched.2⟩

theorem Matched.consistent (hmatched : registry.Matched)
    (hlimit : registry.bySession.size ≤ maxSessions) :
    registry.Consistent where
  inverse := by
    intro ref session hobj
    constructor
    · intro hpeer
      obtain ⟨object, hobject, -, hid⟩ := hmatched.byPeer _ ref hpeer
      cases hobj.symm.trans hobject
      exact hid
    · intro hid
      obtain ⟨object, hobject, -, hpeer⟩ := hmatched.bySession _ ref hid
      cases hobj.symm.trans hobject
      exact hpeer
  single := by
    rintro left right ⟨first, leftSession⟩ ⟨second, rightSession⟩ hleft hright
      hsame
    obtain ⟨hindexl, hobjl⟩ := getBySessionId_eq_some hleft
    obtain ⟨hindexr, hobjr⟩ := getBySessionId_eq_some hright
    obtain ⟨object, hobject, -, hpeerl⟩ := hmatched.bySession _ _ hindexl
    cases hobjl.symm.trans hobject
    obtain ⟨_, hother, -, hpeerr⟩ := hmatched.bySession _ _ hindexr
    cases hobjr.symm.trans hother
    -- Both references stand under the one peer.
    rw [hsame, hpeerr] at hpeerl
    cases hpeerl
    cases hobjl.symm.trans hobjr
    rfl
  sizes := hmatched.sizes
  limit := hlimit

/-- As long as no `register` takes the session id of another peer's session,
the two indexes are inverse to each other all along. -/
theorem indexes_stay_inverse (calls : List RegistryCall)
    (huntaken : EveryStep call (fun registry call => registry.untaken call)
      empty calls) : Along call Consistent empty calls := by
  have hstep : ∀ registry call,
      Matched registry ∧ registry.bySession.size ≤ maxSessions →
      registry.untaken call = true →
      (registry.call call).Matched ∧
        (registry.call call).bySession.size ≤ maxSessions :=
    fun _ call hmatched huntaken => matched_call call hmatched huntaken
  refine along_of_everyStep hstep ?_ ⟨matched_empty, Nat.zero_le _⟩ huntaken
  intro registry hmatched
  exact hmatched.1.consistent hmatched.2

end SessionRegistry

namespace RegistryIndexesWitness

open Reference

def session (peer id : UInt8) : Session where
  sessionId := (constant 8 id).val
  encryptionKey := (constant 32 7).val
  remotePeerId := (constant 32 peer).val

/-- A second session with peer 1, one with peer 2, and the end of both. -/
def calls : List RegistryCall :=
  [.register (session 1 5), .register (session 1 6), .register (session 2 5),
    .remove (constant 8 6).val, .remove (constant 8 5).val]

theorem indexes_stay_inverse_replaced : EveryStep call
      (fun registry call => registry.untaken call) .empty calls ∧
    Along call SessionRegistry.Consistent .empty calls := by
  have huntaken : EveryStep call
      (fun registry call => registry.untaken call) .empty calls := by
    decide +kernel
  exact ⟨huntaken, indexes_stay_inverse calls huntaken⟩

def collided : SessionRegistry := run call .empty
    [.register (session 1 5), .register (session 2 5)]

/-- Peer 2 answers with the session id that peer 1 already has: peer 1's
session is found under the peer and no longer under its id. -/
theorem shared_id_splits_indexes :
    collided.getByPeerId (session 1 5).remotePeerId = some (0, session 1 5) ∧
    collided.getBySessionId (session 1 5).sessionId = some (1, session 2 5) ∧
    collided.bySession.size = 1 ∧ collided.byPeer.size = 2 ∧
    ¬ collided.Consistent := by
  have hsizes : collided.bySession.size = 1 ∧ collided.byPeer.size = 2 := by
    decide +kernel
  refine ⟨by decide +kernel, by decide +kernel, hsizes.1, hsizes.2, ?_⟩
  intro hconsistent
  have hsame := hconsistent.sizes
  rw [hsizes.1, hsizes.2] at hsame
  cases hsame

end RegistryIndexesWitness

end AshiChat
