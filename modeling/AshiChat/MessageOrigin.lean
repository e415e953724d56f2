/-
Who encrypted what an endpoint decrypts.  Both directions of a session share
one key and one nonce layout, and a DATA packet names no sender, so the network
may bring a packet to either of the two endpoints.
-/
import AshiChat.SessionPair

namespace AshiChat

open QueueManager Endpoint EventRun List

/-- A call on one endpoint, or the arrival of a DATA packet there. -/
inductive PairEvent where
  | call (side : Side) (op : EndpointOp)
  | deliver (side : Side) (payload : DataPayload)
deriving DecidableEq

namespace SessionPair

/-- The DATA packets one endpoint has sent. -/
def sentBy (pair : SessionPair) (side : Side) : List DataPayload :=
  (pair.get side).sealed.map SealedData.payload

/-- Every DATA packet ever sent stays available to the network, which may
bring it to either endpoint, in any order and any number of times. -/
def onWire (pair : SessionPair) (payload : DataPayload) : Bool :=
  decide (payload ∈ pair.sentBy .left ++ pair.sentBy .right)

/-- `_handle_data` up to the decryption: the session is looked up under the
id the packet names. -/
def receive (P : Primitives) (endpoint : Endpoint) (payload : DataPayload) :
    Except PyError (Option Bytes) × Session :=
  if endpoint.session.sessionId = payload.sessionId then
    decryptDataPacket P payload endpoint.session
  else (.ok none, endpoint.session)

/-- The plaintext `decrypt_data_packet` hands to the application. -/
def received? (P : Primitives) (endpoint : Endpoint) (payload : DataPayload) :
    Option Bytes :=
  match (receive P endpoint payload).1 with
  | .ok (some plaintext) => some plaintext
  | _ => none

def step (P : Primitives) (pair : SessionPair) : PairEvent → SessionPair
  | .call side op => pair.put ((pair.get side).step P op) side
  | .deliver side payload =>
    if pair.onWire payload then
      pair.put { pair.get side with
        session := (receive P (pair.get side) payload).2 } side
    else pair

/-- What arrives as the other endpoint's message was encrypted there. -/
def Authentic (P : Primitives) (pair : SessionPair) : PairEvent → Prop
  | .call .. => True
  | .deliver side payload =>
    pair.onWire payload = true →
    ∀ plaintext ∈ received? P (pair.get side) payload,
      ∃ sealed ∈ (pair.get side.other).sealed, sealed.encryption =
        sealCall (pair.get side).session payload.sequenceNumber plaintext

/-- A packet that passes the replay check was sent by the other endpoint. -/
def NotReflected (pair : SessionPair) : PairEvent → Prop
  | .call .. => True
  | .deliver side payload =>
    pair.onWire payload = true →
    (pair.get side).session.checkRecvSequence payload.sequenceNumber = true →
    payload ∈ pair.sentBy side.other

/-- Both endpoints hold the same session and have sent nothing yet. -/
structure Fresh (pair : SessionPair) : Prop where
  sized : pair.left.session.Sized
  sessionId : pair.right.session.sessionId = pair.left.session.sessionId
  encryptionKey :
    pair.right.session.encryptionKey = pair.left.session.encryptionKey
  nothingSent : pair.left.sealed = [] ∧ pair.right.sealed = []

/-- Invariant of every run: both endpoints keep the id and the key `shared`
has, and everything sealed is sealed under them. -/
structure Sharing (P : Primitives) (shared : Session) (pair : SessionPair) :
    Prop where
  sessionId : ∀ side, (pair.get side).session.sessionId = shared.sessionId
  encryptionKey :
    ∀ side, (pair.get side).session.encryptionKey = shared.encryptionKey
  history : ∀ side, ∀ sealed ∈ (pair.get side).sealed,
    ∃ seq plaintext, seq < 2 ^ 32 ∧ sealed = sealedWith P shared seq plaintext

variable {P : Primitives} {shared : Session} {pair : SessionPair}

theorem Sharing.sized (hsized : shared.Sized)
    (hsharing : Sharing P shared pair) (side : Side) :
    (pair.get side).session.Sized :=
  hsized.congr (hsharing.sessionId side) (hsharing.encryptionKey side)

theorem Fresh.sharing (P : Primitives) (hfresh : Fresh pair) :
    Sharing P pair.left.session pair where
  sessionId side := by cases side with
    | left => rfl
    | right => exact hfresh.sessionId
  encryptionKey side := by cases side with
    | left => rfl
    | right => exact hfresh.encryptionKey
  history side sealed hmem := by
    cases side with
    | left => simp [get, hfresh.nothingSent.1] at hmem
    | right => simp [get, hfresh.nothingSent.2] at hmem

theorem Sharing.put (hsharing : Sharing P shared pair) {side : Side}
    {endpoint : Endpoint} (hid : endpoint.session.sessionId = shared.sessionId)
    (hkey : endpoint.session.encryptionKey = shared.encryptionKey)
    (hhistory : ∀ sealed ∈ endpoint.sealed, ∃ seq plaintext, seq < 2 ^ 32 ∧
      sealed = sealedWith P shared seq plaintext) :
    Sharing P shared (pair.put endpoint side) := by
  have hcases : ∀ target, (pair.put endpoint side).get target = endpoint ∨
      (pair.put endpoint side).get target = pair.get target := by
    intro target
    cases side <;> cases target <;> simp [SessionPair.put, get]
  constructor <;> intro target <;> rcases hcases target with heq | heq <;>
    rw [heq]
  · exact hid
  · exact hsharing.sessionId target
  · exact hkey
  · exact hsharing.encryptionKey target
  · exact hhistory
  · exact hsharing.history target

theorem Sharing.step (hsized : shared.Sized)
    (hsharing : Sharing P shared pair) (event : PairEvent) :
    Sharing P shared (pair.step P event) := by
  cases event with
  | call side op =>
    have hlive := hsharing.sized hsized side
    obtain ⟨_, _, hsession⟩ := step_session P hlive op
    refine hsharing.put ?_ ?_ ?_
    · rw [hsession]; exact hsharing.sessionId side
    · rw [hsession]; exact hsharing.encryptionKey side
    · obtain ⟨_, hnew, hsource⟩ := step_sealed_cases P hlive op
      rw [hnew]
      intro sealed hmem
      rcases mem_append.mp hmem with hold | hfresh
      · exact hsharing.history side sealed hold
      · obtain ⟨seq, plaintext, hseq, hsealed, _⟩ := hsource sealed hfresh
        rw [sealedWith_congr P (hsharing.sessionId side)
          (hsharing.encryptionKey side)] at hsealed
        exact ⟨seq, plaintext, hseq, hsealed⟩
  | deliver side payload =>
    simp only [SessionPair.step]
    split
    · have hsession : ∃ recvSequence, (receive P (pair.get side) payload).2 =
            { (pair.get side).session with recvSequence := recvSequence } := by
        unfold receive
        split
        · exact decryptDataPacket_session P payload _
        · exact ⟨_, rfl⟩
      obtain ⟨_, hsession⟩ := hsession
      refine hsharing.put ?_ ?_ (hsharing.history side)
      · rw [hsession]; exact hsharing.sessionId side
      · rw [hsession]; exact hsharing.encryptionKey side
    · exact hsharing

/-- Every packet on the wire is a seal under the shared session, so it
decrypts wherever it passes the replay check. -/
theorem received?_of_sent (hideal : P.IdealAead) (hsized : shared.Sized)
    (hsharing : Sharing P shared pair) (side : Side) {seq : Nat}
    (hseq : seq < 2 ^ 32) (plaintext : Bytes) :
    received? P (pair.get side) (sealPayload P shared seq plaintext) =
      if (pair.get side).session.checkRecvSequence seq then some plaintext
      else none := by
  have hlive := hsharing.sized hsized side
  have hpayload : sealPayload P shared seq plaintext =
      sealPayload P (pair.get side).session seq plaintext :=
    congrArg SealedData.payload (sealedWith_congr P
      (hsharing.sessionId side).symm (hsharing.encryptionKey side).symm seq
      plaintext)
  rw [hpayload, received?, receive, sealPayload_sessionId, if_pos rfl,
    decryptDataPacket_sealPayload hideal.undoes hlive.keyed hseq]
  cases (pair.get side).session.checkRecvSequence seq <;> rfl

theorem exists_seal_of_onWire (hsharing : Sharing P shared pair)
    {payload : DataPayload} (hwire : pair.onWire payload = true) :
    ∃ seq plaintext, seq < 2 ^ 32 ∧
      payload = sealPayload P shared seq plaintext := by
  simp only [onWire, decide_eq_true_eq, mem_append, sentBy, mem_map] at hwire
  rcases hwire with ⟨sealed, hmem, rfl⟩ | ⟨sealed, hmem, rfl⟩
  · obtain ⟨seq, plaintext, hseq, rfl⟩ := hsharing.history .left sealed hmem
    exact ⟨seq, plaintext, hseq, rfl⟩
  · obtain ⟨seq, plaintext, hseq, rfl⟩ := hsharing.history .right sealed hmem
    exact ⟨seq, plaintext, hseq, rfl⟩

theorem authentic_iff_notReflected (hideal : P.IdealAead)
    (hsized : shared.Sized) (hsharing : Sharing P shared pair)
    (event : PairEvent) :
    Authentic P pair event ↔ NotReflected pair event := by
  cases event with
  | call => exact Iff.rfl
  | deliver side =>
    have hcall : ∀ seq plaintext,
        sealCall (pair.get side).session seq plaintext =
          sealCall shared seq plaintext := fun seq plaintext =>
      congrArg SealedData.encryption (sealedWith_congr P
        (hsharing.sessionId side) (hsharing.encryptionKey side) seq plaintext)
    constructor
    · intro hauth hwire hcheck
      obtain ⟨seq, plaintext, hseq, rfl⟩ := exists_seal_of_onWire hsharing hwire
      have hreceived := received?_of_sent hideal hsized hsharing side hseq
        plaintext
      rw [sealPayload_sequenceNumber] at hcheck
      rw [if_pos hcheck] at hreceived
      obtain ⟨sealed, hmem, hencryption⟩ := hauth hwire plaintext hreceived
      -- The matching encryption on the other side made this very packet.
      obtain ⟨seq', plaintext', hseq', rfl⟩ :=
        hsharing.history side.other sealed hmem
      rw [hcall, sealedWith_encryption] at hencryption
      have hnumber : seq' = seq := (sealCall_nonce_eq_iff rfl hseq' hseq _ _).mp
        (congrArg Encryption.nonce hencryption)
      have hplain : plaintext' = plaintext :=
        congrArg Encryption.plaintext hencryption
      subst hnumber hplain
      exact mem_map.mpr ⟨_, hmem, rfl⟩
    · intro hreflect hwire plaintext hplaintext
      obtain ⟨seq, _, hseq, rfl⟩ := exists_seal_of_onWire hsharing hwire
      rw [received?_of_sent hideal hsized hsharing side hseq] at hplaintext
      split at hplaintext
      · next hcheck =>
        cases hplaintext
        obtain ⟨sealed, hmem, hpayload⟩ := mem_map.mp (hreflect hwire hcheck)
        obtain ⟨seq', original', hseq', rfl⟩ :=
          hsharing.history side.other sealed hmem
        have hnumber : seq' = seq :=
          congrArg DataPayload.sequenceNumber hpayload
        subst hnumber
        have hthere := received?_of_sent hideal hsized hsharing side hseq'
          original'
        have hhere := received?_of_sent hideal hsized hsharing side hseq
          plaintext
        rw [if_pos hcheck] at hthere hhere
        rw [sealedWith_payload] at hpayload
        rw [hpayload, hhere, Option.some.injEq] at hthere
        subst hthere
        exact ⟨_, hmem, (hcall _ _).symm⟩
      · cases hplaintext

end SessionPair

/-- Message origin over whole runs: every decrypted plaintext was encrypted by
the other endpoint exactly if no packet that passes the replay check comes
back to the endpoint that sent it. -/
theorem message_origin_iff {P : Primitives} (hideal : P.IdealAead)
    {pair : SessionPair} (hfresh : pair.Fresh) (events : List PairEvent) :
    EveryStep (SessionPair.step P) (SessionPair.Authentic P) pair events ↔
      EveryStep (SessionPair.step P) SessionPair.NotReflected pair events := by
  have hkeep : ∀ state event, SessionPair.Sharing P pair.left.session state →
      SessionPair.Sharing P pair.left.session (state.step P event) :=
    fun _ event hsharing => hsharing.step hfresh.sized event
  refine everyStep_congr hkeep ?_ (hfresh.sharing P) events
  intro state event hsharing
  exact SessionPair.authentic_iff_notReflected hideal hfresh.sized hsharing
    event

namespace OriginWitness

open DirectionsWitness Reference

instance (P : Primitives) (pair : SessionPair) :
    ∀ event, Decidable (pair.Authentic P event)
  | .call .. => isTrue trivial
  | .deliver .. => inferInstanceAs (Decidable (_ → ∀ plaintext ∈ _, _))

instance (pair : SessionPair) : ∀ event, Decidable (pair.NotReflected event)
  | .call .. => isTrue trivial
  | .deliver .. => inferInstanceAs (Decidable (_ → _ → _))

def freshPair : SessionPair :=
  establishedPair (keysFor 2) (keysFor 1) .empty .empty .empty .empty

theorem freshPair_fresh : freshPair.Fresh :=
  ⟨⟨by decide, by decide⟩, by decide, by decide, rfl, rfl⟩

/-- The left endpoint's first packet. -/
def firstPacket : DataPayload :=
  sealPayload primitives freshPair.left.session 1 [104, 105]

def sendFirst : List PairEvent :=
  [.call .left (.enqueue 1 (List.replicate 32 2) [104, 105]),
    .call .left (.build 1 0)]

/-- The network returns the packet to its sender, who takes it for a message
of the peer. -/
theorem reflected_packet_accepted : primitives.IdealAead ∧ freshPair.Fresh ∧
      ¬ EveryStep (SessionPair.step primitives)
        (SessionPair.Authentic primitives) freshPair
        (sendFirst ++ [.deliver .left firstPacket]) :=
  ⟨idealAead, freshPair_fresh, by decide⟩

/-- Delivered twice to the peer, the packet is authentic. -/
theorem delivered_packet_authentic : freshPair.Fresh ∧
      EveryStep (SessionPair.step primitives)
        (SessionPair.Authentic primitives) freshPair
        (sendFirst ++ [.deliver .right firstPacket,
          .deliver .right firstPacket]) :=
  ⟨freshPair_fresh,
    (message_origin_iff idealAead freshPair_fresh _).mpr (by decide)⟩

end OriginWitness

end AshiChat
