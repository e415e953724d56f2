/-
The receive window of one session (`decrypt_data_packet`) against any sequence
of DATA payloads an attacker can put on the wire.  The AEAD is an arbitrary
function that gives a plaintext or fails.
-/
import AshiChat.QueueManager
import AshiChat.Wire
import AshiChat.Reference
import AshiChat.Kit.EventRun

namespace AshiChat

open EventRun QueueManager List Bool

namespace ReplayWindow

/-- The payloads that decode, in the order they arrive. -/
def decodedPayloads (wire : List Bytes) : List DataPayload :=
  wire.filterMap fun data => (DataPayload.deserialize data).toOption

variable {payload : DataPayload}

theorem sequenceNumber_lt_of_decoded {wire : List Bytes}
    (hmem : payload ∈ decodedPayloads wire) :
    payload.sequenceNumber < 2 ^ 32 := by
  obtain ⟨data, _, hdata⟩ := mem_filterMap.mp hmem
  cases hread : DataPayload.deserialize data with
  | error => simp [hread, Except.toOption] at hdata
  | ok =>
    simp only [hread, Except.toOption, Option.some.injEq] at hdata
    subst hdata
    exact DataPayload.sequenceNumber_lt hread

section

variable (P : Primitives)

/-- The session after one packet. -/
def receive (session : Session) (payload : DataPayload) : Session :=
  (decryptDataPacket P payload session).2

def accepts (session : Session) (payload : DataPayload) : Bool :=
  match (decryptDataPacket P payload session).1 with
  | .ok (some _) => true
  | _ => false

/-- The numbers of the packets a run accepts, in order. -/
def acceptedNumbers : Session → List DataPayload → List Nat
  | _, [] => []
  | session, payload :: rest =>
    if accepts P session payload then
      payload.sequenceNumber :: acceptedNumbers (receive P session payload) rest
    else acceptedNumbers (receive P session payload) rest

/-- The call returns, and a packet it rejects leaves the session as it was. -/
def Settles (session : Session) (payload : DataPayload) : Prop :=
  (∃ result, (decryptDataPacket P payload session).1 = .ok result) ∧
    (accepts P session payload = false → receive P session payload = session)

end

variable {P : Primitives} {session : Session}

section

variable (hid : session.sessionId.length = 8)
  (hseq : payload.sequenceNumber < 2 ^ 32)

include hid hseq

/-- Everything one call can do: it accepts a newer number and moves the counter
there, or it returns `None` and changes nothing. -/
theorem decryptDataPacket_cases :
    (session.recvSequence < payload.sequenceNumber ∧
      ∃ plaintext, decryptDataPacket P payload session = (.ok (some plaintext),
          { session with recvSequence := payload.sequenceNumber })) ∨
      decryptDataPacket P payload session = (.ok none, session) := by
  have haad : dataAad payload.sequenceNumber = .ok (PacketType.data.code ::
        BigEndian.encode 4 payload.sequenceNumber) := by
    simp only [dataAad, packU32_ok hseq]
    rfl
  by_cases hcheck : session.recvSequence < payload.sequenceNumber
  · simp only [decryptDataPacket, Session.checkRecvSequence, hcheck,
      decide_true, Bool.not_true, Bool.false_eq_true, ↓reduceIte,
      buildNonce_ok hid hseq, haad, Session.advanceRecvSequence]
    cases decrypt P session.encryptionKey payload.ciphertext
        (session.sessionId ++ BigEndian.encode 4 payload.sequenceNumber)
        (PacketType.data.code :: BigEndian.encode 4 payload.sequenceNumber)
        payload.authTag with
    | none => exact Or.inr rfl
    | some plaintext => exact Or.inl ⟨trivial, plaintext, rfl⟩
  · right
    simp [decryptDataPacket, Session.checkRecvSequence, hcheck]

/-- The same, in terms of the step and of what it accepts. -/
theorem receive_cases : (accepts P session payload = true ∧
      session.recvSequence < payload.sequenceNumber ∧
      receive P session payload =
        { session with recvSequence := payload.sequenceNumber }) ∨
      (accepts P session payload = false ∧
        receive P session payload = session) := by
  unfold accepts receive
  rcases decryptDataPacket_cases (P := P) hid hseq with
    ⟨hlt, _, hcall⟩ | hcall
  · exact Or.inl ⟨by rw [hcall], hlt, by rw [hcall]⟩
  · exact Or.inr ⟨by rw [hcall], by rw [hcall]⟩

theorem settles : Settles P session payload := by
  constructor
  · rcases decryptDataPacket_cases (P := P) hid hseq with
      ⟨_, plaintext, hcall⟩ | hcall
    · exact ⟨some plaintext, by rw [hcall]⟩
    · exact ⟨none, by rw [hcall]⟩
  · intro hrejected
    rcases receive_cases (P := P) hid hseq with ⟨haccepted, _⟩ | ⟨_, hsame⟩
    · rw [hrejected] at haccepted
      cases haccepted
    · exact hsame

end

theorem receive_sessionId (payload : DataPayload) :
    (receive P session payload).sessionId = session.sessionId := by
  obtain ⟨_, hsession⟩ := decryptDataPacket_session P payload session
  rw [receive, hsession]

variable {payloads : List DataPayload}

section

variable (hid : session.sessionId.length = 8)
  (hseqs : ∀ payload ∈ payloads, payload.sequenceNumber < 2 ^ 32)

include hid hseqs

theorem everyStep_settles :
    EveryStep (receive P) (Settles P) session payloads := by
  induction payloads generalizing session with
  | nil => trivial
  | cons payload _ ih =>
    obtain ⟨hseq, hrest⟩ := forall_mem_cons.mp hseqs
    refine ⟨settles hid hseq, ih ?_ hrest⟩
    rw [receive_sessionId, hid]

/-- What is accepted is newer than where the counter stood. -/
theorem lt_of_mem_acceptedNumbers
    {number : Nat} (hmem : number ∈ acceptedNumbers P session payloads) :
    session.recvSequence < number := by
  induction payloads generalizing session with
  | nil => cases hmem
  | cons payload rest ih =>
    obtain ⟨hseq, hrest⟩ := forall_mem_cons.mp hseqs
    have hid' : (receive P session payload).sessionId.length = 8 := by
      rw [receive_sessionId, hid]
    have hlater := ih hid' hrest
    rcases receive_cases (P := P) hid hseq with
      ⟨haccepted, hlt, hreceive⟩ | ⟨hrejected, hreceive⟩
    · simp only [acceptedNumbers, haccepted, ↓reduceIte, mem_cons] at hmem
      rcases hmem with rfl | hmem
      · exact hlt
      · have hnext := hlater hmem
        rw [hreceive] at hnext
        exact hlt.trans hnext
    · simp only [acceptedNumbers, hrejected, false_eq_true, ↓reduceIte] at hmem
      have hnext := hlater hmem
      rwa [hreceive] at hnext

theorem acceptedNumbers_increasing :
    (acceptedNumbers P session payloads).Pairwise (· < ·) := by
  induction payloads generalizing session with
  | nil => exact List.Pairwise.nil
  | cons payload rest ih =>
    obtain ⟨hseq, hrest⟩ := forall_mem_cons.mp hseqs
    have hid' : (receive P session payload).sessionId.length = 8 := by
      rw [receive_sessionId, hid]
    unfold acceptedNumbers
    split
    · next haccepted =>
      refine pairwise_cons.mpr ⟨?_, ih hid' hrest⟩
      intro number hmem
      -- The rest runs from a counter that stands at this very number.
      have hlt := lt_of_mem_acceptedNumbers hid' hrest hmem
      rcases receive_cases (P := P) hid hseq with
        ⟨_, _, hreceive⟩ | ⟨hrejected, _⟩
      · rwa [hreceive] at hlt
      · rw [hrejected] at haccepted
        cases haccepted
    · exact ih hid' hrest

/-- The counter stands at the last accepted number, or where it began. -/
theorem recvSequence_run : (run (receive P) session payloads).recvSequence =
      (acceptedNumbers P session payloads).getLastD session.recvSequence := by
  induction payloads generalizing session with
  | nil => rfl
  | cons payload _ ih =>
    obtain ⟨hseq, hrest⟩ := forall_mem_cons.mp hseqs
    have hid' : (receive P session payload).sessionId.length = 8 := by
      rw [receive_sessionId, hid]
    have hlast := ih hid' hrest
    rw [run_cons, hlast, acceptedNumbers]
    rcases receive_cases (P := P) hid hseq with
      ⟨haccepted, _, hreceive⟩ | ⟨hrejected, hreceive⟩
    · rw [if_pos haccepted, getLastD_cons, hreceive]
    · rw [hrejected, if_neg Bool.false_ne_true, hreceive]

end

/-- Whatever bytes arrive, no call raises, the accepted numbers increase
strictly, the counter follows them, and a rejected packet changes nothing. -/
theorem window_safe (P : Primitives) (session : Session)
    (hid : session.sessionId.length = 8) (wire : List Bytes) :
    EveryStep (receive P) (Settles P) session (decodedPayloads wire) ∧
      (acceptedNumbers P session (decodedPayloads wire)).Pairwise (· < ·) ∧
      (run (receive P) session (decodedPayloads wire)).recvSequence =
        (acceptedNumbers P session (decodedPayloads wire)).getLastD
          session.recvSequence := by
  have hseqs : ∀ payload ∈ decodedPayloads wire,
      payload.sequenceNumber < 2 ^ 32 :=
    fun payload hmem => sequenceNumber_lt_of_decoded hmem
  exact ⟨everyStep_settles hid hseqs, acceptedNumbers_increasing hid hseqs,
    recvSequence_run hid hseqs⟩

end ReplayWindow

namespace ReplayWindowWitness

open ReplayWindow Reference

def session : Session where
  sessionId := replicate 8 1
  encryptionKey := replicate 32 2
  remotePeerId := replicate 32 3

/-- One packet of the session with the given number. -/
def wireBytes (number : UInt8) : Bytes :=
  replicate 8 1 ++ [0, 0, 0, number] ++ [0, 0, 0, 1] ++ [65] ++
    mix 16 session.encryptionKey (session.sessionId ++ [0, 0, 0, number] ++
        PacketType.data.code :: [0, 0, 0, number])

/-- Out of order, replayed and cut short: the second and fifth are late, the
last one does not decode. -/
def wire : List Bytes :=
  [wireBytes 2, wireBytes 1, wireBytes 4, wireBytes 4, wireBytes 3,
    (wireBytes 9).take 30]

theorem accepts_two_and_four : session.sessionId.length = 8 ∧
      acceptedNumbers primitives session (decodedPayloads wire) = [2, 4] ∧
      (acceptedNumbers primitives session
        (decodedPayloads wire)).Pairwise (· < ·) ∧
      (run (receive primitives) session
        (decodedPayloads wire)).recvSequence = 4 := by
  have haccepted : acceptedNumbers primitives session
      (decodedPayloads wire) = [2, 4] := by decide +kernel
  obtain ⟨_, hincreasing, hcounter⟩ :=
    window_safe primitives session (by decide) wire
  refine ⟨by decide, haccepted, hincreasing, ?_⟩
  rw [hcounter, haccepted]
  rfl

end ReplayWindowWitness

end AshiChat
