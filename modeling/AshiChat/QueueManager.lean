/-
The outgoing queue and the DATA path (`queue_manager.py`).  Message ids are
the 128-bit values of `uuid.uuid4()`; the environment picks them.  Times are
exact rationals read from the clock.  `created_at` is written and never read,
so entries leave it out.
-/
import AshiChat.Session
import Mathlib.Data.Rat.Init

namespace AshiChat

open OrderedDict Bool List Option

def maxRetries : Nat := 5

inductive MessageStatus where
  | queued | pending | delivered | acknowledged | failed
deriving DecidableEq, Repr

/-- `MessageStatus(text)`; `none` is the `ValueError`. -/
def MessageStatus.ofText : String → Option MessageStatus
  | "queued" => some .queued
  | "pending" => some .pending
  | "delivered" => some .delivered
  | "acknowledged" => some .acknowledged
  | "failed" => some .failed
  | _ => none

abbrev MessageId := Nat

structure QueueEntry where
  receiver : PeerId
  status : MessageStatus
  retryCount : Nat
  plaintext : Bytes
  sequenceNumber : Option Nat := none
  sentAt : Option ℚ := none
deriving DecidableEq

/-- `entry["status"] = PENDING; …["sequence_number"] = seq; …["sent_at"]` -/
def QueueEntry.dispatched (seq : Nat) (now : ℚ) (entry : QueueEntry) :
    QueueEntry :=
  { entry with status := .pending, sequenceNumber := some seq, sentAt := some now }

/-- One more retry, or failure at `MAX_RETRIES`. -/
def QueueEntry.timedOut (entry : QueueEntry) : QueueEntry :=
  if maxRetries ≤ entry.retryCount + 1 then
    { entry with retryCount := entry.retryCount + 1, status := .failed }
  else
    { entry with retryCount := entry.retryCount + 1, status := .queued }

theorem QueueEntry.timedOut_status (entry : QueueEntry) :
    entry.timedOut.status = .failed ∨ entry.timedOut.status = .queued := by
  unfold timedOut
  split
  · exact .inl rfl
  · exact .inr rfl

@[simp] theorem QueueEntry.timedOut_receiver (entry : QueueEntry) :
    entry.timedOut.receiver = entry.receiver := by
  unfold timedOut
  split <;> rfl

/-- `_queue`: message id to entry, in insertion order. -/
abbrev QueueManager := OrderedDict MessageId QueueEntry

/-- The arguments of one `encrypt` call. -/
structure Encryption where
  key : Bytes
  plaintext : Bytes
  nonce : Bytes
  aad : Bytes
deriving DecidableEq, Repr

/-- A DATA payload together with the encryption that made it. -/
structure SealedData where
  encryption : Encryption
  payload : DataPayload
deriving DecidableEq, Repr

/-- `struct.pack(">BI", PacketType.DATA, seq)` -/
def dataAad (seq : Nat) : Except PyError Bytes := do
  let packed ← packU32 seq
  return PacketType.data.code :: packed

/-- The nonce, associated data, key and plaintext of a DATA packet. -/
def dataEncryption (session : Session) (seq : Nat) (plaintext : Bytes) :
    Except PyError Encryption := do
  let nonce ← buildNonce session.sessionId seq
  let aad ← dataAad seq
  return ⟨session.encryptionKey, plaintext, nonce, aad⟩

/-- The part `build_data_packet` and `rebuild_for_sync` share: encrypt under
the session and the given number. -/
def sealData (P : Primitives) (session : Session) (seq : Nat)
    (plaintext : Bytes) : Except PyError SealedData := do
  let call ← dataEncryption session seq plaintext
  let (ct, tag) ← encrypt P call.key call.plaintext call.nonce call.aad
  return ⟨call, ⟨session.sessionId, seq, ct, tag⟩⟩

/-- What a message must satisfy for `encrypt` to take it. -/
def Encryptable (plaintext : Bytes) : Prop := plaintext.length ≤ maxAeadData

instance (plaintext : Bytes) : Decidable (Encryptable plaintext) :=
  inferInstanceAs (Decidable (_ ≤ _))

/-- The encryption of one DATA packet, when nothing raises. -/
def sealCall (session : Session) (seq : Nat) (plaintext : Bytes) :
    Encryption where
  key := session.encryptionKey
  plaintext := plaintext
  nonce := session.sessionId ++ BigEndian.encode 4 seq
  aad := PacketType.data.code :: BigEndian.encode 4 seq

/-- The payload of one DATA packet, when nothing raises. -/
def sealPayload (P : Primitives) (session : Session) (seq : Nat)
    (plaintext : Bytes) : DataPayload :=
  let call := sealCall session seq plaintext
  let sealed := P.aesGcmEncrypt call.key call.nonce call.plaintext call.aad
  let split := sealed.length - 16
  ⟨session.sessionId, seq, sealed.take split, sealed.drop split⟩

@[simp] theorem sealPayload_sequenceNumber (P : Primitives)
    (session : Session) (seq : Nat) (plaintext : Bytes) :
    (sealPayload P session seq plaintext).sequenceNumber = seq := rfl

@[simp] theorem sealPayload_sessionId (P : Primitives) (session : Session)
    (seq : Nat) (plaintext : Bytes) :
    (sealPayload P session seq plaintext).sessionId = session.sessionId := rfl

/-- Both together: what sealing `plaintext` under number `seq` yields. -/
def sealedWith (P : Primitives) (session : Session) (seq : Nat)
    (plaintext : Bytes) : SealedData :=
  ⟨sealCall session seq plaintext, sealPayload P session seq plaintext⟩

@[simp] theorem sealedWith_encryption (P : Primitives) (session : Session)
    (seq : Nat) (plaintext : Bytes) :
    (sealedWith P session seq plaintext).encryption =
      sealCall session seq plaintext := rfl

@[simp] theorem sealedWith_payload (P : Primitives) (session : Session)
    (seq : Nat) (plaintext : Bytes) :
    (sealedWith P session seq plaintext).payload =
      sealPayload P session seq plaintext := rfl

variable {P : Primitives} {plaintext : Bytes} {session left right : Session}
  {seq : Nat} {sealed : SealedData}

/-- Only the id and the key of the session enter a sealed packet. -/
theorem sealedWith_congr (P : Primitives)
    (hid : left.sessionId = right.sessionId)
    (hkey : left.encryptionKey = right.encryptionKey) (seq : Nat)
    (plaintext : Bytes) :
    sealedWith P left seq plaintext = sealedWith P right seq plaintext := by
  simp only [sealedWith, sealPayload, sealCall, hid, hkey]

/-- The session id fits the nonce and `AESGCM` accepts the key. -/
structure Session.Keyed (session : Session) : Prop where
  sessionId : session.sessionId.length = 8
  encryptionKey : aesKeyOk session.encryptionKey = true

theorem Session.Sized.keyed (hsized : session.Sized) : session.Keyed :=
  ⟨hsized.sessionId, by simp [aesKeyOk, hsized.encryptionKey]⟩

/-- A keyed session seals every encryptable message under every number that
fits the four-byte field. -/
theorem sealData_ok (P : Primitives) (hkeyed : session.Keyed)
    (hseq : seq < 2 ^ 32) (hplain : Encryptable plaintext) :
    sealData P session seq plaintext =
      .ok (sealedWith P session seq plaintext) := by
  have hlen : ¬ maxAeadData < plaintext.length := Nat.not_lt.mpr hplain
  simp only [sealData, dataEncryption, buildNonce_ok hkeyed.sessionId hseq,
    dataAad, packU32_ok hseq, encrypt, bind, Except.bind, pure, Except.pure,
    hkeyed.encryptionKey, Bool.not_true, Bool.false_eq_true, ↓reduceIte, hlen]
  rfl

/-- Conversely, whatever is sealed has this form. -/
theorem sealData_eq_ok (hsized : session.Sized)
    (hseal : sealData P session seq plaintext = .ok sealed) :
    seq < 2 ^ 32 ∧ Encryptable plaintext ∧
      sealed = sealedWith P session seq plaintext := by
  by_cases hseq : seq < 2 ^ 32
  · by_cases hplain : Encryptable plaintext
    · rw [sealData_ok P hsized.keyed hseq hplain] at hseal
      cases hseal
      exact ⟨hseq, hplain, rfl⟩
    · have hlen : maxAeadData < plaintext.length := Nat.not_le.mp hplain
      simp only [sealData, dataEncryption,
        buildNonce_ok hsized.sessionId hseq, dataAad, packU32_ok hseq, encrypt,
        bind, Except.bind, pure, Except.pure, hsized.keyed.encryptionKey,
        Bool.not_true, Bool.false_eq_true, ↓reduceIte, hlen] at hseal
      cases hseal
  · simp only [sealData, dataEncryption, buildNonce, hsized.sessionId, packU32,
      hseq, ne_eq, not_true_eq_false, ↓reduceIte, bind, Except.bind] at hseal
    cases hseal

/-- A sealed packet names the session and the number it is sealed under. -/
theorem sealData_header (hseal : sealData P session seq plaintext = .ok sealed) :
    sealed.payload.sessionId = session.sessionId ∧
      sealed.payload.sequenceNumber = seq := by
  simp only [sealData, bind, Except.bind] at hseal
  split at hseal
  · cases hseal
  · split at hseal
    · cases hseal
    · cases hseal
      exact ⟨rfl, rfl⟩

theorem sealCall_nonce_eq_iff (hid : left.sessionId = right.sessionId)
    {i j : Nat} (hi : i < 2 ^ 32) (hj : j < 2 ^ 32) (p q : Bytes) :
    (sealCall left i p).nonce = (sealCall right j q).nonce ↔ i = j := by
  simp only [sealCall, hid, append_cancel_left_eq]
  constructor
  · exact BigEndian.encode_injective (by simpa using hi) (by simpa using hj)
  · rintro rfl
    rfl

/-- A sealed payload always fits the wire fields it is written to. -/
theorem serialize_sealPayload (P : Primitives) (session : Session)
    (hseq : seq < 2 ^ 32) (hplain : Encryptable plaintext) :
    ∃ bytes, (sealPayload P session seq plaintext).serialize = .ok bytes := by
  have hct : (sealPayload P session seq plaintext).ciphertext.length <
      2 ^ 32 := by
    have hmax : plaintext.length ≤ 2 ^ 31 - 1 := hplain
    simp only [sealPayload, sealCall, length_take, P.aesGcmEncrypt_length]
    omega
  have hnum : (sealPayload P session seq plaintext).sequenceNumber < 2 ^ 32 :=
    hseq
  simp only [DataPayload.serialize, packU32, hct, hnum, ↓reduceIte]
  exact ⟨_, rfl⟩

theorem dataEncryption_eq_ok {call : Encryption}
    (hcall : dataEncryption session seq plaintext = .ok call) :
    session.sessionId.length = 8 ∧ seq < 2 ^ 32 ∧
      call.plaintext = plaintext := by
  have hid : session.sessionId.length = 8 := by
    by_contra hlength
    simp [dataEncryption, buildNonce, hlength, bind, Except.bind] at hcall
  by_cases hseq : seq < 2 ^ 32
  · simp only [dataEncryption, buildNonce_ok hid hseq, dataAad,
      packU32_ok hseq, bind, Except.bind, pure, Except.pure] at hcall
    cases hcall
    exact ⟨hid, hseq, rfl⟩
  · simp only [dataEncryption, buildNonce, hid, packU32, hseq, ne_eq,
      not_true_eq_false, ↓reduceIte, bind, Except.bind] at hcall
    cases hcall

theorem length_of_encrypt {key nonce aad ct tag : Bytes}
    (henc : encrypt P key plaintext nonce aad = .ok (ct, tag)) :
    plaintext.length ≤ maxAeadData ∧ ct.length = plaintext.length ∧
      tag.length = 16 := by
  unfold encrypt at henc
  split at henc
  · cases henc
  · split at henc
    · cases henc
    · next hlen =>
      cases henc
      refine ⟨Nat.not_lt.mp hlen, ?_, ?_⟩
      · simp [P.aesGcmEncrypt_length]
      · simp [P.aesGcmEncrypt_length]

/-- What is sealed can be written out, whatever the session, and is 32 bytes
longer than the message. -/
theorem serialize_of_sealData
    (hseal : sealData P session seq plaintext = .ok sealed) :
    ∃ bytes, sealed.payload.serialize = .ok bytes ∧
      bytes.length = plaintext.length + 32 := by
  simp only [sealData, bind, Except.bind] at hseal
  split at hseal
  · cases hseal
  · next _ hcall =>
    split at hseal
    · cases hseal
    · next parts henc =>
      cases hseal
      obtain ⟨hid, hseq, rfl⟩ := dataEncryption_eq_ok hcall
      obtain ⟨hmax, hct, htag⟩ := length_of_encrypt henc
      have hfits : parts.1.length < 2 ^ 32 := by
        unfold maxAeadData at hmax
        omega
      simp only [DataPayload.serialize, packU32, hseq, hfits, ↓reduceIte]
      refine ⟨_, rfl, ?_⟩
      simp only [length_append, BigEndian.length_encode, hid, hct, htag]
      omega

namespace QueueManager

/-- `enqueue` under the id the environment drew. -/
def enqueue (queue : QueueManager) (messageId : MessageId)
    (receiver : PeerId) (plaintext : Bytes) : QueueManager :=
  queue.set messageId {
    receiver := receiver
    status := .queued
    retryCount := 0
    plaintext := plaintext }

/-- `restore_entry`; an unknown status text restores as queued. -/
def restoreEntry (queue : QueueManager) (messageId : MessageId)
    (receiver : PeerId) (status : String) (retryCount : Nat)
    (plaintext : Bytes) (sequenceNumber : Option Nat) : QueueManager :=
  queue.set messageId {
    receiver := receiver
    status := (MessageStatus.ofText status).getD .queued
    retryCount := retryCount
    plaintext := plaintext
    sequenceNumber := sequenceNumber }

/-- A built packet, its number, and the encryption behind it. -/
structure Built where
  sealed : SealedData
  packet : Packet
  sequenceNumber : Nat

/-- Queue and session after a call, and what the call returned or raised. -/
structure BuildOutcome where
  queue : QueueManager
  session : Session
  result : Except PyError (Option Built)

/-- `build_data_packet`.  The number is drawn before anything can raise; the
entry is marked before the packet is framed. -/
def buildDataPacket (P : Primitives) (queue : QueueManager)
    (messageId : MessageId) (session : Session) (now : ℚ) : BuildOutcome :=
  match queue.get? messageId with
  | none => ⟨queue, session, .ok none⟩
  | some entry =>
    if entry.status ≠ .queued then ⟨queue, session, .ok none⟩
    else
      let (seq, session') := session.nextSequence
      match sealData P session seq entry.plaintext with
      | .error err => ⟨queue, session', .error err⟩
      | .ok sealed =>
        let queue' := queue.modify messageId (QueueEntry.dispatched seq now)
        match sealed.payload.serialize with
        | .error err => ⟨queue', session', .error err⟩
        | .ok bytes =>
          ⟨queue', session', .ok (some ⟨sealed, makePacket .data bytes, seq⟩)⟩

/-- `rebuild_for_sync`: encrypt again under the entry's stored number. -/
def rebuildForSync (P : Primitives) (queue : QueueManager)
    (messageId : MessageId) (session : Session) (now : ℚ) :
    QueueManager × Except PyError (Option Built) :=
  match queue.get? messageId with
  | none => (queue, .ok none)
  | some entry =>
    match entry.sequenceNumber with
    | none => (queue, .ok none)
    | some seq =>
      if entry.plaintext = [] then (queue, .ok none)
      else
        match sealData P session seq entry.plaintext with
        | .error err => (queue, .error err)
        | .ok sealed =>
          let queue' := queue.modify messageId
            (fun entry => { entry with sentAt := some now })
          match sealed.payload.serialize with
          | .error err => (queue', .error err)
          | .ok bytes =>
            (queue', .ok (some ⟨sealed, makePacket .data bytes, seq⟩))

/-- The test `handle_ack` applies to each entry: status and number only. -/
def ackMatches (ackSequenceNumber : Nat) (_ : MessageId)
    (entry : QueueEntry) : Bool :=
  entry.status == .pending && entry.sequenceNumber == some ackSequenceNumber

/-- `handle_ack`: the first pending entry with the number becomes delivered. -/
def handleAck (queue : QueueManager) (ack : AckPayload) :
    QueueManager × Option MessageId :=
  match first? queue (ackMatches ack.ackSequenceNumber) with
  | none => (queue, none)
  | some (messageId, _) =>
    (queue.modify messageId
      (fun entry => { entry with status := .delivered }), some messageId)

/-- The test of `acknowledge_by_sequence`. -/
def appAckMatches (peerId : PeerId) (sequenceNumber : Nat) (_ : MessageId)
    (entry : QueueEntry) : Bool :=
  entry.receiver == peerId && entry.sequenceNumber == some sequenceNumber &&
    entry.status == .delivered

def acknowledgeBySequence (queue : QueueManager) (peerId : PeerId)
    (sequenceNumber : Nat) : QueueManager × Option MessageId :=
  match first? queue (appAckMatches peerId sequenceNumber) with
  | none => (queue, none)
  | some (messageId, _) =>
    (queue.modify messageId
      (fun entry => { entry with status := .acknowledged }), some messageId)

def handleTimeout (queue : QueueManager) (messageId : MessageId) :
    QueueManager × MessageStatus :=
  match queue.get? messageId with
  | none => (queue, .failed)
  | some entry =>
    (queue.modify messageId QueueEntry.timedOut, entry.timedOut.status)

def getQueuedForPeer (queue : QueueManager) (peerId : PeerId) :
    List MessageId :=
  (queue.entries.filter fun binding =>
    binding.2.receiver == peerId && binding.2.status == .queued).map Prod.fst

def getStatus (queue : QueueManager) (messageId : MessageId) :
    Option MessageStatus :=
  (queue.get? messageId).map QueueEntry.status

/-- Seconds a PENDING message waits for its ACK. -/
def ackTimeout : ℚ := 30

/-- `get_timed_out_messages`; an entry without a send time counts as sent just
now. -/
def getTimedOutMessages (queue : QueueManager) (now : ℚ) : List MessageId :=
  (queue.entries.filter fun binding =>
    binding.2.status == .pending &&
      decide (ackTimeout < now - binding.2.sentAt.getD now)).map Prod.fst

/-- `decrypt_data_packet`: what it returns or raises, and the session, whose
receive counter moves only after a successful decryption.  The nonce and the
associated data are built outside the `try`. -/
def decryptDataPacket (P : Primitives) (payload : DataPayload)
    (session : Session) : Except PyError (Option Bytes) × Session :=
  if !session.checkRecvSequence payload.sequenceNumber then
    (.ok none, session)
  else
    match buildNonce session.sessionId payload.sequenceNumber,
        dataAad payload.sequenceNumber with
    | .error err, _ => (.error err, session)
    | .ok _, .error err => (.error err, session)
    | .ok nonce, .ok aad =>
      match decrypt P session.encryptionKey payload.ciphertext nonce aad
          payload.authTag with
      | none => (.ok none, session)
      | some plaintext =>
        (.ok (some plaintext),
          session.advanceRecvSequence payload.sequenceNumber)

/-- Plaintext `build_data_packet` would encrypt: the entry is there and
queued. -/
def readyPlaintext? (queue : QueueManager) (messageId : MessageId) :
    Option Bytes :=
  match queue.get? messageId with
  | none => none
  | some entry => if entry.status = .queued then some entry.plaintext else none

variable {P : Primitives} {messageId : MessageId}
  {queue queue' left right : QueueManager} {session : Session}
  {plaintext : Bytes} {now : ℚ} {built : Built} {seq : Nat}
  {entry : QueueEntry}

theorem readyPlaintext?_eq_some
    (hready : readyPlaintext? queue messageId = some plaintext) :
    ∃ entry, queue.get? messageId = some entry ∧
      entry.status = .queued ∧ entry.plaintext = plaintext := by
  unfold readyPlaintext? at hready
  split at hready
  · cases hready
  · next entry hget =>
    split at hready
    · next hstatus => exact ⟨entry, hget, hstatus, by simpa using hready⟩
    · cases hready

/-- Nothing to build: no entry, or one that is not queued. -/
theorem buildDataPacket_of_not_ready (P : Primitives) (session : Session)
    (now : ℚ) (hready : readyPlaintext? queue messageId = none) :
    buildDataPacket P queue messageId session now =
      ⟨queue, session, .ok none⟩ := by
  unfold readyPlaintext? at hready
  unfold buildDataPacket
  split at hready
  · rfl
  · split at hready
    · cases hready
    · next hstatus => simp [hstatus]

/-- A queued entry that can be sealed goes out under the next number. -/
theorem buildDataPacket_of_ready (P : Primitives) (now : ℚ)
    (hready : readyPlaintext? queue messageId = some plaintext)
    (hkeyed : session.Keyed) (hseq : session.sendSequence < 2 ^ 32)
    (hplain : Encryptable plaintext) :
    ∃ bytes, (sealPayload P session session.sendSequence
        plaintext).serialize = .ok bytes ∧
      buildDataPacket P queue messageId session now = ⟨queue.modify messageId
            (QueueEntry.dispatched session.sendSequence now),
          session.nextSequence.2,
          .ok (some ⟨sealedWith P session session.sendSequence plaintext,
            makePacket .data bytes, session.sendSequence⟩)⟩ := by
  obtain ⟨_, hget, hstatus, rfl⟩ := readyPlaintext?_eq_some hready
  obtain ⟨bytes, hbytes⟩ := serialize_sealPayload P session hseq hplain
  refine ⟨bytes, hbytes, ?_⟩
  simp [buildDataPacket, hget, hstatus, Session.nextSequence,
    sealData_ok P hkeyed hseq hplain, hbytes]

/-- A queued entry that cannot be sealed still uses up a number. -/
theorem buildDataPacket_of_ready_error (P : Primitives) (now : ℚ)
    (hready : readyPlaintext? queue messageId = some plaintext)
    (hsized : session.Sized)
    (hbad : ¬ (session.sendSequence < 2 ^ 32 ∧ Encryptable plaintext)) :
    ∃ err, buildDataPacket P queue messageId session now =
      ⟨queue, session.nextSequence.2, .error err⟩ := by
  obtain ⟨entry, hget, hstatus, rfl⟩ := readyPlaintext?_eq_some hready
  cases hseal : sealData P session session.sendSequence entry.plaintext with
  | error err =>
    exact ⟨err, by simp [buildDataPacket, hget, hstatus,
      Session.nextSequence, hseal]⟩
  | ok =>
    obtain ⟨hseq, hplain, _⟩ := sealData_eq_ok hsized hseal
    exact absurd ⟨hseq, hplain⟩ hbad

/-- The three ways a build call ends: there is nothing to build, the packet
cannot be sealed, or it goes out under the next number. -/
theorem buildDataPacket_cases (P : Primitives) (queue : QueueManager)
    (messageId : MessageId) (session : Session) (now : ℚ) :
    (readyPlaintext? queue messageId = none ∧
      buildDataPacket P queue messageId session now =
        ⟨queue, session, .ok none⟩) ∨
    ∃ entry, queue.get? messageId = some entry ∧ entry.status = .queued ∧
      ((∃ err, buildDataPacket P queue messageId session now =
          ⟨queue, session.nextSequence.2, .error err⟩) ∨
        ∃ built, built.sequenceNumber = session.sendSequence ∧
          built.packet.payload.length = entry.plaintext.length + 32 ∧
          buildDataPacket P queue messageId session now =
            ⟨queue.modify messageId
                (QueueEntry.dispatched session.sendSequence now),
              session.nextSequence.2, .ok (some built)⟩) := by
  cases hready : readyPlaintext? queue messageId with
  | none => exact .inl ⟨rfl, buildDataPacket_of_not_ready P session now hready⟩
  | some plaintext =>
    obtain ⟨entry, hget, hstatus, rfl⟩ := readyPlaintext?_eq_some hready
    refine .inr ⟨entry, hget, hstatus, ?_⟩
    simp only [buildDataPacket, hget, hstatus, ne_eq, not_true_eq_false,
      ↓reduceIte, Session.nextSequence]
    cases hseal : sealData P session session.sendSequence entry.plaintext with
    | error err => exact .inl ⟨err, rfl⟩
    | ok =>
      obtain ⟨_, hbytes, hlength⟩ := serialize_of_sealData hseal
      simp only [hbytes]
      exact .inr ⟨_, rfl, hlength, rfl⟩

/-- A build call leaves the queue alone or marks its one entry. -/
theorem buildDataPacket_queue (P : Primitives) (queue : QueueManager)
    (messageId : MessageId) (session : Session) (now : ℚ) :
    (buildDataPacket P queue messageId session now).queue = queue ∨
      (buildDataPacket P queue messageId session now).queue =
        queue.modify messageId
          (QueueEntry.dispatched session.sendSequence now) := by
  unfold buildDataPacket
  simp only [Session.nextSequence]
  repeat' split
  all_goals first
    | exact Or.inl rfl
    | exact Or.inr rfl

/-- A build call keeps everything of the session but its send counter. -/
theorem buildDataPacket_session (P : Primitives) (queue : QueueManager)
    (messageId : MessageId) (session : Session) (now : ℚ) :
    ∃ sendSequence, (buildDataPacket P queue messageId session now).session =
      { session with sendSequence := sendSequence } := by
  unfold buildDataPacket
  simp only [Session.nextSequence]
  repeat' split
  all_goals exact ⟨_, rfl⟩

/-- A built packet carries the queued entry, sealed under the next number. -/
theorem buildDataPacket_eq_some
    (hbuild : (buildDataPacket P queue messageId session now).result =
      .ok (some built)) :
    ∃ entry, queue.get? messageId = some entry ∧ entry.status = .queued ∧
      sealData P session session.sendSequence entry.plaintext =
        .ok built.sealed := by
  unfold buildDataPacket at hbuild
  simp only [Session.nextSequence] at hbuild
  split at hbuild
  · simp at hbuild
  · next entry hget =>
    split at hbuild
    · simp at hbuild
    · next hstatus =>
      split at hbuild
      · simp at hbuild
      · next sealed hseal =>
        split at hbuild
        · simp at hbuild
        · simp only [Except.ok.injEq, some.injEq] at hbuild
          subst hbuild
          exact ⟨entry, hget, not_not.mp hstatus, hseal⟩

/-- An ACK is credited to a pending entry with its number. -/
theorem handleAck_eq_some {ack : AckPayload}
    (hack : queue.handleAck ack = (queue', some messageId)) :
    queue' = queue.modify messageId
        (fun entry => { entry with status := .delivered }) ∧
      ∃ entry, queue.get? messageId = some entry ∧ entry.status = .pending ∧
        entry.sequenceNumber = some ack.ackSequenceNumber := by
  unfold handleAck at hack
  split at hack
  · cases hack
  · next _ entry hfirst =>
    cases hack
    obtain ⟨hget, htest⟩ := get?_of_first? _ hfirst
    simp only [ackMatches, and_eq_true, beq_iff_eq] at htest
    exact ⟨rfl, entry, hget, htest⟩

/-- An APP_ACK is credited to a delivered entry of the peer with its number. -/
theorem acknowledgeBySequence_eq_some {peerId : PeerId}
    (hack : queue.acknowledgeBySequence peerId seq = (queue', some messageId)) :
    queue' = queue.modify messageId
        (fun entry => { entry with status := .acknowledged }) ∧
      ∃ entry, queue.get? messageId = some entry ∧
        entry.status = .delivered := by
  unfold acknowledgeBySequence at hack
  split at hack
  · cases hack
  · next _ entry hfirst =>
    cases hack
    obtain ⟨hget, htest⟩ := get?_of_first? _ hfirst
    simp only [appAckMatches, and_eq_true, beq_iff_eq] at htest
    exact ⟨rfl, entry, hget, htest.2⟩

/-- The entry without its send time. -/
def core (entry : QueueEntry) : QueueEntry := { entry with sentAt := none }

/-- Two entries that differ in their send time at most. -/
structure SameEntry (left right : QueueEntry) : Prop where
  receiver_eq : left.receiver = right.receiver
  status_eq : left.status = right.status
  retryCount_eq : left.retryCount = right.retryCount
  plaintext_eq : left.plaintext = right.plaintext
  sequenceNumber_eq : left.sequenceNumber = right.sequenceNumber

theorem sameEntry_of_core_eq {left right : QueueEntry}
    (hcore : core left = core right) : SameEntry left right := by
  simp only [core, QueueEntry.mk.injEq] at hcore
  obtain ⟨hreceiver, hstatus, hretry, htext, hseq, _⟩ := hcore
  exact ⟨hreceiver, hstatus, hretry, htext, hseq⟩

/-- Two queues that differ in send times only. -/
def SameCore (left right : QueueManager) : Prop :=
  ∀ messageId, (left.get? messageId).map core = (right.get? messageId).map core

theorem SameCore.refl (queue : QueueManager) : SameCore queue queue :=
  fun _ => rfl

theorem SameCore.symm (hcore : SameCore left right) : SameCore right left :=
  fun messageId => (hcore messageId).symm

theorem SameCore.trans {first second third : QueueManager}
    (hleft : SameCore first second) (hright : SameCore second third) :
    SameCore first third :=
  fun messageId => (hleft messageId).trans (hright messageId)

theorem SameCore.get? (hcore : SameCore left right)
    (hget : left.get? messageId = some entry) :
    ∃ other, right.get? messageId = some other ∧ SameEntry entry other := by
  have hmap := hcore messageId
  rw [hget, map_some] at hmap
  obtain ⟨other, hother, hsame⟩ := map_eq_some_iff.mp hmap.symm
  exact ⟨other, hother, sameEntry_of_core_eq hsame.symm⟩

theorem sameCore_touch (queue : QueueManager) (messageId : MessageId)
    (now : ℚ) :
    SameCore (queue.modify messageId
      (fun entry => { entry with sentAt := some now })) queue := by
  intro other
  rw [get?_modify]
  split
  · cases queue.get? other <;> rfl
  · rfl

/-- What every entry with a number satisfies in a queue the code built: the
number fits its field and the message was encryptable. -/
def WellFormed (queue : QueueManager) : Prop :=
  ∀ messageId entry, queue.get? messageId = some entry →
    ∀ seq, entry.sequenceNumber = some seq →
      seq < 2 ^ 32 ∧ Encryptable entry.plaintext

theorem rebuildForSync_sameCore (P : Primitives) (queue : QueueManager)
    (messageId : MessageId) (session : Session) (now : ℚ) :
    SameCore (rebuildForSync P queue messageId session now).1 queue := by
  unfold rebuildForSync
  repeat' split
  all_goals first
    | exact SameCore.refl queue
    | exact sameCore_touch queue messageId now

/-- A retransmission encrypts the entry's message under its stored number. -/
theorem rebuildForSync_eq_some
    (hbuild : rebuildForSync P queue messageId session now =
      (queue', .ok (some built))) :
    ∃ entry seq, queue.get? messageId = some entry ∧
      entry.sequenceNumber = some seq ∧ entry.plaintext ≠ [] ∧
      sealData P session seq entry.plaintext = .ok built.sealed := by
  unfold rebuildForSync at hbuild
  split at hbuild
  · simp at hbuild
  · next entry hget =>
    split at hbuild
    · simp at hbuild
    · next seq hnum =>
      split at hbuild
      · simp at hbuild
      · next hempty =>
        split at hbuild
        · simp at hbuild
        · next sealed hseal =>
          split at hbuild
          · simp at hbuild
          · simp only [Prod.mk.injEq, Except.ok.injEq, some.injEq] at hbuild
            obtain ⟨_, rfl⟩ := hbuild
            exact ⟨entry, seq, hget, hnum, hempty, hseal⟩

/-- The packet holds the serialised payload. -/
theorem rebuildForSync_packet
    (hbuild : rebuildForSync P queue messageId session now =
      (queue', .ok (some built))) :
    ∃ bytes, built.sealed.payload.serialize = .ok bytes ∧
      built.packet = makePacket .data bytes := by
  unfold rebuildForSync at hbuild
  repeat' split at hbuild
  all_goals cases hbuild
  exact ⟨_, ‹_›, rfl⟩

/-- In a well-formed queue a numbered, non-empty entry is always rebuilt. -/
theorem rebuildForSync_of_wellFormed (P : Primitives) (hwf : WellFormed queue)
    (now : ℚ) (hsized : session.Sized)
    (hget : queue.get? messageId = some entry)
    (hnum : entry.sequenceNumber = some seq) (hplain : entry.plaintext ≠ []) :
    ∃ queue' built, rebuildForSync P queue messageId session now =
      (queue', .ok (some built)) := by
  obtain ⟨hseq, henc⟩ := hwf messageId entry hget seq hnum
  obtain ⟨_, hbytes⟩ := serialize_sealPayload P session hseq henc
  simp only [rebuildForSync, hget, hnum, hplain, ↓reduceIte,
    sealData_ok P hsized.keyed hseq henc, sealedWith_payload, hbytes]
  exact ⟨_, _, rfl⟩

/-- Decryption touches nothing but the receive counter. -/
theorem decryptDataPacket_session (P : Primitives) (payload : DataPayload)
    (session : Session) :
    ∃ recvSequence, (decryptDataPacket P payload session).2 =
      { session with recvSequence := recvSequence } := by
  unfold decryptDataPacket
  repeat' split
  all_goals first
    | exact ⟨session.recvSequence, rfl⟩
    | (unfold Session.advanceRecvSequence
       split
       · exact ⟨_, rfl⟩
       · exact ⟨session.recvSequence, rfl⟩)

/-- A decrypted packet passed the replay check and moved the counter to its
number. -/
theorem decryptDataPacket_eq_some {payload : DataPayload} {session' : Session}
    (hdec : decryptDataPacket P payload session =
      (.ok (some plaintext), session')) :
    session.checkRecvSequence payload.sequenceNumber = true ∧
      session' = { session with recvSequence := payload.sequenceNumber } := by
  unfold decryptDataPacket at hdec
  split at hdec
  · simp at hdec
  · next hcheck =>
    simp only [not_eq_true', not_eq_false] at hcheck
    refine ⟨hcheck, ?_⟩
    split at hdec
    · simp at hdec
    · simp at hdec
    · split at hdec
      · simp at hdec
      · simp only [Prod.mk.injEq] at hdec
        have hlt : session.recvSequence < payload.sequenceNumber := by
          simpa [Session.checkRecvSequence] using hcheck
        rw [← hdec.2, Session.advanceRecvSequence, if_pos hlt]

/-- The receiver's side of a sealed packet: it gives the plaintext exactly when
the number passes the replay check. -/
theorem decryptDataPacket_sealPayload (hundo : P.DecryptUndoes)
    (hkeyed : session.Keyed) (hseq : seq < 2 ^ 32) (plaintext : Bytes) :
    decryptDataPacket P (sealPayload P session seq plaintext) session =
      if session.checkRecvSequence seq then
        (.ok (some plaintext), session.advanceRecvSequence seq)
      else (.ok none, session) := by
  have haad : dataAad seq =
      .ok (PacketType.data.code :: BigEndian.encode 4 seq) := by
    simp only [dataAad, packU32_ok hseq]
    rfl
  have hdec : decrypt P session.encryptionKey
      (sealPayload P session seq plaintext).ciphertext
      (session.sessionId ++ BigEndian.encode 4 seq)
      (PacketType.data.code :: BigEndian.encode 4 seq)
      (sealPayload P session seq plaintext).authTag = some plaintext := by
    simp only [decrypt, hkeyed.encryptionKey, Bool.not_true,
      false_eq_true, ↓reduceIte, sealPayload, take_append_drop]
    exact hundo ..
  simp only [decryptDataPacket, sealPayload_sequenceNumber,
    buildNonce_ok hkeyed.sessionId hseq, haad, hdec]
  cases session.checkRecvSequence seq <;> rfl

/-- A field that no call changes once `enqueue` has set it. -/
structure Lasting {β : Type} (field : QueueEntry → β) : Prop where
  status : ∀ entry status, field { entry with status := status } = field entry
  dispatched : ∀ entry seq now,
    field (QueueEntry.dispatched seq now entry) = field entry
  timedOut : ∀ entry, field entry.timedOut = field entry
  core : ∀ entry, field (core entry) = field entry

theorem lasting_receiver : Lasting QueueEntry.receiver where
  status _ _ := rfl
  dispatched _ _ _ := rfl
  timedOut := QueueEntry.timedOut_receiver
  core _ := rfl

theorem lasting_plaintext : Lasting QueueEntry.plaintext where
  status _ _ := rfl
  dispatched _ _ _ := rfl
  timedOut entry := by
    unfold QueueEntry.timedOut
    split <;> rfl
  core _ := rfl

section Lasting

variable {β : Type} {field : QueueEntry → β} (queue : QueueManager)
  (messageId other : MessageId)

theorem map_get?_modify {change : QueueEntry → QueueEntry}
    (hchange : ∀ entry, field (change entry) = field entry) :
    ((modify queue messageId change).get? other).map field =
      (queue.get? other).map field := by
  rw [get?_modify]
  split
  · rw [Option.map_map]
    exact congrArg (Option.map · _) (funext hchange)
  · rfl

section

variable (hlasting : Lasting field)

include hlasting

theorem Lasting.handleAck (ack : AckPayload) :
    (get? (queue.handleAck ack).1 other).map field =
      (queue.get? other).map field := by
  unfold QueueManager.handleAck
  split
  · rfl
  · exact map_get?_modify queue _ other (hlasting.status · _)

theorem Lasting.acknowledgeBySequence (peerId : PeerId) (seq : Nat) :
    (get? (queue.acknowledgeBySequence peerId seq).1 other).map field =
      (queue.get? other).map field := by
  unfold QueueManager.acknowledgeBySequence
  split
  · rfl
  · exact map_get?_modify queue _ other (hlasting.status · _)

theorem Lasting.handleTimeout :
    (get? (queue.handleTimeout messageId).1 other).map field =
      (queue.get? other).map field := by
  unfold QueueManager.handleTimeout
  split
  · rfl
  · exact map_get?_modify queue _ other hlasting.timedOut

theorem Lasting.of_sameCore
    {left right : QueueManager} (hcore : SameCore left right) :
    (left.get? other).map field = (right.get? other).map field := by
  have hfield : field = field ∘ QueueManager.core :=
    funext fun entry => (hlasting.core entry).symm
  rw [hfield, ← Option.map_map, ← Option.map_map, hcore other]

end

end Lasting

end QueueManager

end AshiChat
