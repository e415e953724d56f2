/-
One SYNC of a session, from the queue of the sender to the messages the
receiver has decrypted.  `_handle_sync` goes through the queue in the order in
which the messages were enqueued, while a retry gives an old message a new
number; the receiver takes only numbers above its mark.  An empty text is never
sent again, and a packet that is too long for the frame ends the loop.
-/
import AshiChat.EndToEnd
import AshiChat.NonceReuse
import AshiChat.SyncReplay
import AshiChat.Kit.Watermark
import Mathlib.Data.List.TakeWhile

namespace AshiChat

open QueueManager EventRun Packet List Watermark

/-- What `_send_to` puts on the wire, packet by packet; the first one that does
not serialise ends the loop of `_handle_sync`. -/
def datagrams : List (MessageId × Built) → List Bytes
  | [] => []
  | (_, built) :: rest =>
    match built.packet.serialize with
    | .ok data => data :: datagrams rest
    | .error _ => []

/-- The datagrams with which `_handle_sync` answers a SYNC. -/
def syncDatagrams (P : Primitives) (session : Session) (peerHighest : Nat)
    (now : ℚ) (queue : QueueManager) : List Bytes :=
  datagrams (resendMissed P session peerHighest now queue queue.entries).sent

/-- A DATA datagram at the receiver, down to `decrypt_data_packet`. -/
def receiveDatagram (P : Primitives) (session : Session) (data : Bytes) :
    Except PyError (Option Bytes) × Session :=
  match Packet.deserialize data with
  | .error err => (.error err, session)
  | .ok packet =>
    match DataPayload.deserialize packet.payload with
    | .error err => (.error err, session)
    | .ok payload => decryptDataPacket P payload session

/-- What the receiver makes of the datagrams, in the order in which they
arrive. -/
def receiveAll (P : Primitives) :
    Session → List Bytes → List (Except PyError (Option Bytes))
  | _, [] => []
  | session, data :: rest =>
    (receiveDatagram P session data).1 ::
      receiveAll P (receiveDatagram P session data).2 rest

/-- Number and text of an entry for the peer whose number is above
`peerHighest`. -/
def missed? (session : Session) (peerHighest : Nat) (entry : QueueEntry) :
    Option (Nat × Bytes) :=
  if entry.receiver = session.remotePeerId then
    match entry.sequenceNumber with
    | some seq =>
      if peerHighest < seq then some (seq, entry.plaintext) else none
    | none => none
  else none

/-- The messages the receiver misses, in the order of the queue. -/
def missing (session : Session) (peerHighest : Nat)
    (items : List (MessageId × QueueEntry)) : List (Nat × Bytes) :=
  items.filterMap fun item => missed? session peerHighest item.2

/-- The receiver announces its counter, the sender answers, and nothing is lost
or reordered: every datagram is accepted, and every message above the counter
has been decrypted. -/
def SyncComplete (P : Primitives) (sender : Endpoint) (receiver : Session)
    (now : ℚ) : Prop :=
  let results := receiveAll P receiver (syncDatagrams P sender.session
    receiver.recvSequence now sender.queue)
  (∀ result ∈ results, ∃ text, result = .ok (some text)) ∧
    ∀ item ∈ missing sender.session receiver.recvSequence
      sender.queue.entries, .ok (some item.2) ∈ results

/-- The messages above the counter stand in the order of their numbers, and
each of them can be sent again. -/
def SyncReady (sender : Endpoint) (receiver : Session) : Prop :=
  let items := missing sender.session receiver.recvSequence sender.queue.entries
  (∀ item ∈ items, item.2 ≠ [] ∧ item.2.length ≤ 65503) ∧
    (items.map Prod.fst).Pairwise (· < ·)

section Message

variable {P : Primitives} {sender receiver : Session} {seq : Nat}
  {plaintext : Bytes}

variable {bytes : Bytes}

/-- The receiver takes a datagram of the sender if its number is new. -/
theorem receiveDatagram_sealed (hundo : P.DecryptUndoes) (hkeyed : sender.Keyed)
    (hid : receiver.sessionId = sender.sessionId)
    (hkey : receiver.encryptionKey = sender.encryptionKey) (hseq : seq < 2 ^ 32)
    (hlength : plaintext.length ≤ maxPlaintext) {data : Bytes}
    (hbytes : (sealPayload P sender seq plaintext).serialize = .ok bytes)
    (hdata : (makePacket .data bytes).serialize = .ok data) :
    receiveDatagram P receiver data =
      if receiver.recvSequence < seq then
        (.ok (some plaintext), { receiver with recvSequence := seq })
      else (.ok none, receiver) := by
  have hsized := sealPayload_sized P hkeyed.sessionId hseq hlength
  obtain ⟨_, hdata', hpacket⟩ := deserialize_serialize .data
    (length_serialize_of_sized hsized hbytes)
  cases hdata.symm.trans hdata'
  have hpayload := DataPayload.deserialize_serialize hsized hbytes
  have hpayload' : DataPayload.deserialize (makePacket .data bytes).payload =
        .ok (sealPayload P sender seq plaintext) := hpayload
  simp only [receiveDatagram, hpacket, hpayload']
  split
  · next hnew =>
    exact decryptDataPacket_of_peer hundo hkeyed hid hkey hseq hnew plaintext
  · next hold => simp [decryptDataPacket, Session.checkRecvSequence, hold]

/-- The transport takes the packet exactly if the text fits. -/
theorem serialize_rebuilt {sealed : SealedData}
    (hseal : sealData P sender seq plaintext = .ok sealed)
    (hbytes : sealed.payload.serialize = .ok bytes) :
    (plaintext.length ≤ maxPlaintext ∧
      ∃ data, (makePacket .data bytes).serialize = .ok data) ∨
    (maxPlaintext < plaintext.length ∧
      (makePacket .data bytes).serialize = .error .structError) := by
  obtain ⟨_, hfound, hlength⟩ := serialize_of_sealData hseal
  cases hbytes.symm.trans hfound
  have hpayload : (makePacket .data bytes).payload.length =
      plaintext.length + 32 := hlength
  unfold maxPlaintext
  rcases Nat.lt_or_ge (maxPayloadSize - 32) plaintext.length with hlong | hfits
  · refine .inr ⟨hlong, serialize_of_gt ?_⟩
    unfold maxPayloadSize at hlong ⊢
    omega
  · refine .inl ⟨hfits, serialize_of_le ?_⟩
    unfold maxPayloadSize at hfits ⊢
    omega

end Message

section Pass

variable {session : Session} {peerHighest : Nat} {messageId : MessageId}
  {entry : QueueEntry} {rest : List (MessageId × QueueEntry)}

/-- What of the missing messages is sent: the empty ones are left out, and the
first that does not fit ends the pass. -/
def sendable (session : Session) (peerHighest : Nat)
    (items : List (MessageId × QueueEntry)) : List (Nat × Bytes) :=
  ((missing session peerHighest items).filter fun item => item.2 ≠ []).takeWhile
    fun item => item.2.length ≤ maxPlaintext

variable {item : Nat × Bytes} {items : List (MessageId × QueueEntry)}
  {seq : Nat}

theorem missed?_eq_some
    (hmissed : missed? session peerHighest entry = some item) :
    entry.receiver = session.remotePeerId ∧
      entry.sequenceNumber = some item.1 ∧ peerHighest < item.1 ∧
      entry.plaintext = item.2 := by
  unfold missed? at hmissed
  repeat' split at hmissed
  all_goals cases hmissed
  exact ⟨‹_›, ‹_›, ‹_›, rfl⟩

theorem missed?_of_missed (hmissed : Missed session peerHighest entry seq) :
    missed? session peerHighest entry = some (seq, entry.plaintext) := by
  obtain ⟨hreceiver, hnum, hhigh, -⟩ := hmissed
  simp [missed?, hreceiver, hnum, hhigh]

theorem missing_cons (messageId : MessageId) (entry : QueueEntry)
    (rest : List (MessageId × QueueEntry)) :
    missing session peerHighest ((messageId, entry) :: rest) =
      (missed? session peerHighest entry).toList ++
        missing session peerHighest rest := by
  simp only [missing, filterMap_cons]
  cases missed? session peerHighest entry <;> rfl

/-- Only an empty message can be missing and not be sent. -/
theorem sendable_skip (hnot : ∀ seq, ¬ Missed session peerHighest entry seq) :
    sendable session peerHighest ((messageId, entry) :: rest) =
      sendable session peerHighest rest := by
  unfold sendable
  rw [missing_cons]
  cases hmissed : missed? session peerHighest entry with
  | none => rfl
  | some item =>
    obtain ⟨hreceiver, hnum, hhigh, htext⟩ := missed?_eq_some hmissed
    have hempty : item.2 = [] := by
      by_contra hplain
      exact hnot item.1 ⟨hreceiver, hnum, hhigh, htext ▸ hplain⟩
    rw [Option.toList_some, singleton_append, filter_cons_of_neg]
    simp [hempty]

theorem sendable_send (hmissed : Missed session peerHighest entry seq) :
    sendable session peerHighest ((messageId, entry) :: rest) =
      if entry.plaintext.length ≤ maxPlaintext then
        (seq, entry.plaintext) :: sendable session peerHighest rest
      else [] := by
  have hplain := hmissed.2.2.2
  unfold sendable
  rw [missing_cons, missed?_of_missed hmissed]
  simp [hplain, takeWhile_cons]

/-- The receiver's results for a whole pass of `_handle_sync`. -/
theorem receiveAll_resendMissed {P : Primitives} (hundo : P.DecryptUndoes)
    (hsized : session.Sized) {receiver : Session}
    (hid : receiver.sessionId = session.sessionId)
    (hkey : receiver.encryptionKey = session.encryptionKey) (now : ℚ)
    {start queue : QueueManager} (hwf : WellFormed start)
    (hcore : SameCore queue start) (items : List (MessageId × QueueEntry))
    (hitems : ∀ item ∈ items, start.get? item.1 = some item.2) :
    receiveAll P receiver
        (datagrams (resendMissed P session peerHighest now queue items).sent) =
      (taken receiver.recvSequence
        (sendable session peerHighest items)).map .ok := by
  induction items generalizing queue receiver with
  | nil => rfl
  | cons item rest ih =>
    obtain ⟨messageId, entry⟩ := item
    obtain ⟨hentry, hrest⟩ := forall_mem_cons.mp hitems
    have hone := rebuildForSync_sameCore P queue messageId session now
    have hstep := resendStep P session peerHighest now queue messageId entry
      rest
    generalize resendMissed P session peerHighest now queue
      ((messageId, entry) :: rest) = outcome at hstep ⊢
    cases hstep with
    | skip hnot =>
      rw [sendable_skip hnot]
      exact ih hid hkey hcore hrest
    | raise hnum hbuild =>
      rcases rebuildForSync_of_dispatched P now hsized hwf hcore hentry
        hnum with ⟨_, hnone⟩ | ⟨_, _, hsome⟩
      · cases hbuild.symm.trans hnone
      · cases hbuild.symm.trans hsome
    | nothing hnum hbuild =>
      rw [hbuild] at hone
      rcases rebuildForSync_of_dispatched P now hsized hwf hcore hentry
        hnum with ⟨hempty, _⟩ | ⟨_, _, hsome⟩
      · rw [sendable_skip fun seq hmissed => hmissed.2.2.2 hempty]
        exact ih hid hkey (hone.trans hcore) hrest
      · cases hbuild.symm.trans hsome
    | @send seq queue' built hreceiver hnum hhigh hbuild =>
      rw [hbuild] at hone
      obtain ⟨hplain, hseal⟩ :=
        rebuildForSync_of_sameCore hcore hentry hnum hbuild
      obtain ⟨_, hbytes, hpacket⟩ := rebuildForSync_packet hbuild
      rw [sendable_send ⟨hreceiver, hnum, hhigh, hplain⟩]
      simp only [datagrams, hpacket]
      rcases serialize_rebuilt hseal hbytes with
        ⟨hfits, _, hdata⟩ | ⟨hlong, herror⟩
      · obtain ⟨hseq, -, hsealed⟩ := sealData_eq_ok hsized hseal
        rw [hsealed, sealedWith_payload] at hbytes
        have hreceive := receiveDatagram_sealed hundo hsized.keyed hid hkey
          hseq hfits hbytes hdata
        have hmoved : ({ receiver with recvSequence := seq } :
            Session).sessionId = session.sessionId := hid
        simp only [hdata, receiveAll, hreceive, hfits, ↓reduceIte, taken]
        split
        · exact congrArg (_ :: ·) (ih hmoved hkey (hone.trans hcore) hrest)
        · exact congrArg (_ :: ·) (ih hid hkey (hone.trans hcore) hrest)
      · simp [herror, receiveAll, Nat.not_le.mpr hlong, taken]

theorem lt_of_mem_missing (hmem : item ∈ missing session peerHighest items) :
    peerHighest < item.1 := by
  obtain ⟨_, -, hmissed⟩ := mem_filterMap.mp hmem
  exact (missed?_eq_some hmissed).2.2.1

/-- Where every missing message can be sent again, all of them are. -/
theorem sendable_eq (hgood : ∀ item ∈ missing session peerHighest items,
      item.2 ≠ [] ∧ item.2.length ≤ maxPlaintext) :
    sendable session peerHighest items = missing session peerHighest items := by
  unfold sendable
  have hkept : (missing session peerHighest items).filter
      (fun item => item.2 ≠ []) = missing session peerHighest items :=
    filter_eq_self.mpr fun item hmem =>
      decide_eq_true (hgood item hmem).1
  rw [hkept]
  exact takeWhile_eq_self_iff.mpr fun item hmem =>
    decide_eq_true (hgood item hmem).2

theorem of_mem_sendable (hmem : item ∈ sendable session peerHighest items) :
    item.2 ≠ [] ∧ item.2.length ≤ maxPlaintext := by
  have hfits := mem_takeWhile_imp hmem
  have hkept := (takeWhile_sublist _).subset hmem
  exact ⟨of_decide_eq_true (mem_filter.mp hkept).2, of_decide_eq_true hfits⟩

end Pass

/-- The queue of the sender, along any run of the session. -/
theorem reachableQueue_link {P : Primitives} {start : DataLink}
    (hqueue : start.sender.queue = .empty)
    (hsized : start.sender.session.Sized) (events : List DataLinkEvent) :
    ReachableQueue P (run (DataLink.step P) start events).sender.queue ∧
      (run (DataLink.step P) start events).sender.session.Sized := by
  have hstep : ∀ (link : DataLink) event,
      ReachableQueue P link.sender.queue ∧ link.sender.session.Sized →
      ReachableQueue P (link.step P event).sender.queue ∧
        (link.step P event).sender.session.Sized := by
    rintro link event ⟨hreach, hsized⟩
    cases event with
    | call op =>
      have hsender : (link.step P (.call op)).sender =
          link.sender.step P op := by
        cases op <;> rfl
      rw [hsender]
      exact ⟨.call op hreach hsized, Endpoint.sized_step P hsized op⟩
    | acknowledge peerId sequenceNumber =>
      exact ⟨.appAck peerId sequenceNumber hreach, hsized⟩
    | transmit =>
      have hsender : (link.step P .transmit).sender = link.sender := by
        simp only [DataLink.step]
        split <;> rfl
      rw [hsender]
      exact ⟨hreach, hsized⟩
    | deliver =>
      have hsender : (link.step P .deliver).sender = link.sender := by
        simp only [DataLink.step]
        split <;> rfl
      rw [hsender]
      exact ⟨hreach, hsized⟩
  refine inv_run hstep ⟨?_, hsized⟩ events
  rw [hqueue]
  exact .empty

namespace SyncPassWitness

open Reference

def session : Session where
  sessionId := replicate 8 1
  encryptionKey := replicate 32 1
  remotePeerId := replicate 32 2

/-- The session has just been opened. -/
def opened : DataLink where
  sender := ⟨.empty, session, []⟩
  receiver := session

/-- Two messages, and both DATA packets are lost. -/
def bothLost : List DataLinkEvent :=
  [.call (.enqueue 1 (replicate 32 2) (ascii "one")),
    .call (.enqueue 2 (replicate 32 2) (ascii "two")),
    .call (.build 1 0), .call (.build 2 0)]

/-- The timer of the first message fires, and its retry is lost as well. -/
def retried : List DataLinkEvent :=
  bothLost ++ [.call (.timeout 1), .call (.build 1 5)]

def senderAfter (events : List DataLinkEvent) : Endpoint :=
  (run (DataLink.step primitives) opened events).sender

end SyncPassWitness

end AshiChat
