/-
Delivery receipts.  An ACK names a session and a number, but `handle_ack`
looks for the first pending entry with that number alone, over all receivers
and all sessions.
-/
import AshiChat.Delivery
import AshiChat.Reference

namespace AshiChat

open QueueManager EventRun OrderedDict

namespace DeliveryWorld

/-- A receipt in the queue is backed by the receiver: a delivered entry was
decrypted there, an acknowledged one was answered with an APP_ACK. -/
structure ReceiptsGenuine (world : DeliveryWorld) : Prop where
  delivered : ∀ messageId entry, world.queue.get? messageId = some entry →
    entry.status = .delivered →
    ∃ record ∈ world.records, record.messageId = messageId ∧
      record.peer = entry.receiver
  acknowledged : ∀ messageId entry, world.queue.get? messageId = some entry →
    entry.status = .acknowledged →
    ∃ record ∈ world.records, record.messageId = messageId ∧
      record.peer = entry.receiver ∧ record.stage = .appAcked

/-- Message, session id and number of a DATA packet. -/
def carried? : NetPacket → Option (MessageId × Bytes × Nat)
  | .data messageId payload =>
    some (messageId, payload.sessionId, payload.sequenceNumber)
  | _ => none

/-- The messages sent so far, with the session and number of each packet. -/
def dispatched (world : DeliveryWorld) : List (MessageId × Bytes × Nat) :=
  world.net.filterMap carried?

theorem mem_dispatched {world : DeliveryWorld} {messageId : MessageId}
    {sessionId : Bytes} {seq : Nat} :
    (messageId, sessionId, seq) ∈ world.dispatched ↔
      ∃ payload, .data messageId payload ∈ world.net ∧
        payload.sessionId = sessionId ∧ payload.sequenceNumber = seq := by
  simp only [dispatched, List.mem_filterMap]
  constructor
  · rintro ⟨packet, hmem, hcarried⟩
    cases packet with
    | data _ payload =>
      simp only [carried?, Option.some.injEq, Prod.mk.injEq] at hcarried
      obtain ⟨rfl, hid, hseq⟩ := hcarried
      exact ⟨payload, hmem, hid, hseq⟩
    | ack | appAck => cases hcarried
  · rintro ⟨payload, hmem, rfl, rfl⟩
    exact ⟨_, hmem, rfl⟩

/-- `messageId` and no other entry went out under the session and number. -/
def DispatchedOnly (world : DeliveryWorld) (sessionId : Bytes) (seq : Nat)
    (messageId : MessageId) : Prop :=
  (messageId, sessionId, seq) ∈ world.dispatched ∧
    ∀ sent ∈ world.dispatched, sent.2 = (sessionId, seq) → sent.1 = messageId

instance (world : DeliveryWorld) (sessionId : Bytes) (seq : Nat)
    (messageId : MessageId) :
    Decidable (world.DispatchedOnly sessionId seq messageId) :=
  inferInstanceAs (Decidable (_ ∧ ∀ sent ∈ world.dispatched, _))

/-- The entry an arriving receipt picks is the one that went out under the
session and number the receipt names. -/
def ReceiptUnambiguous (world : DeliveryWorld) : DeliveryEvent → Prop
  | .receiveAck ack => .ack ack ∈ world.net → ∀ picked ∈ first? world.queue
          (ackMatches ack.ackSequenceNumber),
        world.DispatchedOnly ack.sessionId ack.ackSequenceNumber picked.1
  | .receiveAppAck ack => .appAck ack ∈ world.net →
      ∀ found ∈ world.registry.getBySessionId ack.sessionId,
      ∀ picked ∈ first? world.queue
          (appAckMatches found.2.remotePeerId ack.ackSequenceNumber),
        world.DispatchedOnly ack.sessionId ack.ackSequenceNumber picked.1
  | _ => True

instance (world : DeliveryWorld) :
    ∀ event, Decidable (world.ReceiptUnambiguous event)
  | .receiveAck _ => inferInstanceAs (Decidable (_ → ∀ picked ∈ _, _))
  | .receiveAppAck _ =>
    inferInstanceAs (Decidable (_ → ∀ found ∈ _, ∀ picked ∈ _, _))
  | .enqueue .. | .connect .. | .disconnect .. | .build .. | .timeout ..
  | .receiveSync .. | .peerConnect .. | .peerDisconnect ..
  | .peerReceive .. | .peerAdvance .. => isTrue trivial

/-- Receipts after the change were there before. -/
def NoNewReceipt (before after : QueueManager) : Prop :=
  ∀ messageId entry, after.get? messageId = some entry →
    entry.status = .delivered ∨ entry.status = .acknowledged →
    ∃ old, before.get? messageId = some old ∧
      old.receiver = entry.receiver ∧ old.status = entry.status

variable (queue : QueueManager)

theorem noNewReceipt_refl : NoNewReceipt queue queue :=
  fun _ entry hget _ => ⟨entry, hget, rfl, rfl⟩

theorem noNewReceipt_modify (messageId : MessageId)
    {change : QueueEntry → QueueEntry}
    (hchange : ∀ entry, (change entry).status ≠ .delivered ∧
      (change entry).status ≠ .acknowledged) :
    NoNewReceipt queue (queue.modify messageId change) := by
  intro other entry hget hreceipt
  rcases get?_modify_cases hget with
    ⟨-, old, -, rfl⟩ | ⟨-, hget⟩
  · exact absurd hreceipt (not_or.mpr (hchange old))
  · exact ⟨entry, hget, rfl, rfl⟩

theorem noNewReceipt_enqueue (messageId : MessageId)
    (receiver : PeerId) (plaintext : Bytes) :
    NoNewReceipt queue (queue.enqueue messageId receiver plaintext) := by
  intro other entry hget hreceipt
  rcases get?_set_cases hget with ⟨-, rfl⟩ | ⟨-, hget⟩
  · simp at hreceipt
  · exact ⟨entry, hget, rfl, rfl⟩

theorem noNewReceipt_of_sameCore {before after : QueueManager}
    (hcore : SameCore after before) : NoNewReceipt before after := by
  intro messageId entry hget _
  obtain ⟨old, hold, hsame⟩ := hcore.get? hget
  exact ⟨old, hold, hsame.receiver_eq.symm, hsame.status_eq.symm⟩

/-- Records stay, with their message and peer; an APP_ACK is not unsent. -/
def KeepsRecords (before after : List DeliveryRecord) : Prop :=
  ∀ record ∈ before, ∃ record' ∈ after,
    record'.messageId = record.messageId ∧ record'.peer = record.peer ∧
      (record.stage = .appAcked → record'.stage = .appAcked)

theorem keepsRecords_append (before new : List DeliveryRecord) :
    KeepsRecords before (before ++ new) :=
  fun record hmem => ⟨record, List.mem_append_left _ hmem, rfl, rfl, id⟩

theorem keepsRecords_refl (records : List DeliveryRecord) :
    KeepsRecords records records :=
  fun record hmem => ⟨record, hmem, rfl, rfl, id⟩

theorem keepsRecords_peerReceive (P : Primitives) (world : DeliveryWorld)
    (peer : PeerId) (messageId : MessageId) (payload : DataPayload) :
    KeepsRecords world.records
      (world.peerReceive P peer messageId payload).records := by
  rcases peerReceive_cases P world peer messageId payload with
    hsame | ⟨_, _, _, _, _, _, hstep⟩
  · rw [hsame]
    exact keepsRecords_refl _
  · rw [hstep]
    exact keepsRecords_append _ _

theorem keepsRecords_peerAdvance (world : DeliveryWorld) (index : Nat) :
    KeepsRecords world.records (world.peerAdvance index).records := by
  unfold peerAdvance
  split
  · exact keepsRecords_refl _
  · next _ hget =>
    intro other hmem
    obtain ⟨_, hmem', rfl | rfl⟩ := mem_records_set hget hmem
    · exact ⟨_, hmem', rfl, rfl, id⟩
    · obtain ⟨hpeer, _, _, hmessage⟩ := advance_header other
      exact ⟨_, hmem', hmessage, hpeer, advance_stage_appAcked⟩

/-- Without a new receipt, records that stay keep backing the old ones. -/
theorem ReceiptsGenuine.mono {before after : DeliveryWorld}
    (hgenuine : before.ReceiptsGenuine)
    (hqueue : NoNewReceipt before.queue after.queue)
    (hrecords : KeepsRecords before.records after.records) :
    after.ReceiptsGenuine := by
  constructor
  · intro messageId entry hget hstatus
    obtain ⟨old, hold, hreceiver, hsame⟩ :=
      hqueue messageId entry hget (Or.inl hstatus)
    obtain ⟨record, hmem, hmessage, hpeer⟩ :=
      hgenuine.delivered messageId old hold (hsame.trans hstatus)
    obtain ⟨record', hmem', hmessage', hpeer', _⟩ := hrecords record hmem
    exact ⟨record', hmem', hmessage'.trans hmessage,
      hpeer'.trans (hpeer.trans hreceiver)⟩
  · intro messageId entry hget hstatus
    obtain ⟨old, hold, hreceiver, hsame⟩ :=
      hqueue messageId entry hget (Or.inr hstatus)
    obtain ⟨record, hmem, hmessage, hpeer, hstage⟩ :=
      hgenuine.acknowledged messageId old hold (hsame.trans hstatus)
    obtain ⟨record', hmem', hmessage', hpeer', hkept⟩ := hrecords record hmem
    exact ⟨record', hmem', hmessage'.trans hmessage,
      hpeer'.trans (hpeer.trans hreceiver), hkept hstage⟩

section

variable {P : Primitives} {peerOf : Bytes → PeerId} {world : DeliveryWorld}

/-- The record behind a receipt is the one of the entry that alone went out
under its session and number. -/
theorem Traced.record_of_dispatchedOnly (htraced : Traced peerOf world)
    {sessionId : Bytes} {seq : Nat} {messageId : MessageId}
    (honly : world.DispatchedOnly sessionId seq messageId)
    {record : DeliveryRecord} (hrecord : record ∈ world.records)
    (hid : record.sessionId = sessionId) (hseq : record.sequenceNumber = seq)
    {entry : QueueEntry} (hget : world.queue.get? messageId = some entry) :
    record.messageId = messageId ∧ record.peer = entry.receiver := by
  obtain ⟨howner, payload, hsent, hpayloadId, hpayloadSeq⟩ :=
    htraced.record record hrecord
  have hmessage := honly.2 _ (mem_dispatched.mpr
    ⟨payload, hsent, hpayloadId.trans hid, hpayloadSeq.trans hseq⟩) rfl
  obtain ⟨payload', hsent', hpayloadId', _⟩ := mem_dispatched.mp honly.1
  obtain ⟨_, hget', hreceiver⟩ := htraced.data messageId payload' hsent'
  rw [hget, Option.some.injEq] at hget'
  subst hget'
  rw [hreceiver, hpayloadId', ← hid, howner]
  exact ⟨hmessage, rfl⟩

section

variable (hgenuine : world.ReceiptsGenuine)

include hgenuine

/-- A changed entry keeps receipts genuine when what its new status says is
backed. -/
theorem ReceiptsGenuine.modify {messageId : MessageId} {entry : QueueEntry}
    (hget : world.queue.get? messageId = some entry)
    {change : QueueEntry → QueueEntry}
    (hdelivered : (change entry).status = .delivered →
      ∃ record ∈ world.records, record.messageId = messageId ∧
        record.peer = (change entry).receiver)
    (hacknowledged : (change entry).status = .acknowledged →
      ∃ record ∈ world.records, record.messageId = messageId ∧
        record.peer = (change entry).receiver ∧ record.stage = .appAcked) :
    { world with
      queue := world.queue.modify messageId change }.ReceiptsGenuine := by
  constructor
  · intro other entry' hget' hstatus
    rw [get?_modify_of_get? hget] at hget'
    split at hget'
    · next hother =>
      cases hget'
      exact hother ▸ hdelivered hstatus
    · exact hgenuine.delivered other entry' hget' hstatus
  · intro other entry' hget' hstatus
    rw [get?_modify_of_get? hget] at hget'
    split at hget'
    · next hother =>
      cases hget'
      exact hother ▸ hacknowledged hstatus
    · exact hgenuine.acknowledged other entry' hget' hstatus

theorem ReceiptsGenuine.receiveAck (htraced : Traced peerOf world)
    {ack : AckPayload} (hsent : .ack ack ∈ world.net)
    (hunambiguous : world.ReceiptUnambiguous (.receiveAck ack)) :
    { world with queue := (world.queue.handleAck ack).1 }.ReceiptsGenuine := by
  unfold handleAck
  split
  · exact hgenuine
  · next messageId entry hfirst =>
    have honly := hunambiguous hsent (messageId, entry) hfirst
    obtain ⟨hget, _⟩ := get?_of_first? _ hfirst
    obtain ⟨record, hrecord, hid, hseq⟩ := htraced.ack ack hsent
    obtain ⟨hmessage, hpeer⟩ :=
      htraced.record_of_dispatchedOnly honly hrecord hid hseq hget
    dsimp only
    refine hgenuine.modify hget ?_ ?_
    · exact fun _ => ⟨record, hrecord, hmessage, hpeer⟩
    · rintro ⟨⟩

theorem ReceiptsGenuine.receiveAppAck (htraced : Traced peerOf world)
    {ack : AppAckPayload} (hsent : .appAck ack ∈ world.net)
    (hunambiguous : world.ReceiptUnambiguous (.receiveAppAck ack)) :
    (world.receiveAppAck ack).ReceiptsGenuine := by
  unfold DeliveryWorld.receiveAppAck acknowledgeBySequence
  split
  · exact hgenuine
  · next ref session hlookup =>
    split
    · exact hgenuine
    · next messageId entry hfirst =>
      have honly := hunambiguous hsent (ref, session) hlookup
        (messageId, entry) hfirst
      obtain ⟨hget, _⟩ := get?_of_first? _ hfirst
      obtain ⟨record, hrecord, hid, hseq, hstage⟩ := htraced.appAck ack hsent
      obtain ⟨hmessage, hpeer⟩ :=
        htraced.record_of_dispatchedOnly honly hrecord hid hseq hget
      dsimp only
      refine hgenuine.modify hget ?_ ?_
      · rintro ⟨⟩
      · exact fun _ => ⟨record, hrecord, hmessage, hpeer, hstage⟩

end

theorem noNewReceipt_build (messageId : MessageId) (ref : Nat) (now : ℚ) :
    NoNewReceipt world.queue (world.build P messageId ref now).queue := by
  unfold build
  split
  · next session _ _ _ =>
    split
    · simp only
      rcases buildDataPacket_queue P world.queue messageId session now with
        hq | hq <;> rw [hq]
      · exact noNewReceipt_refl _
      · refine noNewReceipt_modify _ _ ?_
        simp [QueueEntry.dispatched]
    · exact noNewReceipt_refl _
  · exact noNewReceipt_refl _

/-- Receipts stay genuine as long as each one arriving is unambiguous. -/
theorem ReceiptsGenuine.step (hgenuine : world.ReceiptsGenuine)
    (htraced : Traced peerOf world) (event : DeliveryEvent)
    (hunambiguous : world.ReceiptUnambiguous event) :
    (world.step P peerOf event).ReceiptsGenuine := by
  cases event with
  | enqueue =>
    simp only [DeliveryWorld.step]
    split
    · exact hgenuine
    · exact hgenuine.mono (noNewReceipt_enqueue _ _ _ _) (keepsRecords_refl _)
  | connect =>
    simp only [DeliveryWorld.step, DeliveryWorld.connect]
    repeat' split
    all_goals exact hgenuine.mono (noNewReceipt_refl _) (keepsRecords_refl _)
  | disconnect =>
    exact hgenuine.mono (noNewReceipt_refl _) (keepsRecords_refl _)
  | build messageId ref now =>
    refine hgenuine.mono (noNewReceipt_build messageId ref now) ?_
    rw [DeliveryWorld.step, (build_frame messageId ref now).2]
    exact keepsRecords_refl _
  | timeout =>
    refine hgenuine.mono ?_ (keepsRecords_refl _)
    simp only [DeliveryWorld.step, handleTimeout]
    split
    · exact noNewReceipt_refl _
    · refine noNewReceipt_modify _ _ fun entry => ?_
      rcases entry.timedOut_status with hstatus | hstatus <;>
        simp [hstatus]
  | receiveSync =>
    simp only [DeliveryWorld.step, DeliveryWorld.receiveSync]
    split
    · exact hgenuine
    · exact hgenuine.mono (noNewReceipt_of_sameCore (resendMissed_sameCore _ _ _
        _ _ _)) (keepsRecords_refl _)
  | receiveAck =>
    simp only [DeliveryWorld.step]
    split
    · next hsent => exact hgenuine.receiveAck htraced hsent hunambiguous
    · exact hgenuine
  | receiveAppAck =>
    simp only [DeliveryWorld.step]
    split
    · next hsent => exact hgenuine.receiveAppAck htraced hsent hunambiguous
    · exact hgenuine
  | peerConnect =>
    simp only [DeliveryWorld.step, DeliveryWorld.peerConnect]
    repeat' split
    all_goals exact hgenuine.mono (noNewReceipt_refl _) (keepsRecords_refl _)
  | peerDisconnect =>
    exact hgenuine.mono (noNewReceipt_refl _) (keepsRecords_refl _)
  | peerReceive peer messageId payload =>
    simp only [DeliveryWorld.step]
    split
    · refine hgenuine.mono ?_ (keepsRecords_peerReceive _ _ _ _ _)
      rcases peerReceive_cases P world peer messageId payload with
        hsame | ⟨_, _, _, _, _, _, hstep⟩
      · rw [hsame]; exact noNewReceipt_refl _
      · rw [hstep]; exact noNewReceipt_refl _
    · exact hgenuine
  | peerAdvance index =>
    refine hgenuine.mono ?_ (keepsRecords_peerAdvance world index)
    simp only [DeliveryWorld.step, DeliveryWorld.peerAdvance]
    split <;> exact noNewReceipt_refl _

end

end DeliveryWorld

/-- In every run in which each arriving receipt is unambiguous, every receipt
in the queue is backed by the entry's own receiver. -/
theorem receipts_attributed (P : Primitives) (peerOf : Bytes → PeerId)
    {events : List DeliveryEvent}
    (hgood : EveryStep (DeliveryWorld.step P peerOf)
      DeliveryWorld.ReceiptUnambiguous .initial events) :
    Along (DeliveryWorld.step P peerOf) DeliveryWorld.ReceiptsGenuine
      .initial events := by
  have hkeep : ∀ (world : DeliveryWorld) event,
      world.Traced peerOf ∧ world.ReceiptsGenuine →
      world.ReceiptUnambiguous event →
      (world.step P peerOf event).Traced peerOf ∧
        (world.step P peerOf event).ReceiptsGenuine :=
    fun _ event hinv hgood => ⟨hinv.1.step event,
      hinv.2.step hinv.1 event hgood⟩
  have hinit : DeliveryWorld.initial.Traced peerOf ∧
      DeliveryWorld.initial.ReceiptsGenuine := by
    refine ⟨DeliveryWorld.traced_initial, ?_, ?_⟩ <;>
      simp [DeliveryWorld.initial]
  exact along_of_everyStep hkeep (fun _ hinv => hinv.2) hinit hgood

namespace ReceiptsWitness

open Reference

def peerP : PeerId := List.replicate 32 1

def peerQ : PeerId := List.replicate 32 2

def self : PeerId := List.replicate 32 3

/-- Session ids are told apart by their fill. -/
def session (fill : UInt8) (remote : PeerId) : Session where
  sessionId := List.replicate 8 fill
  encryptionKey := List.replicate 32 fill
  remotePeerId := remote

def peerOf (sessionId : Bytes) : PeerId :=
  if sessionId = List.replicate 8 1 then peerP else peerQ

/-- One message to each of two peers, each the first of its session. -/
def twoSends : List DeliveryEvent :=
  [.connect (session 1 peerP), .connect (session 2 peerQ),
    .peerConnect peerP (session 1 self), .peerConnect peerQ (session 2 self),
    .enqueue 1 peerP [112], .enqueue 2 peerQ [113],
    .build 1 0 0, .build 2 1 0]

/-- The message to `peerP` is lost; `peerQ` receives and acknowledges its
own. -/
def lostAndAcked : List DeliveryEvent := twoSends ++ [.peerReceive peerQ 2
        (sealPayload primitives (session 2 peerQ) 1 [113]),
      .peerAdvance 0, .receiveAck ⟨List.replicate 8 2, 1⟩]

/-- The receipt of one peer marks the message to the other as delivered. -/
theorem receipt_goes_to_wrong_message :
    ¬ Along (DeliveryWorld.step primitives peerOf)
      DeliveryWorld.ReceiptsGenuine .initial lostAndAcked := by
  intro halong
  have hgenuine := halong lostAndAcked List.prefix_rfl
  have hentry : get? (run (DeliveryWorld.step primitives peerOf) .initial
        lostAndAcked).queue 1 =
      some ⟨peerP, .delivered, 0, [112], some 1, some 0⟩ := by decide +kernel
  obtain ⟨record, hmem, hmessage, _⟩ := hgenuine.delivered 1 _ hentry rfl
  have hrecords : ∀ record ∈
      (run (DeliveryWorld.step primitives peerOf) .initial
        lostAndAcked).records, record.messageId ≠ 1 := by decide +kernel
  exact hrecords record hmem hmessage

/-- Both messages arrive, and the receipts come back in the order of the
queue. -/
def bothAcked : List DeliveryEvent := twoSends ++ [.peerReceive peerP 1
        (sealPayload primitives (session 1 peerP) 1 [112]),
      .peerAdvance 0, .receiveAck ⟨List.replicate 8 1, 1⟩,
      .peerAdvance 0, .peerAdvance 0,
      .receiveAppAck ⟨List.replicate 8 1, 1⟩,
      .peerReceive peerQ 2 (sealPayload primitives (session 2 peerQ) 1 [113]),
      .peerAdvance 1, .receiveAck ⟨List.replicate 8 2, 1⟩]

theorem receipts_in_queue_order_attributed :
    EveryStep (DeliveryWorld.step primitives peerOf)
        DeliveryWorld.ReceiptUnambiguous .initial bothAcked ∧
      Along (DeliveryWorld.step primitives peerOf)
        DeliveryWorld.ReceiptsGenuine .initial bothAcked := by
  have hgood : EveryStep (DeliveryWorld.step primitives peerOf)
      DeliveryWorld.ReceiptUnambiguous .initial bothAcked := by decide +kernel
  exact ⟨hgood, receipts_attributed primitives peerOf hgood⟩

end ReceiptsWitness

end AshiChat
