/-
ACK and APP_ACK of one DATA packet (`node.py`, `queue_manager.py`).  An ACK
moves a PENDING entry with its number to DELIVERED, an APP_ACK a DELIVERED one
to ACKNOWLEDGED; a receipt that finds no entry in its source status is
ignored.
-/
import AshiChat.Messaging
import AshiChat.Reference
import AshiChat.Kit.EventRun

namespace AshiChat

open QueueManager EventRun OrderedDict List Option Bool

/-- The two answers to a DATA packet. -/
inductive Receipt where
  | ack
  | appAck
deriving DecidableEq

namespace Receipt

/-- The arrival of the receipt for the packet with this number. -/
def event (sessionId : Bytes) (seq : Nat) : Receipt → MessagingEvent
  | .ack => .call (.handleAck ⟨sessionId, seq⟩)
  | .appAck => .call (.handleAppAck ⟨sessionId, seq⟩)

/-- What a receipt makes of the status of its entry. -/
def advance : MessageStatus → Receipt → MessageStatus
  | .pending, .ack => .delivered
  | .delivered, .appAck => .acknowledged
  | status, _ => status

/-- The statuses an entry goes through once it is sent. -/
def Sent (status : MessageStatus) : Prop :=
  status = .pending ∨ status = .delivered ∨ status = .acknowledged

theorem sent_advance {status : MessageStatus} (hsent : Sent status)
    (receipt : Receipt) : Sent (advance status receipt) := by
  rcases hsent with rfl | rfl | rfl
  · cases receipt with
    | ack => exact .inr (.inl rfl)
    | appAck => exact .inl rfl
  · cases receipt with
    | ack => exact .inr (.inl rfl)
    | appAck => exact .inr (.inr rfl)
  · cases receipt with
    | ack | appAck => exact .inr (.inr rfl)

variable (receipts : List Receipt)

theorem foldl_acknowledged :
    receipts.foldl advance .acknowledged = .acknowledged := by
  induction receipts with
  | nil => rfl
  | cons _ _ ih => exact ih

theorem foldl_delivered_iff :
    receipts.foldl advance .delivered = .acknowledged ↔ appAck ∈ receipts := by
  induction receipts with
  | nil => simp
  | cons receipt _ ih =>
    cases receipt with
    | ack => simpa [advance] using ih
    | appAck => simp [advance, foldl_acknowledged]

/-- It takes an ACK and an APP_ACK somewhere after it. -/
theorem foldl_pending_iff : receipts.foldl advance .pending = .acknowledged ↔
      [ack, appAck].Sublist receipts := by
  induction receipts with
  | nil => simp
  | cons receipt rest ih =>
    cases receipt with
    | ack =>
      rw [foldl_cons, cons_sublist_cons, singleton_sublist]
      exact foldl_delivered_iff rest
    | appAck =>
      rw [foldl_cons, cons_sublist_cons']
      simpa [advance] using ih

/-- What a receipt for the number does to the queue, given the peer that owns
the session of an APP_ACK. -/
def settle (owner : Option PeerId) (seq : Nat) (queue : QueueManager) :
    Receipt → QueueManager
  | .ack => (queue.handleAck ⟨[], seq⟩).1
  | .appAck =>
    match owner with
    | none => queue
    | some peerId => (queue.acknowledgeBySequence peerId seq).1

end Receipt

namespace QueueManager

/-- No two entries have the same receiver and the same number. -/
def DistinctNumbers (queue : QueueManager) : Prop :=
  ∀ left ∈ queue.entries, ∀ right ∈ queue.entries,
    left.2.receiver = right.2.receiver →
    left.2.sequenceNumber = right.2.sequenceNumber →
    left.2.sequenceNumber ≠ none → left.1 = right.1

/-- No other PENDING entry has the number. -/
def SolePending (queue : QueueManager) (messageId : MessageId) (seq : Nat) :
    Prop :=
  ∀ binding ∈ queue.entries, binding.2.status = .pending →
    binding.2.sequenceNumber = some seq → binding.1 = messageId

/-- The first PENDING entry with the number is the message's. -/
def FirstPending (queue : QueueManager) (messageId : MessageId) (seq : Nat) :
    Prop :=
  (queue.first? (ackMatches seq)).map Prod.fst = some messageId

variable {queue : QueueManager} {messageId other : MessageId}
  {entry : QueueEntry} {seq : Nat}

/-- The entry in another status. -/
def marked (queue : QueueManager) (messageId : MessageId) (entry : QueueEntry)
    (status : MessageStatus) : QueueManager :=
  queue.set messageId { entry with status := status }

theorem marked_eq_self (hget : queue.get? messageId = some entry) :
    queue.marked messageId entry entry.status = queue :=
  (set_eq_self_iff queue messageId _).mpr hget

variable {status : MessageStatus}

theorem marked_inj {status' : MessageStatus} :
    queue.marked messageId entry status =
      queue.marked messageId entry status' ↔ status = status' := by
  refine ⟨fun hsame => ?_, fun hsame => by rw [hsame]⟩
  have hget := congrArg (get? · messageId) hsame
  simp only [marked, get?_set_self, some.injEq] at hget
  exact congrArg QueueEntry.status hget

theorem status_modify_ne {dict : QueueManager} (hstatus : status ≠ .pending)
    (hother : (dict.get? other).map QueueEntry.status ≠ some .pending)
    (target : MessageId) :
    ((dict.modify target fun entry => { entry with status := status }).get?
      other).map QueueEntry.status ≠ some .pending := by
  rw [get?_modify]
  split
  · cases dict.get? other <;> simp [hstatus]
  · exact hother

/-- What is no longer PENDING does not become so again. -/
theorem foldl_settle_ne {dict : QueueManager}
    (hother : (dict.get? other).map QueueEntry.status ≠ some .pending)
    (owner : Option PeerId) (seq : Nat) (receipts : List Receipt) :
    ((receipts.foldl (Receipt.settle owner seq) dict).get? other).map
      QueueEntry.status ≠ some .pending := by
  induction receipts generalizing dict with
  | nil => exact hother
  | cons _ _ ih =>
    refine ih ?_
    unfold Receipt.settle handleAck acknowledgeBySequence
    repeat' split
    all_goals first
      | exact hother
      | exact status_modify_ne (by decide) hother _

/-- An ACK that is credited to another message spoils the outcome. -/
theorem foldl_settle_spoiled {found : QueueEntry}
    (hfirst : (queue.marked messageId entry status).first? (ackMatches seq) =
      some (other, found))
    (hne : other ≠ messageId) (owner : Option PeerId)
    (rest : List Receipt) :
    rest.foldl (Receipt.settle owner seq) (Receipt.settle owner seq
        (queue.marked messageId entry status) .ack) ≠
      queue.marked messageId entry .acknowledged := by
  intro hsame
  obtain ⟨hget, hmatch⟩ := get?_of_first? _ hfirst
  have hdelivered : ((Receipt.settle owner seq
      (queue.marked messageId entry status) .ack).get? other).map
        QueueEntry.status ≠ some .pending := by
    simp [Receipt.settle, handleAck, hfirst, hget]
  refine foldl_settle_ne hdelivered owner seq rest ?_
  rw [hsame, marked, get?_set, if_neg hne.symm]
  rw [marked, get?_set, if_neg hne.symm] at hget
  simp only [ackMatches, and_eq_true, beq_iff_eq] at hmatch
  rw [hget, map_some, hmatch.1]

/-- An ACK for a PENDING message. -/
theorem settle_first (owner : Option PeerId)
    (hfirst : FirstPending (queue.marked messageId entry .pending) messageId
      seq) :
    Receipt.settle owner seq (queue.marked messageId entry .pending) .ack =
      queue.marked messageId entry .delivered := by
  obtain ⟨⟨target, _⟩, hfound, hsame⟩ := map_eq_some_iff.mp hfirst
  simp only [Receipt.settle, handleAck, hfound]
  rw [show target = messageId from hsame]
  exact modify_set ..

/-- An ACK for a message that is no longer PENDING. -/
theorem settle_again (owner : Option PeerId) (hstatus : status ≠ .pending)
    (hsole : queue.SolePending messageId seq) :
    Receipt.settle owner seq (queue.marked messageId entry status) .ack =
      queue.marked messageId entry status := by
  have hnone : (queue.marked messageId entry status).first?
      (ackMatches seq) = none := by
    refine (first?_eq_none_iff _ _).mpr fun other found hget => ?_
    by_contra hmatch
    simp only [ackMatches, not_eq_false, and_eq_true, beq_iff_eq] at hmatch
    rcases get?_set_cases hget with ⟨-, rfl⟩ | ⟨hne, hold⟩
    · exact hstatus hmatch.1
    · exact hne (hsole (other, found) ((mem_entries_iff _).mpr hold) hmatch.1
        hmatch.2)
  simp only [Receipt.settle, handleAck, hnone]

theorem acknowledgeBySequence_marked (hdistinct : queue.DistinctNumbers)
    (hget : queue.get? messageId = some entry)
    (hseq : entry.sequenceNumber = some seq) (hsent : Receipt.Sent status) :
    ((queue.marked messageId entry status).acknowledgeBySequence
        entry.receiver seq).1 =
      queue.marked messageId entry (Receipt.advance status .appAck) := by
  have hothers : ∀ other found, queue.get? other = some found →
      other ≠ messageId →
      appAckMatches entry.receiver seq other found = false := by
    intro other found hfound hne
    by_contra hmatch
    simp only [appAckMatches, not_eq_false, and_eq_true, beq_iff_eq] at hmatch
    have hmem := (mem_entries_iff _).mpr hfound
    have hself := (mem_entries_iff _).mpr hget
    apply hne
    apply hdistinct (other, found) hmem (messageId, entry) hself hmatch.1.1
    · rw [hmatch.1.2, hseq]
    · simp [hmatch.1.2]
  unfold acknowledgeBySequence marked
  rw [first?_set _ hothers]
  rcases hsent with rfl | rfl | rfl
  · simp [appAckMatches, Receipt.advance]
  · simp [appAckMatches, hseq, Receipt.advance, modify_set]
  · simp [appAckMatches, Receipt.advance]

/-- The first ACK is credited to an entry that stands before the message. -/
theorem exists_first_ne (hget : queue.get? messageId = some entry)
    (hpending : entry.status = .pending)
    (hseq : entry.sequenceNumber = some seq)
    (hnot : ¬ queue.FirstPending messageId seq) :
    ∃ other found, queue.first? (ackMatches seq) = some (other, found) ∧
      other ≠ messageId := by
  cases hfound : queue.first? (ackMatches seq) with
  | none =>
    have hno := (first?_eq_none_iff _ _).mp hfound messageId entry hget
    simp [ackMatches, hpending, hseq] at hno
  | some found =>
    refine ⟨found.1, found.2, rfl, fun hsame => hnot ?_⟩
    rw [FirstPending, hfound, map_some, hsame]

/-- A later ACK is credited to another PENDING entry. -/
theorem exists_again_ne (hstatus : status ≠ .pending)
    (hnot : ¬ queue.SolePending messageId seq) :
    ∃ other found, (queue.marked messageId entry status).first?
        (ackMatches seq) = some (other, found) ∧ other ≠ messageId := by
  cases hfound : (queue.marked messageId entry status).first?
      (ackMatches seq) with
  | none =>
    refine absurd (fun binding hmem hwaits hnumber => ?_) hnot
    by_contra hne
    have hno := (first?_eq_none_iff _ _).mp hfound binding.1 binding.2 (by
      rw [marked, get?_set, if_neg (Ne.symm hne),
        get?_eq_of_mem_entries _ hmem])
    simp [ackMatches, hwaits, hnumber] at hno
  | some found =>
    refine ⟨found.1, found.2, rfl, fun hsame => ?_⟩
    obtain ⟨hmarked, hmatch⟩ := get?_of_first? _ hfound
    rw [hsame, marked, get?_set_self, some.injEq] at hmarked
    rw [← hmarked] at hmatch
    simp only [ackMatches, and_eq_true, beq_iff_eq] at hmatch
    exact hstatus hmatch.1

/-- From a status on: the receipts bring the entry to ACKNOWLEDGED, and none of
their ACKs finds another entry. -/
theorem foldl_settle_iff (hdistinct : queue.DistinctNumbers)
    (hget : queue.get? messageId = some entry)
    (hpending : entry.status = .pending)
    (hseq : entry.sequenceNumber = some seq) (hsent : Receipt.Sent status)
    (receipts : List Receipt) :
    receipts.foldl (Receipt.settle (some entry.receiver) seq)
        (queue.marked messageId entry status) =
      queue.marked messageId entry .acknowledged ↔
    receipts.foldl Receipt.advance status = .acknowledged ∧
      (status = .pending → .ack ∈ receipts → queue.FirstPending messageId seq) ∧
      ((if status = .pending then 2 else 1) ≤ receipts.count .ack →
        queue.SolePending messageId seq) := by
  have hself : queue.marked messageId entry .pending = queue :=
    hpending ▸ marked_eq_self hget
  induction receipts generalizing status with
  | nil =>
    rw [foldl_nil, foldl_nil, marked_inj]
    split <;> simp
  | cons receipt rest ih =>
    rw [foldl_cons, foldl_cons]
    cases receipt with
    | ack =>
      by_cases hstatus : status = .pending
      · subst hstatus
        by_cases hfirst : queue.FirstPending messageId seq
        · rw [settle_first _ (by rwa [hself])]
          refine (ih (.inr (.inl rfl))).trans ?_
          simp [Receipt.advance, hfirst]
        · refine iff_of_false ?_ fun hboth =>
            hfirst (hboth.2.1 rfl mem_cons_self)
          obtain ⟨_, _, hfound, hne⟩ :=
            exists_first_ne hget hpending hseq hfirst
          exact foldl_settle_spoiled (by rwa [hself]) hne _ rest
      · have hkept : Receipt.advance status .ack = status := by
          rcases hsent with rfl | rfl | rfl
          · exact absurd rfl hstatus
          · rfl
          · rfl
        by_cases hsole : queue.SolePending messageId seq
        · rw [settle_again _ hstatus hsole, hkept]
          refine (ih hsent).trans ?_
          simp [hstatus, hsole]
        · refine iff_of_false ?_ fun hboth => hsole (hboth.2.2 ?_)
          · obtain ⟨_, _, hfound, hne⟩ := exists_again_ne hstatus hsole
            exact foldl_settle_spoiled hfound hne _ rest
          · simp [hstatus]
    | appAck =>
      have hphase : Receipt.advance status .appAck = .pending ↔
          status = .pending := by
        rcases hsent with rfl | rfl | rfl <;> simp [Receipt.advance]
      have hnext : Receipt.settle (some entry.receiver) seq
          (queue.marked messageId entry status) .appAck =
            queue.marked messageId entry (Receipt.advance status .appAck) :=
        acknowledgeBySequence_marked hdistinct hget hseq hsent
      rw [hnext]
      refine (ih (Receipt.sent_advance hsent .appAck)).trans ?_
      simp [hphase]

/-- Without a session of the receiver under its id, an APP_ACK never finds the
message. -/
theorem foldl_settle_unowned {owner : Option PeerId}
    (howner : owner ≠ some entry.receiver)
    (hget : queue.get? messageId = some entry)
    (hstatus : entry.status ≠ .acknowledged) (seq : Nat)
    (receipts : List Receipt) :
    ((receipts.foldl (Receipt.settle owner seq) queue).get? messageId).map
      QueueEntry.status ≠ some .acknowledged := by
  induction receipts generalizing queue entry with
  | nil =>
    rw [foldl_nil, hget, map_some, Ne, some.injEq]
    exact hstatus
  | cons receipt _ ih =>
    have hother : ∀ target (change : QueueEntry → QueueEntry),
        target ≠ messageId →
          (queue.modify target change).get? messageId = some entry := by
      intro target change hne
      rw [get?_modify, if_neg hne, hget]
    cases receipt with
    | ack =>
      rw [foldl_cons, Receipt.settle, handleAck]
      cases hfirst : queue.first? (ackMatches seq) with
      | none => exact ih howner hget hstatus
      | some found =>
        by_cases hsame : found.1 = messageId
        · refine @ih _ { entry with status := .delivered } howner ?_ ?_
          · simp [hsame, hget]
          · rintro ⟨⟩
        · exact ih howner (hother _ _ hsame) hstatus
    | appAck =>
      rw [foldl_cons]
      cases owner with
      | none => exact ih howner hget hstatus
      | some peerId =>
        simp only [Receipt.settle, acknowledgeBySequence]
        cases hfirst : queue.first? (appAckMatches peerId seq) with
        | none => exact ih howner hget hstatus
        | some =>
          obtain ⟨hfound, hmatch⟩ := get?_of_first? _ hfirst
          simp only [appAckMatches, and_eq_true, beq_iff_eq] at hmatch
          refine ih howner (hother _ _ fun hsame => howner ?_) hstatus
          rw [hsame, hget, some.injEq] at hfound
          rw [hfound, hmatch.1.1]

end QueueManager

namespace Messaging

variable {P : Primitives} {node : Messaging}

theorem queue_step_handleAck (node : Messaging) (ack : AckPayload) :
    (node.step P (.call (.handleAck ack))).queue =
        (node.queue.handleAck ack).1 ∧
      (node.step P (.call (.handleAck ack))).registry = node.registry := by
  simp only [step, handle, handleAck]
  split
  · next hfound =>
    split at hfound
    · cases hfound
    · cases hfound
      exact ⟨rfl, rfl⟩
  · next hfound =>
    split at hfound
    · exact ⟨rfl, rfl⟩
    · cases hfound

/-- The peer whose session is registered under the id. -/
def owner (node : Messaging) (sessionId : Bytes) : Option PeerId :=
  (node.registry.getBySessionId sessionId).map (·.2.remotePeerId)

theorem queue_step_receipt (node : Messaging) (sessionId : Bytes) (seq : Nat)
    (receipt : Receipt) :
    (node.step P (receipt.event sessionId seq)).queue =
        receipt.settle (node.owner sessionId) seq node.queue ∧
      (node.step P (receipt.event sessionId seq)).registry = node.registry := by
  cases receipt with
  | ack => exact queue_step_handleAck node ⟨sessionId, seq⟩
  | appAck =>
    simp only [Receipt.event, Receipt.settle, owner, step, handle]
    cases node.registry.getBySessionId sessionId with
    | none => exact ⟨rfl, rfl⟩
    | some =>
      simp only [acknowledgeBySequence, map_some]
      split
      · next hfound =>
        split at hfound
        · cases hfound
        · cases hfound
          exact ⟨rfl, rfl⟩
      · next hfound =>
        split at hfound
        · exact ⟨rfl, rfl⟩
        · cases hfound

theorem queue_run_receipts (sessionId : Bytes) (seq : Nat)
    (receipts : List Receipt) :
    (run (step P) node (receipts.map (Receipt.event sessionId seq))).queue =
      receipts.foldl (Receipt.settle (node.owner sessionId) seq)
        node.queue := by
  induction receipts generalizing node with
  | nil => rfl
  | cons receipt _ ih =>
    obtain ⟨hqueue, hregistry⟩ := queue_step_receipt (P := P) node sessionId
      seq receipt
    rw [map_cons, run_cons, ih, hqueue, owner, hregistry]
    rfl

/-- When the receipts of a PENDING message make its entry ACKNOWLEDGED and
leave the rest of the queue as it was: its session is registered for its
receiver, an APP_ACK is handled after an ACK, the entry is the first PENDING
one with its number, and the only one if more than one ACK comes. -/
theorem receipts_commute_iff {messageId : MessageId} {entry : QueueEntry}
    {seq : Nat} (hdistinct : node.queue.DistinctNumbers)
    (hget : node.queue.get? messageId = some entry)
    (hpending : entry.status = .pending)
    (hseq : entry.sequenceNumber = some seq) (sessionId : Bytes)
    (receipts : List Receipt) :
    (run (step P) node (receipts.map (Receipt.event sessionId seq))).queue =
        node.queue.set messageId { entry with status := .acknowledged } ↔
      node.owner sessionId = some entry.receiver ∧
        [Receipt.ack, .appAck].Sublist receipts ∧
        node.queue.FirstPending messageId seq ∧
        (2 ≤ receipts.count .ack → node.queue.SolePending messageId seq) := by
  rw [queue_run_receipts]
  by_cases howner : node.owner sessionId = some entry.receiver
  · have hiff := foldl_settle_iff hdistinct hget hpending hseq (.inl rfl)
      receipts
    rw [← hpending, marked_eq_self hget, hpending,
      Receipt.foldl_pending_iff] at hiff
    rw [howner]
    refine hiff.trans ⟨fun ⟨hboth, hfirst, hsole⟩ => ?_,
      fun ⟨_, hboth, hfirst, hsole⟩ => ?_⟩
    · exact ⟨rfl, hboth, hfirst rfl (hboth.subset (by simp)), hsole⟩
    · exact ⟨hboth, fun _ _ => hfirst, hsole⟩
  · refine iff_of_false (fun hsame => ?_) fun hboth => howner hboth.1
    have hnever := foldl_settle_unowned howner hget (by simp [hpending]) seq
      receipts
    rw [hsame, get?_set_self, map_some] at hnever
    exact hnever rfl

end Messaging

namespace ReceiptOrderWitness

open Reference

def keys (peer : UInt8) : SessionKeys where
  encryptionKey := (constant 32 peer).val
  sessionId := (constant 8 peer).val
  remotePeerId := (constant 32 peer).val
  remotePublicKeyBytes := (constant 32 peer).val

/-- Sessions with peers 1 and 2, and a message sent to each of them. -/
def events : List MessagingEvent :=
  [.call (.handleHelloAck (keys 1) ("10.0.0.1", 9000)),
    .call (.handleHelloAck (keys 2) ("10.0.0.2", 9000)),
    .call (.sendMessage (keys 1).remotePeerId 1 [104]),
    .call (.sendMessage (keys 2).remotePeerId 2 [105]),
    .execute, .execute, .execute, .execute, .resume 2 0, .resume 3 0,
    .execute, .execute, .resume 2 0, .resume 2 0]

def node : Messaging := run (Messaging.step primitives) {} events

/-- The queue after receipts for number 1 of the session with the peer. -/
def after (peer : UInt8) (receipts : List Receipt) : QueueManager :=
  (run (Messaging.step primitives) node
    (receipts.map (Receipt.event (keys peer).sessionId 1))).queue

/-- Message 1 of a node that has sent nothing else. -/
def single : Messaging := run (Messaging.step primitives) {}
    [.call (.handleHelloAck (keys 1) ("10.0.0.1", 9000)),
      .call (.sendMessage (keys 1).remotePeerId 1 [104]),
      .execute, .execute, .resume 1 0, .execute, .resume 1 0]

theorem receipts_commute_iff_duplicated :
    (run (Messaging.step primitives) single
      ([Receipt.appAck, .ack, .ack, .appAck, .ack].map
        (Receipt.event (keys 1).sessionId 1))).queue =
      single.queue.set 1
        ⟨(keys 1).remotePeerId, .acknowledged, 0, [104], some 1, some 0⟩ := by
  have hget : single.queue.get? 1 =
      some ⟨(keys 1).remotePeerId, .pending, 0, [104], some 1, some 0⟩ := by
    decide +kernel
  have hdistinct : single.queue.DistinctNumbers := by
    unfold DistinctNumbers
    decide +kernel
  refine (Messaging.receipts_commute_iff hdistinct hget rfl rfl
    (keys 1).sessionId _).mpr ⟨by decide +kernel, by decide, ?_, fun _ => ?_⟩
  · unfold FirstPending
    decide +kernel
  · unfold SolePending
    decide +kernel

/-- An APP_ACK that overtakes its ACK is lost for good, and the ACK of peer 2
is credited to the message to peer 1 that has the same number. -/
theorem receipts_out_of_order : node.queue.DistinctNumbers ∧
    node.queue.getStatus 1 = some .pending ∧
    node.queue.getStatus 2 = some .pending ∧
    (after 1 [.ack, .appAck]).getStatus 1 = some .acknowledged ∧
    (after 1 [.appAck, .ack]).getStatus 1 = some .delivered ∧
    (after 2 [.ack, .appAck]).getStatus 1 = some .delivered ∧
    (after 2 [.ack, .appAck]).getStatus 2 = some .pending := by
  have hdistinct : node.queue.DistinctNumbers := by
    unfold DistinctNumbers
    decide +kernel
  refine ⟨hdistinct, ?_⟩
  decide +kernel

end ReceiptOrderWitness

end AshiChat
