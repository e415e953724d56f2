/-
Which PENDING messages the retry loop ever looks at.  The loop picks a message
by the age of its `sent_at`; `build_data_packet` and `rebuild_for_sync` write
that field, `restore_entry` does not.
-/
import AshiChat.QueueManager
import AshiChat.Reference
import AshiChat.Kit.EventRun
import Mathlib.Algebra.Order.Ring.Rat
import Mathlib.Tactic.Linarith

namespace AshiChat

open QueueManager EventRun OrderedDict Option

/-- The calls that change the queue of a node, under any session. -/
inductive QueueOp where
  | enqueue (messageId : MessageId) (receiver : PeerId) (plaintext : Bytes)
  | restore (messageId : MessageId) (receiver : PeerId) (status : String)
      (retryCount : Nat) (plaintext : Bytes) (sequenceNumber : Option Nat)
  | build (messageId : MessageId) (session : Session) (now : ℚ)
  | rebuild (messageId : MessageId) (session : Session) (now : ℚ)
  | ack (ack : AckPayload)
  | acknowledge (peerId : PeerId) (sequenceNumber : Nat)
  | timeout (messageId : MessageId)

/-- A stored row is read back as PENDING. -/
def QueueOp.RestoresPending : QueueOp → Prop
  | .restore _ _ status .. => status = "pending"
  | _ => False

namespace QueueManager

/-- One call. -/
def call (P : Primitives) (queue : QueueManager) : QueueOp → QueueManager
  | .enqueue messageId receiver plaintext =>
    queue.enqueue messageId receiver plaintext
  | .restore messageId receiver status retryCount plaintext sequenceNumber =>
    queue.restoreEntry messageId receiver status retryCount plaintext
      sequenceNumber
  | .build messageId session now =>
    (buildDataPacket P queue messageId session now).queue
  | .rebuild messageId session now =>
    (rebuildForSync P queue messageId session now).1
  | .ack ack => (queue.handleAck ack).1
  | .acknowledge peerId sequenceNumber =>
    (queue.acknowledgeBySequence peerId sequenceNumber).1
  | .timeout messageId => (queue.handleTimeout messageId).1

/-- Every PENDING entry is returned by `get_timed_out_messages` from some time
on, in every queue in which the entry is still the same. -/
def NoneForgotten (queue : QueueManager) : Prop :=
  ∀ messageId entry, queue.get? messageId = some entry →
    entry.status = .pending →
    ∃ deadline : ℚ, ∀ now, deadline ≤ now → ∀ later : QueueManager,
      later.get? messageId = some entry →
        messageId ∈ later.getTimedOutMessages now

variable {queue : QueueManager}

theorem mem_getTimedOutMessages {messageId : MessageId} {entry : QueueEntry}
    {now : ℚ} (hget : queue.get? messageId = some entry) :
    messageId ∈ queue.getTimedOutMessages now ↔ entry.status = .pending ∧
      ackTimeout < now - entry.sentAt.getD now := by
  simp only [getTimedOutMessages, List.mem_map, List.mem_filter,
    Bool.and_eq_true, beq_iff_eq, decide_eq_true_eq]
  constructor
  · rintro ⟨⟨_, found⟩, ⟨hmem, hdue⟩, rfl⟩
    have hfound := get?_eq_of_mem_entries _ hmem
    rw [hget, some.injEq] at hfound
    rwa [hfound]
  · intro hdue
    exact ⟨(messageId, entry), ⟨(mem_entries_iff _).mpr hget, hdue⟩, rfl⟩

/-- Every PENDING entry carries its send time. -/
def Stamped (queue : QueueManager) : Prop :=
  ∀ messageId entry, queue.get? messageId = some entry →
    entry.status = .pending → entry.sentAt ≠ none

theorem noneForgotten_iff_stamped (queue : QueueManager) :
    NoneForgotten queue ↔ Stamped queue := by
  constructor
  · intro hnone messageId entry hget hpending hstamp
    obtain ⟨deadline, hdue⟩ := hnone messageId entry hget hpending
    have hmem := hdue deadline le_rfl queue hget
    rw [mem_getTimedOutMessages hget, hstamp, getD_none, sub_self] at hmem
    exact absurd hmem.2 (by decide)
  · intro hstamped messageId entry hget hpending
    obtain ⟨sent, hsent⟩ :=
      ne_none_iff_exists'.mp (hstamped messageId entry hget hpending)
    refine ⟨sent + ackTimeout + 1, fun now hnow later hlater => ?_⟩
    rw [mem_getTimedOutMessages hlater, hsent, getD_some]
    exact ⟨hpending, by linarith⟩

theorem stamped_modify (hstamped : Stamped queue) (messageId : MessageId)
    {change : QueueEntry → QueueEntry}
    (hchange : ∀ entry, (change entry).status = .pending →
      (change entry).sentAt = none →
        entry.status = .pending ∧ entry.sentAt = none) :
    Stamped (queue.modify messageId change) := by
  intro other entry hget hpending hnone
  rcases get?_modify_cases hget with
    ⟨-, old, hold, rfl⟩ | ⟨-, hget⟩
  · obtain ⟨hpending', hnone'⟩ := hchange old hpending hnone
    exact hstamped other old hold hpending' hnone'
  · exact hstamped other entry hget hpending hnone

theorem stamped_set (hstamped : Stamped queue) (messageId : MessageId)
    {new : QueueEntry} (hnew : new.status ≠ .pending) :
    Stamped (queue.set messageId new) := by
  intro other entry hget hpending
  rcases get?_set_cases hget with ⟨-, rfl⟩ | ⟨-, hget⟩
  · exact absurd hpending hnew
  · exact hstamped other entry hget hpending

theorem ofText_pending_iff (status : String) :
    (MessageStatus.ofText status).getD .queued = .pending ↔
      status = "pending" := by
  unfold MessageStatus.ofText
  split <;> simp_all

theorem stamped_restore_iff (hstamped : Stamped queue) (messageId : MessageId)
    (receiver : PeerId) (status : String) (retryCount : Nat)
    (plaintext : Bytes) (sequenceNumber : Option Nat) :
    Stamped (queue.restoreEntry messageId receiver status retryCount plaintext
      sequenceNumber) ↔ status ≠ "pending" := by
  constructor
  · intro hafter hstatus
    refine hafter messageId _ (get?_set_self ..) ?_ rfl
    exact (ofText_pending_iff status).mpr hstatus
  · intro hstatus
    apply stamped_set hstamped messageId
    exact fun hpending => hstatus ((ofText_pending_iff status).mp hpending)

variable (P : Primitives)

section

variable (hstamped : Stamped queue)

include hstamped

variable (messageId : MessageId)

theorem stamped_build (session : Session) (now : ℚ) :
    Stamped (buildDataPacket P queue messageId session now).queue := by
  rcases buildDataPacket_queue P queue messageId session now with hq | hq
  · rw [hq]
    exact hstamped
  · rw [hq]
    apply stamped_modify hstamped
    intro entry _ hnone
    cases hnone

theorem stamped_rebuild (session : Session) (now : ℚ) :
    Stamped (rebuildForSync P queue messageId session now).1 := by
  have htouch : Stamped (queue.modify messageId
      (fun entry => { entry with sentAt := some now })) := by
    apply stamped_modify hstamped
    intro entry _ hnone
    cases hnone
  unfold rebuildForSync
  repeat' split
  all_goals first
    | exact hstamped
    | exact htouch

theorem stamped_timeout : Stamped (queue.handleTimeout messageId).1 := by
  unfold handleTimeout
  split
  · exact hstamped
  · apply stamped_modify hstamped
    intro entry hpending
    unfold QueueEntry.timedOut at hpending
    split at hpending <;> cases hpending

/-- A call leaves a PENDING entry without a send time exactly if it restores
one. -/
theorem stamped_call_iff (op : QueueOp) :
    Stamped (queue.call P op) ↔ ¬ op.RestoresPending := by
  cases op with
  | restore =>
    exact stamped_restore_iff hstamped ..
  | enqueue messageId =>
    refine iff_of_true (stamped_set hstamped messageId ?_) id
    rintro ⟨⟩
  | build messageId session now =>
    exact iff_of_true (stamped_build P hstamped messageId session now) id
  | rebuild messageId session now =>
    exact iff_of_true (stamped_rebuild P hstamped messageId session now) id
  | ack =>
    refine iff_of_true ?_ id
    simp only [call, handleAck]
    split
    · exact hstamped
    · apply stamped_modify hstamped
      rintro entry ⟨⟩
  | acknowledge =>
    refine iff_of_true ?_ id
    simp only [call, acknowledgeBySequence]
    split
    · exact hstamped
    · apply stamped_modify hstamped
      rintro entry ⟨⟩
  | timeout => exact iff_of_true (stamped_timeout hstamped _) id

end

theorem stamped_empty : Stamped .empty := by
  intro messageId entry hget
  cases hget

end QueueManager

/-- No PENDING message is forgotten anywhere in a run exactly if no row is read
back as PENDING. -/
theorem pending_timed_out_iff (P : Primitives) (ops : List QueueOp) :
    Along (call P) NoneForgotten .empty ops ↔
      EveryStep (call P) (fun _ op => ¬ op.RestoresPending) .empty ops := by
  refine along_iff_everyStep ?_ ?_ ops
  · intro queue op hnone
    rw [noneForgotten_iff_stamped] at hnone ⊢
    exact stamped_call_iff P hnone op
  · exact (noneForgotten_iff_stamped _).mpr stamped_empty

namespace PendingTimeoutWitness

/-- A message that was dispatched as number 1 before the restart. -/
def restored : QueueOp :=
  .restore 1 (List.replicate 32 1) "pending" 0 (ascii "hi") (some 1)

/-- The restored message is PENDING, and no clock makes it due. -/
theorem restored_pending_never_due :
    ¬ Along (call Reference.primitives) NoneForgotten .empty [restored] := by
  intro halong
  have hnone := halong [restored] (List.prefix_refl _)
  rw [run_cons, run_nil, noneForgotten_iff_stamped] at hnone
  exact (stamped_restore_iff stamped_empty ..).mp hnone rfl

end PendingTimeoutWitness

end AshiChat
