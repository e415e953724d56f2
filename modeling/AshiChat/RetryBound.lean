/-
How often a message is built (`queue_manager.py`).  The queue of one process
is changed by the callers of its methods and by the retry loop, which takes a
list of overdue messages and calls `handle_timeout` on one after the other,
with the callbacks of the node in between.
-/
import AshiChat.PendingTimeout
import AshiChat.Kit.Amortised

namespace AshiChat

open QueueManager EventRun OrderedDict QueueEntry

/-- The queue of a process and what is left of the retry loop's list. -/
structure QueueProcess where
  queue : QueueManager
  timedOut : List MessageId := []

inductive QueueEvent where
  /-- a method is called -/
  | call (op : QueueOp)
  /-- the retry loop starts over with `get_timed_out_messages` -/
  | retryPass (now : ℚ)
  /-- the retry loop goes on to the next message of its list -/
  | retryNext

namespace QueueProcess

variable (P : Primitives)

/-- The calls of a running process: `uuid4` does not repeat an id, and only
`start` restores entries. -/
def admits (process : QueueProcess) : QueueOp → Bool
  | .enqueue messageId _ _ => !process.queue.contains messageId
  | .restore .. => false
  | _ => true

def step (process : QueueProcess) : QueueEvent → QueueProcess
  | .call op =>
    if process.admits op then
      { process with queue := process.queue.call P op }
    else process
  | .retryPass now =>
    match process.timedOut with
    | [] => { process with timedOut := process.queue.getTimedOutMessages now }
    | _ :: _ => process
  | .retryNext =>
    match process.timedOut with
    | [] => process
    | messageId :: rest =>
      { queue := (process.queue.handleTimeout messageId).1
        timedOut := rest }

/-- `build_data_packet` returns a packet for the message. -/
def builds (messageId : MessageId) (process : QueueProcess) : QueueEvent → Nat
  | .call (.build built session now) =>
    match (buildDataPacket P process.queue built session now).result with
    | .ok (some _) => if built = messageId then 1 else 0
    | _ => 0
  | _ => 0

end QueueProcess

/-- What a step can do to the entry of one message, with the packets built for
it. -/
inductive EntryMove : Option QueueEntry → Option QueueEntry → Nat → Prop where
  | stays (entry : Option QueueEntry) : EntryMove entry entry 0
  | enqueued {entry : QueueEntry} (hqueued : entry.status = .queued)
      (hretry : entry.retryCount = 0) : EntryMove none (some entry) 0
  | dispatched {entry : QueueEntry} (hqueued : entry.status = .queued)
      (seq : Nat) (now : ℚ) :
      EntryMove (some entry) (some (entry.dispatched seq now)) 1
  | resent (entry : QueueEntry) (now : ℚ) :
      EntryMove (some entry) (some { entry with sentAt := some now }) 0
  | delivered {entry : QueueEntry} (hpending : entry.status = .pending) :
      EntryMove (some entry) (some { entry with status := .delivered }) 0
  | acknowledged {entry : QueueEntry} (hdelivered : entry.status = .delivered) :
      EntryMove (some entry) (some { entry with status := .acknowledged }) 0
  | timedOut (entry : QueueEntry) :
      EntryMove (some entry) (some entry.timedOut) 0

namespace QueueManager

variable {P : Primitives} {queue : QueueManager}

/-- A call that changes one entry moves the others nowhere. -/
theorem entryMove_modify {changed : MessageId}
    {change : QueueEntry → QueueEntry}
    (hmove : ∀ entry, queue.get? changed = some entry →
      EntryMove (some entry) (some (change entry)) 0)
    (messageId : MessageId) :
    EntryMove (queue.get? messageId)
      ((modify queue changed change).get? messageId)
      0 := by
  rw [get?_modify]
  split
  · next hsame =>
    subst hsame
    cases hget : queue.get? changed with
    | none => exact .stays none
    | some entry => exact hmove entry hget
  · exact .stays _

theorem entryMove_timeout (timed messageId : MessageId) :
    EntryMove (queue.get? messageId)
      (get? (queue.handleTimeout timed).1 messageId) 0 := by
  unfold handleTimeout
  split
  · exact .stays _
  · exact entryMove_modify (fun entry _ => .timedOut entry) messageId

theorem entryMove_ack (ack : AckPayload) (messageId : MessageId) :
    EntryMove (queue.get? messageId)
      (get? (queue.handleAck ack).1 messageId) 0 := by
  unfold handleAck
  split
  · exact .stays _
  · next _ _ hfirst =>
    obtain ⟨hget, htest⟩ := get?_of_first? _ hfirst
    simp only [ackMatches, Bool.and_eq_true, beq_iff_eq] at htest
    apply entryMove_modify
    intro found hfound
    cases hget.symm.trans hfound
    exact .delivered htest.1

theorem entryMove_acknowledge (peerId : PeerId) (seq : Nat)
    (messageId : MessageId) :
    EntryMove (queue.get? messageId)
      (get? (queue.acknowledgeBySequence peerId seq).1 messageId)
      0 := by
  unfold acknowledgeBySequence
  split
  · exact .stays _
  · next _ _ hfirst =>
    obtain ⟨hget, htest⟩ := get?_of_first? _ hfirst
    simp only [appAckMatches, Bool.and_eq_true, beq_iff_eq] at htest
    apply entryMove_modify
    intro found hfound
    cases hget.symm.trans hfound
    exact .acknowledged htest.2

theorem entryMove_rebuild (rebuilt : MessageId) (session : Session) (now : ℚ)
    (messageId : MessageId) :
    EntryMove (queue.get? messageId)
      (get? (rebuildForSync P queue rebuilt session now).1 messageId) 0 := by
  have htouch : EntryMove (queue.get? messageId) (get? (queue.modify rebuilt
        (fun entry => { entry with sentAt := some now })) messageId) 0 :=
    entryMove_modify (fun entry _ => .resent entry now) messageId
  unfold rebuildForSync
  repeat' split
  all_goals first
    | exact .stays _
    | exact htouch

end QueueManager

namespace QueueProcess

variable {P : Primitives} {process : QueueProcess}

/-- The entry of the message. -/
def entryOf (messageId : MessageId) (process : QueueProcess) :
    Option QueueEntry :=
  process.queue.get? messageId

theorem entryMove_build (built : MessageId) (session : Session) (now : ℚ)
    (messageId : MessageId) :
    EntryMove (process.entryOf messageId)
      ((process.step P (.call (.build built session now))).entryOf messageId)
      (builds P messageId process (.call (.build built session now))) := by
  rcases buildDataPacket_cases P process.queue built session now with
    ⟨-, hbuild⟩ | ⟨_, hget, hqueued, ⟨_, hbuild⟩ | ⟨_, -, -, hbuild⟩⟩
  · simpa only [step, admits, builds, call, hbuild] using .stays _
  · simpa only [step, admits, builds, call, hbuild] using .stays _
  · simp only [step, admits, builds, call, hbuild, entryOf,
      get?_modify, ↓reduceIte]
    split
    · next hsame =>
      subst hsame
      rw [hget]
      exact .dispatched hqueued _ now
    · exact .stays _

/-- Every step is a move of every entry. -/
theorem entryMove_step (messageId : MessageId) (event : QueueEvent) :
    EntryMove (process.entryOf messageId)
      ((process.step P event).entryOf messageId)
      (builds P messageId process event) := by
  cases event with
  | retryPass =>
    simp only [step, builds]
    split
    · exact .stays _
    · exact .stays _
  | retryNext =>
    simp only [step, builds]
    split
    · exact .stays _
    · exact entryMove_timeout _ messageId
  | call op =>
    cases op with
    | build built session now => exact entryMove_build built session now messageId
    | restore => exact .stays _
    | rebuild rebuilt session now =>
      exact entryMove_rebuild rebuilt session now messageId
    | ack ack => exact entryMove_ack ack messageId
    | acknowledge peerId seq => exact entryMove_acknowledge peerId seq messageId
    | timeout timed => exact entryMove_timeout timed messageId
    | enqueue new =>
      cases hknown : process.queue.contains new with
      | true =>
        simp only [step, admits, builds, hknown]
        exact .stays _
      | false =>
        have hnone := (contains_eq_false_iff _ new).mp hknown
        simp only [step, admits, builds, hknown, entryOf, call, enqueue,
          Bool.not_false, ↓reduceIte, get?_set]
        split
        · next hsame =>
          rw [← hsame, hnone]
          exact .enqueued rfl rfl
        · exact .stays _

end QueueProcess

/-- FAILED entries are those that have used up their retries. -/
def QueueEntry.Counted (entry : QueueEntry) : Prop :=
  entry.status = .failed ↔ maxRetries ≤ entry.retryCount

/-- How often a message may still be built; a dispatched one has used up its
present turn. -/
def QueueEntry.budget (entry : QueueEntry) : Nat :=
  maxRetries - entry.retryCount - if entry.status = .queued then 0 else 1

/-- The same before it is enqueued. -/
def buildBudget : Option QueueEntry → Nat
  | none => maxRetries
  | some entry => entry.budget

namespace QueueEntry

theorem counted_timedOut (entry : QueueEntry) : entry.timedOut.Counted := by
  unfold timedOut Counted
  split
  · next hlast => simpa using hlast
  · next hmore => simpa using hmore

/-- Changes between statuses other than FAILED. -/
theorem Counted.changed {before after : QueueEntry} (hcounted : before.Counted)
    (hbefore : before.status ≠ .failed) (hafter : after.status ≠ .failed)
    (hretry : after.retryCount = before.retryCount) : after.Counted := by
  unfold Counted
  rw [hretry]
  have hmore := mt hcounted.mpr hbefore
  exact iff_of_false hafter hmore

theorem budget_of_queued {entry : QueueEntry}
    (hqueued : entry.status = .queued) :
    entry.budget = maxRetries - entry.retryCount := by
  simp [budget, hqueued]

theorem budget_of_ne_queued {entry : QueueEntry}
    (hother : entry.status ≠ .queued) :
    entry.budget = maxRetries - entry.retryCount - 1 := by
  simp [budget, hother]

/-- A retry takes away the build that a dispatch may have used. -/
theorem budget_timedOut_le (entry : QueueEntry) :
    entry.timedOut.budget ≤ entry.budget := by
  have hretry : entry.timedOut.retryCount = entry.retryCount + 1 := by
    unfold timedOut
    split <;> rfl
  have hafter : entry.timedOut.budget ≤
      maxRetries - entry.timedOut.retryCount := Nat.sub_le _ _
  have hbefore : maxRetries - entry.retryCount - 1 ≤ entry.budget := by
    apply Nat.sub_le_sub_left
    split <;> decide
  omega

end QueueEntry

namespace EntryMove

variable {before after : Option QueueEntry} {count : Nat}

section

variable (hmove : EntryMove before after count)
  (hcounted : ∀ entry ∈ before, entry.Counted)

include hmove hcounted

theorem counted : ∀ entry ∈ after, entry.Counted := by
  cases hmove with
  | stays => exact hcounted
  | enqueued hqueued hretry =>
    rintro _ ⟨⟩
    simp [QueueEntry.Counted, hqueued, hretry, maxRetries]
  | dispatched hqueued =>
    rintro _ ⟨⟩
    refine (hcounted _ rfl).changed ?_ ?_ rfl
    · simp [hqueued]
    · simp [QueueEntry.dispatched]
  | resent entry =>
    rintro _ ⟨⟩
    exact hcounted entry rfl
  | delivered hpending =>
    rintro _ ⟨⟩
    refine (hcounted _ rfl).changed ?_ ?_ rfl
    · simp [hpending]
    · simp
  | acknowledged hdelivered =>
    rintro _ ⟨⟩
    refine (hcounted _ rfl).changed ?_ ?_ rfl
    · simp [hdelivered]
    · simp
  | timedOut entry =>
    rintro _ ⟨⟩
    exact entry.counted_timedOut

theorem pays : count + buildBudget after ≤ buildBudget before := by
  cases hmove with
  | stays => exact (Nat.zero_add _).le
  | enqueued hqueued hretry =>
    simp [buildBudget, budget_of_queued hqueued, hretry]
  | @dispatched entry hqueued seq now =>
    have hmore : ¬ maxRetries ≤ entry.retryCount :=
      mt (hcounted entry rfl).mpr (by simp [hqueued])
    have hafter : (entry.dispatched seq now).budget =
        maxRetries - entry.retryCount - 1 :=
      budget_of_ne_queued (by simp [QueueEntry.dispatched])
    simp only [buildBudget, budget_of_queued hqueued, hafter]
    omega
  | resent => exact (Nat.zero_add _).le
  | delivered hpending => simp [buildBudget, QueueEntry.budget, hpending]
  | acknowledged hdelivered => simp [buildBudget, QueueEntry.budget, hdelivered]
  | timedOut entry =>
    rw [Nat.zero_add]
    exact entry.budget_timedOut_le

theorem stays_failed (hfailed : before.map QueueEntry.status = some .failed) :
    after.map QueueEntry.status = some .failed := by
  cases hmove with
  | stays => exact hfailed
  | enqueued => cases hfailed
  | dispatched hqueued => simp [hqueued] at hfailed
  | resent => exact hfailed
  | delivered hpending => simp [hpending] at hfailed
  | acknowledged hdelivered => simp [hdelivered] at hfailed
  | timedOut entry =>
    have hspent := (hcounted entry rfl).mp (Option.some.inj hfailed)
    simp [QueueEntry.timedOut, Nat.le_succ_of_le hspent]

end

end EntryMove

namespace QueueProcess

variable {P : Primitives}

/-- The entry of the message, if there is one, counts its retries. -/
def Counts (messageId : MessageId) (process : QueueProcess) : Prop :=
  ∀ entry ∈ process.entryOf messageId, entry.Counted

/-- How often the message may still be built. -/
def remaining (messageId : MessageId) (process : QueueProcess) : Nat :=
  buildBudget (process.entryOf messageId)

theorem counts_step {messageId : MessageId} (process : QueueProcess)
    (event : QueueEvent) (hcounts : process.Counts messageId) :
    (process.step P event).Counts messageId :=
  (entryMove_step messageId event).counted hcounts

/-- Over the whole life of a process a message that is enqueued in it is built
at most `MAX_RETRIES` times, and once it has FAILED it stays so. -/
theorem builds_at_most_maxRetries (queue : QueueManager) (messageId : MessageId)
    (hnew : queue.get? messageId = none) (events : List QueueEvent) :
    total (step P) (builds P messageId) { queue := queue } events ≤ maxRetries ∧
      ∀ later, (run (step P) { queue := queue } events).queue.getStatus
          messageId = some .failed →
        (run (step P) { queue := queue } (events ++ later)).queue.getStatus
          messageId = some .failed := by
  have hinit : Counts messageId { queue := queue } := by
    intro entry hentry
    cases hnew.symm.trans hentry
  constructor
  · have hpay : ∀ process event, Counts messageId process →
        builds P messageId process event +
          remaining messageId (process.step P event) ≤
            remaining messageId process :=
      fun _ event hcounts => (entryMove_step messageId event).pays hcounts
    have hbudget : remaining messageId { queue := queue } = maxRetries := by
      rw [remaining, entryOf, hnew, buildBudget]
    rw [← hbudget]
    exact total_le_potential counts_step hpay hinit events
  · intro later hfailed
    have hstep : ∀ process event, Counts messageId process ∧
        process.queue.getStatus messageId = some .failed →
        Counts messageId (process.step P event) ∧
          (process.step P event).queue.getStatus messageId = some .failed :=
      fun process event hboth => ⟨counts_step process event hboth.1,
        (entryMove_step messageId event).stays_failed hboth.1 hboth.2⟩
    rw [run_append]
    exact (inv_run hstep ⟨inv_run counts_step hinit events, hfailed⟩ later).2

end QueueProcess

namespace RetryBoundWitness

open Reference

def session : Session where
  sessionId := (constant 8 5).val
  encryptionKey := (constant 32 7).val
  remotePeerId := (constant 32 1).val

/-- A build, and a pass of the retry loop 31 seconds later. -/
def attempt : List QueueEvent :=
  [.call (.build 1 session 0), .retryPass 31, .retryNext]

/-- Message 1 is enqueued and never answered. -/
def events : List QueueEvent := .call (.enqueue 1 session.remotePeerId [104]) ::
    (attempt ++ attempt ++ attempt ++ attempt ++ attempt ++ attempt)

/-- The bound is met by a message that fails. -/
theorem builds_at_most_maxRetries_unanswered :
    total (QueueProcess.step primitives)
        (QueueProcess.builds primitives 1) { queue := .empty }
        events = maxRetries ∧
    total (QueueProcess.step primitives)
        (QueueProcess.builds primitives 1) { queue := .empty }
        events ≤ maxRetries ∧
    (run (QueueProcess.step primitives) { queue := .empty }
      (events ++ attempt)).queue.getStatus 1 = some .failed := by
  have hbound := QueueProcess.builds_at_most_maxRetries
    (P := primitives) .empty 1 rfl events
  exact ⟨by decide +kernel, hbound.1, hbound.2 attempt (by decide +kernel)⟩

end RetryBoundWitness

end AshiChat
