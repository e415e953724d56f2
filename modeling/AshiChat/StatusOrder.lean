/-
The order of message statuses.  DELIVERED and ACKNOWLEDGED are final for
every coroutine but one: the retry loop takes its list of timed-out messages
once and does not look at a message again before it times it out, so an ACK
that comes in while the loop awaits an earlier resend is undone.
-/
import AshiChat.MessagingMoves

namespace AshiChat

open QueueManager EventRun OrderedDict List

/-- The message has been delivered, and possibly displayed. -/
def QueueManager.Arrived (queue : QueueManager) (messageId : MessageId) :
    Prop :=
  queue.getStatus messageId = some .delivered ∨
    queue.getStatus messageId = some .acknowledged

instance (queue : QueueManager) (messageId : MessageId) :
    Decidable (queue.Arrived messageId) :=
  inferInstanceAs (Decidable (_ ∨ _))

theorem QueueManager.arrived_iff {queue : QueueManager}
    {messageId : MessageId} :
    queue.Arrived messageId ↔ ∃ entry, queue.get? messageId = some entry ∧
        (entry.status = .delivered ∨ entry.status = .acknowledged) := by
  unfold Arrived getStatus
  cases hget : queue.get? messageId with
  | none | some => simp

/-- The messages a coroutine of the retry loop goes on to when it is resumed. -/
def Work.nextTimeouts : Work → List MessageId
  | .statusStored dispatch =>
    match dispatch.caller with
    | .retry _ _ rest => rest
    | _ => []
  | .failureStored rest => rest
  | _ => []

/-- Arrived messages stay so. -/
def QueueManager.KeepsArrived (before after : QueueManager) : Prop :=
  ∀ messageId, before.Arrived messageId → after.Arrived messageId

namespace QueueManager.KeepsArrived

theorem refl (queue : QueueManager) : KeepsArrived queue queue :=
  fun _ harrived => harrived

theorem trans {first second third : QueueManager}
    (hfirst : KeepsArrived first second)
    (hsecond : KeepsArrived second third) : KeepsArrived first third :=
  fun messageId harrived => hsecond messageId (hfirst messageId harrived)

/-- A change of one entry that has not arrived, or arrives. -/
theorem modify {queue : QueueManager} {messageId : MessageId}
    {change : QueueEntry → QueueEntry}
    (hchange : ∀ entry, queue.get? messageId = some entry →
      (entry.status = .delivered ∨ entry.status = .acknowledged) →
      (change entry).status = .delivered ∨
        (change entry).status = .acknowledged) :
    KeepsArrived queue (queue.modify messageId change) := by
  intro other harrived
  obtain ⟨entry, hget, hstatus⟩ := arrived_iff.mp harrived
  rw [arrived_iff, get?_modify, hget]
  split
  · next heq =>
    subst heq
    exact ⟨_, rfl, hchange entry hget hstatus⟩
  · exact ⟨entry, rfl, hstatus⟩

end QueueManager.KeepsArrived

namespace Messaging

variable {P : Primitives} {node : Messaging}

variable {messageId : MessageId}

theorem keepsArrived_timeout (hnot : ¬ node.queue.Arrived messageId) :
    KeepsArrived node.queue (node.timeout messageId).queue := by
  intro other harrived
  obtain ⟨entry, hget, hstatus⟩ := arrived_iff.mp harrived
  have hne : messageId ≠ other := by
    rintro rfl
    exact hnot harrived
  rw [arrived_iff, get?_timeout, if_neg hne]
  exact ⟨entry, hget, hstatus⟩

/-- A timeout makes nothing arrive. -/
theorem arrived_of_timeout {other : MessageId}
    (harrived : (node.timeout messageId).queue.Arrived other) :
    node.queue.Arrived other := by
  obtain ⟨entry, hget, hstatus⟩ := arrived_iff.mp harrived
  rw [get?_timeout] at hget
  split at hget
  · obtain ⟨old, _, rfl⟩ := Option.map_eq_some_iff.mp hget
    rcases old.timedOut_status with htimed | htimed <;>
      simp [htimed] at hstatus
  · exact arrived_iff.mpr ⟨entry, hget, hstatus⟩

theorem keepsArrived_dispatched {ref : Nat} {entry : QueueEntry}
    {session : Session} (hready : node.Ready messageId ref entry session)
    (now : ℚ) :
    KeepsArrived node.queue
      (node.dispatched messageId ref session now).queue := by
  apply KeepsArrived.modify
  intro found hfound hstatus
  cases hready.entry_eq.symm.trans hfound
  simp [hready.status_eq] at hstatus

theorem keepsArrived_flushWalk (node : Messaging) (peerId : PeerId) (ref : Nat)
    (endpoint : Address) (now : ℚ) (ids : List MessageId) :
    KeepsArrived node.queue
      (flushWalk P peerId ref endpoint now node ids).node.queue := by
  have hend := flushEnd P peerId ref endpoint now node ids
  generalize flushWalk P peerId ref endpoint now node ids = stretch at hend ⊢
  cases hend with
  | finished | stopped => exact .refl _
  | started _ _ hready => exact keepsArrived_dispatched hready now

/-- What the walk of the retry loop keeps while nothing on its list has
arrived. -/
def Undisturbed (start : QueueManager) (node : Messaging)
    (ids : List MessageId) : Prop :=
  KeepsArrived start node.queue ∧
    ∀ messageId ∈ ids, ¬ node.queue.Arrived messageId

theorem Undisturbed.timeout {start : QueueManager} {rest : List MessageId}
    (hwalk : Undisturbed start node (messageId :: rest)) :
    Undisturbed start (node.timeout messageId) rest := by
  obtain ⟨hkeeps, hnot⟩ := hwalk
  obtain ⟨hhead, hrest⟩ := forall_mem_cons.mp hnot
  exact ⟨hkeeps.trans (keepsArrived_timeout hhead),
    fun other hmem harrived => hrest other hmem (arrived_of_timeout harrived)⟩

theorem keepsArrived_retryWalk (node : Messaging) (now : ℚ)
    {ids : List MessageId}
    (hids : ∀ messageId ∈ ids, ¬ node.queue.Arrived messageId) :
    KeepsArrived node.queue (retryWalk P now node ids).node.queue := by
  refine retryWalk_rule (Undisturbed node.queue) (fun stretch => KeepsArrived
    node.queue stretch.node.queue) ?_ ?_ ?_ ?_ ?_ ?_ ⟨.refl _, hids⟩
  · exact fun _ hwalk => hwalk.1
  · exact fun _ _ _ hwalk _ => hwalk.timeout
  · exact fun _ _ _ _ hwalk _ _ _ => hwalk.timeout
  · exact fun _ _ _ _ hwalk _ _ => hwalk.timeout.1
  · exact fun _ _ _ _ _ _ hwalk _ _ => hwalk.timeout
  · exact fun _ _ _ _ _ _ _ _ hwalk _ hready =>
      hwalk.timeout.1.trans (keepsArrived_dispatched hready now)

/-- What times out is pending. -/
theorem not_arrived_of_timedOut {queue : QueueManager} {now : ℚ}
    (hmem : messageId ∈ queue.getTimedOutMessages now) :
    ¬ queue.Arrived messageId := by
  obtain ⟨⟨_, _⟩, hentry, rfl⟩ := mem_map.mp hmem
  obtain ⟨hentry, htest⟩ := mem_filter.mp hentry
  have hget := get?_eq_of_mem_entries _ hentry
  simp only [Bool.and_eq_true, beq_iff_eq] at htest
  simp [Arrived, getStatus, hget, htest.1]

/-- The first stretch of every call keeps what has arrived. -/
theorem keepsArrived_handle (call : MessagingCall) :
    KeepsArrived node.queue (node.handle P call).node.queue := by
  cases call with
  | sendMessage _ messageId =>
    simp only [handle]
    split
    · exact .refl _
    · next hfresh =>
      simp only [drawn, Bool.or_eq_true, not_or, Bool.not_eq_true,
        contains_eq_false_iff] at hfresh
      intro other harrived
      obtain ⟨entry, hget, hstatus⟩ := arrived_iff.mp harrived
      have hne : messageId ≠ other := by
        rintro rfl
        cases hfresh.1.1.symm.trans hget
      rw [arrived_iff, enqueue, get?_set, if_neg hne]
      exact ⟨entry, hget, hstatus⟩
  | handleHello | handleHelloAck =>
    simp only [handle, registerSession]
    repeat' split
    all_goals exact .refl _
  | handleData =>
    simp only [handle]
    repeat' split
    all_goals exact .refl _
  | handleAck =>
    simp only [handle]
    split
    · next hack =>
      obtain ⟨rfl, _⟩ := handleAck_eq_some hack
      exact .modify fun _ _ _ => .inl rfl
    · exact .refl _
  | handleAppAck =>
    simp only [handle]
    split
    · exact .refl _
    · split
      · next hack =>
        obtain ⟨rfl, _⟩ := acknowledgeBySequence_eq_some hack
        exact .modify fun _ _ _ => .inr rfl
      · exact .refl _
  | handleSync _ now =>
    simp only [handle]
    split
    · exact .refl _
    · intro messageId harrived
      obtain ⟨entry, hget, hstatus⟩ := arrived_iff.mp harrived
      obtain ⟨later, hlater, hsame⟩ :=
        (resendMissed_sameCore P _ _ now _ _).symm.get? hget
      exact arrived_iff.mpr ⟨later, hlater, hsame.status_eq ▸ hstatus⟩
  | retryPass now =>
    simp only [handle]
    split
    · exact .refl _
    · exact keepsArrived_retryWalk node now
        fun _ hmem => not_arrived_of_timedOut hmem
  | handlePeerDisconnect =>
    simp only [handle]
    split <;> exact .refl _
  | setEndpoint => exact .refl _
  | saveSession =>
    simp only [handle]
    split <;> exact .refl _

/-- A coroutine that goes on keeps what has arrived, unless it is the retry
loop with such a message on its list. -/
theorem keepsArrived_resumeWork (node : Messaging) (now : ℚ) {work : Work}
    (hnot : ∀ messageId ∈ work.nextTimeouts, ¬ node.queue.Arrived messageId) :
    KeepsArrived node.queue (node.resumeWork P now work).node.queue := by
  cases work with
  | enqueued peerId messageId session =>
    cases session with
    | none => exact .refl _
    | some ref =>
      have hbuild := buildStep P node messageId ref now (.send peerId)
      simp only [resumeWork]
      generalize node.build P messageId ref now (.send peerId) = result
        at hbuild ⊢
      cases hbuild with
      | nothing | error => exact .refl _
      | started hready => exact keepsArrived_dispatched hready now
  | statusStored dispatch =>
    simp only [resumeWork, afterDispatch]
    split
    · split <;> exact .refl _
    · split <;> exact .refl _
    · exact keepsArrived_flushWalk (node.handOver dispatch) _ _ _ now _
    · exact .refl _
    · next rest _ hcaller _ =>
      have hrest : ∀ messageId ∈ rest, ¬ node.queue.Arrived messageId := by
        simpa only [Work.nextTimeouts, hcaller] using hnot
      exact keepsArrived_retryWalk (node.handOver dispatch) now hrest
    · next peerId _ rest _ hcaller _ =>
      have hrest : ∀ messageId ∈ rest, ¬ node.queue.Arrived messageId := by
        simpa only [Work.nextTimeouts, hcaller] using hnot
      exact keepsArrived_retryWalk (node.raise peerId) now hrest
  | failureStored => exact keepsArrived_retryWalk node now hnot
  | heartbeat =>
    simp only [resumeWork, flushQueued]
    split
    · exact keepsArrived_flushWalk node _ _ _ now _
    · exact .refl _
  | sequenceStored | numberStored | receiptStored | received | helloSaved
  | ackSaved | ackRemembered => exact .refl _

/-- What the retry loop takes up again if the coroutine at `index` can be
resumed. -/
def takenUp (node : Messaging) (index : Nat) : List MessageId :=
  match node.tasks[index]? with
  | some ⟨.committing ticket, work⟩ =>
    if ticket < node.db.executed then work.nextTimeouts else []
  | some ⟨.free, work⟩ => work.nextTimeouts
  | _ => []

/-- Within one process, and whenever the retry loop goes on with its list,
nothing on the list has arrived in the meantime. -/
def ListUpToDate (node : Messaging) : MessagingEvent → Prop
  | .resume index _ =>
    ∀ messageId ∈ node.takenUp index, ¬ node.queue.Arrived messageId
  | .restart .. => False
  | _ => True

instance (node : Messaging) :
    ∀ event : MessagingEvent, Decidable (node.ListUpToDate event)
  | .resume _ _ => inferInstanceAs (Decidable (∀ _ ∈ _, ¬ _))
  | .restart _ _ => inferInstanceAs (Decidable False)
  | .call _ | .execute => inferInstanceAs (Decidable True)

theorem keepsArrived_step {event : MessagingEvent}
    (hlist : node.ListUpToDate event) :
    KeepsArrived node.queue (node.step P event).queue := by
  cases event with
  | call call =>
    rw [step, queue_settle]
    exact keepsArrived_handle call
  | resume index now =>
    have hstep := resumeStep P node index now
    rw [step]
    generalize node.resume P index now = next at hstep ⊢
    cases hstep with
    | idle | commit => exact .refl _
    | @run task htask hover =>
      rw [queue_settle]
      apply keepsArrived_resumeWork
        { node with tasks := node.tasks.eraseIdx index } now
      obtain ⟨_, _⟩ := task
      rcases hover with rfl | ⟨_, hdone, rfl⟩
      · simpa only [ListUpToDate, takenUp, htask] using hlist
      · simpa only [ListUpToDate, takenUp, htask, hdone, ↓reduceIte] using hlist
  | execute => exact .refl _
  | restart => exact hlist.elim

theorem keepsArrived_run {events : List MessagingEvent}
    (hlist : EveryStep (Messaging.step P) ListUpToDate node events) :
    KeepsArrived node.queue (run (Messaging.step P) node events).queue := by
  induction events generalizing node with
  | nil => exact .refl _
  | cons _ _ ih => exact (keepsArrived_step hlist.1).trans (ih hlist.2)

/-- A message that has arrived stays so to the end of every run in which the
list of the retry loop is up to date whenever the loop goes on with it. -/
theorem arrived_status_stays (P : Primitives)
    {events early late : List MessagingEvent}
    (hlist : EveryStep (Messaging.step P) ListUpToDate {} events)
    (hrun : early ++ late <+: events) {messageId : MessageId}
    (harrived : (run (Messaging.step P) {} early).queue.Arrived messageId) :
    (run (Messaging.step P) {} (early ++ late)).queue.Arrived messageId := by
  have hsteps := everyStep_of_initial hrun hlist
  rw [everyStep_append] at hsteps
  rw [run_append]
  exact keepsArrived_run hsteps.2 messageId harrived

end Messaging

namespace StatusOrderWitness

open MessagingWitness Reference

def ackFor (seq : Nat) : MessagingEvent :=
  .call (.handleAck ⟨keys.sessionId, seq⟩)

/-- Both messages time out and the loop starts to resend the first. -/
def timedOut : List MessagingEvent :=
  opening ++ sending 1 ++ sending 2 ++ [.call (.retryPass 31)]

/-- The loop gets both resends out, and the first is acknowledged then. -/
def calm : List MessagingEvent :=
  timedOut ++ dispatching 0 31 ++ dispatching 0 31 ++ [ackFor 3] ++
    storageCall 0 31

/-- A second pass, for the other message. -/
def secondPass : List MessagingEvent :=
  .call (.retryPass 62) :: dispatching 0 62

theorem first_message_stays_delivered : (run (Messaging.step primitives) {}
      (calm ++ secondPass)).queue.Arrived 1 :=
  Messaging.arrived_status_stays primitives
    (by decide +kernel : EveryStep (Messaging.step primitives)
      Messaging.ListUpToDate {} (calm ++ secondPass))
    prefix_rfl (by decide +kernel)

/-- The ACK for the second message comes in and its handler finishes. -/
def acknowledged : List MessagingEvent :=
  timedOut ++ [ackFor 2, .execute, .execute, .resume 1 31, .execute,
    .resume 1 31]

/-- The loop gets its resend out and goes on. -/
def resent : List MessagingEvent :=
  [.resume 0 31, .execute, .resume 0 31] ++ storageCall 0 31 ++ storageCall 0 31

/-- The second message was DELIVERED and is PENDING again. -/
theorem delivered_message_pending_again :
    (run (Messaging.step primitives) {} acknowledged).queue.getStatus
        2 = some .delivered ∧
      (run (Messaging.step primitives) {}
        (acknowledged ++ resent)).queue.getStatus 2 = some .pending := by
  decide +kernel

end StatusOrderWitness

end AshiChat
