/-
The `message_queue` table against the queue in memory.  Each change of an
entry is followed by a storage call of its own; the rows agree with the
entries, up to the calls still to come, as long as no message times out and no
ACK overtakes the write that marks its message pending.
-/
import AshiChat.StoredRows

namespace AshiChat

open QueueManager EventRun Connection List Mirrored

/-- The coroutine waits for the operation, or for a commit after it. -/
def Await.Covers (await : Await) (ticket : Nat) : Prop :=
  await = .executing ticket ∨ ∃ commit > ticket, await = .committing commit

namespace Messaging

variable {P : Primitives} {node : Messaging}

/-- A statement that a crash would lose has a coroutine waiting for it. -/
structure Awaited (node : Messaging) : Prop where
  statements : ∀ ticket body, node.db.ops[ticket]? = some (.statement body) →
    ticket < node.db.settled ∨ ∃ task ∈ node.tasks, task.await.Covers ticket
  commits : ∀ task ∈ node.tasks, ∀ ticket,
    task.await = .committing ticket → node.db.ops[ticket]? = some .commit

variable {index : Nat}

section

variable (hawaited : node.Awaited)

include hawaited

/-- A coroutine that goes on leaves nothing behind it to wait for. -/
theorem Awaited.without {task : MessagingTask}
    (htask : node.tasks[index]? = some task)
    (hover : task.await.Over node.db.executed) :
    Awaited { node with tasks := node.tasks.eraseIdx index } where
  statements := by
    intro ticket body hop
    rcases hawaited.statements ticket body hop with hsettled |
      ⟨other, hmem, hcovers⟩
    · exact .inl hsettled
    · obtain ⟨hlt, rfl⟩ := List.getElem?_eq_some_iff.mp htask
      have hperm := getElem_cons_eraseIdx_perm hlt
      rcases mem_cons.mp (hperm.symm.mem_iff.mp hmem) with rfl | hrest
      · -- Its commit is done, and the statement came before that.
        rcases hover with hfree | ⟨commit, hdone, hcommit⟩
        · rcases hcovers with hexec | ⟨_, _, hcommit⟩
          · cases hfree.symm.trans hexec
          · cases hfree.symm.trans hcommit
        · rcases hcovers with hexec | ⟨_, hgt, hcommit'⟩
          · cases hcommit.symm.trans hexec
          · cases hcommit.symm.trans hcommit'
            have hfound := hawaited.commits _ hmem commit hcommit
            exact .inl (hgt.trans_le
              (node.db.commits commit hdone .commit hfound rfl))
      · exact .inr ⟨other, hrest, hcovers⟩
  commits := fun other hmem =>
    hawaited.commits other (mem_of_mem_eraseIdx hmem)

theorem Awaited.settle {stretch : Stretch}
    (halone : node.Alone stretch.node) : stretch.settle.Awaited := by
  obtain ⟨later, next⟩ := stretch
  have hlater : later.Awaited := by
    constructor
    · rw [halone.db_eq, halone.tasks_eq]
      exact hawaited.statements
    · rw [halone.db_eq, halone.tasks_eq]
      exact hawaited.commits
  cases next with
  | done => exact hlater
  | raised => exact ⟨hlater.statements, hlater.commits⟩
  | pause =>
    constructor
    · intro ticket body hop
      exact (hlater.statements ticket body hop).imp id
        fun ⟨task, hmem, hcovers⟩ =>
          ⟨task, mem_append_left _ hmem, hcovers⟩
    · intro task hmem ticket hawait
      rcases mem_append.mp hmem with hold | hnew
      · exact hlater.commits task hold ticket hawait
      · obtain rfl := mem_singleton.mp hnew
        cases hawait
  | write =>
    constructor
    · intro ticket body hop
      rcases getElem?_issue.mp hop with hold | ⟨rfl, _⟩
      · exact (hlater.statements ticket body hold).imp id
          fun ⟨task, hmem, hcovers⟩ =>
            ⟨task, mem_append_left _ hmem, hcovers⟩
      · exact .inr ⟨_, mem_append_right _ mem_cons_self, .inl rfl⟩
    · intro task hmem ticket hawait
      rcases mem_append.mp hmem with hold | hnew
      · exact getElem?_issue.mpr (.inl (hlater.commits task hold ticket hawait))
      · obtain rfl := mem_singleton.mp hnew
        cases hawait

theorem Awaited.commit {ticket : Nat} {work : Work}
    (htask : node.tasks[index]? = some ⟨.executing ticket, work⟩) :
    Awaited { node with
      db := node.db.issue .commit
      tasks := node.tasks.set index
        ⟨.committing node.db.ops.length, work⟩ } := by
  have hlt := (List.getElem?_eq_some_iff.mp htask).1
  have hnew : (⟨.committing node.db.ops.length, work⟩ : MessagingTask) ∈
      node.tasks.set index ⟨.committing node.db.ops.length, work⟩ :=
    mem_of_getElem? (getElem?_set_self hlt)
  constructor
  · intro other body hop
    have hop : node.db.ops[other]? = some (.statement body) := by
      rcases getElem?_issue.mp hop with hold | ⟨_, hcommit⟩
      · exact hold
      · cases hcommit
    have hother := (List.getElem?_eq_some_iff.mp hop).1
    rcases hawaited.statements other body hop with hsettled |
      ⟨task, hmem, hcovers⟩
    · exact .inl hsettled
    · obtain ⟨place, hplace⟩ := mem_iff_getElem?.mp hmem
      by_cases hindex : index = place
      · -- The new commit comes after everything issued so far.
        exact .inr ⟨_, hnew, .inr ⟨_, hother, rfl⟩⟩
      · refine .inr ⟨task, ?_, hcovers⟩
        exact mem_of_getElem? ((getElem?_set_ne hindex).trans hplace)
  · intro task hmem other hawait
    rcases mem_or_eq_of_mem_set hmem with hold | rfl
    · exact getElem?_issue.mpr (.inl (hawaited.commits task hold other hawait))
    · cases hawait
      exact getElem?_issue.mpr (.inr ⟨rfl, rfl⟩)

theorem Awaited.step (event : MessagingEvent) :
    (node.step P event).Awaited := by
  cases event with
  | call call => exact hawaited.settle (alone_handle P node call)
  | resume index now =>
    have hstep := resumeStep P node index now
    rw [Messaging.step]
    generalize node.resume P index now = next at hstep ⊢
    cases hstep with
    | idle => exact hawaited
    | commit htask => exact hawaited.commit htask
    | run htask hover =>
      exact (hawaited.without htask hover).settle (alone_resumeWork P _ now _)
  | execute =>
    constructor
    · intro ticket body hop
      simp only [Messaging.step, ops_execute] at hop
      exact (hawaited.statements ticket body hop).imp
        (fun hlt => hlt.trans_le node.db.settled_le_execute) id
    · intro task hmem ticket hawait
      simp only [Messaging.step, ops_execute]
      exact hawaited.commits task hmem ticket hawait
  | restart =>
    exact ⟨by simp [Messaging.step, restart, opened],
      by simp [Messaging.step, restart]⟩

/-- When no coroutine is in progress, a crash loses nothing. -/
theorem Awaited.durable_eq (hidle : node.tasks = []) :
    node.db.durable Tables.apply = node.stored := by
  apply durable_eq_issued
  intro ticket body hop
  rcases hawaited.statements ticket body hop with hsettled | ⟨_, hmem, _⟩
  · exact hsettled
  · rw [hidle] at hmem
    cases hmem

end

end Messaging
/-- The tables after the write that ends a stretch. -/
def Next.applied (tables : Tables) : Next → Tables
  | .write statement _ => tables.apply statement
  | _ => tables

namespace Messaging

variable {P : Primitives} {node : Messaging}

/-- The relation, for what is issued and the work in progress. -/
def Mirrors (node : Messaging) (works : List Work) : Prop :=
  Mirrored node.queue node.stored.messages node.outbox works

theorem mirrors_settle {stretch : Stretch}
    (hmirrored : Mirrored stretch.node.queue
      (stretch.next.applied stretch.node.stored).messages
      stretch.node.outbox (stretch.next.works ++ stretch.node.works)) :
    stretch.settle.Mirrors stretch.settle.works := by
  obtain ⟨node, next⟩ := stretch
  cases next with
  | done | raised => exact hmirrored
  | pause =>
    simp only [Stretch.settle, works, map_append, map_cons, map_nil]
    exact hmirrored.reschedule
      (fun _ hmem => .inl (by simpa [Next.works, works, or_comm] using hmem))
      (fun _ hmem _ _ => by simpa [Next.works, works, or_comm] using hmem)
  | write =>
    simp only [Mirrors, Stretch.settle, works, stored, map_append,
      map_cons, map_nil, issued_issue, perform]
    exact hmirrored.reschedule
      (fun _ hmem => .inl (by simpa [Next.works, works, or_comm] using hmem))
      (fun _ hmem _ _ => by simpa [Next.works, works, or_comm] using hmem)

variable {messageId : MessageId} {entry : QueueEntry} {work : Work}

theorem Mirrors.dispatched (hmirrors : node.Mirrors node.works) {ref : Nat}
    {session : Session} (hready : node.Ready messageId ref entry session)
    (now : ℚ) (packet : Packet) {caller : DispatchCaller}
    (hcaller : ∀ peerId endpoint rest, caller ≠ .retry peerId endpoint rest) :
    (Stretch.settle ⟨node.dispatched messageId ref session now,
      firstWrite messageId session packet caller⟩).Mirrors
        (Stretch.settle ⟨node.dispatched messageId ref session now,
          firstWrite messageId session packet caller⟩).works := by
  apply mirrors_settle
  refine Mirrored.dispatched hmirrors
    ⟨messageId, session.sessionId, session.sendSequence, packet, caller⟩
    hready.entry_eq hready.status_eq now ?_
  cases caller with
  | send | flush => rfl
  | retry peerId endpoint rest =>
    exact absurd rfl (hcaller peerId endpoint rest)

theorem Mirrors.flushWalk (hmirrors : node.Mirrors node.works) (peerId : PeerId)
    (ref : Nat) (endpoint : Address) (now : ℚ) (ids : List MessageId) :
    (flushWalk P peerId ref endpoint now node ids).settle.Mirrors
      (flushWalk P peerId ref endpoint now node ids).settle.works := by
  have hend := flushEnd P peerId ref endpoint now node ids
  generalize Messaging.flushWalk P peerId ref endpoint now node ids = stretch
    at hend ⊢
  cases hend with
  | finished | stopped => exact mirrors_settle hmirrors
  | started _ _ hready => exact hmirrors.dispatched hready now _ (by simp)

/-- A coroutine goes on. -/
theorem Mirrors.resumeWork (hmirrors : node.Mirrors (work :: node.works))
    (now : ℚ) :
    (node.resumeWork P now work).settle.Mirrors
      (node.resumeWork P now work).settle.works := by
  cases work with
  | enqueued peerId messageId session =>
    have hrest : node.Mirrors node.works := hmirrors.drop rfl
    cases session with
    | none => exact mirrors_settle hrest
    | some ref =>
      have hbuild := buildStep P node messageId ref now (.send peerId)
      simp only [Messaging.resumeWork]
      generalize node.build P messageId ref now (.send peerId) = result
        at hbuild ⊢
      cases hbuild with
      | nothing | error => exact mirrors_settle hrest
      | started hready => exact hrest.dispatched hready now _ (by simp)
  | sequenceStored => exact mirrors_settle hmirrors.number
  | numberStored => exact mirrors_settle hmirrors.markPending
  | statusStored dispatch =>
    have hrest : (node.handOver dispatch).Mirrors node.works :=
      hmirrors.drop rfl
    have hcalm := hmirrors.calm _ mem_cons_self
    simp only [Messaging.resumeWork, afterDispatch]
    split
    · split
      · exact mirrors_settle hrest
      · exact mirrors_settle (hmirrors.drop rfl)
    · split <;> exact mirrors_settle (hmirrors.drop rfl)
    · exact hrest.flushWalk _ _ _ now _
    · exact mirrors_settle (hmirrors.drop rfl)
    · next hcaller _ => simp [Work.ofRetry, hcaller] at hcalm
    · next hcaller _ => simp [Work.ofRetry, hcaller] at hcalm
  | failureStored => cases hmirrors.calm _ mem_cons_self
  | receiptStored | received => exact mirrors_settle (hmirrors.drop rfl)
  | helloSaved => exact mirrors_settle ((hmirrors.drop rfl).add rfl rfl)
  | ackSaved | ackRemembered =>
    exact mirrors_settle ((hmirrors.drop rfl).add rfl rfl)
  | heartbeat =>
    have hrest : node.Mirrors node.works := hmirrors.drop rfl
    simp only [Messaging.resumeWork, flushQueued]
    split
    · exact hrest.flushWalk _ _ _ now _
    · exact mirrors_settle hrest

/-- What keeps the rows in step: no message is empty, none times out, and no
ACK comes in whose number a dispatch has yet to store. -/
def InStep (node : Messaging) : MessagingEvent → Prop
  | .call (.sendMessage _ _ plaintext) => plaintext ≠ []
  | .call (.handleAck ack) =>
    ∀ work ∈ node.works,
      work.unstored?.map Dispatch.seq ≠ some ack.ackSequenceNumber
  | .call (.retryPass now) => node.queue.getTimedOutMessages now = []
  | _ => True

instance (node : Messaging) :
    ∀ event : MessagingEvent, Decidable (node.InStep event)
  | .call (.sendMessage _ _ _) => inferInstanceAs (Decidable (_ ≠ _))
  | .call (.handleAck _) => inferInstanceAs (Decidable (∀ _ ∈ _, _ ≠ _))
  | .call (.retryPass _) => inferInstanceAs (Decidable (_ = _))
  | .call (.handleHello _) | .call (.handleHelloAck _ _)
  | .call (.handleData _) | .call (.handleAppAck _)
  | .call (.handleSync _ _) | .call (.handlePeerDisconnect _)
  | .call (.setEndpoint _ _) | .call (.saveSession _)
  | .resume _ _ | .execute | .restart _ _ => inferInstanceAs (Decidable True)

section

variable (hmirrors : node.Mirrors node.works)

include hmirrors

theorem Mirrors.registerSession (keys : SessionKeys)
    (hnone : work.unstored? = none) (hcalm : work.ofRetry = false) :
    (node.registerSession keys work).settle.Mirrors
      (node.registerSession keys work).settle.works := by
  unfold Messaging.registerSession
  dsimp only
  split
  · exact mirrors_settle hmirrors
  · exact mirrors_settle (hmirrors.add hnone hcalm)

/-- The entry an ACK is credited to has been stored as pending. -/
theorem Mirrors.untouched_of_ack
    {ack : AckPayload} (hack : node.InStep (.call (.handleAck ack)))
    (hget : node.queue.get? messageId = some entry)
    (hseq : entry.sequenceNumber = some ack.ackSequenceNumber) :
    Untouched Work.unstored? node.works messageId := by
  rintro work hmem dispatch hwork rfl
  obtain ⟨_, hfound, _, hnumber⟩ := hmirrors.pending work hmem dispatch hwork
  cases hget.symm.trans hfound
  apply hack work hmem
  rw [hwork, Option.map_some, ← hnumber, hseq]

/-- The first stretch of every call. -/
theorem Mirrors.handle
    {call : MessagingCall} (hstep : node.InStep (.call call)) :
    (node.handle P call).settle.Mirrors (node.handle P call).settle.works := by
  cases call with
  | sendMessage peerId =>
    simp only [Messaging.handle]
    split
    · exact mirrors_settle hmirrors
    · next hfresh =>
      simp only [drawn, Bool.or_eq_true, not_or, Bool.not_eq_true,
        OrderedDict.contains_eq_false_iff] at hfresh
      have hnext := enqueue hmirrors hfresh.1.1 peerId hstep
      exact mirrors_settle (hnext.add rfl rfl)
  | handleHello keys =>
    simp only [Messaging.handle]
    split
    · exact mirrors_settle hmirrors
    · exact hmirrors.registerSession keys rfl rfl
  | handleHelloAck keys => exact hmirrors.registerSession keys rfl rfl
  | handleData =>
    simp only [Messaging.handle]
    split
    · exact mirrors_settle hmirrors
    · split
      · exact mirrors_settle (hmirrors.add rfl rfl)
      · exact mirrors_settle hmirrors
  | handleAck =>
    simp only [Messaging.handle]
    split
    · next queue messageId hack =>
      obtain ⟨rfl, entry, hget, _, hseq⟩ := handleAck_eq_some hack
      have hnext := mark hmirrors hget
        (hmirrors.untouched_of_ack hstep hget hseq) .delivered
      exact mirrors_settle (hnext.add rfl rfl)
    · exact mirrors_settle hmirrors
  | handleAppAck =>
    simp only [Messaging.handle]
    split
    · exact mirrors_settle hmirrors
    · split
      · next queue messageId hack =>
        obtain ⟨rfl, entry, hget, hstatus⟩ := acknowledgeBySequence_eq_some hack
        have huntouched := untouched_of_not_pending hmirrors hget
          (by simp [hstatus])
        have hnext := mark hmirrors hget huntouched .acknowledged
        exact mirrors_settle (hnext.add rfl rfl)
      · exact mirrors_settle hmirrors
  | handleSync _ now =>
    simp only [Messaging.handle]
    split
    · exact mirrors_settle hmirrors
    · exact mirrors_settle (sameCore hmirrors
        (resendMissed_sameCore P _ _ now _ _))
  | retryPass now =>
    have hnone : node.queue.getTimedOutMessages now = [] := hstep
    simp only [Messaging.handle, hnone, retryWalk]
    split <;> exact mirrors_settle hmirrors
  | handlePeerDisconnect =>
    simp only [Messaging.handle]
    split <;> exact mirrors_settle hmirrors
  | setEndpoint => exact mirrors_settle hmirrors
  | saveSession =>
    simp only [Messaging.handle]
    split
    · exact mirrors_settle hmirrors
    · exact mirrors_settle (hmirrors.add rfl rfl)

end

/-- The rows are what the entries are, and a restart restores the queue. -/
structure Refined (node : Messaging) : Prop where
  rows : ∀ messageId entry, node.queue.get? messageId = some entry →
    (node.db.durable Tables.apply).messages.get? messageId = some entry.record
  restarts : ∀ endpoints known messageId,
    OrderedDict.get? (node.restart endpoints known).queue messageId =
      ((node.queue.get? messageId).filter
        (fun entry => entry.status ≠ .failed)).map core

theorem Mirrors.step (hmirrors : node.Mirrors node.works)
    {event : MessagingEvent} (hstep : node.InStep event) :
    (node.step P event).Mirrors (node.step P event).works := by
  cases event with
  | call => exact hmirrors.handle hstep
  | resume index now =>
    have hresume := resumeStep P node index now
    rw [Messaging.step]
    generalize node.resume P index now = next at hresume ⊢
    cases hresume with
    | idle => exact hmirrors
    | commit htask =>
      simp only [Mirrors, stored, works, issued_issue, perform,
        works_commit htask]
      exact hmirrors
    | @run task htask _ =>
      have hperm := works_perm htask
      have hrest : Mirrors { node with tasks := node.tasks.eraseIdx index }
          (task.work :: (node.tasks.eraseIdx index).map MessagingTask.work) :=
        reschedule hmirrors (fun _ hmem => .inl (hperm.mem_iff.mp hmem))
          (fun _ hmem _ _ => hperm.mem_iff.mpr hmem)
      exact hrest.resumeWork now
  | execute =>
    simp only [Messaging.step, Mirrors, stored, issued_execute]
    exact hmirrors
  | restart =>
    exact mirrored_restore node.outbox (node.db.durable Tables.apply)

/-- The table is in step whenever no coroutine is in progress. -/
def StoredInStep (node : Messaging) : Prop := node.tasks = [] → node.Refined

theorem Mirrors.storedInStep (hmirrors : node.Mirrors node.works)
    (hawaited : node.Awaited) : node.StoredInStep := by
  intro hidle
  have hrows : Mirrored node.queue
      (node.db.durable Tables.apply).messages node.outbox [] := by
    rw [hawaited.durable_eq hidle]
    simpa only [Mirrors, works, hidle, map_nil] using hmirrors
  exact ⟨fun _ _ hget => hrows.record hget,
    fun _ _ messageId => hrows.restored messageId⟩

/-- In every run in which no message is empty or times out and no ACK overtakes
the write that marks its message pending, the stored queue refines the queue
in memory. -/
theorem stored_queue_refines (P : Primitives) {events : List MessagingEvent}
    (hsteps : EveryStep (Messaging.step P) InStep {} events) :
    Along (Messaging.step P) StoredInStep {} events := by
  have hstep : ∀ (node : Messaging) (event : MessagingEvent),
      (node.Mirrors node.works ∧ node.Awaited) → node.InStep event →
      (node.step P event).Mirrors (node.step P event).works ∧
        (node.step P event).Awaited :=
    fun _ event hinv hgood => ⟨hinv.1.step hgood, hinv.2.step event⟩
  have hinit : ({} : Messaging).Mirrors ({} : Messaging).works ∧
      ({} : Messaging).Awaited :=
    ⟨⟨by simp, by simp [stored, Connection.issued, Connection.after,
        opened, Tables.empty], by simp, by simp [works],
        by simp [works]⟩,
      ⟨by simp [opened], by simp⟩⟩
  exact along_of_everyStep hstep
    (fun _ hinv => hinv.1.storedInStep hinv.2) hinit hsteps

end Messaging

namespace StoredQueueWitness

open MessagingWitness Reference

/-- A message without a session, flushed by the handshake, delivered and
displayed. -/
def displayed : List MessagingEvent :=
  .call (.sendMessage peer 1 [104, 105]) :: storageCall 0 0 ++
    [.call (.setEndpoint peer ("10.0.0.2", 9000)),
      .call (.handleHello keys)] ++ storageCall 0 0 ++ [.resume 0 0] ++
    dispatching 0 0 ++ [.call (.handleAck ⟨keys.sessionId, 1⟩)] ++
    storageCall 0 1 ++ [.call (.handleAppAck ⟨keys.sessionId, 1⟩)] ++
    storageCall 0 2

theorem displayed_message_refined : (run (Messaging.step primitives) {}
        displayed).queue.getStatus 1 = some .acknowledged ∧
      (run (Messaging.step primitives) {} displayed).Refined := by
  refine ⟨by decide +kernel, ?_⟩
  have hsteps : EveryStep (Messaging.step primitives)
      Messaging.InStep {} displayed := by
    decide +kernel
  exact Messaging.stored_queue_refines primitives hsteps displayed
    prefix_rfl (by decide +kernel)

/-- A message times out once and is sent again. -/
def retried : List MessagingEvent :=
  opening ++ sending 1 ++ [.call (.retryPass 31)] ++ dispatching 0 31

/-- No coroutine is left, the row does not know of the retry, and a restart
forgets it. -/
theorem retry_count_not_stored :
    (run (Messaging.step primitives) {} retried).tasks = [] ∧
      (OrderedDict.get? (run (Messaging.step primitives) {}
        retried).queue 1).map QueueEntry.retryCount = some 1 ∧
      (((run (Messaging.step primitives) {} retried).db.durable
        Tables.apply).messages.get? 1).map MessageRecord.retryCount = some 0 ∧
      (OrderedDict.get? ((run (Messaging.step primitives) {}
        retried).restart .empty (fun _ => true)).queue 1).map
          QueueEntry.retryCount = some 0 := by
  decide +kernel

end StoredQueueWitness

end AshiChat
