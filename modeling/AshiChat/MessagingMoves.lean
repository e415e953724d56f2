/-
What the stretches of the messaging coroutines can do.  Each function of
`Messaging` is inverted once: the three ends of a build, the end of a flush
over its snapshot, an induction rule for the walk of the retry loop, and the
cases of a resumption.
-/
import AshiChat.Messaging
import AshiChat.Reference

namespace AshiChat

open QueueManager EventRun SessionRegistry List Option

/-- What the coroutine waits for has happened; only its continuation is left. -/
def Await.Over (await : Await) (executed : Nat) : Prop :=
  await = .free ∨ ∃ ticket < executed, await = .committing ticket

/-- The work a stretch leaves to be done. -/
def Next.works : Next → List Work
  | .write _ work | .pause work => [work]
  | .done | .raised _ => []

/-- The session seals the message under its next number. -/
structure Session.Seals (session : Session) (plaintext : Bytes) : Prop where
  keyed : session.Keyed
  number : session.sendSequence < 2 ^ 32
  encryptable : Encryptable plaintext

namespace Messaging

def works (node : Messaging) : List Work := node.tasks.map MessagingTask.work

/-- The counter of the object behind `ref` has moved on. -/
def advance (node : Messaging) (ref : Nat) (session : Session) : Messaging :=
  { node with registry := node.registry.update ref session.nextSequence.2 }

/-- The message has been given the session's number. -/
def dispatched (node : Messaging) (messageId : MessageId) (ref : Nat)
    (session : Session) (now : ℚ) : Messaging :=
  { node.advance ref session with
    queue := node.queue.modify messageId
      (QueueEntry.dispatched session.sendSequence now) }

/-- The write that follows, and the coroutine behind it. -/
def firstWrite (messageId : MessageId) (session : Session) (packet : Packet)
    (caller : DispatchCaller) : Next :=
  .write (.updateSendSequence session.sessionId (session.sendSequence + 1))
    (.sequenceStored
      ⟨messageId, session.sessionId, session.sendSequence, packet, caller⟩)

section Build

variable {P : Primitives} {node : Messaging} {messageId : MessageId}
  {ref : Nat} {now : ℚ} {caller : DispatchCaller}

/-- A queued message under a session object. -/
structure Ready (node : Messaging) (messageId : MessageId) (ref : Nat)
    (entry : QueueEntry) (session : Session) : Prop where
  entry_eq : node.queue.get? messageId = some entry
  status_eq : entry.status = .queued
  object_eq : node.registry.objects[ref]? = some session

/-- The ways a build ends. -/
inductive BuildStep (node : Messaging) (messageId : MessageId) (ref : Nat)
    (now : ℚ) (caller : DispatchCaller) : Messaging × BuildResult → Prop where
  | nothing (hnot : ∀ entry session, ¬ node.Ready messageId ref entry session) :
      BuildStep node messageId ref now caller (node, .nothing)
  | error {entry : QueueEntry} {session : Session}
      (hready : node.Ready messageId ref entry session)
      (hrefused : ¬ session.Seals entry.plaintext) :
      BuildStep node messageId ref now caller (node.advance ref session, .error)
  | started {entry : QueueEntry} {session : Session} {packet : Packet}
      (hready : node.Ready messageId ref entry session)
      (hpacket : packet.payload.length = entry.plaintext.length + 32) :
      BuildStep node messageId ref now caller
        (node.dispatched messageId ref session now, .started
            (.updateSendSequence session.sessionId (session.sendSequence + 1))
            (.sequenceStored ⟨messageId, session.sessionId,
              session.sendSequence, packet, caller⟩))

theorem buildStep (P : Primitives) (node : Messaging) (messageId : MessageId)
    (ref : Nat) (now : ℚ) (caller : DispatchCaller) :
    BuildStep node messageId ref now caller
      (node.build P messageId ref now caller) := by
  unfold build
  cases hobj : node.registry.objects[ref]? with
  | none =>
    refine .nothing fun entry session hready => ?_
    cases hobj.symm.trans hready.object_eq
  | some session =>
    dsimp only
    rcases buildDataPacket_cases P node.queue messageId session now with
      ⟨hready, hbuild⟩ | ⟨entry, hget, hstatus, hend⟩
    · simp only [hbuild, update_self hobj]
      refine .nothing fun entry session hyes => ?_
      simp [readyPlaintext?, hyes.entry_eq, hyes.status_eq] at hready
    · rcases hend with ⟨_, hbuild⟩ | ⟨_, hseq, hpacket, hbuild⟩
      · simp only [hbuild]
        refine .error ⟨hget, hstatus, hobj⟩ fun hseals => ?_
        have hready : readyPlaintext? node.queue messageId =
            some entry.plaintext := by
          simp [readyPlaintext?, hget, hstatus]
        obtain ⟨_, -, hsuccess⟩ := buildDataPacket_of_ready P now hready
          hseals.keyed hseals.number hseals.encryptable
        cases congrArg BuildOutcome.result (hbuild.symm.trans hsuccess)
      · simp only [hbuild, hseq]
        exact .started ⟨hget, hstatus, hobj⟩ hpacket

end Build

/-- The ways a flush reaches its next await or its end: it skips what is no
longer queued and stops at the first message that is. -/
inductive FlushEnd (peerId : PeerId) (ref : Nat) (endpoint : Address) (now : ℚ)
    (node : Messaging) (ids : List MessageId) : Stretch → Prop where
  | finished (hnot : ∀ messageId ∈ ids, ∀ entry session,
        ¬ node.Ready messageId ref entry session) :
      FlushEnd peerId ref endpoint now node ids ⟨node, .done⟩
  | stopped {messageId : MessageId} {entry : QueueEntry} {session : Session}
      (hmem : messageId ∈ ids)
      (hready : node.Ready messageId ref entry session)
      (hrefused : ¬ session.Seals entry.plaintext) :
      FlushEnd peerId ref endpoint now node ids
        ⟨node.advance ref session, .raised peerId⟩
  | started {skipped rest : List MessageId} {messageId : MessageId}
      {entry : QueueEntry} {session : Session} {packet : Packet}
      (hids : ids = skipped ++ messageId :: rest)
      (hnot : ∀ other ∈ skipped, ∀ entry session,
        ¬ node.Ready other ref entry session)
      (hready : node.Ready messageId ref entry session)
      (hpacket : packet.payload.length = entry.plaintext.length + 32) :
      FlushEnd peerId ref endpoint now node ids
        ⟨node.dispatched messageId ref session now,
          firstWrite messageId session packet (.flush peerId ref endpoint rest)⟩

variable (P : Primitives)

theorem flushEnd (peerId : PeerId) (ref : Nat) (endpoint : Address) (now : ℚ)
    (node : Messaging) (ids : List MessageId) :
    FlushEnd peerId ref endpoint now node ids
      (flushWalk P peerId ref endpoint now node ids) := by
  induction ids with
  | nil => exact .finished (by simp)
  | cons messageId rest ih =>
    have hbuild := buildStep P node messageId ref now
      (.flush peerId ref endpoint rest)
    simp only [flushWalk]
    generalize node.build P messageId ref now
      (.flush peerId ref endpoint rest) = result at hbuild ⊢
    cases hbuild with
    | nothing hnot =>
      -- The node is as before, so the tail decides.
      dsimp only
      generalize flushWalk P peerId ref endpoint now node rest = stretch at ih ⊢
      cases ih with
      | finished hrest =>
        exact .finished (forall_mem_cons.mpr ⟨hnot, hrest⟩)
      | stopped hmem hready hrefused =>
        exact .stopped (mem_cons_of_mem _ hmem) hready hrefused
      | started hids hskip hready hpacket =>
        exact .started (by rw [hids, cons_append])
          (forall_mem_cons.mpr ⟨hnot, hskip⟩) hready hpacket
    | error hready hrefused => exact .stopped mem_cons_self hready hrefused
    | started hready hpacket =>
      exact .started (nil_append _).symm (by simp) hready hpacket

variable (node : Messaging)

theorem get?_timeout (messageId other : MessageId) :
    OrderedDict.get? (node.timeout messageId).queue other =
      if messageId = other then
        (node.queue.get? other).map QueueEntry.timedOut
      else node.queue.get? other := by
  unfold timeout handleTimeout
  cases hget : node.queue.get? messageId with
  | none =>
    dsimp only
    split
    · next heq => rw [← heq, hget, map_none]
    · rfl
  | some => exact OrderedDict.get?_modify ..

/-- What the loop finds when it times a message out. -/
theorem handleTimeout_status {queue : QueueManager} {messageId : MessageId}
    {entry : QueueEntry} (hget : queue.get? messageId = some entry) :
    (queue.handleTimeout messageId).2 = entry.timedOut.status := by
  simp only [handleTimeout, hget]

/-- The peer cannot be sent to: no session, or no endpoint. -/
def Unreachable (node : Messaging) (peerId : PeerId) : Prop :=
  node.registry.getByPeerId peerId = none ∨ node.endpoints.get? peerId = none

/-- Induction over the walk of the retry loop.  A message that has gone, or
whose peer cannot be sent to, is passed over, and so is one whose resend
raises.  The walk pauses at a failed message and at one that is sent again. -/
theorem retryWalk_rule {P : Primitives} {now : ℚ}
    (inv : Messaging → List MessageId → Prop) (goal : Stretch → Prop)
    (hnil : ∀ node, inv node [] → goal ⟨node, .done⟩)
    (hgone : ∀ node messageId rest, inv node (messageId :: rest) →
      node.queue.get? messageId = none →
      inv (node.timeout messageId) rest)
    (hskip : ∀ node messageId rest entry, inv node (messageId :: rest) →
      node.queue.get? messageId = some entry →
      entry.timedOut.status = .queued →
      node.Unreachable entry.receiver → inv (node.timeout messageId) rest)
    (hfail : ∀ node messageId rest entry, inv node (messageId :: rest) →
      node.queue.get? messageId = some entry →
      entry.timedOut.status = .failed →
      goal ⟨node.timeout messageId,
        .write (.updateMessageStatus messageId "failed")
          (.failureStored rest)⟩)
    (herror : ∀ node messageId rest entry ref session,
      inv node (messageId :: rest) →
      node.registry.getByPeerId entry.receiver = some (ref, session) →
      (node.timeout messageId).Ready messageId ref entry session →
      inv (((node.timeout messageId).advance ref session).raise
        entry.receiver) rest)
    (hstart : ∀ node messageId rest entry ref session endpoint packet,
      inv node (messageId :: rest) →
      node.registry.getByPeerId entry.receiver = some (ref, session) →
      (node.timeout messageId).Ready messageId ref entry session →
      goal ⟨(node.timeout messageId).dispatched messageId ref session now,
        firstWrite messageId session packet
          (.retry entry.receiver endpoint rest)⟩)
    {node : Messaging} {ids : List MessageId} (hinv : inv node ids) :
    goal (retryWalk P now node ids) := by
  induction ids generalizing node with
  | nil => exact hnil node hinv
  | cons messageId rest ih =>
    simp only [retryWalk]
    cases hget : node.queue.get? messageId with
    | none =>
      have hgone' : OrderedDict.get? (node.timeout messageId).queue
          messageId = none := by
        rw [get?_timeout, if_pos rfl, hget, map_none]
      rw [hgone']
      exact ih (hgone node messageId rest hinv hget)
    | some entry =>
      have hnow : OrderedDict.get? (node.timeout messageId).queue
          messageId = some entry.timedOut := by
        rw [get?_timeout, if_pos rfl, hget, map_some]
      simp only [hnow, handleTimeout_status hget]
      rcases entry.timedOut_status with hstatus | hstatus
      · rw [hstatus]
        exact hfail node messageId rest entry hinv hget hstatus
      · rw [hstatus]
        dsimp only
        split
        · next ref session endpoint hsession hendpoint =>
          have hbuild := buildStep P (node.timeout messageId) messageId
            ref now (.retry entry.timedOut.receiver endpoint rest)
          have hobj := getByPeerId_eq_some hsession
          have hready : (node.timeout messageId).Ready messageId ref
              entry.timedOut session := ⟨hnow, hstatus, hobj.2⟩
          generalize (node.timeout messageId).build P messageId ref now
            (.retry entry.timedOut.receiver endpoint rest) = result
            at hbuild ⊢
          cases hbuild with
          | nothing hnot => exact absurd hready (hnot _ _)
          | error hfound =>
            cases hready.object_eq.symm.trans hfound.object_eq
            exact ih (herror node messageId rest _ ref session hinv
              hsession hready)
          | started hfound =>
            cases hready.object_eq.symm.trans hfound.object_eq
            exact hstart node messageId rest _ ref session endpoint _
              hinv hsession hready
        · next hnone =>
          refine ih (hskip node messageId rest entry hinv hget hstatus ?_)
          rw [← entry.timedOut_receiver]
          unfold Unreachable
          cases hsession :
              node.registry.getByPeerId entry.timedOut.receiver with
          | none => exact .inl rfl
          | some found =>
            cases hendpoint : node.endpoints.get? entry.timedOut.receiver with
            | none => exact .inr rfl
            | some endpoint =>
              exact absurd hendpoint (hnone found.1 found.2 endpoint hsession)

/-- A stretch itself neither issues anything nor resumes anybody. -/
structure Alone (node later : Messaging) : Prop where
  db_eq : later.db = node.db
  tasks_eq : later.tasks = node.tasks

theorem alone_flushWalk (peerId : PeerId)
    (ref : Nat) (endpoint : Address) (now : ℚ) (ids : List MessageId) :
    node.Alone (flushWalk P peerId ref endpoint now node ids).node := by
  have hend := flushEnd P peerId ref endpoint now node ids
  generalize flushWalk P peerId ref endpoint now node ids = stretch at hend ⊢
  cases hend <;> exact ⟨rfl, rfl⟩

theorem alone_retryWalk (now : ℚ) (ids : List MessageId) :
    node.Alone (retryWalk P now node ids).node := by
  refine retryWalk_rule (fun later _ => node.Alone later)
    (fun stretch => node.Alone stretch.node) ?_ ?_ ?_ ?_ ?_ ?_ ⟨rfl, rfl⟩
  · exact fun _ halone => halone
  · exact fun _ _ _ halone _ => ⟨halone.db_eq, halone.tasks_eq⟩
  · exact fun _ _ _ _ halone _ _ _ => ⟨halone.db_eq, halone.tasks_eq⟩
  · exact fun _ _ _ _ halone _ _ => ⟨halone.db_eq, halone.tasks_eq⟩
  · exact fun _ _ _ _ _ _ halone _ _ => ⟨halone.db_eq, halone.tasks_eq⟩
  · exact fun _ _ _ _ _ _ _ _ halone _ _ => ⟨halone.db_eq, halone.tasks_eq⟩

theorem alone_handle
    (call : MessagingCall) : node.Alone (node.handle P call).node := by
  cases call with
  | retryPass now =>
    simp only [handle]
    split
    · exact ⟨rfl, rfl⟩
    · exact alone_retryWalk P node now _
  | sendMessage | handleHello | handleHelloAck | handleData | handleAck
  | handleAppAck | handleSync | handlePeerDisconnect | setEndpoint
  | saveSession =>
    simp only [handle, registerSession]
    repeat' split
    all_goals exact ⟨rfl, rfl⟩

theorem alone_resumeWork (now : ℚ)
    (work : Work) : node.Alone (node.resumeWork P now work).node := by
  cases work with
  | enqueued peerId messageId session =>
    cases session with
    | none => exact ⟨rfl, rfl⟩
    | some ref =>
      have hbuild := buildStep P node messageId ref now (.send peerId)
      simp only [resumeWork]
      generalize node.build P messageId ref now (.send peerId) = result
        at hbuild ⊢
      cases hbuild <;> exact ⟨rfl, rfl⟩
  | statusStored dispatch =>
    simp only [resumeWork, afterDispatch]
    split
    · split <;> exact ⟨rfl, rfl⟩
    · split <;> exact ⟨rfl, rfl⟩
    · have halone := alone_flushWalk P (node.handOver dispatch)
      exact ⟨(halone ..).db_eq, (halone ..).tasks_eq⟩
    · exact ⟨rfl, rfl⟩
    · have halone := alone_retryWalk P (node.handOver dispatch)
      exact ⟨(halone ..).db_eq, (halone ..).tasks_eq⟩
    · next peerId _ _ _ _ _ =>
      have halone := alone_retryWalk P (node.raise peerId)
      exact ⟨(halone ..).db_eq, (halone ..).tasks_eq⟩
  | failureStored rest => exact alone_retryWalk P node now rest
  | heartbeat =>
    simp only [resumeWork, flushQueued]
    split
    · exact alone_flushWalk P node ..
    · exact ⟨rfl, rfl⟩
  | sequenceStored | numberStored | receiptStored | received | helloSaved
  | ackSaved | ackRemembered => exact ⟨rfl, rfl⟩

variable (stretch : Stretch)

theorem queue_settle : stretch.settle.queue = stretch.node.queue := by
  unfold Stretch.settle
  split <;> rfl

theorem registry_settle : stretch.settle.registry = stretch.node.registry := by
  unfold Stretch.settle
  split <;> rfl

theorem works_settle :
    stretch.settle.works = stretch.node.works ++ stretch.next.works := by
  obtain ⟨node, next⟩ := stretch
  cases next <;> simp [Stretch.settle, works, Next.works, raise]

/-- The ways a resumption goes. -/
inductive ResumeStep (P : Primitives) (node : Messaging) (index : Nat)
    (now : ℚ) : Messaging → Prop where
  | idle : ResumeStep P node index now node
  | commit {ticket : Nat} {work : Work}
      (htask : node.tasks[index]? = some ⟨.executing ticket, work⟩)
      (hdone : ticket < node.db.executed) :
      ResumeStep P node index now { node with
          db := node.db.issue .commit
          tasks := node.tasks.set index ⟨.committing node.db.ops.length, work⟩ }
  | run {task : MessagingTask} (htask : node.tasks[index]? = some task)
      (hover : task.await.Over node.db.executed) :
      ResumeStep P node index now
        (resumeWork P { node with tasks := node.tasks.eraseIdx index } now
          task.work).settle

theorem resumeStep (index : Nat)
    (now : ℚ) : ResumeStep P node index now (node.resume P index now) := by
  unfold resume
  cases htask : node.tasks[index]? with
  | none => exact .idle
  | some task =>
    obtain ⟨await, _⟩ := task
    cases await with
    | executing =>
      dsimp only
      split
      · next hdone => exact .commit htask hdone
      · exact .idle
    | committing ticket =>
      dsimp only
      split
      · next hdone => exact .run htask (.inr ⟨ticket, hdone, rfl⟩)
      · exact .idle
    | free => exact .run htask (.inl rfl)

/-- A commit changes what a coroutine waits for, not what it has to do. -/
theorem works_commit {tasks : List MessagingTask} {index : Nat} {await : Await}
    {work : Work} (htask : tasks[index]? = some ⟨await, work⟩) (next : Await) :
    (tasks.set index ⟨next, work⟩).map MessagingTask.work =
      tasks.map MessagingTask.work := by
  obtain ⟨hlt, htask⟩ := List.getElem?_eq_some_iff.mp htask
  have hself := congrArg (map MessagingTask.work) (set_getElem_self hlt)
  rw [map_set, htask] at hself
  rw [map_set, hself]

/-- The work of the coroutine that is resumed, and the rest. -/
theorem works_perm {tasks : List MessagingTask} {index : Nat}
    {task : MessagingTask} (htask : tasks[index]? = some task) :
    (task.work :: (tasks.eraseIdx index).map MessagingTask.work).Perm
      (tasks.map MessagingTask.work) := by
  obtain ⟨hlt, rfl⟩ := List.getElem?_eq_some_iff.mp htask
  exact (getElem_cons_eraseIdx_perm hlt).map MessagingTask.work

end Messaging

namespace MessagingWitness

open Reference

def peer : PeerId := (constant 32 7).1

def keys : SessionKeys where
  encryptionKey := (constant 32 1).1
  sessionId := (constant 8 2).1
  remotePeerId := peer
  remotePublicKeyBytes := (constant 32 3).1

/-- The connection and the coroutine at `index` get through one storage call. -/
def storageCall (index : Nat) (now : ℚ) : List MessagingEvent :=
  [.execute, .resume index now, .execute, .resume index now]

/-- A session is established; there is nothing to flush yet. -/
def opening : List MessagingEvent :=
  [.call (.setEndpoint peer ("10.0.0.2", 9000)), .call (.handleHello keys)] ++
    storageCall 0 0 ++ [.resume 0 0]

/-- The three writes of a dispatch, by the coroutine at `index`. -/
def dispatching (index : Nat) (now : ℚ) : List MessagingEvent :=
  storageCall index now ++ storageCall index now ++ storageCall index now

/-- One `send_message` from beginning to end. -/
def sending (messageId : MessageId) : List MessagingEvent :=
  .call (.sendMessage peer messageId [104, 105]) ::
    (storageCall 0 0 ++ dispatching 0 0)

/-- Two messages go out under the first two numbers of the session. -/
example : (run (Messaging.step primitives) {}
      (opening ++ sending 1 ++ sending 2)).sent =
    [(keys.sessionId, 1), (keys.sessionId, 2)] := by
  decide +kernel

end MessagingWitness

end AshiChat
