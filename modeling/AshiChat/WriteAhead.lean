/-
Sequence numbers are written ahead.  Whenever the process may die, the
`sessions` row on disk covers every number that has left the node: the send
counter is above the number of each DATA packet handed over, the receive
counter has reached each number acknowledged.
-/
import AshiChat.MessagingMoves

namespace AshiChat

open QueueManager EventRun Connection OrderedDict SessionRegistry Tables Option
  Nat

/-- A number that a row has to cover: of a packet to send, or of one received
and to be acknowledged. -/
inductive Mark where
  | sent (sessionId : Bytes) (seq : Nat)
  | received (sessionId : Bytes) (seq : Nat)

namespace Mark

def sessionId : Mark → Bytes
  | .sent sessionId _ | .received sessionId _ => sessionId

/-- Counters that cover the number. -/
def Covered : Mark → Nat → Nat → Prop
  | .sent _ seq, sendSequence, _ => seq < sendSequence
  | .received _ seq, _, recvSequence => seq ≤ recvSequence

theorem Covered.mono {mark : Mark} {send recv send' recv' : Nat}
    (hcovered : mark.Covered send recv) (hsend : send ≤ send')
    (hrecv : recv ≤ recv') : mark.Covered send' recv' := by
  cases mark with
  | sent => exact Nat.lt_of_lt_of_le hcovered hsend
  | received => exact Nat.le_trans hcovered hrecv

/-- The row of the session covers the number. -/
def InRow (mark : Mark) (tables : Tables) : Prop :=
  ∃ row, tables.sessions.get? mark.sessionId = some row ∧
    mark.Covered row.sendSequence row.recvSequence

/-- So do all objects of the session. -/
def InObjects (mark : Mark) (objects : List Session) : Prop :=
  ∀ session ∈ objects, session.sessionId = mark.sessionId →
    mark.Covered session.sendSequence session.recvSequence

end Mark

/-- The statement stores counters as an object has them now. -/
def Statement.Current (objects : List Session) : Statement → Prop
  | .saveSessionState session => session ∈ objects
  | .updateSendSequence sessionId seq =>
    ∃ session ∈ objects, session.sessionId = sessionId ∧
      session.sendSequence = seq
  | .updateRecvSequence sessionId seq =>
    ∃ session ∈ objects, session.sessionId = sessionId ∧
      session.recvSequence = seq
  | _ => True

theorem Tables.get?_modifySession (tables : Tables) (sessionId other : Bytes)
    (change : SessionRecord → SessionRecord) :
    (tables.modifySession sessionId change).sessions.get? other =
      if sessionId = other then (tables.sessions.get? other).map change
      else tables.sessions.get? other :=
  get?_modify ..

variable {tables : Tables} {mark : Mark}
  {change : SessionRecord → SessionRecord} {sessionId : Bytes}

/-- An update that covers a number in its own row. -/
theorem Mark.inRow_modifySession {row : SessionRecord}
    (hget : tables.sessions.get? mark.sessionId = some row)
    (hcovered : mark.Covered (change row).sendSequence
      (change row).recvSequence) :
    mark.InRow (tables.modifySession mark.sessionId change) := by
  refine ⟨change row, ?_, hcovered⟩
  rw [get?_modifySession, if_pos rfl, hget, map_some]

/-- An update that does not uncover the number. -/
theorem Mark.InRow.modifySession (hrow : mark.InRow tables)
    (hchange : ∀ row, sessionId = mark.sessionId →
      mark.Covered row.sendSequence row.recvSequence →
      mark.Covered (change row).sendSequence (change row).recvSequence) :
    mark.InRow (tables.modifySession sessionId change) := by
  obtain ⟨row, hget, hcovered⟩ := hrow
  by_cases hid : sessionId = mark.sessionId
  · subst hid
    exact Mark.inRow_modifySession hget (hchange row rfl hcovered)
  · refine ⟨row, ?_, hcovered⟩
    rw [get?_modifySession, if_neg hid, hget]

/-- Rows of sessions stay. -/
theorem Tables.contains_apply
    (hrow : tables.sessions.contains sessionId = true) (statement : Statement) :
    (tables.apply statement).sessions.contains sessionId = true := by
  obtain ⟨row, hget⟩ := (contains_iff _ _).mp hrow
  rw [contains_iff]
  cases statement with
  | enqueueMessage | updateMessageSequence | updateMessageStatus
  | rememberEndpoint => exact ⟨row, hget⟩
  | saveSessionState =>
    simp only [apply, get?_set]
    split
    · exact ⟨_, rfl⟩
    · exact ⟨row, hget⟩
  | updateSendSequence | updateRecvSequence =>
    simp only [apply, get?_modifySession, hget]
    split
    · exact ⟨_, rfl⟩
    · exact ⟨row, rfl⟩

/-- A row that covers a number is not overwritten by one that does not. -/
theorem Mark.InRow.apply {objects : List Session} {statement : Statement}
    (hrow : mark.InRow tables) (hobjects : mark.InObjects objects)
    (hcurrent : statement.Current objects) :
    mark.InRow (tables.apply statement) := by
  cases statement with
  | enqueueMessage | updateMessageSequence | updateMessageStatus
  | rememberEndpoint => exact hrow
  | saveSessionState session =>
    obtain ⟨row, hget, hcovered⟩ := hrow
    by_cases hid : session.sessionId = mark.sessionId
    · refine ⟨⟨session.remotePeerId, session.sendSequence,
        session.recvSequence⟩, ?_, hobjects session hcurrent hid⟩
      simp [Tables.apply, hid]
    · refine ⟨row, ?_, hcovered⟩
      simp [Tables.apply, get?_set, hid, hget]
  | updateSendSequence =>
    obtain ⟨session, hmem, rfl, rfl⟩ := hcurrent
    refine hrow.modifySession fun row hid hcovered => ?_
    have hnew := hobjects session hmem hid
    cases mark with
    | sent => exact hnew
    | received => exact hcovered
  | updateRecvSequence =>
    obtain ⟨session, hmem, rfl, rfl⟩ := hcurrent
    refine hrow.modifySession fun row hid hcovered => ?_
    have hnew := hobjects session hmem hid
    cases mark with
    | sent => exact hcovered
    | received => exact hnew

/-- The number a coroutine is going to hand over. -/
def Work.mark? : Work → Option Mark
  | .sequenceStored dispatch | .numberStored dispatch
  | .statusStored dispatch => some (.sent dispatch.sessionId dispatch.seq)
  | .received sessionId seq => some (.received sessionId seq)
  | _ => none

/-- The coroutine is at the write of the counter itself. -/
def Work.writing : Work → Bool
  | .sequenceStored _ | .received .. => true
  | _ => false

/-- How far the write of a counter is: the rows cover the number from its
statement on, and the commit comes later. -/
def Mark.Written (mark : Mark) (db : Connection Tables Statement) : Await → Prop
  | .executing ticket =>
    ticket < db.ops.length ∧ HoldsFrom apply mark.InRow db (ticket + 1)
  | .committing ticket =>
    db.ops[ticket]? = some .commit ∧
      ∃ start ≤ ticket, HoldsFrom apply mark.InRow db start
  | .free => False

/-- What a crash leaves covers the number. -/
def Mark.Safe (mark : Mark) (db : Connection Tables Statement) : Prop :=
  Secured apply mark.InRow db

def MessagingTask.Keeps (task : MessagingTask)
    (db : Connection Tables Statement) (mark : Mark) : Prop :=
  if task.work.writing then mark.Written db task.await else mark.Safe db

namespace Mark

variable {mark : Mark} {db : Connection Tables Statement} {await : Await}

section

variable (hwritten : mark.Written db await)

include hwritten

theorem Written.issued : mark.InRow (db.issued apply) := by
  cases await with
  | executing => exact hwritten.2 _ hwritten.1 le_rfl
  | committing =>
    obtain ⟨hcommit, _, hstart, hfrom⟩ := hwritten
    have hlt := (List.getElem?_eq_some_iff.mp hcommit).1
    exact hfrom _ (hstart.trans hlt.le) le_rfl
  | free => exact hwritten.elim

theorem Written.issue {op : DbOp Statement}
    (hop : mark.InRow (perform apply (db.issued apply) op)) :
    mark.Written (db.issue op) await := by
  cases await with
  | executing =>
    refine ⟨?_, hwritten.2.issue hop⟩
    simp only [issue, List.length_append, List.length_singleton]
    exact lt_succ_of_lt hwritten.1
  | committing =>
    obtain ⟨hcommit, start, hstart, hfrom⟩ := hwritten
    exact ⟨getElem?_issue.mpr (.inl hcommit), start, hstart, hfrom.issue hop⟩
  | free => exact hwritten

theorem Written.execute : mark.Written db.execute await := by
  cases await with
  | executing => exact ⟨by simpa using hwritten.1, hwritten.2.execute⟩
  | committing =>
    obtain ⟨hcommit, start, hstart, hfrom⟩ := hwritten
    exact ⟨by simpa using hcommit, start, hstart, hfrom.execute⟩
  | free => exact hwritten

/-- Once the coroutine can go on, the number is covered for good. -/
theorem Written.safe (hover : await.Over db.executed) : mark.Safe db := by
  rcases hover with rfl | ⟨_, hdone, rfl⟩
  · exact hwritten.elim
  · obtain ⟨hcommit, _, hstart, hfrom⟩ := hwritten
    exact hfrom.secured hstart hdone hcommit

end

end Mark

namespace MessagingTask.Keeps

variable {task : MessagingTask} {db : Connection Tables Statement} {mark : Mark}

section

variable (hkeeps : task.Keeps db mark)

include hkeeps

theorem issued : mark.InRow (db.issued apply) := by
  unfold Keeps at hkeeps
  split at hkeeps
  · exact hkeeps.issued
  · exact Secured.issued hkeeps

theorem issue {op : DbOp Statement}
    (hop : mark.InRow (perform apply (db.issued apply) op)) :
    task.Keeps (db.issue op) mark := by
  unfold Keeps at hkeeps ⊢
  split
  · next hwriting =>
    rw [if_pos hwriting] at hkeeps
    exact hkeeps.issue hop
  · next hwriting =>
    rw [if_neg hwriting] at hkeeps
    exact Secured.issue hkeeps hop

theorem execute : task.Keeps db.execute mark := by
  unfold Keeps at hkeeps ⊢
  split
  · next hwriting =>
    rw [if_pos hwriting] at hkeeps
    exact hkeeps.execute
  · next hwriting =>
    rw [if_neg hwriting] at hkeeps
    exact Secured.execute hkeeps

theorem safe (hover : task.await.Over db.executed) : mark.Safe db := by
  unfold Keeps at hkeeps
  split at hkeeps
  · exact hkeeps.safe hover
  · exact hkeeps

end

end MessagingTask.Keeps

namespace Messaging

/-- The numbers handed to the transport. -/
def handed (node : Messaging) : List Mark :=
  node.sent.map (fun packet => .sent packet.1 packet.2) ++
    node.acked.map (fun ack => .received ack.1 ack.2)

/-- A number that is out or on its way. -/
def Held (node : Messaging) (mark : Mark) : Prop := mark ∈ node.handed ∨
    ∃ task ∈ node.tasks, task.work.mark? = some mark

/-- The invariant.  All numbers held are below the counters of their session's
only object, so no later write can take them back. -/
structure Ahead (node : Messaging) : Prop where
  handed : ∀ mark ∈ node.handed, mark.Safe node.db
  waiting : ∀ task ∈ node.tasks, ∀ mark, task.work.mark? = some mark →
    task.Keeps node.db mark
  covered : ∀ mark, node.Held mark → mark.InObjects node.registry.objects
  stored : ∀ session ∈ node.registry.objects,
    node.stored.sessions.contains session.sessionId = true
  unique : (node.registry.objects.map Session.sessionId).Nodup
  indexed : node.registry.Indexed

variable {P : Primitives} {node node' : Messaging} {mark : Mark}

/-- Queue, outbox, endpoints and floors play no part. -/
theorem Ahead.of_same (hahead : node.Ahead) (hdb : node'.db = node.db)
    (htasks : node'.tasks = node.tasks) (hsent : node'.sent = node.sent)
    (hacked : node'.acked = node.acked)
    (hregistry : node'.registry = node.registry) : node'.Ahead := by
  have hhanded : node'.handed = node.handed := by
    simp only [Messaging.handed, hsent, hacked]
  constructor
  · rw [hhanded, hdb]
    exact hahead.handed
  · rw [htasks, hdb]
    exact hahead.waiting
  · intro mark hheld
    rw [Held, hhanded, htasks] at hheld
    rw [hregistry]
    exact hahead.covered mark hheld
  · simp only [Messaging.stored, hregistry, hdb]
    exact hahead.stored
  · rw [hregistry]
    exact hahead.unique
  · rw [hregistry]
    exact hahead.indexed

/-- Every number held is covered by the rows as they will be. -/
theorem Ahead.inRow (hahead : node.Ahead) (hheld : node.Held mark) :
    mark.InRow node.stored := by
  rcases hheld with hmem | ⟨task, hmem, hmark⟩
  · exact (hahead.handed mark hmem).issued
  · exact (hahead.waiting task hmem mark hmark).issued

variable {work : Work} {ref seq : Nat} {session old : Session}
  {statement : Statement}

/-- A counter of one object moves on. -/
theorem Ahead.update (hahead : node.Ahead)
    (hobj : node.registry.objects[ref]? = some old)
    (hid : session.sessionId = old.sessionId)
    (hsend : old.sendSequence ≤ session.sendSequence)
    (hrecv : old.recvSequence ≤ session.recvSequence) :
    Ahead { node with registry := node.registry.update ref session } where
  handed := hahead.handed
  waiting := hahead.waiting
  covered := by
    intro mark hheld object hmem hsame
    rcases mem_objects_update hmem with hold | rfl
    · exact hahead.covered mark hheld object hold hsame
    · exact (hahead.covered mark hheld old (List.mem_of_getElem? hobj)
        (hid.symm.trans hsame)).mono hsend hrecv
  stored := by
    intro object hmem
    rcases mem_objects_update hmem with hold | rfl
    · exact hahead.stored object hold
    · rw [hid]
      exact hahead.stored old (List.mem_of_getElem? hobj)
  unique := by
    obtain ⟨hlt, rfl⟩ := List.getElem?_eq_some_iff.mp hobj
    have hself := congrArg (List.map Session.sessionId)
      (List.set_getElem_self hlt)
    have hids : (node.registry.objects.set ref session).map
        Session.sessionId = node.registry.objects.map Session.sessionId := by
      rw [List.map_set] at hself ⊢
      rw [hid, hself]
    exact hids ▸ hahead.unique
  indexed := hahead.indexed.update hobj hid

/-- The object of a session is the one that was changed. -/
theorem Ahead.inObjects_update (hahead : node.Ahead)
    (hobj : node.registry.objects[ref]? = some old)
    (hid : session.sessionId = old.sessionId)
    (hsession : mark.sessionId = session.sessionId)
    (hcovered : mark.Covered session.sendSequence session.recvSequence) :
    mark.InObjects (node.registry.update ref session).objects := by
  intro object hmem hsame
  obtain ⟨index, hindex⟩ := List.mem_iff_getElem?.mp hmem
  by_cases href : ref = index
  · subst href
    simp only [SessionRegistry.update] at hindex
    rw [List.getElem?_set_self (List.getElem?_eq_some_iff.mp hobj).1,
      some.injEq] at hindex
    exact hindex ▸ hcovered
  · -- Another object with this id cannot be.
    simp only [SessionRegistry.update, List.getElem?_set_ne href] at hindex
    have hleft : (node.registry.objects.map Session.sessionId)[ref]? =
        some mark.sessionId := by
      rw [List.getElem?_map, hobj, map_some, ← hid, hsession]
    have hright : (node.registry.objects.map Session.sessionId)[index]? =
        some mark.sessionId := by
      rw [List.getElem?_map, hindex, map_some, hsame]
    exact absurd ((List.getElem?_inj
      (List.getElem?_eq_some_iff.mp hleft).1 hahead.unique).mp
        (hleft.trans hright.symm)) href

/-- The numbers held once a coroutine is added. -/
theorem Held.of_append (hheld : node'.Held mark) {await : Await}
    (htasks : node'.tasks = node.tasks ++ [⟨await, work⟩])
    (hhanded : node'.handed = node.handed) :
    node.Held mark ∨ work.mark? = some mark := by
  rcases hheld with hmem | ⟨task, hmem, hwork⟩
  · exact .inl (.inl (hhanded ▸ hmem))
  · rw [htasks] at hmem
    rcases List.mem_append.mp hmem with hold | hnew
    · exact .inl (.inr ⟨task, hold, hwork⟩)
    · obtain rfl := List.mem_singleton.mp hnew
      exact .inr hwork

section

variable (hahead : node.Ahead)

include hahead

/-- A write of the current counters, after a change of the registry that keeps
all numbers covered.  The coroutine behind it may hold a number that the write
covers. -/
theorem Ahead.write_with {registry : SessionRegistry}
    (hcovered : ∀ mark, node.Held mark → mark.InObjects registry.objects)
    (hcurrent : statement.Current registry.objects)
    (hstored : ∀ session ∈ registry.objects,
      (node.stored.apply statement).sessions.contains session.sessionId = true)
    (hunique : (registry.objects.map Session.sessionId).Nodup)
    (hindexed : registry.Indexed)
    (hobjects : ∀ mark, work.mark? = some mark →
      mark.InObjects registry.objects)
    (hmark : ∀ mark, work.mark? = some mark →
      if work.writing then mark.InRow (node.stored.apply statement)
      else mark.Safe node.db) :
    (Stretch.settle ⟨{ node with registry := registry },
      .write statement work⟩).Ahead := by
  have hkept : ∀ mark, node.Held mark → mark.InRow
      (perform apply node.stored (.statement statement)) :=
    fun mark hheld =>
      (hahead.inRow hheld).apply (hcovered mark hheld) hcurrent
  constructor
  · intro mark hmem
    exact (hahead.handed mark hmem).issue (hkept mark (.inl hmem))
  · intro task hmem mark hwork
    rcases List.mem_append.mp hmem with hold | hnew
    · exact (hahead.waiting task hold mark hwork).issue
        (hkept mark (.inr ⟨task, hold, hwork⟩))
    · obtain rfl := List.mem_singleton.mp hnew
      have hrow := hmark mark hwork
      unfold MessagingTask.Keeps
      dsimp only at hwork ⊢
      split
      · next hwriting =>
        rw [if_pos hwriting] at hrow
        refine ⟨?_, holdsFrom_issue hrow⟩
        simp [Stretch.settle, issue]
      · next hwriting =>
        rw [if_neg hwriting] at hrow
        exact Secured.issue hrow
          ((Secured.issued hrow).apply (hobjects mark hwork) hcurrent)
  · intro mark hheld
    have hheld : node.Held mark ∨ work.mark? = some mark :=
      hheld.of_append rfl rfl
    exact hheld.elim (hcovered mark) (hobjects mark)
  · simp only [Stretch.settle, Messaging.stored, issued_issue, perform]
    exact hstored
  · exact hunique
  · exact hindexed

theorem Ahead.write (hcurrent : statement.Current node.registry.objects)
    (hobjects : ∀ mark, work.mark? = some mark →
      mark.InObjects node.registry.objects)
    (hmark : ∀ mark, work.mark? = some mark →
      if work.writing then mark.InRow (node.stored.apply statement)
      else mark.Safe node.db) :
    (Stretch.settle ⟨node, .write statement work⟩).Ahead :=
  hahead.write_with hahead.covered hcurrent (fun session hmem =>
      contains_apply (hahead.stored session hmem) statement)
    hahead.unique hahead.indexed hobjects hmark

/-- Writes that do not touch the counters. -/
theorem Ahead.write_other (hcurrent : statement.Current node.registry.objects)
    (hnone : work.mark? = none) :
    (Stretch.settle ⟨node, .write statement work⟩).Ahead := by
  apply hahead.write hcurrent
  · intro mark hmark
    cases hnone.symm.trans hmark
  · intro mark hmark
    cases hnone.symm.trans hmark

theorem Ahead.pause (hnone : work.mark? = none) :
    (Stretch.settle ⟨node, .pause work⟩).Ahead where
  handed := hahead.handed
  waiting := by
    intro task hmem mark hwork
    rcases List.mem_append.mp hmem with hold | hnew
    · exact hahead.waiting task hold mark hwork
    · obtain rfl := List.mem_singleton.mp hnew
      cases hnone.symm.trans hwork
  covered := by
    intro mark hheld
    have hheld : node.Held mark ∨ work.mark? = some mark :=
      hheld.of_append rfl rfl
    rcases hheld with hold | hwork
    · exact hahead.covered mark hold
    · cases hnone.symm.trans hwork
  stored := hahead.stored
  unique := hahead.unique
  indexed := hahead.indexed

theorem Ahead.advance (hobj : node.registry.objects[ref]? = some session) :
    (node.advance ref session).Ahead :=
  hahead.update hobj rfl (le_succ _) le_rfl

/-- A build and the write of the counter after it. -/
theorem Ahead.dispatched {messageId : MessageId}
    (hobj : node.registry.objects[ref]? = some session) (now : ℚ)
    (packet : Packet) (caller : DispatchCaller) :
    (Stretch.settle ⟨node.dispatched messageId ref session now,
      firstWrite messageId session packet caller⟩).Ahead := by
  have hnext : (node.dispatched messageId ref session now).Ahead :=
    (hahead.advance hobj).of_same rfl rfl rfl rfl rfl
  have hlt := (List.getElem?_eq_some_iff.mp hobj).1
  have hmem : session.nextSequence.2 ∈
      (node.dispatched messageId ref session now).registry.objects :=
    List.mem_of_getElem? (List.getElem?_set_self hlt)
  refine hnext.write ⟨_, hmem, rfl, rfl⟩ ?_ ?_
  · rintro mark ⟨⟩
    exact hahead.inObjects_update hobj rfl rfl (lt_succ_self _)
  · rintro mark ⟨⟩
    have hrow := hahead.stored session (List.mem_of_getElem? hobj)
    obtain ⟨_, hrow⟩ := (contains_iff _ _).mp hrow
    simp only [Work.writing, ↓reduceIte, apply]
    exact Mark.inRow_modifySession hrow (lt_succ_self _)

theorem Ahead.flushWalk (peerId : PeerId) (ref : Nat)
    (endpoint : Address) (now : ℚ) (ids : List MessageId) :
    (flushWalk P peerId ref endpoint now node ids).settle.Ahead := by
  have hend := flushEnd P peerId ref endpoint now node ids
  generalize Messaging.flushWalk P peerId ref endpoint now node ids = stretch
    at hend ⊢
  cases hend with
  | finished => exact hahead
  | stopped _ hready =>
    exact (hahead.advance hready.object_eq).of_same rfl rfl rfl rfl rfl
  | started _ _ hready => exact hahead.dispatched hready.object_eq now _ _

theorem Ahead.retryWalk (now : ℚ)
    (ids : List MessageId) : (retryWalk P now node ids).settle.Ahead := by
  have htimeout : ∀ (node : Messaging) (messageId : MessageId), node.Ahead →
      (node.timeout messageId).Ahead :=
    fun _ _ hahead => hahead.of_same rfl rfl rfl rfl rfl
  refine retryWalk_rule (fun node _ => node.Ahead)
    (fun stretch => stretch.settle.Ahead) ?_ ?_ ?_ ?_ ?_ ?_ hahead
  · exact fun _ hahead => hahead
  · exact fun _ _ _ hahead _ => htimeout _ _ hahead
  · exact fun _ _ _ _ hahead _ _ _ => htimeout _ _ hahead
  · intro node messageId rest entry hahead _ _
    exact (htimeout node messageId hahead).write_other trivial rfl
  · intro node messageId rest entry ref session hahead _ hready
    exact ((htimeout node messageId hahead).advance hready.object_eq).of_same
      rfl rfl rfl rfl rfl
  · intro node messageId rest entry ref session endpoint packet hahead _ hready
    exact (htimeout node messageId hahead).dispatched hready.object_eq now _ _

/-- A number that is covered for good may leave. -/
theorem Ahead.hand {sent acked : List (Bytes × Nat)}
    (hnew : ∀ mark ∈ Messaging.handed
        { node with sent := sent, acked := acked },
      mark ∈ node.handed ∨
        (mark.Safe node.db ∧ mark.InObjects node.registry.objects)) :
    Ahead { node with sent := sent, acked := acked } where
  handed := by
    intro mark hmem
    rcases hnew mark hmem with hold | ⟨hsafe, _⟩
    · exact hahead.handed mark hold
    · exact hsafe
  waiting := hahead.waiting
  covered := by
    rintro mark (hmem | htask)
    · rcases hnew mark hmem with hold | ⟨_, hobjects⟩
      · exact hahead.covered mark (.inl hold)
      · exact hobjects
    · exact hahead.covered mark (.inr htask)
  stored := hahead.stored
  unique := hahead.unique
  indexed := hahead.indexed

theorem Ahead.handOver {dispatch : Dispatch}
    (hsafe : (Mark.sent dispatch.sessionId dispatch.seq).Safe node.db)
    (hobjects : (Mark.sent dispatch.sessionId dispatch.seq).InObjects
      node.registry.objects) : (node.handOver dispatch).Ahead := by
  apply hahead.hand
  intro mark hmem
  simp only [Messaging.handed, List.map_append, List.mem_append,
    List.map_cons, List.map_nil, List.mem_singleton] at hmem ⊢
  rcases hmem with (hold | rfl) | hold
  · exact .inl (.inl hold)
  · exact .inr ⟨hsafe, hobjects⟩
  · exact .inl (.inr hold)

theorem Ahead.acknowledge {sessionId : Bytes}
    (hsafe : (Mark.received sessionId seq).Safe node.db)
    (hobjects : (Mark.received sessionId seq).InObjects node.registry.objects) :
    Ahead { node with acked := node.acked ++ [(sessionId, seq)] } := by
  apply hahead.hand
  intro mark hmem
  simp only [Messaging.handed, List.map_append, List.mem_append,
    List.map_cons, List.map_nil, List.mem_singleton] at hmem ⊢
  rcases hmem with hold | hold | rfl
  · exact .inl (.inl hold)
  · exact .inl (.inr hold)
  · exact .inr ⟨hsafe, hobjects⟩

/-- A coroutine goes on; its own number is covered for good by now. -/
theorem Ahead.resumeWork (now : ℚ)
    (hsafe : ∀ mark, work.mark? = some mark → mark.Safe node.db)
    (hobjects : ∀ mark, work.mark? = some mark →
      mark.InObjects node.registry.objects) :
    (node.resumeWork P now work).settle.Ahead := by
  cases work with
  | enqueued peerId messageId session =>
    cases session with
    | none => exact hahead
    | some ref =>
      have hbuild := buildStep P node messageId ref now (.send peerId)
      simp only [Messaging.resumeWork]
      generalize node.build P messageId ref now (.send peerId) = result
        at hbuild ⊢
      cases hbuild with
      | nothing => exact hahead
      | error hready =>
        exact (hahead.advance hready.object_eq).of_same rfl rfl rfl rfl rfl
      | started hready => exact hahead.dispatched hready.object_eq now _ _
  | sequenceStored | numberStored =>
    exact hahead.write trivial hobjects (fun mark hmark => hsafe mark hmark)
  | statusStored =>
    have hhand := hahead.handOver (hsafe _ rfl) (hobjects _ rfl)
    simp only [Messaging.resumeWork, afterDispatch]
    split
    · split
      · exact hhand
      · exact hahead
    · split
      · exact hahead.of_same rfl rfl rfl rfl rfl
      · exact hahead
    · exact hhand.flushWalk _ _ _ now _
    · exact hahead.of_same rfl rfl rfl rfl rfl
    · exact hhand.retryWalk now _
    · next peerId _ rest _ _ _ =>
      have hraised : (node.raise peerId).Ahead :=
        hahead.of_same rfl rfl rfl rfl rfl
      exact hraised.retryWalk now rest
  | failureStored rest => exact hahead.retryWalk now rest
  | receiptStored => exact hahead
  | received =>
    exact hahead.acknowledge (hsafe _ rfl) (hobjects _ rfl)
  | helloSaved => exact hahead.pause rfl
  | ackSaved => exact hahead.write_other trivial rfl
  | ackRemembered peerId addr =>
    exact (hahead.of_same rfl rfl rfl rfl rfl :
      Ahead { node with endpoints := node.endpoints.set peerId addr }).pause rfl
  | heartbeat =>
    simp only [Messaging.resumeWork, flushQueued]
    split
    · exact hahead.flushWalk _ _ _ now _
    · exact hahead

theorem Ahead.without (index : Nat) :
    Ahead { node with tasks := node.tasks.eraseIdx index } where
  handed := hahead.handed
  waiting := fun task hmem =>
    hahead.waiting task (List.mem_of_mem_eraseIdx hmem)
  covered := by
    rintro mark (hmem | ⟨task, hmem, hmark⟩)
    · exact hahead.covered mark (.inl hmem)
    · exact hahead.covered mark
        (.inr ⟨task, List.mem_of_mem_eraseIdx hmem, hmark⟩)
  stored := hahead.stored
  unique := hahead.unique
  indexed := hahead.indexed

/-- The commit of a storage call. -/
theorem Ahead.commit {index ticket : Nat}
    (htask : node.tasks[index]? = some ⟨.executing ticket, work⟩) :
    Ahead { node with
      db := node.db.issue .commit
      tasks := node.tasks.set index
        ⟨.committing node.db.ops.length, work⟩ } := by
  have hmem := List.mem_of_getElem? htask
  constructor
  · intro mark hmark
    exact (hahead.handed mark hmark).issue (hahead.inRow (.inl hmark))
  · intro task htasks mark hwork
    rcases List.mem_or_eq_of_mem_set htasks with hold | rfl
    · exact (hahead.waiting task hold mark hwork).issue
        (hahead.inRow (.inr ⟨task, hold, hwork⟩))
    · have hkeeps := hahead.waiting _ hmem mark hwork
      have hop := hahead.inRow (.inr ⟨_, hmem, hwork⟩)
      unfold MessagingTask.Keeps at hkeeps ⊢
      dsimp only at hkeeps ⊢
      split
      · next hwriting =>
        rw [if_pos hwriting] at hkeeps
        exact ⟨by simp [issue], ticket + 1, hkeeps.1, hkeeps.2.issue hop⟩
      · next hwriting =>
        rw [if_neg hwriting] at hkeeps
        exact Secured.issue hkeeps hop
  · rintro mark (hmark | ⟨task, htasks, hwork⟩)
    · exact hahead.covered mark (.inl hmark)
    · rcases List.mem_or_eq_of_mem_set htasks with hold | rfl
      · exact hahead.covered mark (.inr ⟨task, hold, hwork⟩)
      · exact hahead.covered mark (.inr ⟨_, hmem, hwork⟩)
  · simp only [Messaging.stored, issued_issue, perform]
    exact hahead.stored
  · exact hahead.unique
  · exact hahead.indexed

theorem Ahead.resume (index : Nat) (now : ℚ) :
    (node.resume P index now).Ahead := by
  have hstep := resumeStep P node index now
  generalize node.resume P index now = next at hstep ⊢
  cases hstep with
  | idle => exact hahead
  | commit htask => exact hahead.commit htask
  | @run task htask hover =>
    have hmem := List.mem_of_getElem? htask
    apply (hahead.without index).resumeWork now
    · exact fun mark hmark =>
        (hahead.waiting task hmem mark hmark).safe hover
    · intro mark hmark
      exact hahead.covered mark (.inr ⟨task, hmem, hmark⟩)

theorem Ahead.execute : Ahead { node with db := node.db.execute } where
  handed := fun mark hmem => (hahead.handed mark hmem).execute
  waiting := fun task hmem mark hwork =>
    (hahead.waiting task hmem mark hwork).execute
  covered := hahead.covered
  stored := by
    simp only [Messaging.stored, issued_execute]
    exact hahead.stored
  unique := hahead.unique
  indexed := hahead.indexed

/-- A new session: its id is in no row, so no number is held under it. -/
theorem Ahead.registerSession {keys : SessionKeys}
    (hfresh : node.stored.sessions.contains keys.sessionId = false)
    (hnone : work.mark? = none) :
    (node.registerSession keys work).settle.Ahead := by
  unfold Messaging.registerSession
  dsimp only
  split
  · exact hahead.of_same rfl rfl rfl rfl rfl
  · next registry hreg =>
    generalize hsession : (applySequenceFloors node.floors
      (Session.ofKeys keys)).1 = session at hreg ⊢
    have hid : session.sessionId = keys.sessionId :=
      hsession ▸ (applySequenceFloors_identity _ _).1
    have hobjects := objects_register hreg
    rw [contains_eq_false_iff] at hfresh
    have hnew : ∀ mark, node.Held mark → mark.InObjects registry.objects := by
      intro mark hheld object hmem hsame
      rw [hobjects] at hmem
      rcases List.mem_append.mp hmem with hold | hmem
      · exact hahead.covered mark hheld object hold hsame
      · obtain rfl := List.mem_singleton.mp hmem
        obtain ⟨_, hrow, _⟩ := hahead.inRow hheld
        rw [← hsame, hid, hfresh] at hrow
        cases hrow
    have hcurrent : (Statement.saveSessionState session).Current
        registry.objects := by
      simp [Statement.Current, hobjects]
    have hstored : ∀ object ∈ registry.objects,
        (node.stored.apply (.saveSessionState session)).sessions.contains
          object.sessionId = true := by
      intro object hmem
      rw [hobjects] at hmem
      rcases List.mem_append.mp hmem with hold | hmem
      · exact contains_apply (hahead.stored object hold) _
      · obtain rfl := List.mem_singleton.mp hmem
        simp [apply, contains]
    have hunique : (registry.objects.map Session.sessionId).Nodup := by
      rw [hobjects, List.map_append, List.map_cons, List.map_nil]
      refine List.Nodup.append hahead.unique (List.nodup_singleton _) ?_
      rintro sessionId hold hmem
      obtain rfl := List.mem_singleton.mp hmem
      obtain ⟨object, hobject, hsame⟩ := List.mem_map.mp hold
      have hrow := hahead.stored object hobject
      rw [hsame, hid, contains_iff, hfresh] at hrow
      obtain ⟨_, hrow⟩ := hrow
      cases hrow
    have hnext : (Stretch.settle ⟨{ node with registry := registry },
        .write (.saveSessionState session) work⟩).Ahead :=
      hahead.write_with hnew hcurrent hstored hunique
        (hahead.indexed.register hreg)
        (fun _ hmark => by cases hnone.symm.trans hmark)
        (fun _ hmark => by cases hnone.symm.trans hmark)
    exact hnext.of_same rfl rfl rfl rfl rfl

/-- An accepted packet and the write of the counter after it. -/
theorem Ahead.received {session' : Session}
    (hobj : node.registry.objects[ref]? = some session)
    (hsession : session' = { session with recvSequence := seq })
    (hlt : session.recvSequence < seq) :
    (Stretch.settle
      ⟨{ node with registry := node.registry.update ref session' },
        .write (.updateRecvSequence session'.sessionId session'.recvSequence)
          (.received session.sessionId seq)⟩).Ahead := by
  have hid : session'.sessionId = session.sessionId := by rw [hsession]
  have hseq : session'.recvSequence = seq := by rw [hsession]
  have hsend : session'.sendSequence = session.sendSequence := by rw [hsession]
  have hnext := hahead.update hobj hid hsend.ge (hseq ▸ hlt.le)
  have hmem : session' ∈ (node.registry.update ref session').objects :=
    List.mem_of_getElem?
      (List.getElem?_set_self (List.getElem?_eq_some_iff.mp hobj).1)
  refine hnext.write ⟨_, hmem, rfl, rfl⟩ ?_ ?_
  · rintro mark ⟨⟩
    exact hahead.inObjects_update hobj hid hid.symm hseq.ge
  · rintro mark ⟨⟩
    have hrow := hahead.stored session (List.mem_of_getElem? hobj)
    obtain ⟨_, hrow⟩ := (contains_iff _ _).mp hrow
    simp only [Work.writing, ↓reduceIte, apply, hid]
    exact Mark.inRow_modifySession hrow hseq.ge

theorem Ahead.remove (sessionId : Bytes) :
    Ahead { node with registry := node.registry.remove sessionId } where
  handed := hahead.handed
  waiting := hahead.waiting
  covered := by
    simp only [objects_remove]
    exact hahead.covered
  stored := by
    simp only [objects_remove]
    exact hahead.stored
  unique := by
    simp only [objects_remove]
    exact hahead.unique
  indexed := hahead.indexed.remove sessionId

end

/-- A handshake brings a session id that has no row: `save_session_state`
replaces the row of an id that has one. -/
def FreshSession (node : Messaging) : MessagingEvent → Prop
  | .call (.handleHello keys) | .call (.handleHelloAck keys _) =>
    node.stored.sessions.contains keys.sessionId = false
  | _ => True

instance (node : Messaging) (event : MessagingEvent) :
    Decidable (node.FreshSession event) := by
  unfold FreshSession
  split <;> infer_instance

/-- The first stretch of every call. -/
theorem Ahead.handle (hahead : node.Ahead) {call : MessagingCall}
    (hfresh : node.FreshSession (.call call)) :
    (node.handle P call).settle.Ahead := by
  cases call with
  | sendMessage peerId messageId plaintext =>
    simp only [Messaging.handle]
    split
    · exact hahead
    · exact (hahead.of_same rfl rfl rfl rfl rfl : Ahead { node with
          queue := node.queue.enqueue messageId peerId plaintext
          outbox := node.outbox.set messageId plaintext }).write_other
          trivial rfl
  | handleHello =>
    simp only [Messaging.handle]
    split
    · exact hahead
    · exact hahead.registerSession hfresh rfl
  | handleHelloAck => exact hahead.registerSession hfresh rfl
  | handleData payload =>
    simp only [Messaging.handle]
    split
    · exact hahead
    · next _ session hget =>
      split
      · next plaintext _ hdec =>
        obtain ⟨hcheck, hsession⟩ := decryptDataPacket_eq_some hdec
        have hlt : session.recvSequence < payload.sequenceNumber := by
          simpa [Session.checkRecvSequence] using hcheck
        rw [← hahead.indexed.sessionId_eq hget]
        exact hahead.received (getBySessionId_eq_some hget).2 hsession hlt
      · exact hahead
  | handleAck =>
    simp only [Messaging.handle]
    split
    · next queue messageId _ =>
      exact (hahead.of_same rfl rfl rfl rfl rfl :
        Ahead { node with queue := queue }).write_other trivial rfl
    · exact hahead
  | handleAppAck =>
    simp only [Messaging.handle]
    split
    · exact hahead
    · split
      · next queue messageId _ =>
        exact (hahead.of_same rfl rfl rfl rfl rfl :
          Ahead { node with queue := queue }).write_other trivial rfl
      · exact hahead
  | handleSync =>
    simp only [Messaging.handle]
    split
    · exact hahead
    · exact hahead.of_same rfl rfl rfl rfl rfl
  | retryPass now =>
    simp only [Messaging.handle]
    split
    · exact hahead
    · exact hahead.retryWalk now _
  | handlePeerDisconnect =>
    simp only [Messaging.handle]
    split
    · exact hahead
    · exact hahead.remove _
  | setEndpoint => exact hahead.of_same rfl rfl rfl rfl rfl
  | saveSession =>
    simp only [Messaging.handle]
    split
    · exact hahead
    · next session hobj =>
      exact hahead.write_other (List.mem_of_getElem? hobj) rfl

/-- A restart keeps the rows. -/
theorem sessions_restore (outbox : OrderedDict MessageId Bytes)
    (tables : Tables) : (restore outbox tables).2.sessions = tables.sessions := by
  have hfold : ∀ (rows : List (MessageId × MessageRecord))
      (state : QueueManager × Tables),
      (rows.foldl (restoreRow outbox) state).2.sessions = state.2.sessions := by
    intro rows
    induction rows with
    | nil => exact fun state => rfl
    | cons _ _ ih =>
      intro state
      rw [List.foldl_cons, ih]
      unfold restoreRow
      split
      · dsimp only
        split <;> rfl
      · rfl
  exact hfold _ _

theorem Ahead.restart (hahead : node.Ahead)
    (endpoints : OrderedDict PeerId Address) (known : PeerId → Bool) :
    (node.restart endpoints known).Ahead where
  handed := by
    intro mark hmem
    apply secured_opened
    have hrow := Secured.durable (hahead.handed mark hmem)
    unfold Mark.InRow at hrow ⊢
    rwa [sessions_restore]
  waiting := by simp [Messaging.restart]
  covered := by simp [Mark.InObjects, Messaging.restart, SessionRegistry.empty]
  stored := by simp [Messaging.restart, SessionRegistry.empty]
  unique := by simp [Messaging.restart, SessionRegistry.empty]
  indexed := indexed_empty

theorem Ahead.step (hahead : node.Ahead) {event : MessagingEvent}
    (hfresh : node.FreshSession event) : (node.step P event).Ahead := by
  cases event with
  | call => exact hahead.handle hfresh
  | resume index now => exact hahead.resume index now
  | execute => exact hahead.execute
  | restart endpoints known => exact hahead.restart endpoints known

theorem ahead_initial : ({} : Messaging).Ahead where
  handed := by simp [Messaging.handed]
  waiting := by simp
  covered := by simp [Mark.InObjects, SessionRegistry.empty]
  stored := by simp [SessionRegistry.empty]
  unique := by simp [SessionRegistry.empty]
  indexed := indexed_empty

/-- What a crash would leave covers every number that has left the node. -/
def WrittenAhead (node : Messaging) : Prop := (∀ packet ∈ node.sent, ∃ row,
    (node.db.durable apply).sessions.get? packet.1 = some row ∧
      packet.2 < row.sendSequence) ∧
  ∀ ack ∈ node.acked, ∃ row,
    (node.db.durable apply).sessions.get? ack.1 = some row ∧
      ack.2 ≤ row.recvSequence

theorem Ahead.writtenAhead (hahead : node.Ahead) : node.WrittenAhead := by
  constructor
  · intro packet hmem
    have hmark : Mark.sent packet.1 packet.2 ∈ node.handed :=
      List.mem_append_left _ (List.mem_map.mpr ⟨packet, hmem, rfl⟩)
    exact Secured.durable (hahead.handed _ hmark)
  · intro ack hmem
    have hmark : Mark.received ack.1 ack.2 ∈ node.handed :=
      List.mem_append_right _ (List.mem_map.mpr ⟨ack, hmem, rfl⟩)
    exact Secured.durable (hahead.handed _ hmark)

/-- In every state of every run in which no session id comes back, at whatever
point the process dies, the rows on disk are ahead of the packets and the
ACKs. -/
theorem sequences_written_ahead (P : Primitives) {events : List MessagingEvent}
    (hfresh : EveryStep (Messaging.step P) FreshSession {} events) :
    Along (Messaging.step P) WrittenAhead {} events :=
  along_of_everyStep (fun _ _ hahead => hahead.step)
    (fun _ hahead => hahead.writtenAhead) ahead_initial hfresh

end Messaging

namespace WriteAheadWitness

open Reference MessagingWitness

/-- A message is sent, the peer disconnects, and the next handshake brings the
same session id; its row is committed. -/
def reopening : List MessagingEvent :=
  opening ++ sending 1 ++ [.call (.handlePeerDisconnect peer),
    .call (.handleHelloAck keys ("10.0.0.2", 9000))] ++ storageCall 0 0

theorem sequences_written_ahead_sent :
    Along (Messaging.step primitives) Messaging.WrittenAhead {}
      (opening ++ sending 1) := by
  have hfresh : EveryStep (Messaging.step primitives) Messaging.FreshSession {}
      (opening ++ sending 1) := by
    decide +kernel
  exact Messaging.sequences_written_ahead primitives hfresh

/-- Number 1 has been handed over, and the row on disk says that it is the
next one. -/
theorem reused_session_row_reset :
    let node := run (Messaging.step primitives) {} reopening
    node.sent = [(keys.sessionId, 1)] ∧
      ((node.db.durable apply).sessions.get? keys.sessionId).map
        (fun row => (row.sendSequence, row.recvSequence)) = some (1, 0) ∧
      ¬ node.WrittenAhead := by
  intro node
  have hsent : node.sent = [(keys.sessionId, 1)] := by decide +kernel
  have hrow : ((node.db.durable apply).sessions.get? keys.sessionId).map
      (fun row => (row.sendSequence, row.recvSequence)) = some (1, 0) := by
    decide +kernel
  refine ⟨hsent, hrow, fun hahead => ?_⟩
  obtain ⟨row, hget, hlt⟩ := hahead.1 (keys.sessionId, 1) (by simp [hsent])
  simp only [hget, Option.map_some, Option.some.injEq, Prod.mk.injEq] at hrow
  rw [hrow.1] at hlt
  exact lt_irrefl _ hlt

end WriteAheadWitness

end AshiChat
