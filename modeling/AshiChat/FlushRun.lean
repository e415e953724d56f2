/-
What `_flush_queued_for_peer` hands to the transport.  The loop ends with the
first exception, and a packet that is too long for the frame raises one, so a
flush that nothing interrupts sends exactly the messages before the first one
that does not fit.
-/
import AshiChat.InOrder
import AshiChat.OversizeSend

namespace AshiChat

open QueueManager EventRun MessagingWitness List SessionRegistry Option Nat
  Messaging

/-- The message has a text that one packet holds. -/
def QueueManager.fits (queue : QueueManager) (messageId : MessageId) : Bool :=
  (queue.textOf messageId).any fun text => decide (text.length ≤ maxPlaintext)

namespace Messaging

variable (P : Primitives)

/-- The messages whose packets an event hands to the transport. -/
def handedMessages (node : Messaging) : MessagingEvent → List MessageId
  | .resume index now =>
    ((node.handedOver P index now).map Dispatch.messageId).toList
  | _ => []

/-- The handshake handler at `index` goes on to its flush, and nothing
interrupts it: the connection catches up, the handler is resumed, and then
only the flush and its database calls make progress.  `times` are the clock's
values for the messages. -/
def flushingAlone (node : Messaging) (index : Nat) (now : ℚ)
    (times : List ℚ) : List MessagingEvent :=
  replicate node.db.ops.length .execute ++
    .resume index now :: times.flatMap (dispatching (node.tasks.length - 1))

/-- The messages that the flush hands to the transport. -/
def flushed (node : Messaging) (index : Nat) (now : ℚ) (times : List ℚ) :
    List MessageId :=
  outputs (step P) (handedMessages P) node (node.flushingAlone index now times)

variable {P} {node : Messaging}

theorem handedMessages_of_sent {event : MessagingEvent}
    (hsent : (node.step P event).sent = node.sent) :
    node.handedMessages P event = [] := by
  cases event with
  | call | execute | restart => rfl
  | resume index now =>
    have hresume : (node.resume P index now).sent = node.sent := hsent
    simp only [handedMessages, handedOver]
    split
    · rw [if_pos hresume]
      rfl
    · rfl

theorem sent_settle (stretch : Stretch) :
    stretch.settle.sent = stretch.node.sent := by
  unfold Stretch.settle
  split <;> rfl

theorem sent_flushWalk (node : Messaging) (peerId : PeerId) (ref : Nat)
    (endpoint : Address) (now : ℚ) (ids : List MessageId) :
    (flushWalk P peerId ref endpoint now node ids).node.sent = node.sent := by
  have hend := flushEnd P peerId ref endpoint now node ids
  generalize flushWalk P peerId ref endpoint now node ids = stretch at hend ⊢
  cases hend <;> rfl

section Writes

variable {statement : Statement} {work : Work}

section

variable (hidle : node.db.Idle)

include hidle

theorem outputs_answered (now : ℚ) : outputs (step P) (handedMessages P)
        (Stretch.settle ⟨node, .write statement work⟩)
        [.execute, .resume node.tasks.length now, .execute] = [] := by
  have hdone : node.db.ops.length <
      (node.db.issue (.statement statement)).execute.executed := by
    rw [hidle.executed_execute_issue]
    exact lt_succ_self _
  -- The commit is issued; the packet is not touched.
  have hcommit : handedMessages P (step P
      (Stretch.settle ⟨node, .write statement work⟩) .execute)
        (.resume node.tasks.length now) = [] := by
    apply handedMessages_of_sent
    simp [step, Stretch.settle, resume, hdone]
  simp only [outputs_cons, outputs_nil, hcommit, append_nil]
  rfl

theorem handedMessages_answered (now : ℚ)
    (hsent : (resumeWork P (node.afterWrite statement) now work).node.sent =
      node.sent) :
    (node.answered statement work).handedMessages P
      (.resume node.tasks.length now) = [] := by
  apply handedMessages_of_sent
  rw [step, resume_answered hidle, sent_settle, hsent]
  rfl

theorem outputs_storageCall (now : ℚ)
    (hsent : (resumeWork P (node.afterWrite statement) now work).node.sent =
      node.sent) :
    outputs (step P) (handedMessages P)
        (Stretch.settle ⟨node, .write statement work⟩)
        (storageCall node.tasks.length now) = [] := by
  change outputs (step P) _ _ ([.execute, .resume node.tasks.length now,
    .execute] ++ [.resume node.tasks.length now]) = _
  rw [outputs_append, outputs_answered hidle, run_answered hidle,
    outputs_cons, handedMessages_answered hidle now hsent, outputs_nil]
  rfl

/-- Nothing leaves before the third commit. -/
theorem outputs_writing (dispatch : Dispatch) (now : ℚ) :
    outputs (step P) (handedMessages P) (node.starting dispatch)
        (writing node.tasks.length now) = [] := by
  have hfirst : outputs (step P) (handedMessages P) (node.starting dispatch)
      (storageCall node.tasks.length now) = [] :=
    outputs_storageCall hidle now rfl
  have hsecond : outputs (step P) (handedMessages P) (node.numbering dispatch)
      (storageCall node.tasks.length now) = [] :=
    outputs_storageCall (idle_counted hidle dispatch) now rfl
  have hthird : outputs (step P) (handedMessages P) (node.marking dispatch)
      [.execute, .resume node.tasks.length now, .execute] = [] :=
    outputs_answered (idle_numbered hidle dispatch) now
  rw [writing, outputs_append, outputs_append, run_append, run_starting hidle,
    run_numbering hidle, hfirst, hsecond, hthird]
  rfl

theorem outputs_dispatching (dispatch : Dispatch) (now : ℚ) :
    outputs (step P) (handedMessages P) (node.starting dispatch)
        (dispatching node.tasks.length now) =
      (node.handing dispatch).handedMessages P
        (.resume node.tasks.length now) := by
  rw [dispatching_eq, outputs_append, outputs_writing hidle, run_writing hidle,
    outputs_cons, outputs_nil, nil_append, append_nil]

end

section Packet

variable {dispatch : Dispatch} {peerId : PeerId} {ref : Nat}
  {endpoint : Address} {rest : List MessageId}

/-- The flush hands over a packet that fits and goes on with the rest. -/
theorem dispatch_fitting (hidle : node.db.Idle)
    (hcaller : dispatch.caller = .flush peerId ref endpoint rest)
    {data : Bytes} (hdata : dispatch.packet.serialize = .ok data) (now : ℚ) :
    outputs (step P) (handedMessages P) (node.starting dispatch)
        (dispatching node.tasks.length now) = [dispatch.messageId] ∧
      run (step P) (node.starting dispatch)
          (dispatching node.tasks.length now) =
        (flushWalk P peerId ref endpoint now
          ((node.afterWrites dispatch).handOver dispatch) rest).settle := by
  have hafter : (node.afterWrites dispatch).afterDispatch P dispatch now =
      flushWalk P peerId ref endpoint now
        ((node.afterWrites dispatch).handOver dispatch) rest := by
    simp only [afterDispatch, hcaller, hdata]
  rw [outputs_dispatching hidle, run_dispatching hidle, hafter]
  refine ⟨?_, rfl⟩
  have hsent : ((node.handing dispatch).resume P node.tasks.length now).sent ≠
      (node.handing dispatch).sent := by
    rw [resume_handing hidle, hafter, sent_settle, sent_flushWalk]
    change node.sent ++ _ ≠ node.sent
    simp
  have htask : (node.handing dispatch).tasks[node.tasks.length]? =
      some ⟨.committing ((node.numbered dispatch).db.ops.length + 1),
        .statusStored dispatch⟩ :=
    getElem?_concat_length ..
  simp [handedMessages, handedOver, htask, if_neg hsent]

/-- The transport raises, and with it the flush; the message is pending. -/
theorem dispatch_oversize (hidle : node.db.Idle)
    (hcaller : dispatch.caller = .flush peerId ref endpoint rest)
    {err : PyError} (herror : dispatch.packet.serialize = .error err)
    (now : ℚ) :
    outputs (step P) (handedMessages P) (node.starting dispatch)
        (dispatching node.tasks.length now) = [] ∧
      run (step P) (node.starting dispatch)
          (dispatching node.tasks.length now) =
        (node.afterWrites dispatch).raise peerId := by
  have hafter : (node.afterWrites dispatch).afterDispatch P dispatch now =
      ⟨node.afterWrites dispatch, .raised peerId⟩ := by
    simp only [afterDispatch, hcaller, herror]
  rw [outputs_dispatching hidle, run_dispatching hidle, hafter]
  refine ⟨handedMessages_of_sent ?_, rfl⟩
  rw [step, resume_handing hidle, hafter]
  rfl

end Packet

end Writes

/-- Nobody is there to be resumed. -/
theorem outputs_idle (hidle : node.db.Idle) {events : List MessagingEvent}
    (hevents : ∀ event ∈ events, event = .execute ∨
      ∃ now, event = .resume node.tasks.length now) :
    outputs (step P) (handedMessages P) node events = [] := by
  induction events with
  | nil => rfl
  | cons event _ ih =>
    obtain ⟨hevent, hrest⟩ := forall_mem_cons.mp hevents
    have hone : run (step P) node [event] = node :=
      run_idle hidle (forall_mem_singleton.mpr hevent)
    rw [run_cons, run_nil] at hone
    rw [outputs_cons, hone, ih hrest, append_nil]
    exact handedMessages_of_sent (congrArg sent hone)

theorem dispatching_events (index : Nat) (times : List ℚ) :
    ∀ event ∈ times.flatMap (dispatching index), event = .execute ∨
      ∃ now, event = .resume index now := by
  intro event hevent
  obtain ⟨now, -, hmem⟩ := mem_flatMap.mp hevent
  simp only [dispatching, storageCall, cons_append, nil_append,
    mem_cons, not_mem_nil, or_false] at hmem
  rcases hmem with rfl | rfl | rfl | rfl | rfl | rfl | rfl | rfl | rfl | rfl |
    rfl | rfl
  all_goals first | exact .inl rfl | exact .inr ⟨now, rfl⟩

section Flush

variable {peerId : PeerId} {ref : Nat} {endpoint : Address}

/-- The messages wait under a session that has a number for each of them. -/
structure Awaiting (node : Messaging) (ref : Nat) (session : Session)
    (ids : List MessageId) : Prop where
  nodup : ids.Nodup
  queued : ∀ messageId ∈ ids, ∃ entry, node.queue.get? messageId = some entry ∧
      entry.status = .queued
  object_eq : node.registry.objects[ref]? = some session
  keyed : session.Keyed
  room : session.sendSequence + ids.length ≤ 2 ^ 32

variable {session : Session} {messageId : MessageId} {rest : List MessageId}

theorem fits_iff {queue : QueueManager} {entry : QueueEntry}
    (hget : queue.get? messageId = some entry) :
    queue.fits messageId = true ↔ entry.plaintext.length ≤ maxPlaintext := by
  rw [fits, textOf, hget, map_some, any_some, decide_eq_true_eq]

theorem fits_dispatched (node : Messaging) (messageId other : MessageId)
    (ref : Nat) (session : Session) (now : ℚ) :
    (node.dispatched messageId ref session now).queue.fits other =
      node.queue.fits other := by
  rw [fits, (sameTexts_dispatched node messageId ref session now).texts, fits]

section

variable (hwait : node.Awaiting ref session (messageId :: rest))

include hwait

/-- After the first message has been built the others still wait. -/
theorem Awaiting.dispatched (now : ℚ) :
    (node.dispatched messageId ref session now).Awaiting ref
      session.nextSequence.2 rest := by
  obtain ⟨hfresh, hnodup⟩ := nodup_cons.mp hwait.nodup
  refine ⟨hnodup, ?_, ?_, ⟨hwait.keyed.sessionId, hwait.keyed.encryptionKey⟩,
    ?_⟩
  · intro other hother
    obtain ⟨entry, hget, hstatus⟩ :=
      hwait.queued other (mem_cons_of_mem _ hother)
    refine ⟨entry, ?_, hstatus⟩
    have hne : messageId ≠ other := fun heq => hfresh (heq ▸ hother)
    simp only [Messaging.dispatched]
    rw [OrderedDict.get?_modify, if_neg hne, hget]
  · obtain ⟨hlt, -⟩ := List.getElem?_eq_some_iff.mp hwait.object_eq
    exact getElem?_set_self hlt
  · have hroom := hwait.room
    rw [length_cons] at hroom
    simp only [Session.nextSequence]
    omega

/-- The writes and the transport change nothing about that. -/
theorem Awaiting.handedOver (dispatch : Dispatch) (now : ℚ) :
    (((node.dispatched messageId ref session now).afterWrites
      dispatch).handOver dispatch).Awaiting ref session.nextSequence.2 rest := by
  have hnext := hwait.dispatched now
  exact ⟨hnext.nodup, hnext.queued, hnext.object_eq, hnext.keyed, hnext.room⟩

/-- The ways the flush starts on a message that waits: it raises at once, or
it has a packet as long as the text. -/
theorem flushWalk_cases (now : ℚ) : (node.queue.fits messageId = false ∧
      flushWalk P peerId ref endpoint now node (messageId :: rest) =
        ⟨node.advance ref session, .raised peerId⟩) ∨
    ∃ dispatch : Dispatch, dispatch.messageId = messageId ∧
      dispatch.caller = .flush peerId ref endpoint rest ∧
      (node.queue.fits messageId = true ↔
        dispatch.packet.payload.length ≤ maxPayloadSize) ∧
      (flushWalk P peerId ref endpoint now node (messageId :: rest)).settle =
        (node.dispatched messageId ref session now).starting dispatch := by
  obtain ⟨entry, hget, hstatus⟩ := hwait.queued messageId mem_cons_self
  have hready : node.Ready messageId ref entry session :=
    ⟨hget, hstatus, hwait.object_eq⟩
  have hroom := hwait.room
  rw [length_cons] at hroom
  have hbuild := buildStep P node messageId ref now
    (.flush peerId ref endpoint rest)
  simp only [flushWalk]
  generalize node.build P messageId ref now (.flush peerId ref endpoint rest) =
    result at hbuild ⊢
  cases hbuild with
  | nothing hnot => exact absurd hready (hnot entry session)
  | error hfound hrefused =>
    cases hready.object_eq.symm.trans hfound.object_eq
    cases hready.entry_eq.symm.trans hfound.entry_eq
    refine .inl ⟨?_, rfl⟩
    rw [← Bool.not_eq_true, fits_iff hget]
    exact fun hle => hrefused ⟨hwait.keyed, by omega, encryptable_of_le hle⟩
  | @started _ _ packet hfound hpacket =>
    cases hready.object_eq.symm.trans hfound.object_eq
    cases hready.entry_eq.symm.trans hfound.entry_eq
    refine .inr ⟨⟨messageId, session.sessionId, session.sendSequence, packet,
      .flush peerId ref endpoint rest⟩, rfl, rfl, ?_, rfl⟩
    rw [fits_iff hget, hpacket]
    unfold maxPlaintext maxPayloadSize
    omega

end

/-- A flush that nothing interrupts hands over the messages before the first
one that does not fit. -/
theorem outputs_flushWalk {ids : List MessageId}
    (hwait : node.Awaiting ref session ids) (hidle : node.db.Idle) (now : ℚ)
    {times : List ℚ} (htimes : ids.length ≤ times.length) :
    outputs (step P) (handedMessages P)
        (flushWalk P peerId ref endpoint now node ids).settle
        (times.flatMap (dispatching node.tasks.length)) =
      ids.takeWhile node.queue.fits := by
  induction ids generalizing node session now times with
  | nil => exact outputs_idle hidle (dispatching_events _ times)
  | cons messageId rest ih =>
    obtain ⟨time, times, rfl⟩ := exists_cons_of_length_pos
      (Nat.lt_of_lt_of_le (succ_pos _) htimes)
    rcases flushWalk_cases hwait now with
      ⟨hlong, hwalk⟩ | ⟨dispatch, hmessage, hcaller, hfits, hwalk⟩
    · -- The build raises.
      have hraised : ((node.advance ref session).raise peerId).db.Idle := hidle
      rw [hwalk, takeWhile_cons, if_neg (by simp [hlong])]
      exact outputs_idle hraised (dispatching_events _ (time :: times))
    · have hbuilt : (node.dispatched messageId ref session now).db.Idle := hidle
      have htasks : (node.dispatched messageId ref session now).tasks =
          node.tasks := rfl
      rw [hwalk, flatMap_cons, outputs_append, takeWhile_cons]
      cases hfit : node.queue.fits messageId with
      | true =>
        obtain ⟨_, hdata⟩ := Packet.serialize_of_le (hfits.mp hfit)
        obtain ⟨hhanded, hafter⟩ := dispatch_fitting hbuilt hcaller hdata time
        have hrest := ih (hwait.handedOver dispatch now)
          (idle_afterWrites hbuilt dispatch) time
          (le_of_succ_le_succ htimes)
        rw [htasks] at hhanded hafter
        rw [hhanded, hafter, hmessage, if_pos rfl]
        refine congrArg (messageId :: ·) (hrest.trans ?_)
        exact congrArg (takeWhile · rest) (funext fun other =>
          fits_dispatched node messageId other ref session now)
      | false =>
        have herror : dispatch.packet.serialize = .error .structError := by
          refine Packet.serialize_of_gt (Nat.lt_of_not_le fun hle => ?_)
          cases hfit.symm.trans (hfits.mpr hle)
        obtain ⟨hhanded, hafter⟩ := dispatch_oversize hbuilt hcaller herror time
        have hraised : (((node.dispatched messageId ref session
            now).afterWrites dispatch).raise peerId).db.Idle :=
          idle_afterWrites hbuilt dispatch
        rw [htasks] at hhanded hafter
        rw [hhanded, hafter, if_neg Bool.false_ne_true]
        exact outputs_idle hraised (dispatching_events _ times)

/-- The snapshot of the flush. -/
theorem awaiting_getQueuedForPeer
    (hobject : node.registry.objects[ref]? = some session)
    (hkeyed : session.Keyed)
    (hroom : session.sendSequence +
      (node.queue.getQueuedForPeer peerId).length ≤ 2 ^ 32) :
    node.Awaiting ref session (node.queue.getQueuedForPeer peerId) where
  nodup := node.queue.nodup.sublist ((filter_sublist ..).map Prod.fst)
  queued := by
    intro messageId hmem
    obtain ⟨⟨_, entry⟩, hfiltered, rfl⟩ := mem_map.mp hmem
    obtain ⟨hentry, htest⟩ := mem_filter.mp hfiltered
    simp only [Bool.and_eq_true, beq_iff_eq] at htest
    exact ⟨entry, node.queue.get?_eq_of_mem_entries hentry, htest.2⟩
  object_eq := hobject
  keyed := hkeyed
  room := hroom

theorem run_executes (node : Messaging) (count : Nat) :
    run (step P) node (replicate count .execute) =
      { node with db := Connection.execute^[count] node.db } := by
  induction count generalizing node with
  | zero => rfl
  | succ _ ih =>
    rw [replicate_succ, run_cons, ih]
    rfl

theorem outputs_executes (node : Messaging) (count : Nat) :
    outputs (step P) (handedMessages P) node
      (replicate count .execute) = [] := by
  induction count generalizing node with
  | zero => rfl
  | succ _ ih =>
    rw [replicate_succ, outputs_cons, ih]
    rfl

section Handler

variable {index : Nat} {session : Session} {times : List ℚ}
  (htask : node.tasks[index]? = some ⟨.free, .heartbeat peerId⟩)
  (hsession : node.registry.getByPeerId peerId = some (ref, session))
  (hendpoint : node.endpoints.get? peerId = some endpoint)
  (hkeyed : session.Keyed)
  (hroom : session.sendSequence +
    (node.queue.getQueuedForPeer peerId).length ≤ 2 ^ 32) (now : ℚ)
  (htimes : (node.queue.getQueuedForPeer peerId).length ≤ times.length)

include htask hsession hendpoint hkeyed hroom htimes

/-- The handler is resumed when the connection has nothing to do. -/
theorem outputs_heartbeat (hidle : node.db.Idle) :
    outputs (step P) (handedMessages P) node (.resume index now ::
        times.flatMap (dispatching (node.tasks.length - 1))) =
      (node.queue.getQueuedForPeer peerId).takeWhile node.queue.fits := by
  let rest : Messaging := { node with tasks := node.tasks.eraseIdx index }
  have hresume : node.step P (.resume index now) =
      (flushWalk P peerId ref endpoint now rest
        (node.queue.getQueuedForPeer peerId)).settle := by
    simp only [step, resume, htask, resumeWork, flushQueued, hsession,
      hendpoint, rest]
  have hquiet : node.handedMessages P (.resume index now) = [] := by
    simp only [handedMessages, handedOver, htask]
    rfl
  have hlength : rest.tasks.length = node.tasks.length - 1 :=
    List.length_eraseIdx_of_lt (List.getElem?_eq_some_iff.mp htask).1
  have hwait : rest.Awaiting ref session (node.queue.getQueuedForPeer peerId) :=
    awaiting_getQueuedForPeer (getByPeerId_eq_some hsession).2 hkeyed hroom
  have hrest : rest.db.Idle := hidle
  rw [outputs_cons, hquiet, hresume, ← hlength, nil_append]
  exact outputs_flushWalk hwait hrest now htimes

/-- What the flush of a handshake handler hands over. -/
theorem flushed_eq :
    node.flushed P index now times =
      (node.queue.getQueuedForPeer peerId).takeWhile node.queue.fits := by
  let caught : Messaging :=
    { node with db := Connection.execute^[node.db.ops.length] node.db }
  have hidle : caught.db.Idle :=
    Connection.idle_execute_iterate (Nat.le_add_left ..)
  rw [flushed, flushingAlone, outputs_append, outputs_executes, run_executes,
    nil_append]
  have htask : caught.tasks[index]? = _ := htask
  exact outputs_heartbeat htask hsession hendpoint hkeyed hroom now htimes hidle

end Handler

end Flush

/-- All elements with a property come before the first without it, if none of
them has one without it before it. -/
theorem forall_mem_takeWhile_iff {α : Type} {test : α → Bool} {items : List α}
    (hnodup : items.Nodup) :
    (∀ item ∈ items, test item = true → item ∈ items.takeWhile test) ↔
      items.Pairwise fun earlier later =>
        test later = true → test earlier = true := by
  induction items with
  | nil => simp
  | cons head rest ih =>
    obtain ⟨hfresh, hnodup⟩ := nodup_cons.mp hnodup
    rw [pairwise_cons, ← ih hnodup, takeWhile_cons]
    cases hhead : test head with
    | true =>
      rw [if_pos rfl]
      constructor
      · intro hall
        refine ⟨fun _ _ _ => rfl, fun item hitem htest => ?_⟩
        rcases mem_cons.mp
          (hall item (mem_cons_of_mem _ hitem) htest) with rfl | hmem
        · exact absurd hitem hfresh
        · exact hmem
      · rintro ⟨-, hrest⟩ item hitem htest
        rcases mem_cons.mp hitem with rfl | hitem
        · exact mem_cons_self
        · exact mem_cons_of_mem _ (hrest item hitem htest)
    | false =>
      rw [if_neg Bool.false_ne_true]
      constructor
      · intro hall
        have hnone : ∀ item ∈ rest, test item ≠ true :=
          fun item hitem htest => not_mem_nil
            (hall item (mem_cons_of_mem _ hitem) htest)
        exact ⟨fun item hitem htest => absurd htest (hnone item hitem),
          fun item hitem htest => absurd htest (hnone item hitem)⟩
      · rintro ⟨hnone, -⟩ item hitem htest
        rcases mem_cons.mp hitem with rfl | hitem
        · cases hhead.symm.trans htest
        · cases hnone item hitem htest

/-- The flush hands every message that fits to the transport exactly if none
of them has one that does not fit before it in the queue. -/
theorem flush_hands_over_iff {P : Primitives} {node : Messaging}
    {peerId : PeerId} {ref index : Nat} {session : Session} {endpoint : Address}
    (htask : node.tasks[index]? = some ⟨.free, .heartbeat peerId⟩)
    (hsession : node.registry.getByPeerId peerId = some (ref, session))
    (hendpoint : node.endpoints.get? peerId = some endpoint)
    (hkeyed : session.Keyed)
    (hroom : session.sendSequence +
      (node.queue.getQueuedForPeer peerId).length ≤ 2 ^ 32)
    (now : ℚ) {times : List ℚ}
    (htimes : (node.queue.getQueuedForPeer peerId).length ≤ times.length) :
    (∀ messageId ∈ node.queue.getQueuedForPeer peerId,
        node.queue.fits messageId = true →
          messageId ∈ node.flushed P index now times) ↔
      (node.queue.getQueuedForPeer peerId).Pairwise fun earlier later =>
        node.queue.fits later = true → node.queue.fits earlier = true := by
  have hobject := (getByPeerId_eq_some hsession).2
  rw [flushed_eq htask hsession hendpoint hkeyed hroom now htimes]
  exact forall_mem_takeWhile_iff
    (awaiting_getQueuedForPeer hobject hkeyed hroom).nodup

end Messaging

namespace FlushRunWitness

open Messaging Reference

/-- A second message is queued, and a handshake is about to flush. -/
def following : List MessagingEvent :=
  storageCall 0 0 ++ .call (.sendMessage peer 2 [104, 105]) ::
    storageCall 0 0 ++ [.call (.setEndpoint peer ("10.0.0.2", 9000)),
      .call (.handleHello keys)] ++ storageCall 0 0

def waiting (first : Bytes) : Messaging := run (step primitives) {}
    (.call (.sendMessage peer 1 first) :: following)

def session : Session := .ofKeys keys

/-- Two short messages are both handed over. -/
theorem flush_hands_over_iff_short :
    (waiting [97]).queue.getQueuedForPeer peer = [1, 2] ∧
      ((∀ messageId ∈ (waiting [97]).queue.getQueuedForPeer peer,
          (waiting [97]).queue.fits messageId = true →
            messageId ∈ (waiting [97]).flushed primitives 0 0 [0, 0]) ↔
        ((waiting [97]).queue.getQueuedForPeer peer).Pairwise
          fun earlier later => (waiting [97]).queue.fits later = true →
            (waiting [97]).queue.fits earlier = true) := by
  have hsession : (waiting [97]).registry.getByPeerId peer =
      some (0, session) := by decide +kernel
  have hendpoint : (waiting [97]).endpoints.get? peer =
      some ("10.0.0.2", 9000) := by decide +kernel
  exact ⟨by decide +kernel, flush_hands_over_iff (by decide +kernel) hsession
    hendpoint ⟨by decide +kernel, by decide +kernel⟩ (by decide +kernel) 0
    (by decide +kernel)⟩

/-- One byte more than a packet holds. -/
def long : Bytes := replicate 65504 97

theorem long_does_not_fit : (waiting long).queue.fits 1 = false := by
  have hstart : (step primitives {}
      (.call (.sendMessage peer 1 long))).queue.textOf 1 = some long := rfl
  have hstep : ∀ (node : Messaging) (event : MessagingEvent),
      node.queue.textOf 1 = some long →
      (∀ endpoints known, event ≠ .restart endpoints known) →
      (node.step primitives event).queue.textOf 1 = some long :=
    fun _ _ hkept hevent => textOf_step hkept hevent
  have hgood : ∀ event ∈ following, ∀ (_ : Messaging) endpoints known,
      event ≠ .restart endpoints known := by
    simp [following, storageCall]
  have htext : (waiting long).queue.textOf 1 = some long := by
    rw [waiting, run_cons]
    exact inv_run_of_everyStep hstep hstart (everyStep_of_forall hgood _)
  rw [fits, htext, any_some, long, length_replicate]
  decide

/-- The long message takes the one behind it along. -/
theorem long_message_blocks_flush :
    (waiting long).queue.getQueuedForPeer peer = [1, 2] ∧
      (waiting long).queue.fits 2 = true ∧
      (waiting long).flushed primitives 0 0 [0, 0] = [] := by
  have hsession : (waiting long).registry.getByPeerId peer =
      some (0, session) := by decide +kernel
  have hendpoint : (waiting long).endpoints.get? peer =
      some ("10.0.0.2", 9000) := by decide +kernel
  have hids : (waiting long).queue.getQueuedForPeer peer = [1, 2] := by
    decide +kernel
  refine ⟨hids, by decide +kernel, ?_⟩
  rw [flushed_eq (by decide +kernel) hsession hendpoint
    ⟨by decide +kernel, by decide +kernel⟩ (by decide +kernel) 0
    (by decide +kernel), hids, takeWhile_cons, long_does_not_fit]
  rfl

end FlushRunWitness

end AshiChat
