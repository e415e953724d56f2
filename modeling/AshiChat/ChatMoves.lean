/-
What the events of a whole node do to the messages of a peer: the receivers in
the queue, the sessions a message can be built for, and the messages that
suspended coroutines are about to send.
-/
import AshiChat.RegistryMoves
import AshiChat.StoredRows

namespace AshiChat

open QueueManager EventRun OrderedDict List Option

variable {P : Primitives}

namespace QueueManager

variable (queue : QueueManager) (messageId other : MessageId)

theorem receiverOf_enqueue (peerId : PeerId) (plaintext : Bytes) :
    receiverOf (queue.enqueue messageId peerId plaintext) other =
      if messageId = other then some peerId else receiverOf queue other := by
  simp only [receiverOf, enqueue, get?_set]
  split <;> rfl

theorem receiverOf_getQueuedForPeer {queue : QueueManager} {peerId : PeerId}
    {messageId : MessageId} (hmem : messageId ∈ queue.getQueuedForPeer peerId) :
    receiverOf queue messageId = some peerId := by
  obtain ⟨⟨_, _⟩, hfiltered, rfl⟩ := mem_map.mp hmem
  obtain ⟨hentry, hqueued⟩ := mem_filter.mp hfiltered
  simp only [Bool.and_eq_true, beq_iff_eq] at hqueued
  rw [receiverOf, get?_eq_of_mem_entries queue hentry, map_some, hqueued.1]

end QueueManager

namespace SessionRegistry

/-- The registry has no session with the peer under any key. -/
structure Lacks (registry : SessionRegistry) (peerId : PeerId) : Prop where
  byPeer : registry.sessionFor peerId = none
  bySession : ∀ sessionId ref session,
    registry.bySession.get? sessionId = some ref →
      registry.objects[ref]? = some session → session.remotePeerId ≠ peerId

/-- The peer has no session under another id than that of its current one. -/
def noStray (registry : SessionRegistry) (peerId : PeerId) : Bool :=
  registry.bySession.entries.all fun binding =>
    registry.objects[binding.2]?.all fun session =>
      decide (session.remotePeerId ≠ peerId) ||
        (registry.sessionFor peerId).any fun current =>
          decide (current.sessionId = binding.1)

variable {registry registry' : SessionRegistry} {peerId : PeerId}

theorem lacks_empty (peerId : PeerId) :
    (SessionRegistry.empty).Lacks peerId := by
  constructor
  · rfl
  · rintro sessionId ref session ⟨⟩

section

variable (hlacks : registry.Lacks peerId)

include hlacks

theorem Lacks.remove (sessionId : Bytes) :
    (registry.remove sessionId).Lacks peerId := by
  constructor
  · rcases registry.sessionFor_remove sessionId peerId with hsame | hnone
    · exact hsame.trans hlacks.byPeer
    · exact hnone
  · intro other ref session href hobj
    rw [objects_remove] at hobj
    refine hlacks.bySession other ref session ?_ hobj
    unfold SessionRegistry.remove at href
    split at href
    · exact href
    · exact get?_of_get?_erase href

theorem Lacks.dropPeer (other : PeerId) :
    (registry.dropPeer other).Lacks peerId := by
  unfold SessionRegistry.dropPeer
  split
  · exact hlacks
  · exact hlacks.remove _

theorem Lacks.register {session : Session}
    (hreg : registry.register session = .ok registry')
    (hother : session.remotePeerId ≠ peerId) : registry'.Lacks peerId := by
  constructor
  · rw [sessionFor_register hreg, if_neg hother]
    exact hlacks.byPeer
  · intro sessionId ref found href hobj
    rw [objects_register hreg] at hobj
    rw [(bySession_register hreg).2] at href
    rcases get?_set_cases href with ⟨-, rfl⟩ | ⟨-, hold⟩
    · rw [getElem?_concat_length, some.injEq] at hobj
      exact hobj ▸ hother
    · have hbefore := get?_withoutOld hold
      have hlt := registry.bySession_lt (sessionId, ref)
        (registry.bySession.mem_entries_iff.mpr hbefore)
      rw [getElem?_append_left hlt] at hobj
      exact hlacks.bySession sessionId ref found hbefore hobj

theorem Lacks.of_retains
    (hretains : registry.Retains registry') : registry'.Lacks peerId := by
  constructor
  · have hnone := hlacks.byPeer
    rw [sessionFor_eq] at hnone ⊢
    rw [hretains.byPeer]
    cases hget : registry.byPeer.get? peerId with
    | none => rfl
    | some ref =>
      rw [bind_eq_none_iff] at hnone ⊢
      rintro _ ⟨⟩
      rw [eq_none_iff_forall_not_mem]
      intro object hobject
      obtain ⟨session, hsession, -⟩ := hretains.symm.exists_object hobject
      cases (hnone ref hget).symm.trans hsession
  · intro sessionId ref object href hobject
    rw [hretains.bySession] at href
    obtain ⟨session, hsession, -, hpeer⟩ := hretains.symm.exists_object hobject
    rw [← hpeer]
    exact hlacks.bySession sessionId ref session href hsession

/-- Only a `register` for the peer itself gives it a session. -/
theorem Lacks.called {call : Option RegistryCall}
    (hother : ∀ session, call = some (.register session) →
      session.remotePeerId ≠ peerId) : (registry.called call).Lacks peerId := by
  cases call with
  | none => exact hlacks
  | some call =>
    cases call with
    | register session =>
      simp only [SessionRegistry.called, SessionRegistry.call]
      split
      · next hreg => exact hlacks.register hreg (hother session rfl)
      · exact hlacks
    | remove sessionId => exact hlacks.remove sessionId

end

theorem objects_dropPeer (registry : SessionRegistry) (peerId : PeerId) :
    (registry.dropPeer peerId).objects = registry.objects := by
  unfold SessionRegistry.dropPeer
  split
  · rfl
  · exact objects_remove ..

/-- The id of the session that is dropped is free afterwards. -/
theorem get?_bySession_dropPeer (howns : registry.ownsSession peerId = true)
    {sessionId : Bytes} {ref : Nat}
    (href : (registry.dropPeer peerId).bySession.get? sessionId = some ref) :
    registry.bySession.get? sessionId = some ref ∧
      ∀ current, registry.sessionFor peerId = some current →
        current.sessionId ≠ sessionId := by
  unfold ownsSession at howns
  unfold SessionRegistry.dropPeer at href
  cases hpeer : registry.getByPeerId peerId with
  | none =>
    simp only [hpeer] at href
    refine ⟨href, fun current hcurrent => ?_⟩
    rw [sessionFor, hpeer] at hcurrent
    cases hcurrent
  | some found =>
    simp only [hpeer, SessionRegistry.remove] at href howns
    cases hid : registry.getBySessionId found.2.sessionId with
    | none =>
      rw [hid] at howns
      cases howns
    | some =>
      simp only [hid] at href
      refine ⟨get?_of_get?_erase href, ?_⟩
      rintro current hcurrent rfl
      rw [sessionFor, hpeer, map_some, some.injEq] at hcurrent
      rw [hcurrent, get?_erase_self] at href
      cases href

/-- Once its own session is dropped, nothing of the peer is left. -/
theorem lacks_dropPeer (howns : registry.ownsSession peerId = true)
    (hstray : registry.noStray peerId = true) :
    (registry.dropPeer peerId).Lacks peerId := by
  constructor
  · rw [sessionFor_dropPeer howns, if_pos rfl]
  · intro sessionId ref session href hobj hpeer
    obtain ⟨hbefore, hother⟩ := get?_bySession_dropPeer howns href
    rw [objects_dropPeer] at hobj
    have hmem := registry.bySession.mem_entries_iff.mpr hbefore
    have hcurrent := all_eq_true.mp hstray _ hmem
    simp only [hobj, all_some, hpeer, ne_eq, not_true_eq_false, decide_false,
      Bool.false_or, Option.any_eq_true, decide_eq_true_eq] at hcurrent
    obtain ⟨current, hsession, hid⟩ := hcurrent
    exact hother current hsession hid

end SessionRegistry

/-- The messages a flush still has before it. -/
def DispatchCaller.rest : DispatchCaller → List MessageId
  | .flush _ _ _ rest => rest
  | .send _ | .retry .. => []

/-- The messages the coroutine builds or sends without looking up again
whether their receiver has a session, each with the peer it sends them to. -/
def Work.messages : Work → List (MessageId × PeerId)
  | .enqueued peerId messageId (some _) => [(messageId, peerId)]
  | .sequenceStored dispatch | .numberStored dispatch
  | .statusStored dispatch =>
    (dispatch.messageId :: dispatch.caller.rest).map (·, dispatch.caller.peerId)
  | _ => []

/-- The peer whose heartbeat the coroutine is about to start. -/
def Work.starts : Work → Option PeerId
  | .helloSaved peerId | .ackSaved peerId _ | .ackRemembered peerId _
  | .heartbeat peerId => some peerId
  | _ => none

namespace Messaging

/-- Receivers stay, and no peer gets a session. -/
structure Steady (node later : Messaging) : Prop where
  receivers : ∀ messageId,
    later.queue.receiverOf messageId = node.queue.receiverOf messageId
  sessions : ∀ peerId, node.registry.Lacks peerId → later.registry.Lacks peerId

/-- The message is in the queue for the peer, which has a session. -/
def Addressed (node : Messaging) (message : MessageId × PeerId) : Prop :=
  node.queue.receiverOf message.1 = some message.2 ∧
    ∀ peerId, node.registry.Lacks peerId → message.2 ≠ peerId

/-- What a stretch of the coroutine `source` can do. -/
structure Moved (node : Messaging) (source : Work) (stretch : Stretch) :
    Prop where
  steady : node.Steady stretch.node
  statement : ∀ statement work, stretch.next = .write statement work →
    ∀ messageId receiver, statement ≠ .enqueueMessage messageId receiver
  messages : ∀ work ∈ stretch.next.works, ∀ message ∈ work.messages,
    message ∈ source.messages ∨ node.Addressed message
  starts : ∀ work ∈ stretch.next.works, ∀ peerId,
    work.starts = some peerId → source.starts = some peerId

variable {node later last : Messaging} {source : Work}

theorem Steady.refl (node : Messaging) : node.Steady node :=
  ⟨fun _ => rfl, fun _ hlacks => hlacks⟩

theorem Steady.trans (hfirst : node.Steady later)
    (hsecond : later.Steady last) : node.Steady last where
  receivers messageId :=
    (hsecond.receivers messageId).trans (hfirst.receivers messageId)
  sessions peerId hlacks :=
    hsecond.sessions peerId (hfirst.sessions peerId hlacks)

variable {messageId : MessageId} {session : Session} {ref : Nat}
  {stretch : Stretch}

theorem Addressed.of_steady {message : MessageId × PeerId}
    (haddressed : later.Addressed message) (hsteady : node.Steady later) :
    node.Addressed message :=
  ⟨(hsteady.receivers message.1).symm.trans haddressed.1, fun peerId hlacks =>
      haddressed.2 peerId (hsteady.sessions peerId hlacks)⟩

theorem addressed_of_session {receiver : PeerId} {found : Nat × Session}
    (hreceiver : node.queue.receiverOf messageId = some receiver)
    (hsession : node.registry.getByPeerId receiver = some found) :
    node.Addressed (messageId, receiver) := by
  refine ⟨hreceiver, ?_⟩
  rintro peerId hlacks rfl
  have hnone := hlacks.byPeer
  rw [SessionRegistry.sessionFor, hsession] at hnone
  cases hnone

theorem steady_advance (hobj : node.registry.objects[ref]? = some session) :
    node.Steady (node.advance ref session) :=
  ⟨fun _ => rfl, fun _ hlacks => hlacks.of_retains (retains_advance hobj)⟩

theorem steady_dispatched {entry : QueueEntry}
    (hready : node.Ready messageId ref entry session) (now : ℚ) :
    node.Steady (node.dispatched messageId ref session now) where
  receivers other := map_get?_modify node.queue messageId other
    (lasting_receiver.dispatched · _ _)
  sessions := (steady_advance hready.object_eq).sessions

theorem steady_timeout (node : Messaging) (messageId : MessageId) :
    node.Steady (node.timeout messageId) :=
  ⟨(lasting_receiver.handleTimeout node.queue messageId ·),
    fun _ hlacks => hlacks⟩

/-- A stretch that leaves nothing to be done. -/
theorem moved_of_works (hsteady : node.Steady stretch.node)
    (hworks : stretch.next.works = []) : node.Moved source stretch where
  steady := hsteady
  statement := by
    rintro statement work hnext
    rw [hnext] at hworks
    cases hworks
  messages := by
    rw [hworks]
    simp
  starts := by
    rw [hworks]
    simp

/-- A stretch that has built a packet. -/
theorem moved_firstWrite {packet : Packet} {caller : DispatchCaller}
    (hsteady : node.Steady stretch.node)
    (hnext : stretch.next = firstWrite messageId session packet caller)
    (hmessages : ∀ other ∈ messageId :: caller.rest,
      (other, caller.peerId) ∈ source.messages ∨
        node.Addressed (other, caller.peerId)) :
    node.Moved source stretch where
  steady := hsteady
  statement := by
    rintro statement work hwrite messageId receiver rfl
    cases hnext.symm.trans hwrite
  messages := by
    rw [hnext]
    intro work hwork
    cases mem_singleton.mp hwork
    exact forall_mem_map.mpr hmessages
  starts := by
    rw [hnext]
    rintro work hwork peerId hstarts
    cases mem_singleton.mp hwork
    cases hstarts

theorem moved_flushWalk (peerId : PeerId) (ref : Nat) (endpoint : Address)
    (now : ℚ) (hsteady : node.Steady later) {ids : List MessageId}
    (hids : ∀ messageId ∈ ids, (messageId, peerId) ∈ source.messages ∨
      node.Addressed (messageId, peerId)) :
    node.Moved source (flushWalk P peerId ref endpoint now later ids) := by
  have hend := flushEnd P peerId ref endpoint now later ids
  generalize flushWalk P peerId ref endpoint now later ids = stretch at hend ⊢
  cases hend with
  | finished => exact moved_of_works hsteady rfl
  | stopped _ hready =>
    exact moved_of_works (hsteady.trans (steady_advance hready.object_eq)) rfl
  | @started skipped rest messageId entry session packet hsplit hnot hready =>
    refine moved_firstWrite (hsteady.trans (steady_dispatched hready now))
      rfl ?_
    intro other hmem
    refine hids other ?_
    rw [hsplit]
    exact mem_append_right skipped hmem

/-- The retry loop looks the receiver of each message up. -/
theorem moved_retryWalk (now : ℚ) (hsteady : node.Steady later)
    (ids : List MessageId) :
    node.Moved source (retryWalk P now later ids) := by
  refine retryWalk_rule (fun later _ => node.Steady later)
    (node.Moved source) ?_ ?_ ?_ ?_ ?_ ?_ hsteady
  · exact fun later hsteady => moved_of_works hsteady rfl
  · exact fun later messageId _ hsteady _ =>
      hsteady.trans (steady_timeout later messageId)
  · exact fun later messageId _ _ hsteady _ _ _ =>
      hsteady.trans (steady_timeout later messageId)
  · intro later messageId rest entry hsteady _ _
    refine ⟨hsteady.trans (steady_timeout later messageId), ?_, ?_, ?_⟩
    · rintro statement work hwrite other receiver rfl
      cases hwrite
    · intro work hwork other hmem
      cases mem_singleton.mp hwork
      cases hmem
    · intro work hwork peerId hstarts
      cases mem_singleton.mp hwork
      cases hstarts
  · intro later messageId rest entry ref session hsteady _ hready
    have hadvance := (steady_timeout later messageId).trans
      (steady_advance hready.object_eq)
    exact hsteady.trans ⟨hadvance.receivers, hadvance.sessions⟩
  · intro later messageId rest entry ref session endpoint packet hsteady
      hsession hready
    have htimeout := hsteady.trans (steady_timeout later messageId)
    have hreceiver : (later.timeout messageId).queue.receiverOf messageId =
        some entry.receiver := by
      rw [receiverOf, hready.entry_eq, map_some]
    have haddressed := addressed_of_session hreceiver hsession
    refine moved_firstWrite (htimeout.trans (steady_dispatched hready now)) rfl
      ?_
    intro other hmem
    cases mem_singleton.mp hmem
    exact .inr (haddressed.of_steady htimeout)

/-- A stretch that goes on with a storage call for the same packet. -/
theorem moved_write {statement : Statement} {work : Work}
    (hstatement : ∀ messageId receiver,
      statement ≠ .enqueueMessage messageId receiver)
    (hmessages : work.messages ⊆ source.messages)
    (hstarts : ∀ peerId, work.starts = some peerId →
      source.starts = some peerId) :
    node.Moved source ⟨node, .write statement work⟩ where
  steady := .refl node
  statement := by
    rintro _ _ ⟨⟩
    exact hstatement
  messages := by
    intro other hwork messageId hmem
    cases mem_singleton.mp hwork
    exact .inl (hmessages hmem)
  starts := by
    intro other hwork
    cases mem_singleton.mp hwork
    exact hstarts

theorem moved_flushQueued (node : Messaging) (source : Work)
    (peerId : PeerId) (now : ℚ) :
    node.Moved source (node.flushQueued P peerId now) := by
  unfold flushQueued
  split
  · next ref _ endpoint hsession _ =>
    refine moved_flushWalk peerId ref endpoint now (.refl node) ?_
    intro messageId hmem
    exact .inr (addressed_of_session (receiverOf_getQueuedForPeer hmem)
      hsession)
  · exact moved_of_works (.refl node) rfl

/-- What follows the three writes of a dispatch. -/
theorem moved_afterDispatch (node : Messaging) (dispatch : Dispatch) (now : ℚ) :
    node.Moved (.statusStored dispatch) (node.afterDispatch P dispatch now) := by
  have hsteady : node.Steady (node.handOver dispatch) :=
    ⟨fun _ => rfl, fun _ hlacks => hlacks⟩
  have hraise : ∀ peerId, node.Steady (node.raise peerId) := fun _ =>
    ⟨fun _ => rfl, fun _ hlacks => hlacks⟩
  unfold afterDispatch
  split
  · split
    · exact moved_of_works hsteady rfl
    · exact moved_of_works (.refl node) rfl
  · split
    · exact moved_of_works (.refl node) rfl
    · exact moved_of_works (.refl node) rfl
  · next peerId ref endpoint _ _ hcaller _ =>
    refine moved_flushWalk peerId ref endpoint now hsteady ?_
    intro messageId hmem
    refine .inl (mem_map.mpr ⟨messageId, ?_, by rw [hcaller]; rfl⟩)
    rw [hcaller]
    exact mem_cons_of_mem _ hmem
  · exact moved_of_works (.refl node) rfl
  · exact moved_retryWalk now hsteady _
  · exact moved_retryWalk now (hraise _) _

theorem moved_resumeWork (node : Messaging) (now : ℚ) (work : Work) :
    node.Moved work (node.resumeWork P now work) := by
  cases work with
  | enqueued peerId messageId session =>
    cases session with
    | none => exact moved_of_works (.refl node) rfl
    | some ref =>
      have hbuild := buildStep P node messageId ref now (.send peerId)
      simp only [resumeWork]
      generalize node.build P messageId ref now (.send peerId) = result
        at hbuild ⊢
      cases hbuild with
      | nothing => exact moved_of_works (.refl node) rfl
      | error hready =>
        exact moved_of_works (steady_advance hready.object_eq) rfl
      | started hready =>
        refine moved_firstWrite (steady_dispatched hready now) rfl ?_
        intro other hmem
        cases mem_singleton.mp hmem
        exact .inl mem_cons_self
  | sequenceStored dispatch | numberStored dispatch =>
    refine moved_write ?_ (List.Subset.refl _) ?_
    · rintro messageId receiver ⟨⟩
    · rintro peerId ⟨⟩
  | statusStored dispatch => exact moved_afterDispatch node dispatch now
  | failureStored rest => exact moved_retryWalk now (.refl node) rest
  | receiptStored => exact moved_of_works (.refl node) rfl
  | received =>
    exact moved_of_works ⟨fun _ => rfl, fun _ hlacks => hlacks⟩ rfl
  | helloSaved peerId | ackRemembered peerId addr =>
    refine ⟨⟨fun _ => rfl, fun _ hlacks => hlacks⟩, ?_, ?_, ?_⟩
    · rintro statement work ⟨⟩
    · intro work hwork messageId hmem
      cases mem_singleton.mp hwork
      cases hmem
    · intro work hwork other hstarts
      cases mem_singleton.mp hwork
      exact hstarts
  | ackSaved =>
    refine moved_write ?_ (List.Subset.refl _) fun _ hstarts => hstarts
    rintro messageId receiver ⟨⟩
  | heartbeat peerId => exact moved_flushQueued node _ peerId now

/-- A receipt changes the status of at most one message. -/
theorem moved_receipt {queue : QueueManager} {status : String}
    (hreceivers : ∀ other, queue.receiverOf other = node.queue.receiverOf other) :
    node.Moved .receiptStored ⟨{ node with queue := queue },
      .write (.updateMessageStatus messageId status) .receiptStored⟩ where
  steady := ⟨hreceivers, fun _ hlacks => hlacks⟩
  statement := by
    rintro _ _ ⟨⟩ messageId receiver ⟨⟩
  messages := by
    intro work hwork other hmem
    cases mem_singleton.mp hwork
    cases hmem
  starts := by
    intro work hwork peerId hstarts
    cases mem_singleton.mp hwork
    cases hstarts

theorem moved_handleAck (node : Messaging) (ack : AckPayload) :
    node.Moved .receiptStored (node.handle P (.handleAck ack)) := by
  simp only [handle]
  split
  · next queue _ hack =>
    refine moved_receipt fun other => ?_
    have hsame := lasting_receiver.handleAck node.queue other ack
    rwa [hack] at hsame
  · exact moved_of_works (.refl node) rfl

theorem moved_handleAppAck (node : Messaging) (ack : AppAckPayload) :
    node.Moved .receiptStored (node.handle P (.handleAppAck ack)) := by
  simp only [handle]
  split
  · exact moved_of_works (.refl node) rfl
  · next _ session _ =>
    split
    · next queue _ hack =>
      refine moved_receipt fun other => ?_
      have hsame := lasting_receiver.acknowledgeBySequence node.queue
        other session.remotePeerId ack.ackSequenceNumber
      rwa [hack] at hsame
    · exact moved_of_works (.refl node) rfl

theorem moved_handleSync (node : Messaging) (sync : SyncPayload) (now : ℚ) :
    node.Moved .receiptStored (node.handle P (.handleSync sync now)) := by
  simp only [handle]
  split
  · exact moved_of_works (.refl node) rfl
  · next _ session _ =>
    refine moved_of_works ⟨fun other => ?_, fun _ hlacks => hlacks⟩ rfl
    exact lasting_receiver.of_sameCore other (resendMissed_sameCore P session
      sync.sequenceNumber now node.queue node.queue.entries)

theorem moved_retryPass (node : Messaging) (now : ℚ) :
    node.Moved .receiptStored (node.handle P (.retryPass now)) := by
  simp only [handle]
  split
  · exact moved_of_works (.refl node) rfl
  · exact moved_retryWalk now (.refl node) _

end Messaging

/-- The receiver of a stored message. -/
def Tables.receiverOf (tables : Tables) (messageId : MessageId) :
    Option PeerId :=
  (tables.messages.get? messageId).map MessageRecord.receiver

theorem Tables.receiverOf_apply (tables : Tables) {statement : Statement}
    (hstatement : ∀ messageId receiver,
      statement ≠ .enqueueMessage messageId receiver)
    (messageId : MessageId) :
    (tables.apply statement).receiverOf messageId =
      tables.receiverOf messageId := by
  have hmodify : ∀ target (change : MessageRecord → MessageRecord),
      (∀ row, (change row).receiver = row.receiver) →
        (tables.modifyMessage target change).receiverOf messageId =
          tables.receiverOf messageId := by
    intro target change hchange
    simp only [Tables.receiverOf, modifyMessage, get?_modify]
    split
    · rw [Option.map_map]
      exact congrArg (Option.map · _) (funext hchange)
    · rfl
  cases statement with
  | enqueueMessage other receiver => exact absurd rfl (hstatement other receiver)
  | updateMessageSequence | updateMessageStatus =>
    exact hmodify _ _ fun _ => rfl
  | _ => rfl

/-- A new process has messages of stored receivers only. -/
theorem receiverOf_restore (outbox : OrderedDict MessageId Bytes)
    (tables : Tables) (messageId : MessageId) :
    (∀ receiver, (Messaging.restore outbox tables).1.receiverOf messageId =
        some receiver → tables.receiverOf messageId = some receiver) ∧
      (Messaging.restore outbox tables).2.receiverOf messageId =
        tables.receiverOf messageId := by
  obtain ⟨hqueue, htables⟩ := Messaging.get?_restore outbox tables messageId
  constructor
  · intro receiver hreceiver
    rw [receiverOf, hqueue] at hreceiver
    obtain ⟨_, hentry, rfl⟩ := map_eq_some_iff.mp hreceiver
    obtain ⟨row, hrow, hrestored⟩ := bind_eq_some_iff.mp hentry
    unfold Messaging.restoredEntry at hrestored
    split at hrestored
    · cases hrestored
      rw [Tables.receiverOf, hrow, map_some]
    · cases hrestored
  · rw [Tables.receiverOf, Tables.receiverOf, htables, Option.map_map]
    refine congrArg (Option.map · _) (funext fun row => ?_)
    simp only [Function.comp_apply, Messaging.keptRow]
    split <;> rfl

end AshiChat
