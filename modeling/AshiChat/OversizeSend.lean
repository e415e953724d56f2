/-
What `send_message` does with a text that one packet cannot hold.  Nothing
looks at the length before the transport serialises the packet, and by then
the message is in the queue, the session's counter has moved and three rows
have been written.  A text that fits is sent or refused as a whole: the packet
is as long as the text and the overhead of one message, whatever else the node
does between the awaits.
-/
import AshiChat.EndToEnd
import AshiChat.SoloRun
import AshiChat.StoredRows

namespace AshiChat

open QueueManager EventRun MessagingWitness OrderedDict List Option
  SessionRegistry Messaging

/-- A Python `str`: code points, surrogates included. -/
abbrev Text : Type := List (Fin 0x110000)

def encodePoint (point : Fin 0x110000) : Except PyError Bytes :=
  if point.val.isValidChar then
    .ok (String.utf8EncodeChar (Char.ofNat point.val))
  else .error (.valueError "surrogates not allowed")

/-- `text.encode("utf-8")` -/
def encodeUtf8 : Text → Except PyError Bytes
  | [] => .ok []
  | point :: rest => do
      let head ← encodePoint point
      let tail ← encodeUtf8 rest
      return head ++ tail

/-- The text of a queued message. -/
def QueueManager.textOf (queue : QueueManager) (messageId : MessageId) :
    Option Bytes :=
  (queue.get? messageId).map QueueEntry.plaintext

/-- The packet that `send_message` is about to hand over. -/
def Work.sending? : Work → Option Dispatch
  | .sequenceStored dispatch | .numberStored dispatch
  | .statusStored dispatch =>
    match dispatch.caller with
    | .send _ => some dispatch
    | _ => none
  | _ => none

/-- The coroutine is the `send_message` of the message, after it has found a
session. -/
def Work.sends (messageId : MessageId) : Work → Bool
  | .enqueued _ other (some _) => other == messageId
  | work => work.sending?.any (·.messageId == messageId)

namespace Messaging

variable (P : Primitives)

/-- `send_message` up to its first await, and the exception if it raises. -/
def sendText (node : Messaging) (peerId : PeerId) (messageId : MessageId)
    (text : Text) : Messaging × Option PyError :=
  match encodeUtf8 text with
  | .error err => (node, some err)
  | .ok plaintext =>
    (node.step P (.call (.sendMessage peerId messageId plaintext)), none)

/-- The work a resumption goes on with, if what it waits for is done. -/
def due (node : Messaging) (index : Nat) : Option Work :=
  match node.tasks[index]? with
  | some ⟨.committing ticket, work⟩ =>
    if ticket < node.db.executed then some work else none
  | some ⟨.free, work⟩ => some work
  | _ => none

/-- The stretch that a resumption runs. -/
def dueStretch (node : Messaging) (index : Nat) (now : ℚ) (work : Work) :
    Stretch :=
  resumeWork P { node with tasks := node.tasks.eraseIdx index } now work

/-- If the event resumes the `send_message` of the message, the coroutine does
not raise, and a packet that it hands over is serialised. -/
def SendSucceeds (messageId : MessageId) (node : Messaging) :
    MessagingEvent → Prop
  | .resume index now =>
    ∀ work, node.due index = some work → work.sends messageId = true →
      (∀ peerId, (node.dueStretch P index now work).next ≠ .raised peerId) ∧
        ∀ dispatch, work = .statusStored dispatch →
          ∃ data, dispatch.packet.serialize = .ok data
  | _ => True

/-- The session has a handshake's id and key and a number that four bytes
hold. -/
def inRange (session : Session) : Bool :=
  session.sessionId.length == 8 && aesKeyOk session.encryptionKey &&
    decide (session.sendSequence < 2 ^ 32)

/-- If the event resumes the `send_message` of the message where it builds its
packet, the session still has a number for it. -/
def buildsInRange (messageId : MessageId) (node : Messaging) :
    MessagingEvent → Bool
  | .resume index _ =>
    match node.due index with
    | some (.enqueued _ other (some ref)) =>
      other != messageId || node.registry.objects[ref]?.all inRange
    | _ => true
  | _ => true

/-- No text changes. -/
structure SameTexts (node later : Messaging) : Prop where
  texts : ∀ messageId,
    later.queue.textOf messageId = node.queue.textOf messageId
  outbox : later.outbox = node.outbox

/-- The packet is as long as the text of its message. -/
def Carries (text? : Option Bytes) (dispatch : Dispatch) : Prop :=
  ∃ text, text? = some text ∧ dispatch.packet.payload.length = text.length + 32

/-- What a stretch of the coroutine `source` does to texts and packets. -/
structure Quotes (node : Messaging) (source : Work) (stretch : Stretch) :
    Prop where
  same : node.SameTexts stretch.node
  packets : ∀ work ∈ stretch.next.works, ∀ dispatch,
    work.sending? = some dispatch → source.sending? = some dispatch ∨
      Carries (node.queue.textOf dispatch.messageId) dispatch

/-- The outbox has the texts of the queue, and the packets of all
`send_message` calls carry them. -/
structure Recorded (node : Messaging) (works : List Work) : Prop where
  queue : ∀ messageId text, node.queue.textOf messageId = some text →
    node.outbox.get? messageId = some text
  packets : ∀ work ∈ works, ∀ dispatch, work.sending? = some dispatch →
    Carries (node.outbox.get? dispatch.messageId) dispatch

variable {P} {node later last : Messaging} {source : Work}

theorem SameTexts.refl (node : Messaging) : node.SameTexts node :=
  ⟨fun _ => rfl, rfl⟩

theorem SameTexts.trans (hfirst : node.SameTexts later)
    (hsecond : later.SameTexts last) : node.SameTexts last where
  texts messageId := (hsecond.texts messageId).trans (hfirst.texts messageId)
  outbox := hsecond.outbox.trans hfirst.outbox

theorem sameTexts_timeout (node : Messaging) (messageId : MessageId) :
    node.SameTexts (node.timeout messageId) :=
  ⟨(lasting_plaintext.handleTimeout node.queue messageId ·), rfl⟩

theorem sameTexts_dispatched (node : Messaging) (messageId : MessageId)
    (ref : Nat) (session : Session) (now : ℚ) :
    node.SameTexts (node.dispatched messageId ref session now) where
  texts other := map_get?_modify node.queue messageId other
    (lasting_plaintext.dispatched · _ _)
  outbox := rfl

/-- A stretch that leaves no packet of a `send_message`. -/
theorem quotes_of_silent {stretch : Stretch}
    (hsame : node.SameTexts stretch.node)
    (hworks : ∀ work ∈ stretch.next.works, work.sending? = none) :
    node.Quotes source stretch := by
  refine ⟨hsame, fun work hwork dispatch hsending => ?_⟩
  cases (hworks work hwork).symm.trans hsending

theorem quotes_flushWalk (peerId : PeerId) (ref : Nat) (endpoint : Address)
    (now : ℚ) (hsame : node.SameTexts later) (ids : List MessageId) :
    node.Quotes source (flushWalk P peerId ref endpoint now later ids) := by
  have hend := flushEnd P peerId ref endpoint now later ids
  generalize flushWalk P peerId ref endpoint now later ids = stretch at hend ⊢
  cases hend with
  | finished => exact quotes_of_silent hsame (by simp [Next.works])
  | stopped =>
    exact quotes_of_silent ⟨hsame.texts, hsame.outbox⟩ (by simp [Next.works])
  | started =>
    refine quotes_of_silent
      (hsame.trans (sameTexts_dispatched later _ ref _ now)) ?_
    simp [firstWrite, Next.works, Work.sending?]

theorem quotes_retryWalk (now : ℚ) (hsame : node.SameTexts later)
    (ids : List MessageId) :
    node.Quotes source (retryWalk P now later ids) := by
  refine retryWalk_rule (fun later _ => node.SameTexts later)
    (node.Quotes source) ?_ ?_ ?_ ?_ ?_ ?_ hsame
  · exact fun later hsame => quotes_of_silent hsame (by simp [Next.works])
  · exact fun later messageId _ hsame _ =>
      hsame.trans (sameTexts_timeout later messageId)
  · exact fun later messageId _ _ hsame _ _ _ =>
      hsame.trans (sameTexts_timeout later messageId)
  · intro later messageId rest entry hsame _ _
    exact quotes_of_silent (hsame.trans (sameTexts_timeout later messageId))
      (by simp [Next.works, Work.sending?])
  · intro later messageId rest entry ref session hsame _ _
    have htimeout := hsame.trans (sameTexts_timeout later messageId)
    exact ⟨htimeout.texts, htimeout.outbox⟩
  · intro later messageId rest entry ref session endpoint packet hsame _ _
    refine quotes_of_silent ((hsame.trans
      (sameTexts_timeout later messageId)).trans
        (sameTexts_dispatched _ messageId ref session now)) ?_
    simp [firstWrite, Next.works, Work.sending?]

theorem quotes_afterDispatch (node : Messaging) (dispatch : Dispatch)
    (now : ℚ) : node.Quotes source (node.afterDispatch P dispatch now) := by
  have hhand : node.SameTexts (node.handOver dispatch) := ⟨fun _ => rfl, rfl⟩
  have hraise : ∀ peerId, node.SameTexts (node.raise peerId) := fun _ =>
    ⟨fun _ => rfl, rfl⟩
  unfold afterDispatch
  split
  · split
    · exact quotes_of_silent hhand (by simp [Next.works])
    · exact quotes_of_silent (.refl node) (by simp [Next.works])
  · split
    · exact quotes_of_silent (.refl node) (by simp [Next.works])
    · exact quotes_of_silent (.refl node) (by simp [Next.works])
  · exact quotes_flushWalk _ _ _ now hhand _
  · exact quotes_of_silent (.refl node) (by simp [Next.works])
  · exact quotes_retryWalk now hhand _
  · exact quotes_retryWalk now (hraise _) _

/-- A coroutine that goes on with the packet it has. -/
theorem quotes_write {statement : Statement} {work : Work}
    (hsending : work.sending? = source.sending?) :
    node.Quotes source ⟨node, .write statement work⟩ := by
  refine ⟨.refl node, fun other hother dispatch hdispatch => .inl ?_⟩
  cases mem_singleton.mp hother
  exact hsending.symm.trans hdispatch

theorem quotes_resumeWork (node : Messaging) (now : ℚ) (work : Work) :
    node.Quotes work (node.resumeWork P now work) := by
  cases work with
  | enqueued peerId messageId session =>
    cases session with
    | none =>
      exact quotes_of_silent (.refl node) (by simp [resumeWork, Next.works])
    | some ref =>
      have hbuild := buildStep P node messageId ref now (.send peerId)
      simp only [resumeWork]
      generalize node.build P messageId ref now (.send peerId) = result
        at hbuild ⊢
      cases hbuild with
      | nothing =>
        exact quotes_of_silent (.refl node) (by simp [Next.works])
      | error =>
        exact quotes_of_silent ⟨fun _ => rfl, rfl⟩ (by simp [Next.works])
      | started hready hpacket =>
        refine ⟨sameTexts_dispatched node messageId ref _ now, ?_⟩
        intro other hother dispatch hsending
        cases mem_singleton.mp hother
        cases hsending
        refine .inr ⟨_, ?_, hpacket⟩
        rw [textOf, hready.entry_eq, map_some]
  | sequenceStored dispatch | numberStored dispatch => exact quotes_write rfl
  | statusStored dispatch => exact quotes_afterDispatch node dispatch now
  | failureStored rest => exact quotes_retryWalk now (.refl node) rest
  | heartbeat =>
    simp only [resumeWork, flushQueued]
    split
    · exact quotes_flushWalk _ _ _ now (.refl node) _
    · exact quotes_of_silent (.refl node) (by simp [Next.works])
  | receiptStored | received | helloSaved | ackSaved | ackRemembered =>
    exact quotes_of_silent ⟨fun _ => rfl, rfl⟩
      (by simp [resumeWork, Next.works, Work.sending?])

/-- Every call but `send_message` leaves the texts alone. -/
theorem quotes_handle (node : Messaging) {call : MessagingCall}
    (hcall : ∀ peerId messageId text,
      call ≠ .sendMessage peerId messageId text) :
    node.Quotes .receiptStored (node.handle P call) := by
  cases call with
  | sendMessage peerId messageId plaintext =>
    exact absurd rfl (hcall peerId messageId plaintext)
  | handleAck ack =>
    simp only [handle]
    split
    · next hack =>
      refine quotes_of_silent ⟨fun other => ?_, rfl⟩
        (by simp [Next.works, Work.sending?])
      have hsame := lasting_plaintext.handleAck node.queue other ack
      rwa [hack] at hsame
    · exact quotes_of_silent (.refl node) (by simp [Next.works])
  | handleAppAck ack =>
    simp only [handle]
    split
    · exact quotes_of_silent (.refl node) (by simp [Next.works])
    · next _ session _ =>
      split
      · next hack =>
        refine quotes_of_silent ⟨fun other => ?_, rfl⟩
          (by simp [Next.works, Work.sending?])
        have hsame := lasting_plaintext.acknowledgeBySequence node.queue
          other session.remotePeerId ack.ackSequenceNumber
        rwa [hack] at hsame
      · exact quotes_of_silent (.refl node) (by simp [Next.works])
  | handleSync _ now =>
    simp only [handle]
    split
    · exact quotes_of_silent (.refl node) (by simp [Next.works])
    · next session _ =>
      refine quotes_of_silent ⟨fun other => ?_, rfl⟩ (by simp [Next.works])
      exact lasting_plaintext.of_sameCore other
        (resendMissed_sameCore P session _ now _ _)
  | retryPass now =>
    simp only [handle]
    split
    · exact quotes_of_silent (.refl node) (by simp [Next.works])
    · exact quotes_retryWalk now (.refl node) _
  | handleHello | handleHelloAck | handleData | handlePeerDisconnect
  | setEndpoint | saveSession =>
    simp only [handle, registerSession]
    repeat' split
    all_goals
      exact quotes_of_silent ⟨fun _ => rfl, rfl⟩
        (by simp [Next.works, Work.sending?])

theorem outbox_settle (stretch : Stretch) :
    stretch.settle.outbox = stretch.node.outbox := by
  unfold Stretch.settle
  split <;> rfl

theorem Recorded.settle {works : List Work}
    (hrecorded : node.Recorded (source :: works)) {stretch : Stretch}
    (hquotes : node.Quotes source stretch)
    (hworks : stretch.node.works = works) :
    stretch.settle.Recorded stretch.settle.works := by
  constructor
  · intro messageId text htext
    rw [queue_settle, hquotes.same.texts] at htext
    rw [outbox_settle, hquotes.same.outbox]
    exact hrecorded.queue messageId text htext
  · intro work hwork dispatch hsending
    rw [outbox_settle, hquotes.same.outbox]
    rw [works_settle, hworks] at hwork
    rcases mem_append.mp hwork with hold | hnew
    · exact hrecorded.packets work (mem_cons_of_mem _ hold) dispatch hsending
    · rcases hquotes.packets work hnew dispatch hsending with
        hsource | ⟨text, htext, hlength⟩
      · exact hrecorded.packets source mem_cons_self dispatch hsource
      · exact ⟨text, hrecorded.queue _ text htext, hlength⟩

/-- Which coroutines are suspended counts, not in which order. -/
theorem Recorded.of_works {works works' : List Work}
    (hrecorded : node.Recorded works)
    (hworks : ∀ work ∈ works', work.sending? = none ∨ work ∈ works) :
    node.Recorded works' := by
  refine ⟨hrecorded.queue, fun work hwork dispatch hsending => ?_⟩
  rcases hworks work hwork with hnone | hold
  · cases hnone.symm.trans hsending
  · exact hrecorded.packets work hold dispatch hsending

section

variable (hrecorded : node.Recorded node.works)

include hrecorded

theorem Recorded.sendMessage
    (peerId : PeerId) (messageId : MessageId) (plaintext : Bytes) :
    (node.handle P (.sendMessage peerId messageId plaintext)).settle.Recorded
      (node.handle P (.sendMessage peerId messageId
        plaintext)).settle.works := by
  simp only [handle]
  split
  · exact hrecorded
  · next hfresh =>
    have hnone : node.outbox.get? messageId = none := by
      simp only [drawn, Bool.or_eq_true, not_or, Bool.not_eq_true] at hfresh
      exact (contains_eq_false_iff ..).mp hfresh.1.2
    constructor
    · intro other text htext
      rw [queue_settle] at htext
      rw [outbox_settle]
      simp only [textOf, enqueue, get?_set] at htext ⊢
      split at htext
      · next heq =>
        rw [if_pos heq]
        exact htext
      · next hne =>
        rw [if_neg hne]
        exact hrecorded.queue other text htext
    · intro work hwork dispatch hsending
      rw [outbox_settle]
      rw [works_settle] at hwork
      rcases mem_append.mp hwork with hold | hnew
      · obtain ⟨text, htext, hlength⟩ :=
          hrecorded.packets work hold dispatch hsending
        refine ⟨text, ?_, hlength⟩
        rw [get?_set, if_neg]
        · exact htext
        · rintro rfl
          cases hnone.symm.trans htext
      · cases mem_singleton.mp hnew
        cases hsending

theorem Recorded.call (call : MessagingCall) :
    (node.handle P call).settle.Recorded (node.handle P call).settle.works := by
  by_cases hcall : ∃ peerId messageId text,
      call = .sendMessage peerId messageId text
  · obtain ⟨peerId, messageId, text, rfl⟩ := hcall
    exact hrecorded.sendMessage peerId messageId text
  · have hwith : node.Recorded (.receiptStored :: node.works) := by
      refine hrecorded.of_works fun work hwork => ?_
      rcases mem_cons.mp hwork with rfl | hold
      · exact .inl rfl
      · exact .inr hold
    refine hwith.settle (quotes_handle node ?_) ?_
    · intro peerId messageId text heq
      exact hcall ⟨peerId, messageId, text, heq⟩
    · exact congrArg (map MessagingTask.work)
        (alone_handle P node call).tasks_eq

theorem Recorded.resume (index : Nat)
    (now : ℚ) : (node.resume P index now).Recorded
      (node.resume P index now).works := by
  have hstep := resumeStep P node index now
  generalize node.resume P index now = node' at hstep ⊢
  cases hstep with
  | idle => exact hrecorded
  | commit htask =>
    refine ⟨hrecorded.queue, ?_⟩
    unfold works
    rw [works_commit htask]
    exact hrecorded.packets
  | @run task htask hover =>
    have hmem := works_perm htask
    have hrest : Recorded { node with tasks := node.tasks.eraseIdx index }
        (task.work :: (node.tasks.eraseIdx index).map MessagingTask.work) := by
      refine ⟨hrecorded.queue, fun work hwork => ?_⟩
      exact hrecorded.packets work (hmem.mem_iff.mp hwork)
    refine hrest.settle (quotes_resumeWork _ now task.work) ?_
    exact congrArg (map MessagingTask.work)
      (alone_resumeWork P _ now task.work).tasks_eq

end

/-- A new process reads the texts from the outbox. -/
theorem Recorded.restart (endpoints : OrderedDict PeerId Address)
    (known : PeerId → Bool) : (node.restart endpoints known).Recorded
      (node.restart endpoints known).works := by
  constructor
  · intro messageId text htext
    obtain ⟨hqueue, -⟩ := get?_restore node.outbox
      (node.db.durable Tables.apply) messageId
    simp only [Messaging.restart, textOf, hqueue] at htext ⊢
    obtain ⟨_, hentry, rfl⟩ := map_eq_some_iff.mp htext
    obtain ⟨_, -, hrestored⟩ := bind_eq_some_iff.mp hentry
    unfold restoredEntry at hrestored
    split at hrestored
    · next hloaded =>
      cases hrestored
      cases hout : node.outbox.get? messageId with
      | none => simp [hout] at hloaded
      | some => rfl
    · cases hrestored
  · intro work hwork
    cases hwork

theorem Recorded.step (hrecorded : node.Recorded node.works)
    (event : MessagingEvent) :
    (node.step P event).Recorded (node.step P event).works := by
  cases event with
  | call call => exact hrecorded.call call
  | resume index now => exact hrecorded.resume index now
  | execute => exact ⟨hrecorded.queue, hrecorded.packets⟩
  | restart endpoints known => exact Recorded.restart endpoints known

theorem recorded_run (P : Primitives) (events : List MessagingEvent) :
    (run (step P) {} events).Recorded (run (step P) {} events).works := by
  have hstep : ∀ (node : Messaging) event, node.Recorded node.works →
      (node.step P event).Recorded (node.step P event).works :=
    fun _ event hrecorded => hrecorded.step event
  refine inv_run hstep ⟨?_, ?_⟩ events
  · simp [textOf, get?_empty]
  · simp [works]

theorem sendText_of_ok {text : Text} {plaintext : Bytes}
    (hencode : encodeUtf8 text = .ok plaintext) (node : Messaging)
    (peerId : PeerId) (messageId : MessageId) :
    node.sendText P peerId messageId text =
      (node.step P (.call (.sendMessage peerId messageId plaintext)),
        none) := by
  simp only [sendText, hencode]

/-- What an event of one process does to the texts: nothing, or it adds one
under a new id. -/
theorem texts_step (node : Messaging) {event : MessagingEvent}
    (hevent : ∀ endpoints known, event ≠ .restart endpoints known) :
    node.SameTexts (node.step P event) ∨
      ∃ peerId messageId text, node.drawn messageId = false ∧
        (node.step P event).queue = node.queue.enqueue messageId peerId text ∧
        (node.step P event).outbox = node.outbox.set messageId text := by
  cases event with
  | execute => exact .inl ⟨fun _ => rfl, rfl⟩
  | restart endpoints known => exact absurd rfl (hevent endpoints known)
  | resume index now =>
    have hstep := resumeStep P node index now
    simp only [step]
    generalize node.resume P index now = node' at hstep ⊢
    cases hstep with
    | idle => exact .inl (.refl node)
    | commit => exact .inl ⟨fun _ => rfl, rfl⟩
    | @run task htask hover =>
      have hsame := (quotes_resumeWork (P := P) { node with
        tasks := node.tasks.eraseIdx index } now task.work).same
      refine .inl ⟨?_, ?_⟩
      · rw [queue_settle]
        exact hsame.texts
      · rw [outbox_settle]
        exact hsame.outbox
  | call call =>
    rw [step, queue_settle, outbox_settle]
    by_cases hcall : ∃ peerId messageId text,
        call = .sendMessage peerId messageId text
    · obtain ⟨peerId, messageId, text, rfl⟩ := hcall
      simp only [handle]
      split
      · exact .inl (.refl node)
      · next hfresh =>
        exact .inr ⟨peerId, messageId, text, by simpa using hfresh, rfl, rfl⟩
    · have hsame := (quotes_handle (P := P) node fun peerId messageId text
        heq => hcall ⟨peerId, messageId, text, heq⟩).same
      refine .inl ⟨?_, ?_⟩
      · rw [queue_settle]
        exact hsame.texts
      · rw [outbox_settle]
        exact hsame.outbox

section Kept

variable {messageId : MessageId} {text : Bytes}

/-- The outbox never forgets a text, and no second message gets its id. -/
theorem outbox_step (hkept : node.outbox.get? messageId = some text)
    (event : MessagingEvent) :
    (node.step P event).outbox.get? messageId = some text := by
  by_cases hevent : ∃ endpoints known, event = .restart endpoints known
  · obtain ⟨endpoints, known, rfl⟩ := hevent
    exact hkept
  · rcases texts_step (P := P) node fun endpoints known heq =>
      hevent ⟨endpoints, known, heq⟩ with hsame | ⟨_, _, _, hfresh, -, hout⟩
    · rw [hsame.outbox]
      exact hkept
    · rw [hout, get?_set, if_neg]
      · exact hkept
      · rintro rfl
        simp [drawn, OrderedDict.contains, hkept] at hfresh

/-- Neither does the queue of a process. -/
theorem textOf_step (hkept : node.queue.textOf messageId = some text)
    {event : MessagingEvent}
    (hevent : ∀ endpoints known, event ≠ .restart endpoints known) :
    (node.step P event).queue.textOf messageId = some text := by
  rcases texts_step (P := P) node hevent with
    hsame | ⟨_, _, _, hfresh, hqueue, -⟩
  · rw [hsame.texts]
    exact hkept
  · rw [textOf] at hkept ⊢
    obtain ⟨_, hget, -⟩ := map_eq_some_iff.mp hkept
    rw [hqueue, enqueue, get?_set, if_neg]
    · exact hkept
    · rintro rfl
      simp [drawn, OrderedDict.contains, hget] at hfresh

end Kept

section Fits

variable {messageId : MessageId} {text : Bytes} {index : Nat} {work : Work}

theorem mem_works_of_due (hdue : node.due index = some work) :
    work ∈ node.works := by
  unfold due at hdue
  split at hdue
  · next htask =>
    split at hdue
    · cases hdue
      exact mem_map_of_mem (mem_of_getElem? htask)
    · cases hdue
  · next htask =>
    cases hdue
    exact mem_map_of_mem (mem_of_getElem? htask)
  · cases hdue

theorem seals_of_inRange {session : Session} (hrange : inRange session = true)
    (hlength : text.length ≤ maxPlaintext) : session.Seals text := by
  simp only [inRange, Bool.and_eq_true, beq_iff_eq, decide_eq_true_eq] at hrange
  exact ⟨⟨hrange.1.1, hrange.1.2⟩, hrange.2, encryptable_of_le hlength⟩

/-- `send_message` gets its packet. -/
theorem build_succeeds
    (hfits : ∀ found, node.queue.textOf messageId = some found →
      found.length ≤ maxPlaintext) {peerId : PeerId} {ref : Nat}
    (hrange : node.registry.objects[ref]?.all inRange = true) (now : ℚ)
    (other : PeerId) :
    (node.resumeWork P now (.enqueued peerId messageId (some ref))).next ≠
      .raised other := by
  have hbuild := buildStep P node messageId ref now (.send peerId)
  simp only [resumeWork]
  generalize node.build P messageId ref now (.send peerId) = result at hbuild ⊢
  cases hbuild with
  | nothing | started => rintro ⟨⟩
  | error hready hrefused =>
    rw [hready.object_eq, all_some] at hrange
    refine absurd (seals_of_inRange hrange (hfits _ ?_)) hrefused
    rw [textOf, hready.entry_eq, map_some]

/-- The packet fits the frame. -/
theorem serialize_of_sending (hrecorded : node.Recorded node.works)
    (htext : node.outbox.get? messageId = some text)
    (hlength : text.length ≤ maxPlaintext) (hmem : work ∈ node.works)
    {dispatch : Dispatch} (hsending : work.sending? = some dispatch)
    (hmessage : dispatch.messageId = messageId) :
    ∃ data, dispatch.packet.serialize = .ok data := by
  obtain ⟨_, hfound, hpayload⟩ := hrecorded.packets work hmem dispatch hsending
  rw [hmessage] at hfound
  cases htext.symm.trans hfound
  refine Packet.serialize_of_le ?_
  rw [hpayload]
  unfold maxPlaintext at hlength
  unfold maxPayloadSize at hlength ⊢
  omega

/-- Once it has its packet, `send_message` does not raise. -/
theorem resume_sending {dispatch : Dispatch} {data : Bytes}
    (hsending : work.sending? = some dispatch)
    (hdata : dispatch.packet.serialize = .ok data) (now : ℚ) (peerId : PeerId) :
    (node.resumeWork P now work).next ≠ .raised peerId := by
  cases work with
  | sequenceStored | numberStored => rintro ⟨⟩
  | statusStored =>
    simp only [Work.sending?] at hsending
    split at hsending
    · next _ hcaller =>
      cases hsending
      simp only [resumeWork, afterDispatch, hcaller, hdata]
      split <;> rintro ⟨⟩
    · cases hsending
  | _ => cases hsending

theorem sends_cases (hsends : work.sends messageId = true) :
    (∃ peerId ref, work = .enqueued peerId messageId (some ref)) ∨
      ∃ dispatch, work.sending? = some dispatch ∧
        dispatch.messageId = messageId := by
  unfold Work.sends at hsends
  split at hsends
  · next peerId _ ref =>
    cases eq_of_beq hsends
    exact .inl ⟨peerId, ref, rfl⟩
  · obtain ⟨dispatch, hsending, hmessage⟩ := (any_eq_true _ _).mp hsends
    exact .inr ⟨dispatch, hsending, eq_of_beq hmessage⟩

theorem sendSucceeds_of_recorded (hrecorded : node.Recorded node.works)
    (htext : node.outbox.get? messageId = some text)
    (hlength : text.length ≤ maxPlaintext) {event : MessagingEvent}
    (hrange : buildsInRange messageId node event = true) :
    SendSucceeds P messageId node event := by
  cases event with
  | call | execute | restart => trivial
  | resume _ now =>
    intro work hdue hsends
    have hmem := mem_works_of_due hdue
    rcases sends_cases hsends with ⟨_, _, rfl⟩ | ⟨_, hsending, hmessage⟩
    · simp only [buildsInRange, hdue, bne_self_eq_false,
        Bool.false_or] at hrange
      have hqueue : ∀ found, node.queue.textOf messageId = some found →
          found.length ≤ maxPlaintext := by
        intro found hfound
        cases htext.symm.trans (hrecorded.queue messageId found hfound)
        exact hlength
      refine ⟨fun other => ?_, by rintro _ ⟨⟩⟩
      unfold dueStretch
      apply build_succeeds
      · exact hqueue
      · exact hrange
    · obtain ⟨data, hdata⟩ := serialize_of_sending hrecorded htext hlength
        hmem hsending hmessage
      refine ⟨fun other => resume_sending hsending hdata now other, ?_⟩
      rintro found rfl
      simp only [Work.sending?] at hsending
      split at hsending
      · cases hsending
        exact ⟨data, hdata⟩
      · cases hsending

end Fits

/-- A text whose encoding one packet holds is sent or refused as a whole.  If
it has no encoding, `send_message` raises before it does anything.  Otherwise
no stretch of the coroutine raises, whatever the node does in between, and the
packet it hands to the transport is serialised. -/
theorem send_message_sent_or_refused {P : Primitives} {node : Messaging}
    {before : List MessagingEvent} (hreach : node = run (step P) {} before)
    (peerId : PeerId) {messageId : MessageId}
    (hfresh : node.drawn messageId = false) (text : Text)
    (hfits : ∀ plaintext, encodeUtf8 text = .ok plaintext →
      plaintext.length ≤ 65503)
    (after : List MessagingEvent)
    (hrange : EveryStep (step P)
      (fun node event => buildsInRange messageId node event = true)
      (node.sendText P peerId messageId text).1 after) :
    (∃ err, node.sendText P peerId messageId text = (node, some err)) ∨
      ((node.sendText P peerId messageId text).2 = none ∧
        EveryStep (step P) (SendSucceeds P messageId)
          (node.sendText P peerId messageId text).1 after) := by
  cases hencode : encodeUtf8 text with
  | error err => exact .inl ⟨err, by simp only [sendText, hencode]⟩
  | ok plaintext =>
    rw [sendText_of_ok hencode] at hrange ⊢
    refine .inr ⟨rfl, ?_⟩
    have hrecorded := recorded_run P before
    rw [← hreach] at hrecorded
    have htext : (node.step P (.call (.sendMessage peerId messageId
        plaintext))).outbox.get? messageId = some plaintext := by
      rw [step, outbox_settle]
      simp [handle, hfresh]
    -- From here on the outbox names the text, and every packet carries it.
    have hkeep : ∀ (node : Messaging) event, node.Recorded node.works ∧
          node.outbox.get? messageId = some plaintext →
        (node.step P event).Recorded (node.step P event).works ∧
          (node.step P event).outbox.get? messageId = some plaintext :=
      fun _ event hinv => ⟨hinv.1.step event, outbox_step hinv.2 event⟩
    have hstart := hrecorded.step (P := P)
      (.call (.sendMessage peerId messageId plaintext))
    refine everyStep_imp hkeep ?_ ⟨hstart, htext⟩ hrange
    exact fun _ _ hinv => sendSucceeds_of_recorded hinv.1 hinv.2
      (hfits plaintext hencode)

section Oversize

variable {peerId : PeerId} {messageId : MessageId} {plaintext : Bytes}
  {ref : Nat} {session : Session}

/-- The message is in the queue and in the outbox. -/
def withMessage (node : Messaging) (peerId : PeerId) (messageId : MessageId)
    (plaintext : Bytes) : Messaging :=
  { node with
    queue := node.queue.enqueue messageId peerId plaintext
    outbox := node.outbox.set messageId plaintext }

/-- Its row is stored. -/
def afterEnqueue (node : Messaging) (peerId : PeerId) (messageId : MessageId)
    (plaintext : Bytes) : Messaging :=
  (node.withMessage peerId messageId plaintext).afterWrite
    (.enqueueMessage messageId peerId)

/-- The events of one `send_message` that nothing interrupts, after its call. -/
def sendingAlone (index : Nat) (now : ℚ) : List MessagingEvent :=
  storageCall index now ++ dispatching index now

theorem run_enqueued (hidle : node.db.Idle)
    (hfresh : node.drawn messageId = false)
    (hsession : node.registry.getByPeerId peerId = some (ref, session))
    (now : ℚ) :
    run (step P) (node.step P (.call (.sendMessage peerId messageId plaintext)))
        (storageCall node.tasks.length now) =
      ((node.afterEnqueue peerId messageId plaintext).resumeWork P now
        (.enqueued peerId messageId (some ref))).settle := by
  simp only [step, handle, hfresh, Bool.false_eq_true, ↓reduceIte, hsession,
    map_some]
  have hwith : (node.withMessage peerId messageId plaintext).db.Idle := hidle
  exact run_storageCall hwith now

/-- The message is built under the session's number. -/
theorem resume_enqueued
    (hsession : node.registry.getByPeerId peerId = some (ref, session))
    (hseals : session.Seals plaintext) (now : ℚ) :
    ∃ packet : Packet, packet.payload.length = plaintext.length + 32 ∧
      ((node.afterEnqueue peerId messageId plaintext).resumeWork P now
          (.enqueued peerId messageId (some ref))).settle =
        ((node.afterEnqueue peerId messageId plaintext).dispatched messageId
          ref session now).starting
            ⟨messageId, session.sessionId, session.sendSequence, packet,
              .send peerId⟩ := by
  have hready : (node.afterEnqueue peerId messageId plaintext).Ready messageId
      ref ⟨peerId, .queued, 0, plaintext, none, none⟩ session :=
    ⟨get?_set_self .., rfl, (getByPeerId_eq_some hsession).2⟩
  have hbuild := buildStep P (node.afterEnqueue peerId messageId plaintext)
    messageId ref now (.send peerId)
  simp only [resumeWork]
  generalize build P (node.afterEnqueue peerId messageId plaintext) messageId
    ref now (.send peerId) = result at hbuild ⊢
  cases hbuild with
  | nothing hnot => exact absurd hready (hnot _ _)
  | error hfound hrefused =>
    cases hready.object_eq.symm.trans hfound.object_eq
    cases hready.entry_eq.symm.trans hfound.entry_eq
    exact absurd hseals hrefused
  | @started entry found packet hfound hpacket =>
    cases hready.object_eq.symm.trans hfound.object_eq
    cases hready.entry_eq.symm.trans hfound.entry_eq
    exact ⟨packet, hpacket, rfl⟩

/-- The transport refuses a packet that is too long, and the coroutine raises
with everything done. -/
theorem run_oversize (hidle : node.db.Idle)
    (hfresh : node.drawn messageId = false)
    (hsession : node.registry.getByPeerId peerId = some (ref, session))
    (hendpoint : node.endpoints.contains peerId = true)
    (hseals : session.Seals plaintext)
    (hlong : maxPlaintext < plaintext.length) (now : ℚ) :
    ∃ packet : Packet, run (step P)
        (node.step P (.call (.sendMessage peerId messageId plaintext)))
        (sendingAlone node.tasks.length now) =
      (((node.afterEnqueue peerId messageId plaintext).dispatched messageId
        ref session now).afterWrites ⟨messageId, session.sessionId,
          session.sendSequence, packet, .send peerId⟩).raise peerId := by
  obtain ⟨packet, hpacket, hbuilt⟩ := resume_enqueued hsession hseals now
  refine ⟨packet, ?_⟩
  have herror : packet.serialize = .error .structError := by
    refine Packet.serialize_of_gt ?_
    rw [hpacket]
    unfold maxPlaintext at hlong
    unfold maxPayloadSize at hlong ⊢
    omega
  have hbuiltIdle : ((node.afterEnqueue peerId messageId plaintext).dispatched
      messageId ref session now).db.Idle := by
    have hwith : (node.withMessage peerId messageId plaintext).db.Idle := hidle
    exact idle_afterWrite hwith _
  rw [sendingAlone, run_append, run_enqueued hidle hfresh hsession, hbuilt]
  refine (run_dispatching hbuiltIdle _ now).trans ?_
  have hknown : (((node.afterEnqueue peerId messageId plaintext).dispatched
      messageId ref session now).afterWrites ⟨messageId, session.sessionId,
        session.sendSequence, packet, .send peerId⟩).endpoints.contains
          peerId = true := hendpoint
  simp only [afterDispatch, herror, hknown, ↓reduceIte]
  rfl

/-- What the exception leaves behind: a pending entry with a number, a row that
says the same, and a counter that has moved on. -/
theorem oversize_leaves_traces (hidle : node.db.Idle)
    (hfresh : node.drawn messageId = false)
    (hsession : node.registry.getByPeerId peerId = some (ref, session))
    (hendpoint : node.endpoints.contains peerId = true)
    (hseals : session.Seals plaintext)
    (hlong : maxPlaintext < plaintext.length) (now : ℚ) {final : Messaging}
    (hfinal : final = run (step P)
      (node.step P (.call (.sendMessage peerId messageId plaintext)))
      (sendingAlone node.tasks.length now)) :
    final.raised = node.raised ++ [peerId] ∧ final.queue.get? messageId =
        some ⟨peerId, .pending, 0, plaintext, some session.sendSequence,
          some now⟩ ∧
      final.registry.objects[ref]? = some session.nextSequence.2 ∧
      final.stored.messages.get? messageId =
        some ⟨peerId, "pending", 0, some session.sendSequence⟩ := by
  obtain ⟨_, hrun⟩ := run_oversize hidle hfresh hsession hendpoint hseals
    hlong now
  rw [hrun] at hfinal
  subst hfinal
  refine ⟨rfl, ?_, ?_, ?_⟩
  · change get? (modify (node.queue.enqueue messageId
      peerId plaintext) messageId _) messageId = _
    rw [get?_modify, if_pos rfl, enqueue, get?_set_self]
    rfl
  · have hobject := (getByPeerId_eq_some hsession).2
    obtain ⟨hlt, -⟩ := List.getElem?_eq_some_iff.mp hobject
    exact getElem?_set_self hlt
  · change (stored (afterWrites _ _)).messages.get? messageId = _
    have hstored : stored ((node.afterEnqueue peerId messageId
        plaintext).dispatched messageId ref session now) =
          node.stored.apply (.enqueueMessage messageId peerId) :=
      stored_afterWrite ..
    simp [afterWrites, numbered, counted, hstored, Tables.apply,
      Tables.modifyMessage, Tables.modifySession]

end Oversize

end Messaging

namespace OversizeSendWitness

open Messaging Reference

/-- A node with one session and nothing to do. -/
def connected : Messaging := run (step primitives) {} opening

def session : Session := .ofKeys keys

theorem connected_idle : connected.db.Idle := by
  unfold Connection.Idle
  decide +kernel

theorem connected_session :
    connected.registry.getByPeerId peer = some (0, session) := by
  decide +kernel

/-- A short text is sent while nothing else happens. -/
theorem send_message_sent_or_refused_short : connected.drawn 1 = false ∧
      encodeUtf8 [104, 105] = .ok [104, 105] ∧
      ((∃ err, connected.sendText primitives peer 1 [104, 105] =
          (connected, some err)) ∨
        ((connected.sendText primitives peer 1 [104, 105]).2 = none ∧
          EveryStep (step primitives) (SendSucceeds primitives 1)
            (connected.sendText primitives peer 1 [104, 105]).1
            (sendingAlone 0 0))) := by
  have hencode : encodeUtf8 [104, 105] = .ok [104, 105] := by decide +kernel
  refine ⟨by decide +kernel, hencode, ?_⟩
  refine send_message_sent_or_refused (P := primitives) rfl peer
    (by decide +kernel) [104, 105] ?_ (sendingAlone 0 0) (by decide +kernel)
  intro plaintext hplaintext
  cases hencode.symm.trans hplaintext
  decide

/-- One letter more than a packet holds. -/
def long : Text := replicate 65504 97

theorem encodeUtf8_replicate (count : Nat) :
    encodeUtf8 (replicate count 97) = .ok (replicate count 97) := by
  induction count with
  | zero => rfl
  | succ _ ih =>
    have hpoint : encodePoint 97 = .ok [97] := by decide +kernel
    simp [replicate_succ, encodeUtf8, hpoint, ih, bind, Except.bind, pure,
      Except.pure]

/-- The text is refused by the transport when all else has been done. -/
theorem long_message_leaves_traces :
    (connected.sendText primitives peer 1 long).2 = none ∧
      connected.raised = [] ∧
      connected.queue.get? 1 = none ∧
      connected.stored.messages.get? 1 = none ∧
      connected.registry.objects[0]?.map Session.sendSequence = some 1 ∧
      ∃ final, final = run (step primitives)
          (connected.sendText primitives peer 1 long).1
          (sendingAlone 0 0) ∧
        final.raised = [peer] ∧
        (final.queue.get? 1).map QueueEntry.status = some .pending ∧
        final.stored.messages.get? 1 = some ⟨peer, "pending", 0, some 1⟩ ∧
        final.registry.objects[0]?.map Session.sendSequence = some 2 := by
  have hencode : encodeUtf8 long = .ok (replicate 65504 97) :=
    encodeUtf8_replicate 65504
  rw [sendText_of_ok hencode]
  have hseals : session.Seals (replicate 65504 97) := by
    refine ⟨⟨by decide +kernel, by decide +kernel⟩, by decide +kernel, ?_⟩
    unfold Encryptable
    rw [length_replicate]
    decide
  have hlong : maxPlaintext < (replicate 65504 (97 : UInt8)).length := by
    rw [length_replicate]
    decide
  have htasks : connected.tasks.length = 0 := by decide +kernel
  obtain ⟨hraised, hentry, hobject, hrow⟩ := oversize_leaves_traces (P :=
    primitives) connected_idle (by decide +kernel : connected.drawn 1 = false)
    connected_session (by decide +kernel) hseals hlong 0 rfl
  rw [htasks] at hraised hentry hobject hrow
  refine ⟨rfl, by decide +kernel, by decide +kernel, by decide +kernel,
    by decide +kernel, _, rfl, hraised, ?_, hrow, ?_⟩
  · rw [hentry]
    rfl
  · rw [hobject]
    rfl

end OversizeSendWitness

end AshiChat
