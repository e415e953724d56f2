/-
One conversation: `send_message` calls to a peer, the handshake with its flush,
and the peer that displays what it gets.  The link neither loses nor reorders
packets, and no message times out.  Numbers are drawn when a packet is built,
not when a message is enqueued, and the flush awaits between its messages, so a
`send_message` that finds the session can build before older messages are
flushed.  Where it does not, the callbacks see the messages in the order of the
`send_message` calls.
-/
import AshiChat.Sequencing
import AshiChat.Kit.TurnQueue

namespace AshiChat

open QueueManager EventRun List SessionRegistry Keeps OrderedDict Messaging

namespace Messaging

variable (P : Primitives)

/-- The packet of a dispatch.  It was made before the three writes; since then
neither the text of the message nor the key of the session has changed. -/
def packet (node : Messaging) (dispatch : Dispatch) : Option DataPayload :=
  match node.queue.get? dispatch.messageId,
      node.registry.objects.find? (·.sessionId == dispatch.sessionId) with
  | some entry, some session =>
    match sealData P session dispatch.seq entry.plaintext with
    | .ok sealed => some sealed.payload
    | .error _ => none
  | _, _ => none

/-- The dispatch whose packet the coroutine hands to the transport when it is
resumed. -/
def handedOver (node : Messaging) (index : Nat) (now : ℚ) : Option Dispatch :=
  match node.tasks[index]? with
  | some ⟨_, .statusStored dispatch⟩ =>
    if (node.resume P index now).sent = node.sent then none
    else some dispatch
  | _ => none

/-- The DATA packets that an event puts on the link; a SYNC is answered at
once. -/
def emitted (node : Messaging) : MessagingEvent → List DataPayload
  | .resume index now =>
    ((node.handedOver P index now).bind (node.packet P)).toList
  | .call (.handleSync sync now) =>
    match node.registry.getBySessionId sync.sessionId with
    | none => []
    | some (_, session) =>
      (resendMissed P session sync.sequenceNumber now node.queue
        node.queue.entries).sent.map fun resent => resent.2.sealed.payload
  | _ => []

/-- The message that an event enqueues. -/
def accepted (node : Messaging) : MessagingEvent → List Bytes
  | .call (.sendMessage _ messageId plaintext) =>
    if node.drawn messageId then [] else [plaintext]
  | _ => []

end Messaging

/-- The sender, the link, and the receiver with its `_handle_data` calls, each
under the number and the text of its packet.  `keys` are those of the
handshake, and `enqueued` records the texts of the `send_message` calls. -/
structure Conversation where
  keys : SessionKeys
  sender : Messaging
  receiver : Session
  link : List DataPayload := []
  handlers : TurnQueue (Nat × Bytes) := .empty
  enqueued : List Bytes := []

/-- `handleData` takes the oldest packet off the link, and `refuse` drops it
for the rate limit; `answer` is an answer of the receiver's database. -/
inductive ConversationEvent where
  | sender (event : MessagingEvent)
  | handleData
  | refuse
  | answer

namespace Conversation

variable (P : Primitives)

def peer (conv : Conversation) : PeerId := conv.keys.remotePeerId

/-- What the `on_message_received` callbacks have seen. -/
def displayed (conv : Conversation) : List Bytes :=
  conv.handlers.finished.map Prod.snd

/-- The awaits of `_handle_data` before the callbacks: the statement and the
commit of `update_recv_sequence` and of `remember_endpoint`. -/
def handlerAwaits : Nat := 4

/-- Messages go to the one peer, there is one handshake, the process goes on,
and no ACK is overdue. -/
def admits (conv : Conversation) : MessagingEvent → Bool
  | .call (.sendMessage peerId _ _) => peerId = conv.peer
  | .call (.handleHello keys) | .call (.handleHelloAck keys _) =>
    keys = conv.keys && conv.sender.registry.objects.isEmpty
  | .call (.retryPass now) =>
    (conv.sender.queue.getTimedOutMessages now).isEmpty
  | .call (.handlePeerDisconnect _) | .restart .. => false
  | _ => true

def send (conv : Conversation) (event : MessagingEvent) : Conversation :=
  { conv with
    sender := conv.sender.step P event
    link := conv.link ++ conv.sender.emitted P event
    enqueued := conv.enqueued ++ conv.sender.accepted event }

/-- `_handle_data` at the receiver, up to its first await. -/
def receive (conv : Conversation) (payload : DataPayload) : Conversation :=
  if payload.sessionId = conv.receiver.sessionId then
    match decryptDataPacket P payload conv.receiver with
    | (.ok (some plaintext), receiver) =>
      { conv with
        receiver := receiver
        handlers := conv.handlers.join (payload.sequenceNumber, plaintext) }
    | (_, receiver) => { conv with receiver := receiver }
  else conv

def step (conv : Conversation) : ConversationEvent → Conversation
  | .sender event => if conv.admits event then conv.send P event else conv
  | .handleData =>
    match conv.link with
    | [] => conv
    | payload :: rest => receive P { conv with link := rest } payload
  | .refuse => { conv with link := conv.link.tail }
  | .answer => { conv with handlers := conv.handlers.serve handlerAwaits }

/-- A `send_message` that goes on after `enqueue_message` finds no older
message to the peer still QUEUED, or its own no longer. -/
def inTurn (conv : Conversation) : ConversationEvent → Bool
  | .sender (.resume index _) =>
    match conv.sender.tasks[index]? with
    | some ⟨.executing _, _⟩ => true
    | some ⟨_, .enqueued _ messageId (some _)⟩ =>
      let queued := conv.sender.queue.getQueuedForPeer conv.peer
      messageId ∉ queued || queued.head? == some messageId
    | _ => true
  | _ => true

/-- A new process with nothing queued, and the peer's end of the session. -/
def start (keys : SessionKeys) (endpoints : OrderedDict PeerId Address)
    (floors : SequenceFloors) (localId : PeerId) (recvSequence : Nat) :
    Conversation where
  keys := keys
  sender := { endpoints := endpoints, floors := floors }
  receiver := { Session.ofKeys keys with
    remotePeerId := localId
    recvSequence := recvSequence }

end Conversation

namespace Conversation

open Messaging

variable {conv : Conversation} {works : List Work}

theorem advances_registerSession
    (horderly : conv.sender.Orderly conv.keys works)
    (hnone : conv.sender.registry.objects = []) {work : Work}
    (hwork : work.InTurn conv.peer conv.sender.queue.slips) :
    Advances conv.keys conv.sender works []
      (conv.sender.registerSession conv.keys work) := by
  have hsession := applySequenceFloors_identity conv.sender.floors
    (Session.ofKeys conv.keys)
  unfold registerSession
  generalize applySequenceFloors conv.sender.floors
    (Session.ofKeys conv.keys) = result at hsession ⊢
  obtain ⟨session, floors⟩ := result
  dsimp only
  split
  · exact horderly.ends rfl rfl rfl
  · next registry hregister =>
    have hobjects : registry.objects = [session] := by
      rw [objects_register hregister, hnone, nil_append]
    rw [Orderly, hnone] at horderly
    have hopen := horderly.register hsession.1 hsession.2.1
    refine ⟨?_, refl _, (append_nil _).symm⟩
    simp only [Orderly, hobjects]
    exact hopen.withWork hwork

variable (P : Primitives)

section

variable (horderly : conv.sender.Orderly conv.keys works)

include horderly

/-- The decrypting session keeps its send counter. -/
theorem advances_handleData (payload : DataPayload) :
    Advances conv.keys conv.sender works []
      (conv.sender.handle P (.handleData payload)) := by
  simp only [handle]
  split
  · exact horderly.ends rfl rfl rfl
  · next ref session hfound =>
    split
    · next _ hdecrypt =>
      have hobject := (getBySessionId_eq_some hfound).2
      obtain ⟨-, rfl⟩ := decryptDataPacket_eq_some hdecrypt
      have hupdated : Sequenced conv.keys conv.sender.queue.slips
          (conv.sender.registry.objects.set ref
            { session with recvSequence := payload.sequenceNumber })
          works :=
        horderly.update hobject rfl rfl le_rfl
      exact ⟨hupdated.withWork trivial, refl _, (append_nil _).symm⟩
    · exact horderly.ends rfl rfl rfl

theorem advances_sendMessage (messageId : MessageId) (plaintext : Bytes) :
    Advances conv.keys conv.sender works
      (conv.sender.accepted (.call (.sendMessage conv.peer messageId
        plaintext)))
      (conv.sender.handle P (.sendMessage conv.peer messageId plaintext)) := by
  simp only [handle, accepted]
  split
  · exact horderly.ends rfl rfl rfl
  · next hfresh =>
    simp only [Messaging.drawn, Bool.or_eq_true, not_or, Bool.not_eq_true,
      contains_eq_false_iff] at hfresh
    have hslips := slips_enqueue hfresh.1.1 conv.peer plaintext
    have hnew : messageId ∉ conv.sender.queue.slips.map Slip.messageId := by
      rw [map_messageId_slips]
      intro hmem
      obtain ⟨_, hbinding, rfl⟩ := mem_map.mp hmem
      cases hfresh.1.1.symm.trans (get?_eq_of_mem_entries _ hbinding)
    have hadded : Sequenced conv.keys (conv.sender.queue.slips ++
        [⟨messageId, conv.peer, plaintext, none, true⟩])
        conv.sender.registry.objects works :=
      horderly.add rfl rfl rfl hnew
    refine ⟨?_, ?_, ?_⟩
    · simp only [Orderly, hslips]
      exact hadded.withWork trivial
    · simp only [hslips]
      exact add _ _
    · simp [hslips]

/-- The first stretch of a call. -/
theorem advances_handle {call : MessagingCall}
    (hadmits : conv.admits (.call call) = true) :
    Advances conv.keys conv.sender works (conv.sender.accepted (.call call))
      (conv.sender.handle P call) := by
  cases call with
  | sendMessage _ messageId plaintext =>
    cases of_decide_eq_true hadmits
    exact advances_sendMessage P horderly messageId plaintext
  | handleHello =>
    obtain ⟨hkeys, hnone⟩ := Bool.and_eq_true_iff.mp hadmits
    cases of_decide_eq_true hkeys
    simp only [handle, accepted]
    split
    · exact horderly.ends rfl rfl rfl
    · exact advances_registerSession horderly (isEmpty_iff.mp hnone) trivial
  | handleHelloAck =>
    obtain ⟨hkeys, hnone⟩ := Bool.and_eq_true_iff.mp hadmits
    cases of_decide_eq_true hkeys
    exact advances_registerSession horderly (isEmpty_iff.mp hnone) trivial
  | handleData payload => exact advances_handleData P horderly payload
  | handleAck =>
    simp only [handle, accepted]
    split
    · next hack => exact horderly.goesOn (slips_handleAck hack) rfl rfl trivial
    · exact horderly.ends rfl rfl rfl
  | handleAppAck =>
    simp only [handle, accepted]
    split
    · exact horderly.ends rfl rfl rfl
    · split
      · next hack =>
        exact horderly.goesOn (slips_acknowledgeBySequence hack) rfl rfl trivial
      · exact horderly.ends rfl rfl rfl
  | handleSync =>
    simp only [handle, accepted]
    split
    · exact horderly.ends rfl rfl rfl
    · exact horderly.ends (slips_resendMissed ..) rfl rfl
  | retryPass =>
    simp only [handle, accepted]
    split
    · exact horderly.ends rfl rfl rfl
    · rw [isEmpty_iff.mp hadmits]
      exact horderly.ends rfl rfl rfl
  | handlePeerDisconnect => cases hadmits
  | setEndpoint => exact horderly.ends rfl rfl rfl
  | saveSession =>
    simp only [handle, accepted]
    split
    · exact horderly.ends rfl rfl rfl
    · exact horderly.goesOn rfl rfl rfl trivial

end

/-- The condition, where the coroutine can go on. -/
theorem head?_of_inTurn {index : Nat} {now : ℚ} {task : MessagingTask}
    (hturn : conv.inTurn (.sender (.resume index now)) = true)
    (htask : conv.sender.tasks[index]? = some task)
    (hover : task.await.Over conv.sender.db.executed) {peerId : PeerId}
    {messageId : MessageId} {ref : Nat}
    (hwork : task.work = .enqueued peerId messageId (some ref))
    (hwaits : messageId ∈ waiting conv.peer conv.sender.queue.slips) :
    (waiting conv.peer conv.sender.queue.slips).head? = some messageId := by
  obtain ⟨await, work⟩ := task
  cases hwork
  rcases hover with rfl | ⟨ticket, -, rfl⟩ <;>
    simpa [inTurn, htask, getQueuedForPeer_eq, hwaits] using hturn

/-- Whatever the sender does, its messages stay in sequence. -/
theorem progress_step
    (horderly : conv.sender.Orderly conv.keys conv.sender.works)
    {event : MessagingEvent} (hadmits : conv.admits event = true)
    (hturn : conv.inTurn (.sender event) = true) :
    Progress conv.keys conv.sender (conv.sender.accepted event)
      (conv.sender.step P event) := by
  cases event with
  | call call =>
    have halone := alone_handle P conv.sender call
    exact (advances_handle P horderly hadmits).settle
      (congrArg (map MessagingTask.work) halone.tasks_eq)
  | resume index now =>
    have hstep := resumeStep P conv.sender index now
    simp only [Messaging.step]
    generalize conv.sender.resume P index now = after at hstep ⊢
    cases hstep with
    | idle => exact ⟨horderly, refl _, (append_nil _).symm⟩
    | commit htask =>
      refine ⟨?_, refl _, (append_nil _).symm⟩
      simp only [works, works_commit htask]
      exact horderly
    | @run task htask hover =>
      -- The task goes on, and the others wait as they did.
      have hperm := works_perm htask
      have hwork := horderly.coroutines task.work
        (hperm.mem_iff.mp mem_cons_self)
      have hrest : Orderly
          { conv.sender with tasks := conv.sender.tasks.eraseIdx index }
          conv.keys
          ((conv.sender.tasks.eraseIdx index).map MessagingTask.work) :=
        horderly.withWorks fun work hmem => horderly.coroutines work
          (hperm.mem_iff.mp (mem_cons_of_mem _ hmem))
      have hadvances := hrest.resumeWork P now hwork
        (fun _ _ _ => head?_of_inTurn hturn htask hover)
      have halone := alone_resumeWork P
        { conv.sender with tasks := conv.sender.tasks.eraseIdx index } now
        task.work
      have hsettled := hadvances.settle
        (congrArg (map MessagingTask.work) halone.tasks_eq)
      exact ⟨hsettled.orderly, hsettled.keeps, hsettled.texts⟩
  | execute => exact ⟨horderly, refl _, (append_nil _).symm⟩
  | restart => cases hadmits

end Conversation

/-- The packet carries a numbered message, sealed under the session's key. -/
def Genuine (P : Primitives) (keys : SessionKeys) (slips : List Slip)
    (payload : DataPayload) : Prop :=
  ∃ text, Sent slips (payload.sequenceNumber, text) ∧
    payload.sequenceNumber < 2 ^ 32 ∧
    payload = sealPayload P (.ofKeys keys) payload.sequenceNumber text

namespace Messaging

variable {P : Primitives} {keys : SessionKeys} {node : Messaging}
  {works : List Work}

theorem genuine_of_sealData (hsized : (Session.ofKeys keys).Sized)
    {slips : List Slip} {session : Session}
    (hid : session.sessionId = keys.sessionId)
    (hkey : session.encryptionKey = keys.encryptionKey) {seq : Nat}
    {text : Bytes} (hsent : Sent slips (seq, text)) {sealed : SealedData}
    (hseal : sealData P session seq text = .ok sealed) :
    Genuine P keys slips sealed.payload := by
  obtain ⟨hseq, -, rfl⟩ := sealData_eq_ok (hsized.congr hid hkey) hseal
  refine ⟨text, hsent, hseq, ?_⟩
  have hsame : sealedWith P session seq text =
      sealedWith P (.ofKeys keys) seq text :=
    sealedWith_congr P hid hkey seq text
  exact congrArg SealedData.payload hsame

theorem genuine_packet (hsized : (Session.ofKeys keys).Sized)
    (horderly : node.Orderly keys works) {dispatch : Dispatch}
    (hdispatch : dispatch.InTurn keys.remotePeerId node.queue.slips)
    {payload : DataPayload} (hpacket : node.packet P dispatch = some payload) :
    Genuine P keys node.queue.slips payload := by
  unfold packet at hpacket
  split at hpacket
  · next entry session hentry hsession =>
    split at hpacket
    · next _ hseal =>
      cases hpacket
      obtain ⟨hid, hkey⟩ :=
        horderly.keyed session (mem_of_find?_eq_some hsession)
      obtain ⟨slip, hslip, hmessage, hnumber⟩ := hdispatch.numbered
      rw [← hmessage] at hentry
      have htext : slip.text = entry.plaintext := by
        rw [eq_ofBinding_of_mem_slips hslip hentry]
        rfl
      exact genuine_of_sealData hsized hid hkey
        ⟨slip, hslip, hnumber, htext⟩ hseal
    · cases hpacket
  · cases hpacket

theorem mem_works_of_handedOver {index : Nat} {now : ℚ} {dispatch : Dispatch}
    (hhanded : node.handedOver P index now = some dispatch) :
    .statusStored dispatch ∈ node.works := by
  unfold handedOver at hhanded
  split at hhanded
  · next htask =>
    split at hhanded
    · cases hhanded
    · cases hhanded
      exact mem_map_of_mem (mem_of_getElem? htask)
  · cases hhanded

theorem genuine_emitted (hsized : (Session.ofKeys keys).Sized)
    (horderly : node.Orderly keys node.works) {event : MessagingEvent}
    {payload : DataPayload} (hemitted : payload ∈ node.emitted P event) :
    Genuine P keys node.queue.slips payload := by
  unfold emitted at hemitted
  split at hemitted
  · next _ now =>
    obtain ⟨_, hhanded, hpacket⟩ :=
      Option.bind_eq_some_iff.mp (Option.mem_toList.mp hemitted)
    have hdispatch := horderly.coroutines _ (mem_works_of_handedOver hhanded)
    exact genuine_packet hsized horderly hdispatch hpacket
  · next sync now =>
    split at hemitted
    · cases hemitted
    · next _ session hsession =>
      obtain ⟨resent, hresent, rfl⟩ := mem_map.mp hemitted
      obtain ⟨_, _, hmem, hmissed, hseal⟩ := resendMissed_sound P session
        sync.sequenceNumber now (SameCore.refl node.queue) node.queue.entries
        (fun _ hitem => node.queue.get?_eq_of_mem_entries hitem) resent hresent
      have hobject := (getBySessionId_eq_some hsession).2
      obtain ⟨hid, hkey⟩ := horderly.keyed session (mem_of_getElem? hobject)
      exact genuine_of_sealData hsized hid hkey
        ⟨_, mem_map_of_mem hmem, hmissed.2.1, rfl⟩ hseal
  · cases hemitted

end Messaging

namespace Conversation

open Messaging

/-- The invariant of a conversation. -/
structure Sound (P : Primitives) (conv : Conversation) : Prop where
  sized : (Session.ofKeys conv.keys).Sized
  sender : conv.sender.Orderly conv.keys conv.sender.works
  texts : conv.sender.queue.slips.map Slip.text = conv.enqueued
  link : ∀ payload ∈ conv.link,
    Genuine P conv.keys conv.sender.queue.slips payload
  sessionId : conv.receiver.sessionId = conv.keys.sessionId
  encryptionKey : conv.receiver.encryptionKey = conv.keys.encryptionKey
  handlers : conv.handlers.Orderly Prod.fst handlerAwaits
  received : ∀ item ∈ conv.handlers.jobs,
    item.1 ≤ conv.receiver.recvSequence ∧ Sent conv.sender.queue.slips item

variable {P : Primitives} {conv : Conversation}

section

variable (hsound : conv.Sound P)

include hsound

theorem Sound.displayed_sublist : conv.displayed.Sublist conv.enqueued := by
  rw [← hsound.texts]
  refine texts_sublist hsound.sender.sequence.ordered hsound.handlers.finished
    fun item hitem => ?_
  exact (hsound.received item (mem_append_left _ hitem)).2

theorem Sound.send {event : MessagingEvent} (hadmits : conv.admits event = true)
    (hturn : conv.inTurn (.sender event) = true) :
    (conv.send P event).Sound P := by
  have hprogress := progress_step P hsound.sender hadmits hturn
  refine ⟨hsound.sized, hprogress.orderly, ?_, ?_, hsound.sessionId,
    hsound.encryptionKey, hsound.handlers, ?_⟩
  · simp only [Conversation.send, hprogress.texts, hsound.texts]
  · intro payload hpayload
    have hgenuine : Genuine P conv.keys conv.sender.queue.slips payload := by
      rcases mem_append.mp hpayload with hold | hnew
      · exact hsound.link payload hold
      · exact genuine_emitted hsound.sized hsound.sender hnew
    obtain ⟨text, hsent, hsealed⟩ := hgenuine
    exact ⟨text, hsent.of_keeps hprogress.keeps, hsealed⟩
  · intro item hitem
    obtain ⟨hcounter, hsent⟩ := hsound.received item hitem
    exact ⟨hcounter, hsent.of_keeps hprogress.keeps⟩

/-- A packet gives its text, unless its number was received before. -/
theorem Sound.decrypt (hideal : P.IdealAead) {payload : DataPayload}
    (hgenuine : Genuine P conv.keys conv.sender.queue.slips payload) :
    decryptDataPacket P payload conv.receiver = (.ok none, conv.receiver) ∨
      ∃ text, decryptDataPacket P payload conv.receiver =
          (.ok (some text), { conv.receiver with
            recvSequence := payload.sequenceNumber }) ∧
        conv.receiver.recvSequence < payload.sequenceNumber ∧
        Sent conv.sender.queue.slips (payload.sequenceNumber, text) := by
  obtain ⟨text, hsent, hseq, hpayload⟩ := hgenuine
  have hsized : conv.receiver.Sized :=
    hsound.sized.congr hsound.sessionId hsound.encryptionKey
  have hsame : sealedWith P (.ofKeys conv.keys) payload.sequenceNumber text =
      sealedWith P conv.receiver payload.sequenceNumber text :=
    sealedWith_congr P hsound.sessionId.symm hsound.encryptionKey.symm _ _
  have hown : payload =
      sealPayload P conv.receiver payload.sequenceNumber text :=
    hpayload.trans (congrArg SealedData.payload hsame)
  have hdecrypt := decryptDataPacket_sealPayload hideal.undoes hsized.keyed
    hseq text
  rw [← hown] at hdecrypt
  rw [hdecrypt]
  split
  · next hcheck =>
    have hlater : conv.receiver.recvSequence < payload.sequenceNumber := by
      simpa [Session.checkRecvSequence] using hcheck
    refine .inr ⟨text, ?_, hlater, hsent⟩
    rw [Session.advanceRecvSequence, if_pos hlater]
  · exact .inl rfl

theorem Sound.receive (hideal : P.IdealAead) {payload : DataPayload}
    (hgenuine : Genuine P conv.keys conv.sender.queue.slips payload) :
    (conv.receive P payload).Sound P := by
  unfold Conversation.receive
  split
  · rcases hsound.decrypt hideal hgenuine with
      hnone | ⟨_, hsome, hlater, hsent⟩
    · rw [hnone]
      exact hsound
    · rw [hsome]
      have hlast : ∀ item ∈ conv.handlers.jobs,
          item.1 < payload.sequenceNumber := fun item hitem =>
        (hsound.received item hitem).1.trans_lt hlater
      refine { hsound with
        handlers := hsound.handlers.join (by decide) hlast
        received := ?_ }
      intro item hitem
      rcases TurnQueue.mem_jobs_join.mp hitem with hold | rfl
      · exact ⟨(hlast item hold).le, (hsound.received item hold).2⟩
      · exact ⟨le_rfl, hsent⟩
  · exact hsound

theorem Sound.step (hideal : P.IdealAead)
    {event : ConversationEvent} (hturn : conv.inTurn event = true) :
    (conv.step P event).Sound P := by
  cases event with
  | sender =>
    simp only [Conversation.step]
    split
    · next hadmits => exact hsound.send hadmits hturn
    · exact hsound
  | handleData =>
    simp only [Conversation.step]
    split
    · exact hsound
    · next payload rest hlink =>
      have hboth := hsound.link
      rw [hlink] at hboth
      obtain ⟨hgenuine, hrest⟩ := forall_mem_cons.mp hboth
      have htaken : ({ conv with link := rest } : Conversation).Sound P :=
        { hsound with link := hrest }
      exact htaken.receive hideal hgenuine
  | refuse =>
    exact { hsound with
      link := fun payload hmem =>
        hsound.link payload (mem_of_mem_tail hmem) }
  | answer =>
    exact { hsound with
      handlers := hsound.handlers.serve
      received := fun item hitem =>
        hsound.received item (TurnQueue.mem_jobs_serve.mp hitem) }

end

theorem sound_start {keys : SessionKeys} (hsized : (Session.ofKeys keys).Sized)
    (endpoints : OrderedDict PeerId Address) (floors : SequenceFloors)
    (localId : PeerId) (recvSequence : Nat) :
    (start keys endpoints floors localId recvSequence).Sound P where
  sized := hsized
  sender := sequenced_nil keys
  texts := rfl
  link := by simp [start]
  sessionId := rfl
  encryptionKey := rfl
  handlers := TurnQueue.orderly_empty
  received := by simp [start, TurnQueue.jobs, TurnQueue.empty]

/-- While every `send_message` builds its packet in turn, the callbacks see the
messages in the order in which `send_message` enqueued them. -/
theorem callbacks_in_order (hideal : P.IdealAead) {keys : SessionKeys}
    (hsized : (Session.ofKeys keys).Sized)
    (endpoints : OrderedDict PeerId Address) (floors : SequenceFloors)
    (localId : PeerId) (recvSequence : Nat) (events : List ConversationEvent)
    (hturn : EveryStep (Conversation.step P)
      (fun conv event => conv.inTurn event = true)
      (start keys endpoints floors localId recvSequence) events) :
    Along (Conversation.step P)
      (fun conv => conv.displayed.Sublist conv.enqueued)
      (start keys endpoints floors localId recvSequence) events :=
  along_of_everyStep (fun _ _ hsound => hsound.step hideal)
    (fun _ hsound => hsound.displayed_sublist)
    (sound_start hsized endpoints floors localId recvSequence) hturn

end Conversation

namespace InOrderWitness

open MessagingWitness

def start : Conversation :=
  .start keys (empty.set peer ("10.0.0.2", 9000)) .empty [] 0

def first : Bytes := ascii "first"

def second : Bytes := ascii "second"

def third : Bytes := ascii "third"

/-- Two messages wait for the session, and the flush has built the first. -/
def flushing : List MessagingEvent :=
  .call (.sendMessage peer 1 first) :: storageCall 0 0 ++
    .call (.sendMessage peer 2 second) :: storageCall 0 0 ++
    .call (.handleHello keys) :: storageCall 0 0 ++ [.resume 0 0]

/-- Two coroutines get through a storage call each, in turns. -/
def together : List MessagingEvent :=
  [.execute, .execute, .resume 0 0, .resume 1 0, .execute, .execute,
    .resume 0 0, .resume 0 0]

/-- A third message is sent while the flush waits. -/
def meeting : List MessagingEvent :=
  .call (.sendMessage peer 3 third) :: together ++ together ++ together

/-- Three packets arrive and are displayed. -/
def displaying : List ConversationEvent := replicate 3 .handleData ++
    replicate (3 * Conversation.handlerAwaits) .answer

/-- The flush has built both messages when the third is sent. -/
def patient : List ConversationEvent :=
  (flushing ++ dispatching 0 0 ++ meeting ++ storageCall 0 0).map .sender ++
    displaying

/-- The third message is built before the flush comes to the second. -/
def overtaking : List ConversationEvent :=
  (flushing ++ meeting ++ together ++ storageCall 0 0 ++
    storageCall 0 0).map .sender ++ displaying

theorem patient_in_order :
    let conv := run (Conversation.step Reference.primitives) start patient
    conv.displayed = [first, second, third] ∧
      conv.displayed.Sublist conv.enqueued :=
  ⟨by decide +kernel, Conversation.callbacks_in_order Reference.idealAead
    ⟨rfl, rfl⟩ _ _ _ _ patient (by decide +kernel) _ (prefix_refl _)⟩

/-- The callbacks see the third message before the second. -/
theorem third_overtakes_second :
    let conv := run (Conversation.step Reference.primitives) start overtaking
    conv.enqueued = [first, second, third] ∧
      conv.displayed = [first, third, second] ∧
      ¬ conv.displayed.Sublist conv.enqueued := by
  decide +kernel

end InOrderWitness

end AshiChat
