/-
`remove_peer` takes a peer out of the storage, the peer table and the session
registry.  What else the node keeps of it stays: its heartbeat, its queue
entries, its pending HELLO and the coroutines that work for it.  Here is what
must be over before a removal for the peer to be gone afterwards, and what
follows then along every run in which it is not added again.
-/
import AshiChat.SilentContact

namespace AshiChat

open EventRun OrderedDict Messaging List Option Pool QueueManager ChatNode

variable {P : Primitives}

namespace ChatNode

variable {state : ChatNode P} {peerId : PeerId}

/-- A restart, a removal, the start of a heartbeat, or none of these. -/
theorem stepContact_rule {motive : ChatNode P → Prop} (state : ChatNode P)
    (event : ContactEvent)
    (hrestart : ∀ graceful now,
      event = .endpoint (.node (.restart graceful now)) →
        motive (load (state.contacts.step event) state.messages state.outbox))
    (hremove : ∀ other, event = .removePeer other → motive ({ state with
        contacts := state.contacts.step event }.forget other))
    (hstart : ∀ other,
      (state.contacts.task? event).bind Task.starts = some other →
        motive ({ state with
          contacts := state.contacts.step event }.stopHeartbeat other))
    (hplain : ∀ punches, (∀ punch ∈ punches, punch ∈ state.punches ∨
        (state.contacts.task? event).bind Task.punch? = some punch) →
      motive { state with
        contacts := state.contacts.step event
        punches := punches }) : motive (state.stepContact event) := by
  unfold stepContact
  split
  · exact hrestart _ _ rfl
  · exact hremove _ rfl
  · split
    · next other hstarts => exact hstart other hstarts
    · refine hplain _ fun punch hmem => ?_
      exact (mem_append.mp hmem).imp_right mem_toList.mp

/-- The contacts see an event of their own, or a stretch of messaging. -/
theorem contacts_rule {motive : ContactNode P → Prop} (state : ChatNode P)
    (event : ChatEvent)
    (hstep : ∀ event', (∀ other endpoint draw now,
        event' ≠ .endpoint (.node (.connect other endpoint draw now))) →
      (state.step event).contacts = state.contacts.step event' →
        motive (state.contacts.step event'))
    (hsettle : ∀ registry sessions,
      (∀ other, state.node.registry.Lacks other → registry.Lacks other) →
        motive (state.contacts.withNode { state.node with
          registry := registry
          storage := { state.node.storage with sessions := sessions } }))
    (hsame : motive state.contacts) : motive (state.step event).contacts := by
  have hmoved : ∀ {source : Work} {stretch : Stretch},
      state.view.Moved source stretch →
        motive (state.settle stretch).contacts := fun hmoved =>
    hsettle _ _ hmoved.steady.sessions
  cases event with
  | contact event =>
    simp only [step] at hstep ⊢
    split
    · exact hsame
    · next hinternal =>
      have hcontacts := contacts_stepContact state event
      rw [if_neg hinternal] at hstep
      rw [hcontacts]
      refine hstep event ?_ hcontacts
      rintro other endpoint draw now rfl
      exact hinternal rfl
  | sendMessage =>
    simp only [step, call, handle]
    split <;> exact hsettle _ _ fun _ hlacks => hlacks
  | handleAck => exact hmoved (moved_handleAck ..)
  | handleAppAck => exact hmoved (moved_handleAppAck ..)
  | handleSync => exact hmoved (moved_handleSync ..)
  | retryPass => exact hmoved (moved_retryPass ..)
  | resume _ requestId draw now =>
    simp only [step] at hstep ⊢
    split
    · exact hsame
    · next work rest htake =>
      have hresumed := @moved_resumeWork P
        ({ state with works := rest } : ChatNode P).view now work
      have hgo : motive ({ state with works := rest }.settle
          (Messaging.resumeWork P ({ state with
            works := rest } : ChatNode P).view now work)).contacts :=
        hsettle _ _ hresumed.steady.sessions
      cases work with
      | enqueued receiver _ session =>
        cases session with
        | none =>
          rw [htake] at hstep
          exact hstep (.endpoint (.sendOffline receiver requestId draw
            now)) (by rintro _ _ _ _ ⟨⟩) rfl
        | some => exact hgo
      | _ => exact hgo
  | heartbeat =>
    simp only [step, contacts_beat]
    exact hsame
  | handlePong =>
    simp only [step, handlePong]
    split <;> exact hsame
  | callback =>
    simp only [step] at hstep ⊢
    split
    · exact hsame
    · next callback rest htake =>
      rw [htake] at hstep
      refine hstep _ ?_ rfl
      cases callback <;> rintro _ _ _ _ ⟨⟩
  | punch => exact hsame

/-- Every message that a coroutine is about to send is in the queue for the
peer it is sent to, a peer of the kind. -/
def Directed (kind : PeerId → Prop) (state : ChatNode P) : Prop :=
  ∀ work ∈ state.works, ∀ message ∈ work.messages,
    state.queue.receiverOf message.1 = some message.2 ∧ kind message.2

section

variable {kind : PeerId → Prop} (hdirected : state.Directed kind)
    (hkind : ∀ receiver, (∀ other, state.node.registry.Lacks other →
      receiver ≠ other) → kind receiver)

include hdirected

/-- A coroutine leaves the suspended ones. -/
theorem Directed.taken {work : Work} {rest : List Work} {index : Nat}
    (htake : Pool.take? state.works index = some (work, rest)) :
    ({ state with works := rest } : ChatNode P).Directed kind := by
  intro other hmem
  exact hdirected other (mem_of_mem_rest htake hmem)

include hkind

theorem Directed.settle {source : Work} {stretch : Stretch}
    (hmoved : state.view.Moved source stretch)
    (hsource : ∀ message ∈ source.messages,
      state.queue.receiverOf message.1 = some message.2 ∧ kind message.2) :
    (state.settle stretch).Directed kind := by
  intro work hmem message hmessage
  have hsame : (state.settle stretch).queue.receiverOf message.1 =
      state.queue.receiverOf message.1 := hmoved.steady.receivers message.1
  rw [hsame]
  rcases mem_append.mp hmem with hold | hnew
  · exact hdirected work hold message hmessage
  · rcases hmoved.messages work hnew message hmessage with hmine | haddressed
    · exact hsource message hmine
    · exact ⟨haddressed.1, hkind message.2 haddressed.2⟩

/-- A new message has an id of its own, and is built only for a session. -/
theorem Directed.sendMessage (receiver : PeerId) (messageId : MessageId)
    (plaintext : Bytes) :
    (state.call (.sendMessage receiver messageId plaintext)).Directed
      kind := by
  simp only [call, handle]
  split
  · intro work hmem
    exact hdirected work ((mem_append.mp hmem).resolve_right not_mem_nil)
  · next hdrawn =>
    have hfresh : state.queue.contains messageId = false := by
      simp only [Messaging.drawn, Bool.or_eq_true, not_or] at hdrawn
      exact Bool.eq_false_iff.mpr hdrawn.1.1
    intro work hmem other hmessage
    simp only [ChatNode.settle]
    rw [receiverOf_enqueue]
    rcases mem_append.mp hmem with hold | hnew
    · obtain ⟨hknown, hgood⟩ := hdirected work hold other hmessage
      have hne : messageId ≠ other.1 := by
        rintro rfl
        rw [receiverOf, (contains_eq_false_iff _ _).mp hfresh] at hknown
        cases hknown
      exact ⟨(if_neg hne).trans hknown, hgood⟩
    · cases mem_singleton.mp hnew
      cases hsession : state.view.registry.getByPeerId receiver with
      | none =>
        rw [hsession] at hmessage
        cases hmessage
      | some found =>
        rw [hsession] at hmessage
        cases mem_singleton.mp hmessage
        refine ⟨if_pos rfl, hkind receiver ?_⟩
        rintro lacking hlacks rfl
        have hnone := hlacks.byPeer
        rw [SessionRegistry.sessionFor,
          show state.node.registry.getByPeerId receiver = some found from
            hsession] at hnone
        cases hnone

theorem Directed.resumeWork {work : Work} (hwork : ∀ message ∈ work.messages,
      state.queue.receiverOf message.1 = some message.2 ∧ kind message.2)
    (requestId : Random 16) (draw : HelloDraw) (now : ℚ) :
    (state.resumeWork requestId draw now work).Directed kind := by
  have hmoved := @moved_resumeWork P state.view now work
  have hsettled := hdirected.settle hkind hmoved hwork
  cases work with
  | enqueued _ _ session =>
    cases session with
    | none => exact hdirected
    | some => exact hsettled
  | heartbeat => exact hsettled
  | _ => exact hsettled

end

/-- Messages are built in a session only, so what holds of the peers with a
session holds of their receivers. -/
theorem Directed.step {kind : PeerId → Prop} (hdirected : state.Directed kind)
    (hkind : ∀ receiver, (∀ other, state.node.registry.Lacks other →
      receiver ≠ other) → kind receiver) (event : ChatEvent) :
    (state.step event).Directed kind := by
  have hidle : ∀ message ∈ Work.receiptStored.messages,
      state.queue.receiverOf message.1 = some message.2 ∧ kind message.2 := by
    intro message hmem
    cases hmem
  cases event with
  | contact event =>
    simp only [ChatNode.step]
    split
    · exact hdirected
    · refine stepContact_rule state event ?_ ?_ ?_ fun _ _ => hdirected
      · intro graceful now _ work hmem
        cases hmem
      · exact fun _ _ => hdirected
      · intro other _ work hmem message hmessage
        rcases mem_append.mp hmem with hold | hnew
        · exact hdirected work hold message hmessage
        · cases mem_singleton.mp hnew
          cases hmessage
  | sendMessage receiver messageId plaintext =>
    exact hdirected.sendMessage hkind receiver messageId plaintext
  | handleAck =>
    exact hdirected.settle hkind (moved_handleAck ..) hidle
  | handleAppAck =>
    exact hdirected.settle hkind (moved_handleAppAck ..) hidle
  | handleSync =>
    exact hdirected.settle hkind (moved_handleSync ..) hidle
  | retryPass =>
    exact hdirected.settle hkind (moved_retryPass ..) hidle
  | resume _ requestId draw now =>
    simp only [ChatNode.step]
    split
    · exact hdirected
    · next work _ htake =>
      exact (hdirected.taken htake).resumeWork hkind
        (hdirected work (mem_of_take? htake)) requestId draw now
  | heartbeat =>
    simp only [ChatNode.step, beat]
    split
    · exact hdirected
    · split <;> exact hdirected
    · split
      · split <;> exact hdirected
      · exact hdirected
  | handlePong =>
    simp only [ChatNode.step, handlePong]
    split <;> exact hdirected
  | callback =>
    simp only [ChatNode.step]
    split <;> exact hdirected
  | punch => exact hdirected

/-- What holds in every run. -/
structure Sound (state : ChatNode P) : Prop where
  coherent : state.contacts.inner.process.Coherent
  foreign : state.contacts.Foreign
  messages : state.Directed fun _ => True

variable (identity : LocalIdentity P)

theorem sound_start (storage : Storage)
    (messages : OrderedDict MessageId MessageRecord)
    (outbox : OrderedDict MessageId Bytes) (now : ℚ) :
    (start identity storage messages outbox now).Sound where
  coherent := ContactNode.coherent_start identity storage now
  foreign := by
    intro task hmem
    cases hmem
  messages := by
    intro work hmem
    cases hmem

theorem Sound.step (hsound : state.Sound) (event : ChatEvent) :
    (state.step event).Sound where
  coherent := contacts_rule
    (motive := fun contacts => contacts.inner.process.Coherent) state event
    (fun event' _ _ => ContactNode.coherent_step hsound.coherent event')
    (fun _ _ _ => hsound.coherent) hsound.coherent
  foreign := contacts_rule (motive := ContactNode.Foreign) state event
    (fun event' _ _ => hsound.foreign.step event')
    (fun _ _ _ => hsound.foreign) hsound.foreign
  messages := hsound.messages.step (fun _ _ => trivial) event

theorem sound_run (storage : Storage)
    (messages : OrderedDict MessageId MessageRecord)
    (outbox : OrderedDict MessageId Bytes) (now : ℚ) (events : List ChatEvent) :
    (run step (start identity storage messages outbox now) events).Sound :=
  inv_run (fun _ event hsound => hsound.step event)
    (sound_start identity storage messages outbox now) events

/-- No heartbeat of the peer runs or is about to start. -/
structure Unheard (state : ChatNode P) (peerId : PeerId) : Prop where
  loops : state.loops.get? peerId = none
  starts : ∀ work ∈ state.works, work.starts ≠ some peerId

/-- The node has nothing to send on account of the peer. -/
structure Silent (state : ChatNode P) (peerId : PeerId) : Prop where
  contacts : state.contacts.Silent peerId
  heartbeat : state.Unheard peerId
  punches : ∀ punch ∈ state.punches, punch.peerId ≠ peerId
  messages : state.Directed fun receiver => receiver ≠ peerId

section

variable (hunheard : state.Unheard peerId)

include hunheard

theorem Unheard.settle {source : Work}
    {stretch : Stretch} (hmoved : state.view.Moved source stretch)
    (hsource : source.starts ≠ some peerId) :
    (state.settle stretch).Unheard peerId where
  loops := hunheard.loops
  starts := by
    intro work hmem hstarts
    rcases mem_append.mp hmem with hold | hnew
    · exact hunheard.starts work hold hstarts
    · exact hsource (hmoved.starts work hnew peerId hstarts)

theorem Unheard.resumeWork {work : Work} (hwork : work.starts ≠ some peerId)
    (requestId : Random 16) (draw : HelloDraw) (now : ℚ) :
    (state.resumeWork requestId draw now work).Unheard peerId := by
  have hmoved := @moved_resumeWork P state.view now work
  have hsettled := hunheard.settle hmoved hwork
  cases work with
  | enqueued _ _ session =>
    cases session with
    | none => exact ⟨hunheard.loops, hunheard.starts⟩
    | some => exact hsettled
  | heartbeat other =>
    refine ⟨?_, hsettled.starts⟩
    have hne : other ≠ peerId := fun hsame => hwork (congrArg some hsame)
    exact (get?_set ..).trans ((if_neg hne).trans hunheard.loops)
  | _ => exact hsettled

/-- The loops of other peers come and go. -/
theorem Unheard.beat (other : PeerId)
    (pingId : Bytes) : (state.beat other pingId).Unheard peerId := by
  have hset : ∀ loop, other ≠ peerId →
      (state.loops.set other loop).get? peerId = none := fun loop hne =>
    (get?_set ..).trans ((if_neg hne).trans hunheard.loops)
  have herase : (state.loops.erase other).get? peerId = none := by
    rw [get?_erase, hunheard.loops]
    split <;> rfl
  have hother : ∀ loop, state.loops.get? other = some loop →
      other ≠ peerId := by
    rintro loop hloop rfl
    cases hunheard.loops.symm.trans hloop
  unfold ChatNode.beat
  split
  · exact hunheard
  · next missed hloop =>
    split
    · exact ⟨hset _ (hother _ hloop), hunheard.starts⟩
    · exact ⟨herase, hunheard.starts⟩
  · next missed hloop =>
    split
    · simp only
      split
      · exact ⟨herase, hunheard.starts⟩
      · exact ⟨hset _ (hother _ hloop), hunheard.starts⟩
    · exact ⟨hset _ (hother _ hloop), hunheard.starts⟩

end

/-- A handshake coroutine that starts a heartbeat is one that announces. -/
theorem starts_ne_of_silent (hsilent : state.contacts.Silent peerId)
    {event : ContactEvent} {other : PeerId}
    (hstarts : (state.contacts.task? event).bind Task.starts = some other) :
    other ≠ peerId := by
  rintro rfl
  obtain ⟨task, htask, hstart⟩ := bind_eq_some_iff.mp hstarts
  have hpeer : task.peer P = some other ∧ task.kind.announces = true := by
    cases task with
    | helloSaved keys addr | ackRemembered keys addr => exact ⟨hstart, rfl⟩
    | _ => cases hstart
  have hquiet := hsilent.contact.jobs _
    (ContactNode.kind_mem_jobs htask hpeer.1)
  cases hpeer.2.symm.trans hquiet

theorem Unheard.step (hunheard : state.Unheard peerId)
    (hsilent : state.contacts.Silent peerId) (event : ChatEvent) :
    (state.step event).Unheard peerId := by
  have hidle : Work.receiptStored.starts ≠ some peerId := by rintro ⟨⟩
  cases event with
  | contact event =>
    simp only [ChatNode.step]
    split
    · exact hunheard
    · refine stepContact_rule (motive := fun next => next.Unheard peerId)
        state event ?_ ?_ ?_ fun _ _ => ⟨hunheard.loops, hunheard.starts⟩
      · intro graceful now _
        refine ⟨rfl, fun work hmem => ?_⟩
        cases hmem
      · exact fun _ _ => ⟨hunheard.loops, hunheard.starts⟩
      · intro other hstarts
        have hne := starts_ne_of_silent hsilent hstarts
        constructor
        · exact (get?_erase ..).trans ((if_neg hne).trans hunheard.loops)
        · intro work hmem
          rcases mem_append.mp hmem with hold | hnew
          · exact hunheard.starts work hold
          · cases mem_singleton.mp hnew
            exact fun hsame => hne (some.inj hsame)
  | sendMessage =>
    simp only [ChatNode.step, call, Messaging.handle]
    split
    · refine ⟨hunheard.loops, fun work hmem => ?_⟩
      exact hunheard.starts work ((mem_append.mp hmem).resolve_right
        not_mem_nil)
    · refine ⟨hunheard.loops, fun work hmem => ?_⟩
      rcases mem_append.mp hmem with hold | hnew
      · exact hunheard.starts work hold
      · cases mem_singleton.mp hnew
        rintro ⟨⟩
  | handleAck => exact hunheard.settle (moved_handleAck ..) hidle
  | handleAppAck =>
    exact hunheard.settle (moved_handleAppAck ..) hidle
  | handleSync =>
    exact hunheard.settle (moved_handleSync ..) hidle
  | retryPass => exact hunheard.settle (moved_retryPass ..) hidle
  | resume _ requestId draw now =>
    simp only [ChatNode.step]
    split
    · exact hunheard
    · next work rest htake =>
      have hrest : ({ state with works := rest } : ChatNode P).Unheard
          peerId :=
        ⟨hunheard.loops, fun other hmem =>
          hunheard.starts other (mem_of_mem_rest htake hmem)⟩
      exact hrest.resumeWork (hunheard.starts work
        (mem_of_take? htake)) requestId draw now
  | heartbeat other pingId => exact hunheard.beat other pingId
  | handlePong =>
    simp only [ChatNode.step, handlePong]
    split <;> exact ⟨hunheard.loops, hunheard.starts⟩
  | callback =>
    simp only [ChatNode.step]
    split <;> exact ⟨hunheard.loops, hunheard.starts⟩
  | punch => exact ⟨hunheard.loops, hunheard.starts⟩

variable {index : Nat}

theorem exists_of_mem_send {punches : List Punch} {punch : Punch}
    (hmem : punch ∈ Punch.send punches index) :
    ∃ old ∈ punches, old.peerId = punch.peerId := by
  unfold Punch.send at hmem
  split at hmem
  · exact ⟨punch, hmem, rfl⟩
  · next old _ htake =>
    split at hmem
    · exact ⟨punch, mem_of_mem_rest htake hmem, rfl⟩
    · rcases mem_append.mp hmem with hrest | hnew
      · exact ⟨punch, mem_of_mem_rest htake hrest, rfl⟩
      · cases mem_singleton.mp hnew
        exact ⟨old, mem_of_take? htake, rfl⟩

/-- A burst was under way before, or a `connect_to_peer` has started it. -/
theorem exists_of_mem_punches {event : ChatEvent} {punch : Punch}
    (hmem : punch ∈ (state.step event).punches) :
    (∃ old ∈ state.punches, old.peerId = punch.peerId) ∨ ∃ event',
      (state.contacts.task? event').bind Task.punch? = some punch := by
  have hold : punch ∈ state.punches → (∃ old ∈ state.punches,
      old.peerId = punch.peerId) ∨ ∃ event',
        (state.contacts.task? event').bind Task.punch? = some punch :=
    fun hmem => .inl ⟨punch, hmem, rfl⟩
  cases event with
  | contact event =>
    simp only [step] at hmem
    split at hmem
    · exact hold hmem
    · revert hmem
      refine stepContact_rule (motive := fun next =>
        punch ∈ next.punches → _) state event ?_ (fun _ _ => hold)
        (fun _ _ => hold) ?_
      · rintro graceful now - ⟨⟩
      · intro punches hpunches hmem
        exact (hpunches punch hmem).elim hold fun hnew => .inr ⟨event, hnew⟩
  | resume =>
    simp only [step] at hmem
    split at hmem
    · exact hold hmem
    · next work _ _ =>
      cases work with
      | enqueued _ _ session =>
        cases session <;> exact hold hmem
      | _ => exact hold hmem
  | heartbeat =>
    simp only [step, beat] at hmem
    repeat' split at hmem
    all_goals exact hold hmem
  | handlePong =>
    simp only [step, handlePong] at hmem
    split at hmem <;> exact hold hmem
  | callback =>
    simp only [step] at hmem
    split at hmem <;> exact hold hmem
  | punch => exact .inl (exists_of_mem_send hmem)
  | _ => exact hold hmem

/-- No `connect_to_peer` for the peer is before its HELLO. -/
theorem Silent.not_connecting (hsilent : state.contacts.Silent peerId)
    {event : ContactEvent} {hello : Packet} {endpoint : Address} :
    state.contacts.task? event ≠ some (.connecting peerId hello endpoint) := by
  intro htask
  cases hsilent.contact.jobs _ (ContactNode.kind_mem_jobs htask rfl)

/-- The peer is in the peer table. -/
def knows (state : ChatNode P) (peerId : PeerId) : Bool :=
  state.contacts.knows peerId

/-- Without a new entry in the table, the node stays done with the peer. -/
theorem Silent.step (hsilent : state.Silent peerId)
    (habsent : state.knows peerId = false) (event : ChatEvent)
    (hafter : (state.step event).knows peerId = false) :
    (state.step event).Silent peerId where
  contacts := by
    have hsessions := hsilent.contacts.sessions
    refine contacts_rule (motive := fun contacts => contacts.Silent peerId)
      state event ?_ ?_ hsilent.contacts
    · intro event' hevent hcontacts
      refine hsilent.contacts.step habsent ?_ hevent
      rw [← hcontacts]
      exact hafter
    · intro registry sessions hlacks
      have hclosed := congrArg Option.isSome (hlacks peerId hsessions).byPeer
      refine ⟨hsilent.contacts.coherent, hsilent.contacts.foreign,
        hlacks peerId hsessions,
        hsilent.contacts.resolutions.of_coroutines rfl fun _ hmem => .inl hmem,
        ?_, hsilent.contacts.contact.jobs, hsilent.contacts.contact.waits⟩
      exact (Node.hasSession_eq ..).trans hclosed
  heartbeat := hsilent.heartbeat.step hsilent.contacts event
  punches := by
    rintro punch hmem rfl
    rcases exists_of_mem_punches hmem with ⟨old, hold, hpeer⟩ | ⟨event', hnew⟩
    · exact hsilent.punches old hold hpeer
    · obtain ⟨task, htask, hpunch⟩ := bind_eq_some_iff.mp hnew
      cases task with
      | connecting =>
        cases hpunch
        exact Silent.not_connecting hsilent.contacts htask
      | _ => cases hpunch
  messages := by
    refine hsilent.messages.step (fun receiver hother => ?_) event
    exact hother peerId hsilent.contacts.sessions

theorem Silent.hellos (hsilent : state.Silent peerId) (event : ContactEvent) :
    ∀ sent ∈ state.hellos event, sent.peer ≠ peerId := by
  unfold ChatNode.hellos
  split
  · next index draw now =>
    split
    · next other hello endpoint htask =>
      intro sent hsent
      obtain ⟨packet, -, rfl⟩ := mem_map.mp hsent
      rintro rfl
      have hevent : state.contacts.task?
          (.endpoint (.node (.resume index draw now))) =
            some (.connecting other hello endpoint) := htask
      exact Silent.not_connecting hsilent.contacts hevent
    · simp
  · next other now =>
    intro sent hsent
    obtain ⟨packet, hpacket, rfl⟩ := mem_map.mp hsent
    rintro rfl
    have hwaits : state.node.pendingHello.contains other = false ∨
        state.node.retryTasks.contains other = false :=
      hsilent.contacts.contact.waits
    unfold Node.retryHello at hpacket
    split at hpacket
    · cases hpacket
    · next task htask =>
      have hnot : ¬ state.node.pendingHello.contains other = true := by
        rcases hwaits with hpending | hretrying
        · simp [hpending]
        · rw [contains_eq_false_iff, htask] at hretrying
          cases hretrying
      rw [if_pos (.inr hnot)] at hpacket
      cases hpacket
  · simp

/-- Such a node sends nothing on account of the peer. -/
theorem Silent.transmits (hsilent : state.Silent peerId) (event : ChatEvent) :
    ∀ sent ∈ state.transmits event, sent.peer ≠ peerId := by
  cases event with
  | contact event => exact hsilent.hellos event
  | handleSync =>
    simp only [ChatNode.transmits, resends]
    split
    · simp
    · next ref session hfound =>
      intro sent hsent
      obtain ⟨_, -, rfl⟩ := mem_map.mp hsent
      obtain ⟨hid, hobj⟩ := SessionRegistry.getBySessionId_eq_some hfound
      exact hsilent.contacts.sessions.bySession _ ref session hid hobj
  | resume =>
    simp only [ChatNode.transmits]
    split
    · next _ hwork =>
      unfold dispatches
      split
      · next _ =>
        split
        · have hmessage := hsilent.messages _
            (mem_of_getElem? hwork) _ mem_cons_self
          simpa [Transmission.peer] using hmessage.2
        · simp
      · simp
    · simp
  | heartbeat other =>
    simp only [ChatNode.transmits, pings]
    split
    · next _ _ _ hloop _ =>
      have hne : other ≠ peerId := by
        rintro rfl
        cases hsilent.heartbeat.loops.symm.trans hloop
      simpa [Transmission.peer] using hne
    · simp
  | punch =>
    intro sent hsent
    obtain ⟨punch, hpunch, rfl⟩ := mem_map.mp hsent
    exact hsilent.punches punch (mem_of_getElem? (mem_toList.mp hpunch))
  | _ => simp [ChatNode.transmits]

/-- Nothing is under way for the peer: no handshake, HELLO, resolution,
heartbeat, hole punch or message. -/
def idle (state : ChatNode P) (peerId : PeerId) : Bool :=
  state.contacts.idle peerId && !(state.loops.contains peerId) &&
    (state.punches.all fun punch => decide (punch.peerId ≠ peerId)) &&
    state.works.all fun work =>
      decide (work.starts ≠ some peerId) &&
        work.messages.all fun message => decide (message.2 ≠ peerId)

theorem step_removing (draw : HelloDraw) (now : ℚ) :
    state.step (.contact (.resume index draw now)) = { state with
        contacts := state.contacts.step (.resume index draw now) } := by
  simp [step, stepContact, ContactEvent.internal, ContactNode.task?]

theorem silent_of_idle (hsound : state.Sound) (hidle : state.idle peerId = true)
    (hcall : state.contacts.calls[index]? = some (.removing peerId))
    (draw : HelloDraw) (now : ℚ) :
    (state.step (.contact (.resume index draw now))).Silent peerId := by
  simp only [idle, Bool.and_eq_true, List.all_eq_true, Bool.not_eq_true',
    decide_eq_true_eq] at hidle
  obtain ⟨⟨⟨hcontacts, hloops⟩, hpunches⟩, hworks⟩ := hidle
  rw [step_removing]
  refine ⟨ContactNode.silent_of_removing hsound.coherent hsound.foreign
    hcontacts hcall, ⟨?_, fun work hmem => (hworks work hmem).1⟩, hpunches, ?_⟩
  · exact (contains_eq_false_iff _ _).mp hloops
  · intro work hmem message hmessage
    exact ⟨(hsound.messages work hmem message hmessage).1,
      (hworks work hmem).2 message hmessage⟩

/-- Every message for the peer, in memory or stored, is one of those given. -/
structure Limited (state : ChatNode P) (peerId : PeerId)
    (given : MessageId → Prop) : Prop where
  queue : ∀ messageId,
    state.queue.receiverOf messageId = some peerId → given messageId
  rows : ∀ messageId,
    state.tables.receiverOf messageId = some peerId → given messageId

variable {given : MessageId → Prop}

theorem Limited.settle (hlimited : state.Limited peerId given) {source : Work}
    {stretch : Stretch} (hmoved : state.view.Moved source stretch) :
    (state.settle stretch).Limited peerId given where
  queue := by
    intro messageId hreceiver
    refine hlimited.queue messageId ?_
    exact (hmoved.steady.receivers messageId).symm.trans hreceiver
  rows := by
    intro messageId hreceiver
    have hafter : (state.tablesAfter stretch.next).receiverOf messageId =
        some peerId := hreceiver
    refine hlimited.rows messageId ?_
    unfold tablesAfter at hafter
    split at hafter
    · next statement _ hnext =>
      rwa [Tables.receiverOf_apply _ (hmoved.statement _ _ hnext)] at hafter
    · exact hafter

theorem Limited.stepContact (hlimited : state.Limited peerId given)
    (event : ContactEvent) :
    (state.stepContact event).Limited peerId given := by
  refine stepContact_rule (motive := fun next => next.Limited peerId given)
    state event ?_ ?_ ?_ fun _ _ => ⟨hlimited.queue, hlimited.rows⟩
  · intro graceful now _
    have hrestore := receiverOf_restore state.outbox ⟨.empty, state.messages⟩
    constructor
    · intro messageId hreceiver
      exact hlimited.rows messageId ((hrestore messageId).1 peerId hreceiver)
    · intro messageId hreceiver
      exact hlimited.rows messageId ((hrestore messageId).2.symm.trans hreceiver)
  · intro other _
    refine ⟨hlimited.queue, fun messageId hreceiver => ?_⟩
    obtain ⟨row, hrow, hpeer⟩ := map_eq_some_iff.mp hreceiver
    have hbefore : state.messages.get? messageId = some row :=
      get?_of_get?_foldl_erase Prod.fst _ hrow
    exact hlimited.rows messageId (map_eq_some_iff.mpr ⟨row, hbefore, hpeer⟩)
  · exact fun _ _ => ⟨hlimited.queue, hlimited.rows⟩

/-- The messages an event enqueues for the peer. -/
def Enqueues (peerId : PeerId) (messageId : MessageId) (event : ChatEvent) :
    Prop :=
  ∃ plaintext, event = .sendMessage peerId messageId plaintext

section

variable (hlimited : state.Limited peerId given)

include hlimited

theorem Limited.sendMessage
    (receiver : PeerId) (messageId : MessageId) (plaintext : Bytes) :
    (state.call (.sendMessage receiver messageId plaintext)).Limited peerId
      fun other => given other ∨
        Enqueues peerId other (.sendMessage receiver messageId plaintext) := by
  simp only [call, handle]
  split
  · exact ⟨fun other hother => .inl (hlimited.queue other hother),
      fun other hother => .inl (hlimited.rows other hother)⟩
  · have hnew : ∀ other known, (if messageId = other then some receiver
        else known) = some peerId → (known = some peerId → given other) →
          given other ∨ Enqueues peerId other
            (.sendMessage receiver messageId plaintext) := by
      intro other known hreceiver hknown
      split at hreceiver
      · next hsame =>
        subst hsame
        cases hreceiver
        exact .inr ⟨plaintext, rfl⟩
      · exact .inl (hknown hreceiver)
    constructor
    · intro other hreceiver
      refine hnew other (state.queue.receiverOf other) ?_ (hlimited.queue other)
      exact (receiverOf_enqueue ..).symm.trans hreceiver
    · intro other hreceiver
      refine hnew other (state.tables.receiverOf other) ?_ (hlimited.rows other)
      have hset : ((state.messages.set messageId
          ⟨receiver, "queued", 0, none⟩).get? other).map
            MessageRecord.receiver = some peerId := hreceiver
      rw [get?_set] at hset
      split at hset
      · next hsame => rwa [if_pos hsame]
      · next hne => rwa [if_neg hne]

theorem Limited.step (event : ChatEvent) : (state.step event).Limited peerId
      fun messageId => given messageId ∨ Enqueues peerId messageId event := by
  have hmore : ∀ {later : ChatNode P}, later.Limited peerId given →
      later.Limited peerId
        fun messageId => given messageId ∨ Enqueues peerId messageId event :=
    fun hsame => ⟨fun other hother => .inl (hsame.queue other hother),
      fun other hother => .inl (hsame.rows other hother)⟩
  cases event with
  | contact event =>
    simp only [ChatNode.step]
    split
    · exact hmore hlimited
    · exact hmore (hlimited.stepContact event)
  | sendMessage receiver messageId plaintext =>
    exact hlimited.sendMessage receiver messageId plaintext
  | handleAck => exact hmore (hlimited.settle (moved_handleAck ..))
  | handleAppAck =>
    exact hmore (hlimited.settle (moved_handleAppAck ..))
  | handleSync =>
    exact hmore (hlimited.settle (moved_handleSync ..))
  | retryPass => exact hmore (hlimited.settle (moved_retryPass ..))
  | resume _ _ _ now =>
    simp only [ChatNode.step]
    split
    · exact hmore hlimited
    · next work rest _ =>
      have hrest : ({ state with works := rest } : ChatNode P).Limited
          peerId given := ⟨hlimited.queue, hlimited.rows⟩
      have hsettled := hrest.settle (@moved_resumeWork P _ now work)
      refine hmore ?_
      cases work with
      | enqueued _ _ session =>
        cases session with
        | none =>
          refine ⟨hlimited.queue, ?_⟩
          exact hlimited.rows
        | some => exact hsettled
      | heartbeat => exact ⟨hsettled.queue, hsettled.rows⟩
      | _ => exact hsettled
  | heartbeat =>
    refine hmore ?_
    simp only [ChatNode.step, beat]
    split
    · exact hlimited
    · split <;> exact ⟨hlimited.queue, hlimited.rows⟩
    · split
      · split <;> exact ⟨hlimited.queue, hlimited.rows⟩
      · exact ⟨hlimited.queue, hlimited.rows⟩
  | handlePong =>
    refine hmore ?_
    simp only [ChatNode.step, handlePong]
    split <;> exact ⟨hlimited.queue, hlimited.rows⟩
  | callback =>
    refine hmore ?_
    simp only [ChatNode.step]
    split <;> exact ⟨hlimited.queue, hlimited.rows⟩
  | punch => exact hmore ⟨hlimited.queue, hlimited.rows⟩

/-- Along a run only what it enqueues for the peer comes to the given ones. -/
theorem Limited.run (events : List ChatEvent) :
    (EventRun.run ChatNode.step state events).Limited peerId fun messageId =>
      given messageId ∨ ∃ event ∈ events, Enqueues peerId messageId event := by
  induction events generalizing state given with
  | nil =>
    exact ⟨fun other hother => .inl (hlimited.queue other hother),
      fun other hother => .inl (hlimited.rows other hother)⟩
  | cons event rest ih =>
    have hrest := ih (hlimited.step event)
    have hcollect : ∀ messageId,
        ((given messageId ∨ Enqueues peerId messageId event) ∨
          ∃ later ∈ rest, Enqueues peerId messageId later) → given messageId ∨
              ∃ later ∈ event :: rest, Enqueues peerId messageId later := by
      rintro messageId ((hgiven | hnow) | ⟨later, hmem, hlater⟩)
      · exact .inl hgiven
      · exact .inr ⟨event, mem_cons_self, hnow⟩
      · exact .inr ⟨later, mem_cons_of_mem _ hmem, hlater⟩
    exact ⟨fun other hother => hcollect other (hrest.queue other hother),
      fun other hother => hcollect other (hrest.rows other hother)⟩

end

/-- A DATA packet carries a message that the queue has for the peer. -/
theorem receiverOf_of_transmits (hsound : state.Sound) {event : ChatEvent}
    {messageId : MessageId} {addr : Address}
    (hsent : .data peerId messageId addr ∈ state.transmits event) :
    state.queue.receiverOf messageId = some peerId := by
  cases event with
  | contact =>
    simp only [transmits, hellos] at hsent
    split at hsent
    · split at hsent
      · simp at hsent
      · cases hsent
    · simp at hsent
    · cases hsent
  | handleSync sync _ now =>
    simp only [transmits, resends] at hsent
    split at hsent
    · cases hsent
    · next _ session _ =>
      obtain ⟨⟨resent, built⟩, hresent, hdata⟩ := mem_map.mp hsent
      cases hdata
      obtain ⟨_, _, hmem, hmissed, -⟩ := resendMissed_sound P session
        sync.sequenceNumber now (QueueManager.SameCore.refl state.queue)
        state.queue.entries (fun item hmem => get?_eq_of_mem_entries _ hmem)
        (resent, built) hresent
      rw [receiverOf, get?_eq_of_mem_entries state.queue hmem,
        map_some, hmissed.1]
  | resume =>
    simp only [transmits, dispatches] at hsent
    split at hsent
    · next _ hwork =>
      split at hsent
      · split at hsent
        · cases mem_singleton.mp hsent
          exact (hsound.messages _ (mem_of_getElem? hwork) _ mem_cons_self).1
        · cases hsent
      · cases hsent
    · cases hsent
  | heartbeat =>
    simp only [transmits, pings] at hsent
    split at hsent
    · cases mem_singleton.mp hsent
    · cases hsent
  | punch =>
    obtain ⟨punch, -, hping⟩ := mem_map.mp hsent
    cases hping
  | _ => cases hsent

/-- A DATA packet goes to the peer its message is for: the message was stored
for that peer when the node started, or handed to `send_message` since. -/
theorem data_accounted (storage : Storage)
    (messages : OrderedDict MessageId MessageRecord)
    (outbox : OrderedDict MessageId Bytes) (now : ℚ) (events : List ChatEvent)
    (event : ChatEvent) {messageId : MessageId} {addr : Address}
    (hsent : .data peerId messageId addr ∈ (run step
      (start identity storage messages outbox now) events).transmits event) :
    Tables.receiverOf ⟨.empty, messages⟩ messageId = some peerId ∨
      ∃ plaintext, .sendMessage peerId messageId plaintext ∈ events := by
  have hrestore := receiverOf_restore outbox ⟨.empty, messages⟩
  have hstart : (start identity storage messages outbox now).Limited peerId
      fun messageId =>
        Tables.receiverOf ⟨.empty, messages⟩ messageId = some peerId :=
    ⟨fun messageId hqueue => (hrestore messageId).1 peerId hqueue,
      fun messageId hrow => (hrestore messageId).2.symm.trans hrow⟩
  have hreceiver := receiverOf_of_transmits
    (sound_run identity storage messages outbox now events) hsent
  rcases (hstart.run events).queue messageId hreceiver with
    hstored | ⟨_, hmem, plaintext, rfl⟩
  · exact .inl hstored
  · exact .inr ⟨plaintext, hmem⟩

/-- No message for the peer is in the queue or stored. -/
def unaddressed (state : ChatNode P) (peerId : PeerId) : Bool :=
  (state.queue.entries.all fun binding =>
    decide (binding.2.receiver ≠ peerId)) &&
  state.messages.entries.all fun binding =>
    decide (binding.2.receiver ≠ peerId)

theorem limited_of_unaddressed (hunaddressed : state.unaddressed peerId = true) :
    state.Limited peerId fun _ => False := by
  simp only [unaddressed, Bool.and_eq_true, List.all_eq_true,
    decide_eq_true_eq] at hunaddressed
  constructor
  · intro messageId hreceiver
    obtain ⟨_, hentry, hpeer⟩ := map_eq_some_iff.mp hreceiver
    exact hunaddressed.1 _ (mem_entries_iff _ |>.mpr hentry) hpeer
  · intro messageId hreceiver
    obtain ⟨_, hrow, hpeer⟩ := map_eq_some_iff.mp hreceiver
    exact hunaddressed.2 _ (mem_entries_iff _ |>.mpr hrow) hpeer

theorem not_knows_removed
    (hcall : state.contacts.calls[index]? = some (.removing peerId))
    (draw : HelloDraw) (now : ℚ) :
    (state.step (.contact (.resume index draw now))).knows peerId = false := by
  obtain ⟨_, hstep⟩ :=
    @ContactNode.step_of_removing P state.contacts peerId index draw now hcall
  rw [step_removing, knows, hstep, ContactNode.knows, contains_eq_false_iff]
  exact get?_erase_self ..

/-- A removal is complete once its call has resumed.  If nothing was under way
for the peer by then, nothing is sent on its account as long as no step adds
it again; and if none of its messages was left, only messages enqueued since
are ever sent to it, whether it is added again or not. -/
theorem removed_peer_is_gone (storage : Storage)
    (messages : OrderedDict MessageId MessageRecord)
    (outbox : OrderedDict MessageId Bytes) (now : ℚ) (peerId : PeerId)
    (before later : List ChatEvent) (index : Nat) (draw : HelloDraw)
    (completed : ℚ) :
    let state := run step (start identity storage messages outbox now) before
    let removed := state.step (.contact (.resume index draw completed))
    state.contacts.calls[index]? = some (.removing peerId) →
      (state.idle peerId = true → EveryStep step
          (fun state event => (state.step event).knows peerId = false)
          removed later →
        EveryStep step (fun state event =>
            ∀ sent ∈ state.transmits event, sent.peer ≠ peerId)
          removed later) ∧
      (state.unaddressed peerId = true →
        ∀ earlier event rest, later = earlier ++ event :: rest →
          ∀ messageId addr, .data peerId messageId addr ∈
              (run step removed earlier).transmits event →
            ∃ plaintext, .sendMessage peerId messageId plaintext ∈
              earlier) := by
  intro state removed hcall
  have hsound : state.Sound :=
    sound_run identity storage messages outbox now before
  constructor
  · intro hidle hlater
    -- The node stays silent and without the peer in its table.
    have hstep : ∀ (state : ChatNode P) event,
        (state.Silent peerId ∧ state.knows peerId = false) →
          (state.step event).knows peerId = false →
            (state.step event).Silent peerId ∧
              (state.step event).knows peerId = false :=
      fun state event hinv hafter =>
        ⟨hinv.1.step hinv.2 event hafter, hafter⟩
    exact everyStep_of_good hstep (fun state event hinv _ => hinv.1.transmits
      event) ⟨silent_of_idle hsound hidle hcall draw completed,
        not_knows_removed hcall draw completed⟩ hlater
  · rintro hunaddressed earlier event rest rfl messageId addr hsent
    have hlimited : removed.Limited peerId fun _ => False := by
      have hbefore := limited_of_unaddressed hunaddressed
      rw [show removed = _ from step_removing draw completed]
      exact ⟨hbefore.queue, hbefore.rows⟩
    have hlater : (run step removed earlier).Sound :=
      inv_run (fun _ event hsound => hsound.step event) (hsound.step _) earlier
    have hreceiver := receiverOf_of_transmits hlater hsent
    rcases (hlimited.run earlier).queue messageId hreceiver with
      hnever | ⟨_, hmem, plaintext, rfl⟩
    · exact absurd hnever not_false
    · exact ⟨plaintext, hmem⟩

end ChatNode

namespace ChatNodeWitness

open EndpointNodeWitness ContactNodeWitness ChatNode

/-- A node that knows the peer from its database. -/
def known : ChatNode Reference.primitives :=
  .start self contacts .empty .empty 0

def removal : List ChatEvent :=
  [.contact (.removePeer peer.peerId), .contact callResumes]

/-- The messaging coroutine at the index goes on. -/
def resumes (index : Nat) : ChatEvent :=
  .resume index (Reference.constant 16 8) draw 0

/-- The peer says hello, is connected, and its heartbeat starts after the
other coroutines have been left waiting. -/
def greeting (waiting : Nat) : List ChatEvent :=
  met.map .contact ++ [resumes waiting]

theorem data_accounted_flushed :
    let events := .sendMessage peer.peerId 1 [104] :: greeting 1 ++
      [resumes 1, resumes 1]
    .data peer.peerId 1 home ∈ (run step known events).transmits (resumes 1) ∧
      ∃ plaintext, .sendMessage peer.peerId 1 plaintext ∈ events := by
  intro events
  have hsent : .data peer.peerId 1 home ∈
      (run step known events).transmits (resumes 1) := by decide +kernel
  exact ⟨hsent, (data_accounted self contacts .empty .empty 0 events _
    hsent).resolve_left (by decide)⟩

/-- A contact that was never connected is removed. -/
theorem removed_peer_is_gone_unconnected :
    let state := run step known [.contact (.removePeer peer.peerId)]
    let removed := state.step (.contact callResumes)
    let later := [ChatEvent.sendMessage peer.peerId 1 [104], resumes 0,
      .retryPass 100, .heartbeat peer.peerId [0]]
    (state.contacts.calls[0]? = some (.removing peer.peerId) ∧
      state.idle peer.peerId = true ∧ state.unaddressed peer.peerId = true) ∧
      EveryStep step (fun state event =>
        ∀ sent ∈ state.transmits event, sent.peer ≠ peer.peerId)
        removed later := by
  have hgone := removed_peer_is_gone self contacts .empty .empty 0 peer.peerId
    [.contact (.removePeer peer.peerId)]
    [.sendMessage peer.peerId 1 [104], resumes 0, .retryPass 100,
      .heartbeat peer.peerId [0]] 0 draw 0
  have hcall : (run step known
      [.contact (.removePeer peer.peerId)]).contacts.calls[0]? =
        some (.removing peer.peerId) := by decide +kernel
  have hidle : (run step known
      [.contact (.removePeer peer.peerId)]).idle peer.peerId = true := by
    decide +kernel
  have hquiet := (hgone hcall).1 hidle (by decide +kernel)
  exact ⟨⟨hcall, hidle, by decide +kernel⟩, hquiet⟩

/-- A connected contact that is removed still gets a PING; and a message
queued for a contact before its removal goes out once the peer has said hello
again. -/
theorem removed_peer_pinged_and_flushed :
    let connected := run step (.start self .empty .empty .empty 0)
      (greeting 0 ++ removal)
    let queued := run step known (.sendMessage peer.peerId 1 [104] :: removal)
    let earlier := greeting 1 ++ [resumes 1, resumes 1]
    (connected.knows peer.peerId = false ∧
      connected.transmits (.heartbeat peer.peerId [0]) =
        [.ping peer.peerId home]) ∧
      queued.knows peer.peerId = false ∧
      (¬ ∃ plaintext, .sendMessage peer.peerId 1 plaintext ∈ earlier) ∧
      (run step queued earlier).transmits (resumes 1) =
        [.data peer.peerId 1 home] := by
  refine ⟨by decide +kernel, by decide +kernel, ?_, by decide +kernel⟩
  rintro ⟨plaintext, hmem⟩
  simp [greeting, met, helloArrives, handshakeResumes, resumes] at hmem

end ChatNodeWitness

end AshiChat
