/-
What an event of the node does to the session registry, said once: it makes at
most one call that registers or removes a session, and otherwise only counts in
the session objects.  A restart begins with an empty registry.
-/
import AshiChat.ChatNode
import AshiChat.RegistryIndexes

namespace AshiChat

open Option Node SessionRegistry

variable {P : Primitives}

/-- What the registry knows a session by. -/
def Session.label (session : Session) : Bytes × PeerId :=
  (session.sessionId, session.remotePeerId)

namespace SessionRegistry

/-- The same sessions under the same keys. -/
structure Retains (registry later : SessionRegistry) : Prop where
  bySession : later.bySession = registry.bySession
  byPeer : later.byPeer = registry.byPeer
  labels : later.objects.map Session.label = registry.objects.map Session.label

/-- The registry after the call, if there is one. -/
def called (registry : SessionRegistry) : Option RegistryCall → SessionRegistry
  | none => registry
  | some call => registry.call call

/-- The call that drops the session of a peer. -/
def dropCall (registry : SessionRegistry) (peerId : PeerId) :
    Option RegistryCall :=
  (registry.sessionFor peerId).map fun session => .remove session.sessionId

variable {registry later last : SessionRegistry}

theorem Retains.refl (registry : SessionRegistry) : registry.Retains registry :=
  ⟨rfl, rfl, rfl⟩

theorem Retains.symm (hretains : registry.Retains later) :
    later.Retains registry :=
  ⟨hretains.bySession.symm, hretains.byPeer.symm, hretains.labels.symm⟩

theorem Retains.trans (hfirst : registry.Retains later)
    (hsecond : later.Retains last) : registry.Retains last :=
  ⟨hsecond.bySession.trans hfirst.bySession,
    hsecond.byPeer.trans hfirst.byPeer, hsecond.labels.trans hfirst.labels⟩

theorem Retains.exists_object (hretains : registry.Retains later) {ref : Nat}
    {session : Session} (hobj : registry.objects[ref]? = some session) :
    ∃ object, later.objects[ref]? = some object ∧
      object.sessionId = session.sessionId ∧
      object.remotePeerId = session.remotePeerId := by
  have hlabel : (later.objects.map Session.label)[ref]? =
      some session.label := by
    rw [hretains.labels, List.getElem?_map, hobj, map_some]
  rw [List.getElem?_map, map_eq_some_iff] at hlabel
  obtain ⟨object, hobject, hsame⟩ := hlabel
  exact ⟨object, hobject, congrArg Prod.fst hsame, congrArg Prod.snd hsame⟩

/-- A method call on a session object. -/
theorem retains_update {ref : Nat} {old session : Session}
    (hold : registry.objects[ref]? = some old)
    (hlabel : session.label = old.label) :
    registry.Retains (registry.update ref session) :=
  ⟨rfl, rfl, map_objects_update Session.label hold hlabel⟩

theorem called_dropCall (registry : SessionRegistry) (peerId : PeerId) :
    registry.called (registry.dropCall peerId) = registry.dropPeer peerId := by
  unfold dropCall sessionFor dropPeer
  cases registry.getByPeerId peerId <;> rfl

theorem called_register {session : Session}
    (hreg : registry.register session = .ok later) :
    registry.called (some (.register session)) = later := by
  simp only [called, call, hreg]

end SessionRegistry

/-- The keys whose session the coroutine has just registered. -/
def Task.opened : Task → Option SessionKeys
  | .helloSaved keys _ | .ackSaved keys _ => some keys
  | _ => none

namespace Process

/-- The call of the registry that changes it. -/
def registryCall (process : Process P) (event : NodeEvent) :
    Option RegistryCall :=
  match event with
  | .disconnect peerId _ => process.node.registry.dropCall peerId
  | .receive .. | .resume .. =>
    ((process.stretch event).next.bind Task.opened).map fun keys =>
      .register (establish process.node.floors keys)
  | _ => none

variable {process : Process P}

/-- The stretch has registered the keys with which its coroutine goes on, and
their peer is a contact. -/
inductive Opens (process : Process P) (outcome : Outcome P) : Prop where
  | nothing (hregistry : outcome.node.registry = process.node.registry)
      (hnext : outcome.next.bind Task.opened = none) : Opens process outcome
  | session {keys : SessionKeys} (hregister : process.node.registry.register
        (establish process.node.floors keys) = .ok outcome.node.registry)
      (hnext : outcome.next.bind Task.opened = some keys)
      (hknown : keys.remotePeerId ∈ process.node.peerTable.getDirectPeerIds) :
      Opens process outcome

theorem opens_handleHelloAck (process : Process P) (packet : Packet)
    (addr : Address) :
    process.Opens (process.node.handleHelloAck packet addr) := by
  have hends := ackEnds_handleHelloAck process.node packet addr
  cases hends with
  | ignored hnode hnext => exact .nothing (by rw [hnode]) (by rw [hnext]; rfl)
  | refused _ _ hnode hnext =>
    exact .nothing (by rw [hnode]; rfl) (by rw [hnext]; rfl)
  | answered _ _ _ hknown hregister hnext =>
    obtain ⟨_, hok, hnode⟩ := registerSession_eq_ok hregister
    refine .session ?_ (by rw [hnext]; rfl) hknown
    rw [hnode]
    exact hok

theorem opens_acceptHello (process : Process P) (packet : Packet)
    (addr : Address) (draw : AckDraw) :
    process.Opens (process.node.acceptHello packet addr draw) := by
  have hends := acceptEnds_acceptHello process.node packet addr draw
  cases hends with
  | refused hnode hnext => exact .nothing (by rw [hnode]) (by rw [hnext]; rfl)
  | accepted _ _ _ _ hknown hregister hnext =>
    obtain ⟨_, hok, hnode⟩ := registerSession_eq_ok hregister
    refine .session ?_ (by rw [hnext]; rfl) hknown
    rw [hnode]
    exact hok

theorem opens_receive (process : Process P) (packet : Packet) (addr : Address)
    (now : ℚ) :
    process.Opens (process.stretch (.receive packet addr now)) := by
  simp only [stretch]
  split
  · obtain ⟨-, hregistry, -, -, -, hnext⟩ :=
      handleHello_cases process.node packet addr now
    refine .nothing hregistry ?_
    rcases hnext with hnext | ⟨hello, hnext⟩ | hnext <;> rw [hnext] <;> rfl
  · exact opens_handleHelloAck process packet addr
  · exact .nothing rfl rfl

theorem opens_resume (process : Process P) (index : Nat) (draw : AckDraw)
    (now : ℚ) : process.Opens (process.stretch (.resume index draw now)) := by
  simp only [stretch]
  cases process.tasks[index]? with
  | none => exact .nothing rfl rfl
  | some task =>
    cases task with
    | helloRemembered packet addr =>
      exact opens_acceptHello process packet addr draw
    | _ => exact .nothing rfl rfl

theorem Opens.registry_eq {outcome : Outcome P}
    (hopens : process.Opens outcome) :
    outcome.node.registry = process.node.registry.called
      ((outcome.next.bind Task.opened).map fun keys =>
        .register (establish process.node.floors keys)) := by
  cases hopens with
  | nothing hregistry hnext =>
    rw [hnext]
    exact hregistry
  | session hregister hnext =>
    rw [hnext]
    exact (called_register hregister).symm

theorem Opens.direct {outcome : Outcome P} (hopens : process.Opens outcome)
    {keys : SessionKeys} (hkeys : outcome.next.bind Task.opened = some keys) :
    keys.remotePeerId ∈ process.node.peerTable.getDirectPeerIds := by
  cases hopens with
  | nothing _ hnext => cases hnext.symm.trans hkeys
  | session _ hnext hknown =>
    cases hnext.symm.trans hkeys
    exact hknown

theorem registry_connectToPeer (node : Node P) (peerId : PeerId)
    (endpoint : Address) (draw : HelloDraw) (now : ℚ) :
    (node.connectToPeer peerId endpoint draw now).node.registry =
      node.registry := by
  unfold connectToPeer
  split_ifs <;> rfl

theorem registry_stretch (process : Process P) (event : NodeEvent)
    (hevent : ∀ graceful now, event ≠ .restart graceful now) :
    (process.stretch event).node.registry =
      process.node.registry.called (process.registryCall event) := by
  cases event with
  | receive packet addr now =>
    exact (opens_receive process packet addr now).registry_eq
  | resume index draw now =>
    exact (opens_resume process index draw now).registry_eq
  | connect peerId endpoint draw now =>
    exact registry_connectToPeer process.node peerId endpoint draw now
  | retry =>
    simp only [stretch, retryHello]
    split
    · rfl
    · split_ifs <;> rfl
  | disconnect peerId =>
    exact (process.node.registry.called_dropCall peerId).symm
  | restart graceful now => exact absurd rfl (hevent graceful now)

theorem direct_of_registryCall {event : NodeEvent} {session : Session}
    (hcall : process.registryCall event = some (.register session)) :
    session.remotePeerId ∈ process.node.peerTable.getDirectPeerIds := by
  have hopened : ∀ {outcome : Outcome P}, process.Opens outcome →
      ((outcome.next.bind Task.opened).map fun keys =>
        RegistryCall.register (establish process.node.floors keys)) =
          some (.register session) →
      session.remotePeerId ∈ process.node.peerTable.getDirectPeerIds := by
    intro outcome hopens hmap
    obtain ⟨keys, hkeys, heq⟩ := map_eq_some_iff.mp hmap
    cases heq
    rw [establish_remotePeerId]
    exact hopens.direct hkeys
  cases event with
  | receive => exact hopened (opens_receive ..) hcall
  | resume => exact hopened (opens_resume ..) hcall
  | disconnect =>
    obtain ⟨_, -, heq⟩ := map_eq_some_iff.mp hcall
    cases heq
  | _ => cases hcall

end Process

namespace EndpointNode

variable (state : EndpointNode P)

theorem registry_connect (peerId : PeerId)
    (endpoint : Address) (draw : HelloDraw) (now : ℚ) :
    (state.connect peerId endpoint draw now).node.registry =
      state.node.registry :=
  Process.registry_connectToPeer ..

def registryCall (state : EndpointNode P) :
    EndpointNodeEvent → Option RegistryCall
  | .node event => state.process.registryCall event
  | _ => none

theorem retains_receiveData (payload : DataPayload) (addr : Address) :
    state.node.registry.Retains
      (state.receiveData payload addr).node.registry := by
  unfold receiveData
  split
  · exact .refl _
  · next _ _ hfound =>
    split
    · next _ _ hdecrypt =>
      obtain ⟨-, hobj⟩ := getBySessionId_eq_some hfound
      obtain ⟨-, rfl⟩ := QueueManager.decryptDataPacket_eq_some hdecrypt
      exact retains_update hobj rfl
    · exact .refl _

theorem retains_step (event : EndpointNodeEvent)
    (hevent : ∀ graceful now, event ≠ .node (.restart graceful now)) :
    (state.node.registry.called (state.registryCall event)).Retains
      (state.step event).node.registry := by
  -- Whatever else a coroutine does, it may end with an attempt to connect.
  have hconnect : ∀ (later : EndpointNode P) peerId endpoint draw now,
      later.node.registry = state.node.registry → state.node.registry.Retains
          (later.connect peerId endpoint draw now).node.registry := by
    intro later peerId endpoint draw now hsame
    rw [registry_connect, hsame]
    exact .refl _
  cases event with
  | node event =>
    have hstretch := state.process.registry_stretch event
      fun graceful now heq => hevent graceful now (congrArg _ heq)
    cases event with
    | restart graceful now => exact absurd rfl (hevent graceful now)
    | _ => exact hstretch ▸ .refl _
  | receiveData payload addr => exact state.retains_receiveData payload addr
  | receiveUpdate =>
    simp only [step, receiveUpdate]
    split <;> exact .refl _
  | reconnect =>
    simp only [step, reconnectPeer]
    split
    · exact .refl _
    · split
      · exact hconnect _ _ _ _ _ rfl
      · exact .refl _
  | sendOffline =>
    simp only [step, sendOffline]
    split
    · exact hconnect _ _ _ _ _ rfl
    · exact .refl _
  | resume =>
    simp only [step, runTask]
    split
    · exact .refl _
    · next task rest htake =>
      cases task with
      | resolving _ _ caller =>
        simp only [resumeTask]
        split
        · cases caller with
          | reconnect => exact .refl _
          | sendMessage => exact hconnect _ _ _ _ _ rfl
        · exact .refl _
      | resolvedRemembered => exact hconnect _ _ _ _ _ rfl
      | dataStored | dataRemembered => exact .refl _
  | timeout =>
    simp only [step, runTask]
    split
    · exact .refl _
    · next task rest htake =>
      cases task with
      | resolving _ _ caller =>
        simp only [timeoutTask]
        split
        · rcases caller with ⟨_ | endpoint⟩ | _
          · exact .refl _
          · exact hconnect _ _ _ _ _ rfl
          · exact .refl _
        · exact .refl _
      | dataStored | dataRemembered | resolvedRemembered => exact .refl _
  | recordAttempt | select | write => exact .refl _

end EndpointNode

namespace ContactNode

def registryCall (state : ContactNode P) : ContactEvent → Option RegistryCall
  | .endpoint event => state.inner.registryCall event
  | event => (state.drops event).bind state.node.registry.dropCall

theorem registry_addContact (node : Node P) (publicKey : Bytes)
    (endpoint : Option Address) (saved : PeerRecord) (now : ℚ) :
    (node.addContact publicKey endpoint saved now).registry =
      node.registry := by
  simp only [Node.addContact]
  split <;> rfl

theorem registry_resumeCall (state : ContactNode P) (draw : HelloDraw)
    (now : ℚ) (task : ContactTask) :
    (state.resumeCall draw now task).node.registry =
      match task with
      | .removing peerId => state.node.registry.dropPeer peerId
      | _ => state.node.registry := by
  cases task with
  | archiving | inviting | removing => rfl
  | invited publicKey endpoint saved =>
    cases saved with
    | none => rfl
    | some saved =>
      have hadded := registry_addContact state.node publicKey endpoint saved now
      cases endpoint with
      | none => exact hadded
      | some addr =>
        have hconnect := EndpointNode.registry_connect
          (state.inner.withNode (state.node.addContact publicKey
            (some addr) saved now)) (derivePeerId P publicKey) addr draw
          now
        exact hconnect.trans hadded

theorem retains_step (state : ContactNode P) (event : ContactEvent)
    (hevent : ∀ graceful now,
      event ≠ .endpoint (.node (.restart graceful now))) :
    (state.node.registry.called (state.registryCall event)).Retains
      (state.step event).node.registry := by
  cases event with
  | endpoint event =>
    have hstep := state.inner.retains_step event
      fun graceful now heq => hevent graceful now (congrArg _ heq)
    cases event with
    | node event =>
      cases event with
      | restart graceful now => exact absurd rfl (hevent graceful now)
      | _ => exact hstep
    | reconnect | recordAttempt =>
      simp only [step, stepEndpoint]
      split
      · exact hstep
      · exact .refl _
    | _ => exact hstep
  | addContactFromInvite =>
    simp only [step]
    split <;> exact .refl _
  | setPeerArchived | removePeer | suspect => exact .refl _
  | resume index =>
    cases hcall : state.calls[index]? with
    | none =>
      simp only [step, registryCall, drops, Pool.take?, hcall]
      exact .refl _
    | some task =>
      simp only [step, Pool.take?, hcall, map_some, registry_resumeCall]
      cases task with
      | removing =>
        simp only [registryCall, drops, hcall, bind_some, called_dropCall]
        exact .refl _
      | _ =>
        simp only [registryCall, drops, hcall]
        exact .refl _

/-- Only contacts get a session. -/
theorem direct_of_registryCall {state : ContactNode P} {event : ContactEvent}
    {session : Session}
    (hcall : state.registryCall event = some (.register session)) :
    session.remotePeerId ∈ state.node.peerTable.getDirectPeerIds := by
  cases event with
  | endpoint event =>
    cases event with
    | node => exact Process.direct_of_registryCall hcall
    | _ => cases hcall
  | resume =>
    obtain ⟨_, -, hdrop⟩ := bind_eq_some_iff.mp hcall
    obtain ⟨_, -, heq⟩ := map_eq_some_iff.mp hdrop
    cases heq
  | addContactFromInvite | setPeerArchived | removePeer | suspect => cases hcall

end ContactNode

namespace Messaging

variable {node later : Messaging}

theorem retains_advance {ref : Nat} {session : Session}
    (hobj : node.registry.objects[ref]? = some session) :
    node.registry.Retains (node.advance ref session).registry :=
  retains_update hobj rfl

theorem retains_flushWalk (P : Primitives) (node : Messaging) (peerId : PeerId)
    (ref : Nat) (endpoint : Address) (now : ℚ) (ids : List MessageId) :
    node.registry.Retains
      (flushWalk P peerId ref endpoint now node ids).node.registry := by
  have hend := flushEnd P peerId ref endpoint now node ids
  generalize flushWalk P peerId ref endpoint now node ids = stretch at hend ⊢
  cases hend with
  | finished => exact .refl _
  | stopped _ hready => exact retains_advance hready.object_eq
  | started _ _ hready => exact retains_advance hready.object_eq

theorem retains_retryWalk (P : Primitives) (node : Messaging) (now : ℚ)
    (ids : List MessageId) :
    node.registry.Retains (retryWalk P now node ids).node.registry := by
  refine retryWalk_rule (fun later _ => node.registry.Retains later.registry)
    (fun stretch => node.registry.Retains stretch.node.registry)
    ?_ ?_ ?_ ?_ ?_ ?_ (.refl _)
  · exact fun _ hretains => hretains
  · exact fun _ _ _ hretains _ => hretains
  · exact fun _ _ _ _ hretains _ _ _ => hretains
  · exact fun _ _ _ _ hretains _ _ => hretains
  · intro later messageId rest entry ref session hretains _ hready
    exact hretains.trans (retains_advance hready.object_eq)
  · intro later messageId rest entry ref session endpoint packet hretains _
      hready
    exact hretains.trans (retains_advance hready.object_eq)

theorem retains_afterDispatch (P : Primitives) (node : Messaging)
    (dispatch : Dispatch) (now : ℚ) :
    node.registry.Retains
      (node.afterDispatch P dispatch now).node.registry := by
  unfold afterDispatch
  split
  · split <;> exact .refl _
  · split <;> exact .refl _
  · exact retains_flushWalk P (node.handOver dispatch) _ _ _ now _
  · exact .refl _
  · exact retains_retryWalk P (node.handOver dispatch) now _
  · exact retains_retryWalk P (node.raise _) now _

theorem retains_resumeWork (P : Primitives) (node : Messaging) (now : ℚ)
    (work : Work) :
    node.registry.Retains (node.resumeWork P now work).node.registry := by
  cases work with
  | enqueued peerId messageId session =>
    cases session with
    | none => exact .refl _
    | some ref =>
      have hbuild := buildStep P node messageId ref now (.send peerId)
      simp only [resumeWork]
      generalize node.build P messageId ref now (.send peerId) = result
        at hbuild ⊢
      cases hbuild with
      | nothing => exact .refl _
      | error hready => exact retains_advance hready.object_eq
      | started hready => exact retains_advance hready.object_eq
  | statusStored dispatch => exact retains_afterDispatch P node dispatch now
  | failureStored rest => exact retains_retryWalk P node now rest
  | heartbeat =>
    simp only [resumeWork, flushQueued]
    split
    · exact retains_flushWalk P node _ _ _ now _
    · exact .refl _
  | sequenceStored | numberStored | receiptStored | received | helloSaved
  | ackSaved | ackRemembered => exact .refl _

end Messaging

def ChatEvent.restarts : ChatEvent → Bool
  | .contact (.endpoint (.node (.restart ..))) => true
  | _ => false

namespace ChatNode

def registryCall (state : ChatNode P) : ChatEvent → Option RegistryCall
  | .contact event =>
    if event.internal then none else state.contacts.registryCall event
  | .callback index now =>
    (state.callbacks[index]?).bind fun callback =>
      state.contacts.registryCall (callback.event now)
  | _ => none

variable (state : ChatNode P)

theorem contacts_stepContact (event : ContactEvent) :
    (state.stepContact event).contacts = state.contacts.step event := by
  unfold stepContact
  split
  · rfl
  · rfl
  · split <;> rfl

theorem contacts_beat (peerId : PeerId) (pingId : Bytes) :
    (state.beat peerId pingId).contacts = state.contacts := by
  unfold beat
  split
  · rfl
  · split <;> rfl
  · split
    · simp only
      split <;> rfl
    · rfl

theorem retains_step (event : ChatEvent) (hevent : event.restarts = false) :
    (state.node.registry.called (state.registryCall event)).Retains
      (state.step event).node.registry := by
  cases event with
  | contact event =>
    simp only [step, registryCall]
    split
    · exact .refl _
    · have hcontacts := contacts_stepContact state event
      have hstep := state.contacts.retains_step event (by
        rintro graceful now rfl
        cases hevent)
      unfold node
      rw [hcontacts]
      exact hstep
  | sendMessage | handleAck =>
    simp only [step, call, Messaging.handle]
    split <;> exact .refl _
  | handleAppAck =>
    simp only [step, call, Messaging.handle]
    split
    · exact .refl _
    · split <;> exact .refl _
  | handleSync =>
    simp only [step, call, Messaging.handle]
    split <;> exact .refl _
  | retryPass now =>
    simp only [step, call, Messaging.handle]
    split
    · exact .refl _
    · exact Messaging.retains_retryWalk P state.view now _
  | resume _ requestId draw now =>
    simp only [step]
    split
    · exact .refl _
    · next work rest _ =>
      have hresumed := Messaging.retains_resumeWork P
        ({ state with works := rest } : ChatNode P).view now work
      cases work with
      | enqueued receiver _ session =>
        cases session with
        | none =>
          refine state.contacts.retains_step
            (.endpoint (.sendOffline receiver requestId draw now)) ?_
          rintro graceful now ⟨⟩
        | some => exact hresumed
      | _ => exact hresumed
  | heartbeat =>
    simp only [step, node, contacts_beat]
    exact .refl _
  | handlePong =>
    simp only [step, handlePong]
    split <;> exact .refl _
  | callback index now =>
    cases hget : state.callbacks[index]? with
    | none =>
      simp only [step, registryCall, Pool.take?, hget]
      exact .refl _
    | some callback =>
      simp only [step, registryCall, Pool.take?, hget, map_some, bind_some]
      refine state.contacts.retains_step (callback.event now) ?_
      cases callback <;> rintro graceful now ⟨⟩
  | punch => exact .refl _

end ChatNode

end AshiChat
