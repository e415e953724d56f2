/-
A HELLO_ACK and the session it announces.  `_handle_hello` answers first and
registers the session afterwards, which a full registry refuses; the exception
ends in `handle_packet`, and the initiator is left with a session that nobody
else knows.  Then the handler waits for the storage several times, and what the
node does meanwhile can drop or replace the session again.
-/
import AshiChat.EndToEnd
import AshiChat.RegistryMoves
import AshiChat.RejectedHello

namespace AshiChat

open EventRun OrderedDict List Bool Option HelloAckPayload SessionRegistry Node
  Process PeerTable

variable {P : Primitives}

namespace SessionRegistry

/-- The session is found under its id and under its peer. -/
def Holds (registry : SessionRegistry) (peerId : PeerId) (sessionId : Bytes) :
    Prop :=
  ∃ ref session, registry.getBySessionId sessionId = some (ref, session) ∧
    registry.getByPeerId peerId = some (ref, session) ∧
    session.sessionId = sessionId ∧ session.remotePeerId = peerId

/-- The call concerns another session: it neither takes the peer or the id
anew, nor drops a session that has one of them. -/
def spares (registry : SessionRegistry) (peerId : PeerId) (sessionId : Bytes) :
    RegistryCall → Bool
  | .register session =>
    decide (session.remotePeerId ≠ peerId) &&
      decide (session.sessionId ≠ sessionId) &&
      (registry.sessionFor session.remotePeerId).all fun old =>
        decide (old.sessionId ≠ sessionId)
  | .remove removed =>
    decide (removed ≠ sessionId) &&
      (registry.getBySessionId removed).all fun found =>
        decide (found.2.remotePeerId ≠ peerId)

variable {registry later : SessionRegistry} {peerId : PeerId}
  {sessionId : Bytes}

theorem holds_iff : registry.Holds peerId sessionId ↔
    ∃ ref session, registry.bySession.get? sessionId = some ref ∧
      registry.byPeer.get? peerId = some ref ∧
      registry.objects[ref]? = some session ∧
      session.sessionId = sessionId ∧ session.remotePeerId = peerId := by
  constructor
  · rintro ⟨ref, session, hid, hpeer, hlabel⟩
    obtain ⟨hindex, hobj⟩ := getBySessionId_eq_some hid
    exact ⟨ref, session, hindex, (getByPeerId_eq_some hpeer).1, hobj, hlabel⟩
  · rintro ⟨ref, session, hid, hpeer, hobj, hlabel⟩
    refine ⟨ref, session, ?_, ?_, hlabel⟩
    · simp [getBySessionId, hid, hobj]
    · simp [getByPeerId, hpeer, hobj]

theorem holds_register {session : Session}
    (hreg : registry.register session = .ok later) :
    later.Holds session.remotePeerId session.sessionId := by
  refine holds_iff.mpr ⟨registry.objects.length, session, ?_, ?_, ?_, rfl, rfl⟩
  · rw [(bySession_register hreg).2, get?_set_self]
  · rw [byPeer_register hreg, get?_set_self]
  · rw [objects_register hreg, getElem?_concat_length]

section

variable (hholds : registry.Holds peerId sessionId)

include hholds

theorem Holds.of_retains
    (hretains : registry.Retains later) : later.Holds peerId sessionId := by
  obtain ⟨ref, _, hid, hpeer, hobj, hname, hparty⟩ := holds_iff.mp hholds
  obtain ⟨object, hobject, hname', hparty'⟩ := hretains.exists_object hobj
  exact holds_iff.mpr ⟨ref, object, hretains.bySession ▸ hid, hretains.byPeer ▸
    hpeer, hobject, hname'.trans hname, hparty'.trans hparty⟩

/-- A session with another peer and another id leaves this one alone. -/
theorem Holds.register {session : Session}
    (hspares : registry.spares peerId sessionId (.register session) = true)
    (hreg : registry.register session = .ok later) :
    later.Holds peerId sessionId := by
  simp only [spares, and_eq_true, decide_eq_true_eq, ne_eq] at hspares
  obtain ⟨⟨hother, hfresh⟩, hold⟩ := hspares
  obtain ⟨ref, object, hid, hpeer, hobj, hlabel⟩ := holds_iff.mp hholds
  refine holds_iff.mpr ⟨ref, object, ?_, ?_, ?_, hlabel⟩
  · rw [(bySession_register hreg).2, get?_set, if_neg hfresh]
    unfold withoutOld
    rw [sessionFor] at hold
    split
    · next _ hget =>
      rw [hget, map_some, all_some, decide_eq_true_eq] at hold
      rw [get?_erase, if_neg hold, hid]
    · exact hid
  · rw [byPeer_register hreg, get?_set, if_neg hother, hpeer]
  · obtain ⟨hlt, -⟩ := List.getElem?_eq_some_iff.mp hobj
    rw [objects_register hreg, getElem?_append_left hlt, hobj]

theorem Holds.remove {removed : Bytes}
    (hspares : registry.spares peerId sessionId (.remove removed) = true) :
    (registry.remove removed).Holds peerId sessionId := by
  simp only [spares, and_eq_true, decide_eq_true_eq, ne_eq] at hspares
  obtain ⟨hother, hfound⟩ := hspares
  unfold SessionRegistry.remove
  split
  · exact hholds
  · next _ _ hget =>
    rw [hget, all_some, decide_eq_true_eq] at hfound
    obtain ⟨ref, object, hid, hpeer, hobj, hlabel⟩ := holds_iff.mp hholds
    refine holds_iff.mpr ⟨ref, object, ?_, ?_, hobj, hlabel⟩
    · rw [get?_erase, if_neg hother, hid]
    · rw [get?_erase, if_neg hfound, hpeer]

theorem Holds.called {call : Option RegistryCall}
    (hspares : call.all (registry.spares peerId sessionId) = true) :
    (registry.called call).Holds peerId sessionId := by
  cases call with
  | none => exact hholds
  | some call =>
    cases call with
    | register =>
      simp only [SessionRegistry.called, SessionRegistry.call]
      split
      · next hreg => exact hholds.register hspares hreg
      · exact hholds
    | remove => exact hholds.remove hspares

end

theorem withoutOld_of_none (hnone : registry.sessionFor peerId = none) :
    registry.withoutOld peerId = registry.bySession := by
  rw [withoutOld, map_eq_none_iff.mp hnone]

end SessionRegistry

namespace Process

variable {process : Process P} {index : Nat} {draw : AckDraw} {now : ℚ}
  {packet ack : Packet} {addr target : Address} {hello : HelloPayload}
  {answer : HelloAckPayload}

/-- What is known once the HELLO_ACK is on its way. -/
theorem exists_keys_of_sent
    (htask : process.tasks[index]? = some (.helloRemembered packet addr))
    (hsent : (ack, target) ∈ (process.stretch (.resume index draw now)).sent)
    (hhello : HelloPayload.deserialize packet.payload = .ok hello)
    (hanswer : deserialize ack.payload = .ok answer) :
    ∃ keys, processHello packet process.node.peerTable.getDirectPeerIds
        process.node.identity draw = .ok (some (ack, keys)) ∧
      keys.remotePeerId = derivePeerId P hello.identityPublicKey ∧
      keys.sessionId = answer.sessionId := by
  simp only [stretch, htask, resume, acceptHello] at hsent
  split at hsent
  · cases hsent
  · cases hsent
  · next reply keys hprocess =>
    have hreply : ack = reply := by
      split at hsent <;>
        exact congrArg Prod.fst (mem_singleton.mp hsent)
    subst hreply
    obtain ⟨_, _, hdec, -, -, hack, hkeys⟩ :=
      processHello_eq_some_iff.mp hprocess
    cases hhello.symm.trans hdec
    have hpayload := deserialize_serialize
      (ackPayload_sized process.node.identity hello draw)
    rw [hack] at hanswer
    cases hanswer.symm.trans hpayload
    refine ⟨keys, hprocess, ?_, ?_⟩
    · rw [hkeys]
      rfl
    · rw [hkeys]
      rfl

/-- With room in the registry, the session is registered in the same
stretch. -/
theorem registryCall_of_room {keys : SessionKeys}
    (htask : process.tasks[index]? = some (.helloRemembered packet addr))
    (hprocess : processHello packet process.node.peerTable.getDirectPeerIds
      process.node.identity draw = .ok (some (ack, keys)))
    (hroom : process.node.registry.bySession.size < maxSessions) :
    process.registryCall (.resume index draw now) =
      some (.register (establish process.node.floors keys)) := by
  obtain ⟨registry, hregister⟩ := exists_register hroom
    (establish process.node.floors keys)
  simp [registryCall, stretch, htask, resume, acceptHello, hprocess,
    registerSession_of_register hregister, Task.opened]

/-- The coroutine that was suspended last goes on. -/
theorem step_resume_last (draw : AckDraw) (now : ℚ) (node : Node P)
    (tasks : List Task) (task : Task) :
    (⟨node, tasks ++ [task]⟩ : Process P).step (.resume tasks.length draw now) =
      ⟨(node.resume draw now task).node,
        tasks ++ (node.resume draw now task).next.toList⟩ := by
  simp [step, stretch, suspended, eraseIdx_append_of_length_le]

/-- The HELLO of an unknown peer waits for its verification. -/
theorem run_introduction (addr : Address) (draw : AckDraw) (now : ℚ)
    (htype : packet.packetType = .hello)
    (hdec : HelloPayload.deserialize packet.payload = .ok hello)
    (hguard : ¬ process.node.helloGuarded
      (derivePeerId P hello.identityPublicKey))
    (hdirect : derivePeerId P hello.identityPublicKey ∉
      process.node.peerTable.getDirectPeerIds) :
    run step process [.receive packet addr now,
        .resume process.tasks.length draw now,
        .resume process.tasks.length draw now] =
      ⟨process.node.autoAdded hello addr fun _ => now,
        process.tasks ++ [.helloRemembered packet addr]⟩ := by
  have hreceive : process.step (.receive packet addr now) =
      ⟨(process.node.handleHello packet addr now).node,
        process.tasks ++ [.helloAdded packet hello addr]⟩ := by
    simp only [step, stretch, htype, suspended,
      handleHello_unknown addr now hdec hguard hdirect]
    rfl
  rw [run_cons, hreceive, run_cons, step_resume_last,
    handleHello_unknown addr now hdec hguard hdirect]
  exact step_resume_last ..

end Process

namespace ChatNode

variable (state : ChatNode P)

/-- Datagrams and their handlers are the business of the process alone. -/
theorem process_step {event : NodeEvent}
    (hevent : (ContactEvent.endpoint (.node event)).internal = false) :
    (state.step (.contact (.endpoint (.node event)))).contacts.inner.process =
      state.contacts.inner.process.step event := by
  rw [step, if_neg (by simp [hevent]), contacts_stepContact]
  cases event <;> rfl

theorem process_run {events : List NodeEvent} (hevents : ∀ event ∈ events,
      (ContactEvent.endpoint (.node event)).internal = false) :
    (run step state (events.map fun event =>
      .contact (.endpoint (.node event)))).contacts.inner.process =
        run Process.step state.contacts.inner.process events := by
  induction events generalizing state with
  | nil => rfl
  | cons _ _ ih =>
    obtain ⟨hevent, hrest⟩ := forall_mem_cons.mp hevents
    rw [map_cons, run_cons, run_cons, ih _ hrest, state.process_step hevent]

/-- The event is no restart and leaves the session alone. -/
def spared (peerId : PeerId) (sessionId : Bytes) (state : ChatNode P)
    (event : ChatEvent) : Bool :=
  !event.restarts && (state.registryCall event).all
    (state.node.registry.spares peerId sessionId)

theorem holds_step {peerId : PeerId} {sessionId : Bytes} {state : ChatNode P}
    {event : ChatEvent} (hholds : state.node.registry.Holds peerId sessionId)
    (hspared : state.spared peerId sessionId event = true) :
    (state.step event).node.registry.Holds peerId sessionId := by
  obtain ⟨hevent, hspares⟩ := and_eq_true_iff.mp hspared
  exact (hholds.called hspares).of_retains
    (state.retains_step event (by simpa using hevent))

/-- If the registry has room when `_handle_hello` answers a HELLO, it holds the
session of the answer from then on, and so also when the handler has finished,
as long as nothing else the node does drops or replaces that session. -/
theorem hello_ack_kept {index : Nat} {draw : AckDraw}
    {now : ℚ} {packet ack : Packet} {addr target : Address}
    {hello : HelloPayload} {answer : HelloAckPayload}
    (htask : state.contacts.inner.process.tasks[index]? =
      some (.helloRemembered packet addr))
    (hsent : (ack, target) ∈ (state.contacts.inner.process.stretch
      (.resume index draw now)).sent)
    (hhello : HelloPayload.deserialize packet.payload = .ok hello)
    (hanswer : deserialize ack.payload = .ok answer)
    (hroom : state.node.registry.bySession.size < maxSessions)
    (later : List ChatEvent)
    (hspared : EveryStep step (fun state event => state.spared
        (derivePeerId P hello.identityPublicKey) answer.sessionId event)
      (state.step (.contact (.endpoint (.node (.resume index draw now)))))
      later) :
    (run step
      (state.step (.contact (.endpoint (.node (.resume index draw now)))))
      later).node.registry.Holds (derivePeerId P hello.identityPublicKey)
        answer.sessionId := by
  obtain ⟨keys, hprocess, hpeer, hid⟩ :=
    exists_keys_of_sent htask hsent hhello hanswer
  have hcall : state.registryCall
      (.contact (.endpoint (.node (.resume index draw now)))) =
        some (.register (establish state.node.floors keys)) :=
    registryCall_of_room htask hprocess hroom
  have hretains := state.retains_step
    (.contact (.endpoint (.node (.resume index draw now)))) rfl
  obtain ⟨registry, hregister⟩ := exists_register hroom
    (establish state.node.floors keys)
  rw [hcall, called_register hregister] at hretains
  have hholds := (holds_register hregister).of_retains hretains
  rw [establish_remotePeerId, establish_sessionId, hpeer, hid] at hholds
  have hstep : ∀ (state : ChatNode P) event,
      state.node.registry.Holds (derivePeerId P hello.identityPublicKey)
        answer.sessionId →
      state.spared (derivePeerId P hello.identityPublicKey) answer.sessionId
        event = true →
      (state.step event).node.registry.Holds
        (derivePeerId P hello.identityPublicKey) answer.sessionId :=
    fun _ _ hholds hspared => holds_step hholds hspared
  exact inv_run_of_everyStep hstep hholds hspared

end ChatNode

namespace HelloPromiseWitness

open EndpointNodeWitness Reference

def guest (number : Nat) : LocalIdentity primitives :=
  .ofPrivateKey _ (constant 32 (UInt8.ofNat (number + 3))).val

def greeting (number : Nat) : Packet := (createHello (guest number) draw).1

def guestDraw (number : Nat) : AckDraw := { ackDraw with
    sessionId := constant 8 (UInt8.ofNat (number + 3)) }

/-- A guest's HELLO up to its verification; as many handlers as there have been
guests wait already. -/
def introduced (number : Nat) : List NodeEvent :=
  [.receive (greeting number) home 0, .resume number (guestDraw number) 0,
    .resume number (guestDraw number) 0]

def visits (count : Nat) : List NodeEvent := (range count).flatMap fun number =>
    introduced number ++ [.resume number (guestDraw number) 0]

/-- The answer to the HELLO of a guest. -/
def answerTo (number : Nat) : HelloAckPayload :=
  ackPayload self (helloPayload (guest number) draw) (guestDraw number)

theorem deserialize_greeting (number : Nat) :
    HelloPayload.deserialize (greeting number).payload =
      .ok (helloPayload (guest number) draw) :=
  deserialize_createHello (guest number) draw

/-- The guests so far have a session, and the HELLO of one more is about to be
verified. -/
def crowded (count : Nat) : ChatNode primitives :=
  run ChatNode.step (.start self .empty .empty .empty 0)
    ((visits count ++ introduced count).map fun event =>
      .contact (.endpoint (.node event)))

/-- A guest gets a HELLO_ACK, the handler ends with an exception, and the
registry does not know the session. -/
structure Refused (number : Nat) (state : ChatNode primitives) : Prop where
  verifying : state.contacts.inner.process.tasks[number]? =
    some (.helloRemembered (greeting number) home)
  answered : (state.contacts.inner.process.stretch
    (.resume number (guestDraw number) 0)).sent =
      [(makePacket .helloAck (answerTo number).serialize, home)]
  ended : (state.contacts.inner.process.stretch
    (.resume number (guestDraw number) 0)).next = none
  raised : (state.contacts.inner.process.stretch
    (.resume number (guestDraw number) 0)).error =
      some (.runtimeError "Session limit reached (100)")
  unknown : ¬ (state.step (.contact (.endpoint (.node
    (.resume number (guestDraw number) 0))))).node.registry.Holds
      (guest number).peerId (answerTo number).sessionId

/-- As many guests as that have a session; the next ones are strangers. -/
structure Crowd (count : Nat) (process : Process primitives) : Prop where
  identity : process.node.identity = self
  pending : process.node.pendingHello = .empty
  waiting : process.tasks.length = count
  sessions : process.node.registry.bySession.size = count
  strangers : ∀ number, count ≤ number → number ≤ 100 →
    process.node.registry.sessionFor (guest number).peerId = none ∧
    process.node.registry.bySession.get? (guestDraw number).sessionId.val =
      none ∧
    process.node.peerTable.isDirect (guest number).peerId = false

/-- The node that has added one more guest to its contacts. -/
def hosting (count : Nat) (process : Process primitives) : Node primitives :=
  process.node.autoAdded (helloPayload (guest count) draw) home fun _ => 0

variable {count number : Nat} {process : Process primitives}

theorem ofNat_ne {left right : Nat} (hlt : left < right)
    (hle : right ≤ 103) : UInt8.ofNat left ≠ UInt8.ofNat right := by
  intro heq
  have hnat := congrArg UInt8.toNat heq
  simp only [UInt8.toNat_ofNat'] at hnat
  omega

/-- A later guest is another peer and gets another session id. -/
theorem guest_ne (hlt : count < number) (hle : number ≤ 100) :
    (guest count).peerId ≠ (guest number).peerId ∧
      (guestDraw count).sessionId.val ≠ (guestDraw number).sessionId.val := by
  have hne := ofNat_ne (Nat.add_lt_add_right hlt 3) (Nat.add_le_add_right hle 3)
  exact ⟨fun heq => hne (some.inj (congrArg head? heq)),
    fun heq => hne (some.inj (congrArg head? heq))⟩

theorem Crowd.run_introduced (hcrowd : Crowd count process)
    (hcount : count ≤ 100) :
    run Process.step process (introduced count) = ⟨hosting count process,
        process.tasks ++ [.helloRemembered (greeting count) home]⟩ := by
  obtain ⟨hsession, -, hdirect⟩ := hcrowd.strangers count le_rfl hcount
  have hguard : ¬ process.node.helloGuarded (guest count).peerId := by
    rintro (hhas | ⟨hpending, -⟩)
    · rw [hasSession_eq, hsession] at hhas
      cases hhas
    · rw [hcrowd.pending] at hpending
      cases hpending
  have hunknown : (guest count).peerId ∉
      process.node.peerTable.getDirectPeerIds := by
    rw [← isDirect_iff, hdirect]
    exact false_ne_true
  have hrun := run_introduction home (guestDraw count) 0 rfl
    (deserialize_greeting count) hguard hunknown
  rwa [hcrowd.waiting] at hrun

/-- The guest is known by now, and its HELLO is in order. -/
theorem Crowd.exists_keys (hcrowd : Crowd count process)
    (hcount : count ≤ 100) :
    ∃ keys, processHello (greeting count)
        (hosting count process).peerTable.getDirectPeerIds
        (hosting count process).identity (guestDraw count) =
          .ok (some (makePacket .helloAck (answerTo count).serialize, keys)) ∧
      keys.remotePeerId = (guest count).peerId ∧
      keys.sessionId = (guestDraw count).sessionId.val := by
  have hother : derivePeerId primitives (helloPayload (guest count)
      draw).identityPublicKey ≠ process.node.identity.peerId := by
    rw [hcrowd.identity]
    intro heq
    exact ofNat_ne (Nat.lt_add_left count (Nat.lt_succ_self 2))
      (Nat.add_le_add_right hcount 3) (some.inj (congrArg head? heq)).symm
  have hknown := mem_getDirectPeerIds.mpr
    (process.node.mem_direct_autoAdded home (fun _ => 0) hother)
  refine ⟨_, processHello_eq_some_iff.mpr ⟨_, _, deserialize_greeting count,
    helloVerifies_helloPayload (guest count) signaturesVerify draw
      hknown, rfl, ?_, rfl⟩, rfl, rfl⟩
  rw [show (hosting count process).identity = self from hcrowd.identity]
  rfl

theorem Crowd.visit (hcrowd : Crowd count process) (hcount : count < 100) :
    Crowd (count + 1) (run step process
      (introduced count ++ [.resume count (guestDraw count) 0])) := by
  obtain ⟨keys, hprocess, hpeer, hid⟩ := hcrowd.exists_keys hcount.le
  obtain ⟨hsession, hfresh, -⟩ := hcrowd.strangers count le_rfl hcount.le
  have hroom : (hosting count process).registry.bySession.size <
      maxSessions := hcrowd.sessions.trans_lt hcount
  obtain ⟨registry, hregister⟩ := exists_register hroom
    (establish (hosting count process).floors keys)
  have hsessions : registry.bySession =
      process.node.registry.bySession.set (guestDraw count).sessionId.val
        process.node.registry.objects.length := by
    have hset := (bySession_register hregister).2
    rw [establish_remotePeerId, establish_sessionId, hpeer, hid] at hset
    exact hset.trans (congrArg (OrderedDict.set · _ _)
      (withoutOld_of_none hsession))
  have hlast := step_resume_last (guestDraw count) 0
    (hosting count process) process.tasks
    (.helloRemembered (greeting count) home)
  rw [hcrowd.waiting] at hlast
  rw [run_append, hcrowd.run_introduced hcount.le, run_cons, hlast, run_nil]
  simp only [resume, acceptHello, hprocess,
    registerSession_of_register hregister]
  refine ⟨hcrowd.identity, ?_, ?_, ?_, fun number hlt hle => ?_⟩
  · exact (congrArg (erase · _) hcrowd.pending).trans rfl
  · simp [hcrowd.waiting]
  · rw [hsessions, size_set_of_get?_eq_none hfresh, hcrowd.sessions]
  · obtain ⟨hguest, hdraw⟩ := guest_ne hlt hle
    obtain ⟨hother, hunused, hstranger⟩ :=
      hcrowd.strangers number (Nat.le_of_succ_le hlt) hle
    refine ⟨?_, ?_, ?_⟩
    · rw [sessionFor_register hregister,
        establish_remotePeerId, hpeer, if_neg hguest]
      exact hother
    · rw [hsessions, get?_set, if_neg hdraw]
      exact hunused
    · refine (isDirect_addDirectPeer ..).trans ?_
      rw [if_neg fun hboth => hguest hboth.1]
      exact hstranger

theorem crowd_visits (hcount : count ≤ 100) :
    Crowd count (run step ⟨.start self .empty 0, []⟩ (visits count)) := by
  induction count with
  | zero => exact ⟨rfl, rfl, rfl, rfl, fun _ _ _ => ⟨rfl, rfl, rfl⟩⟩
  | succ count ih =>
    have hvisits : visits (count + 1) = visits count ++
        (introduced count ++ [.resume count (guestDraw count) 0]) := by
      simp [visits, range_succ]
    rw [hvisits, run_append]
    exact (ih (Nat.le_of_succ_le hcount)).visit hcount

/-- With a hundred sessions the handler of one more guest raises after it has
answered. -/
theorem Crowd.refused (hcrowd : Crowd 100 process) {state : ChatNode primitives}
    (hstate : state.contacts.inner.process = ⟨hosting 100 process,
      process.tasks ++ [.helloRemembered (greeting 100) home]⟩) :
    Refused 100 state := by
  obtain ⟨_, hverified, -, -⟩ := hcrowd.exists_keys le_rfl
  obtain ⟨-, hunused, -⟩ := hcrowd.strangers 100 le_rfl le_rfl
  have htask : state.contacts.inner.process.tasks[100]? =
      some (.helloRemembered (greeting 100) home) := by
    simp [hstate, hcrowd.waiting]
  have hfull : ∀ session, (hosting 100 process).registry.register session =
      .error (.runtimeError "Session limit reached (100)") :=
    fun session => if_pos hcrowd.sessions.ge
  have hstretch : ∃ node, node.registry = process.node.registry ∧
      state.contacts.inner.process.stretch (.resume 100 (guestDraw 100) 0) =
        { node := node
          sent := [(makePacket .helloAck (answerTo 100).serialize, home)]
          error := some (.runtimeError "Session limit reached (100)") } := by
    simp only [stretch, htask, resume, acceptHello]
    rw [hstate, hverified]
    simp only [registerSession, hfull]
    refine ⟨_, ?_, rfl⟩
    rfl
  obtain ⟨node, hregistry, hstretch⟩ := hstretch
  refine ⟨htask, by rw [hstretch], by rw [hstretch], by rw [hstretch], ?_⟩
  have hafter : (state.step (.contact (.endpoint (.node (.resume 100
      (guestDraw 100) 0))))).node.registry = process.node.registry :=
    (congrArg (fun process => process.node.registry)
      (state.process_step rfl)).trans
        ((congrArg (fun outcome => outcome.node.registry) hstretch).trans
          hregistry)
  rw [hafter, holds_iff]
  rintro ⟨ref, session, hfound, -⟩
  cases hunused.symm.trans hfound

theorem process_crowded (count : Nat) : (crowded count).contacts.inner.process =
      run Process.step (run Process.step ⟨.start self .empty 0, []⟩
        (visits count)) (introduced count) := by
  rw [← run_append]
  refine ChatNode.process_run _ fun event hmem => ?_
  simp only [visits, introduced, mem_append, mem_flatMap] at hmem
  aesop

theorem full_registry_breaks_promise : Refused 100 (crowded 100) := by
  have hcrowd := crowd_visits (le_refl 100)
  exact hcrowd.refused
    ((process_crowded 100).trans (hcrowd.run_introduced le_rfl))

/-- The handler of the first guest goes on to its end. -/
def finishing : List ChatEvent :=
  [.contact (.endpoint (.node (.resume 0 (guestDraw 0) 0))),
    .resume 0 (constant 16 9) draw 0]

theorem hello_ack_kept_first_guest :
    let finished := run ChatNode.step ((crowded 0).step
      (.contact (.endpoint (.node (.resume 0 (guestDraw 0) 0))))) finishing
    finished.contacts.inner.process.tasks = [] ∧ finished.works = [] ∧
      finished.node.registry.Holds (guest 0).peerId (answerTo 0).sessionId := by
  intro finished
  have htask : (crowded 0).contacts.inner.process.tasks[0]? =
      some (.helloRemembered (greeting 0) home) := by decide +kernel
  have hsent : (makePacket .helloAck (answerTo 0).serialize, home) ∈
      ((crowded 0).contacts.inner.process.stretch
        (.resume 0 (guestDraw 0) 0)).sent := by decide +kernel
  have hanswer : deserialize
      (makePacket .helloAck (answerTo 0).serialize).payload =
        .ok (answerTo 0) :=
    deserialize_serialize (ackPayload_sized ..)
  have hroom : (crowded 0).node.registry.bySession.size < maxSessions := by
    decide +kernel
  refine ⟨by decide +kernel, by decide +kernel, ?_⟩
  exact ChatNode.hello_ack_kept (crowded 0) htask hsent
    (deserialize_greeting 0) hanswer hroom finishing (by decide +kernel)

end HelloPromiseWitness

end AshiChat
