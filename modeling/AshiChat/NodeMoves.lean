/-
What one stretch of a node can do to its handshakes: an inversion of
`Process.stretch` that says how the session registry and the pending HELLOs
move, and where the packets that a node sends and keeps come from.
-/
import AshiChat.KeyAgreement
import AshiChat.Node

namespace AshiChat

open OrderedDict Node Bool Outcome List

variable {P : Primitives}

namespace Process

/-- The use an event makes of the identity key. -/
def handshake (process : Process P) : NodeEvent → Option (HandshakeEvent P)
  | .connect peerId _ draw _ =>
    if process.node.hasSession peerId ∨
        process.node.pendingHello.contains peerId then none
    else some (.start process.node.identity draw)
  | .resume index draw _ =>
    match process.tasks[index]? with
    | some (.helloRemembered packet _) =>
      some (.receiveHello process.node.identity packet
        process.node.peerTable.getDirectPeerIds draw)
    | _ => none
  | _ => none

/-- The HELLO an event accepts, with the keys derived from it. -/
def acceptance (process : Process P) (event : NodeEvent) :
    Option (Acceptance P) :=
  match process.handshake event with
  | some (.receiveHello node packet known draw) =>
    match HelloPayload.deserialize packet.payload,
        processHello packet known node draw with
    | .ok hello, .ok (some (_, made)) => some ⟨node, hello, draw, made⟩
    | _, _ => none
  | _ => none

/-- Events after which a HELLO may no longer be pending: one yields to a
packet of the peer, or its last attempt has been made. -/
def givesUp (process : Process P) : NodeEvent → Bool
  | .receive .. | .restart .. => true
  | .retry peerId _ => (process.node.retryTasks.get? peerId).any fun task =>
    lastHelloAttempt ≤ task.attempt
  | _ => false

/-- How the registry and the pending HELLOs move. -/
inductive Moves (process : Process P) : NodeEvent → Node P → Prop where
  /-- Nothing is accepted. -/
  | quiet {event : NodeEvent} {node' : Node P}
      (hacc : process.acceptance event = none)
      (hregistry : node'.registry = process.node.registry)
      (hpending : node'.pendingHello = process.node.pendingHello) :
      Moves process event node'
  /-- Nothing is accepted, and a pending HELLO may be given up. -/
  | giveUp {event : NodeEvent} {node' : Node P}
      (hgives : process.givesUp event = true)
      (hacc : process.acceptance event = none)
      (hregistry : node'.registry = process.node.registry)
      (hpending : ∀ peerId state, node'.pendingHello.get? peerId = some state →
          process.node.pendingHello.get? peerId = some state) :
      Moves process event node'
  /-- A HELLO is created. -/
  | connect {peerId : PeerId} {endpoint : Address} {draw : HelloDraw} {now : ℚ}
      {node' : Node P} (hsession : process.node.hasSession peerId = false)
      (hfree : process.node.pendingHello.contains peerId = false)
      (hregistry : node'.registry = process.node.registry)
      (hpending : node'.pendingHello = process.node.pendingHello.set peerId
        { draw.state P with targetPeerId := some peerId }) :
      Moves process (.connect peerId endpoint draw now) node'
  /-- A HELLO is accepted and its session registered. -/
  | accept {event : NodeEvent} {node' : Node P} {accepted : Acceptance P}
      (hacc : process.acceptance event = some accepted)
      (hregister : process.node.registry.register
        (establish process.node.floors accepted.keys) = .ok node'.registry)
      (hpending : node'.pendingHello = process.node.pendingHello) :
      Moves process event node'
  /-- A HELLO is accepted and answered, but the registry is full. -/
  | overfull {event : NodeEvent} {node' : Node P} {accepted : Acceptance P}
      {err : PyError} (hacc : process.acceptance event = some accepted)
      (hregister : process.node.registry.register
        (establish process.node.floors accepted.keys) = .error err) :
      Moves process event node'
  /-- A HELLO_ACK is accepted. -/
  | answered {packet : Packet} {addr : Address} {now : ℚ} {node' : Node P}
      {ack : HelloAckPayload} {state : HandshakeState} {keys : SessionKeys}
      (htype : packet.packetType = .helloAck)
      (hdec : HelloAckPayload.deserialize packet.payload = .ok ack)
      (hstate : process.node.pendingHello.get?
        (derivePeerId P ack.identityPublicKey) = some state)
      (hsession : process.node.hasSession
        (derivePeerId P ack.identityPublicKey) = false)
      (hprocess : processHelloAck P packet state
        process.node.peerTable.getDirectPeerIds = .ok (some keys))
      (hregister : process.node.registry.register
        (establish process.node.floors keys) = .ok node'.registry)
      (hpending : node'.pendingHello = process.node.pendingHello.erase
        (derivePeerId P ack.identityPublicKey)) :
      Moves process (.receive packet addr now) node'
  /-- A session is dropped. -/
  | disconnect {peerId : PeerId} {now : ℚ} {node' : Node P} {sessionId : Bytes}
      (hregistry : node'.registry = process.node.registry.remove sessionId)
      (hpending : node'.pendingHello = process.node.pendingHello) :
      Moves process (.disconnect peerId now) node'
  | restart {graceful : Bool} {now : ℚ} {node' : Node P}
      (hregistry : node'.registry = .empty)
      (hpending : node'.pendingHello = .empty) :
      Moves process (.restart graceful now) node'

/-- `_handle_hello` before it verifies: at most the own HELLO is given up. -/
theorem handleHello_cases (node : Node P) (packet : Packet) (addr : Address)
    (now : ℚ) :
    let outcome := node.handleHello packet addr now
    outcome.node.identity = node.identity ∧
      outcome.node.registry = node.registry ∧
      outcome.node.retryTasks = node.retryTasks ∧ outcome.sent = [] ∧
      (outcome.node.pendingHello = node.pendingHello ∨
        ∃ remote, outcome.node.pendingHello = node.pendingHello.erase remote) ∧
      (outcome.next = none ∨
        (∃ hello, outcome.next = some (.helloAdded packet hello addr)) ∨
        outcome.next = some (.helloRemembered packet addr)) := by
  intro outcome
  cases hdec : HelloPayload.deserialize packet.payload with
  | error => simp [outcome, handleHello, hdec]
  | ok hello =>
    by_cases hguard : node.helloGuarded (derivePeerId P hello.identityPublicKey)
    · simp [outcome, handleHello_guarded addr now hdec hguard]
    · by_cases hdirect : derivePeerId P hello.identityPublicKey ∈
          node.peerTable.getDirectPeerIds
      · rw [show outcome = _ from
          handleHello_known addr now hdec hguard hdirect]
        exact ⟨rfl, rfl, rfl, rfl, .inr ⟨_, rfl⟩, .inr (.inr rfl)⟩
      · rw [show outcome = _ from
          handleHello_unknown addr now hdec hguard hdirect]
        exact ⟨rfl, rfl, rfl, rfl, .inr ⟨_, rfl⟩, .inr (.inl ⟨hello, rfl⟩)⟩

variable (process : Process P)

theorem moves_handleHello (packet : Packet) (addr : Address) (now : ℚ) :
    process.Moves (.receive packet addr now)
      (process.node.handleHello packet addr now).node := by
  obtain ⟨_, hregistry, _, _, hpending, _⟩ :=
    handleHello_cases process.node packet addr now
  refine .giveUp rfl rfl hregistry ?_
  intro peerId state hget
  rcases hpending with hsame | ⟨_, herase⟩
  · exact hsame ▸ hget
  · exact get?_of_get?_erase (herase ▸ hget)

variable {packet : Packet}

theorem moves_handleHelloAck
    (htype : packet.packetType = .helloAck) (addr : Address) (now : ℚ) :
    process.Moves (.receive packet addr now)
      (process.node.handleHelloAck packet addr).node := by
  unfold handleHelloAck
  split
  · exact .quiet rfl rfl rfl
  · next _ hdec =>
    simp only
    split
    · exact .quiet rfl rfl rfl
    · next _ hstate =>
      split
      · exact .giveUp rfl rfl rfl (fun _ _ => get?_of_get?_erase)
      · next hsession =>
        split
        · exact .giveUp rfl rfl rfl (fun _ _ => get?_of_get?_erase)
        · exact .giveUp rfl rfl rfl (fun _ _ => get?_of_get?_erase)
        · next _ hprocess =>
          split
          · next hreg =>
            obtain ⟨_, rfl⟩ := registerSession_eq_error hreg
            exact .giveUp rfl rfl rfl (fun _ _ => get?_of_get?_erase)
          · next hreg =>
            obtain ⟨_, hregister, rfl⟩ := registerSession_eq_ok hreg
            exact .answered htype hdec hstate (eq_false_of_not_eq_true hsession)
              hprocess hregister rfl

/-- The acceptance is what the stretch computes. -/
theorem acceptance_resume {process : Process P} {index : Nat}
    {addr : Address} (draw : AckDraw) (now : ℚ)
    (htask : process.tasks[index]? = some (.helloRemembered packet addr)) :
    process.acceptance (.resume index draw now) =
      match HelloPayload.deserialize packet.payload,
          processHello packet process.node.peerTable.getDirectPeerIds
            process.node.identity draw with
      | .ok hello, .ok (some (_, made)) =>
        some ⟨process.node.identity, hello, draw, made⟩
      | _, _ => none := by
  simp only [acceptance, handshake, htask]

/-- What is known of an acceptance. -/
theorem acceptance_eq_some {process : Process P} {event : NodeEvent}
    {accepted : Acceptance P}
    (hacc : process.acceptance event = some accepted) :
    ∃ index now packet addr ack, event = .resume index accepted.draw now ∧
      process.tasks[index]? = some (.helloRemembered packet addr) ∧
      HelloPayload.deserialize packet.payload = .ok accepted.hello ∧
      processHello packet process.node.peerTable.getDirectPeerIds
        process.node.identity accepted.draw = .ok (some (ack, accepted.keys)) ∧
      accepted.responder = process.node.identity := by
  cases event with
  | resume index draw now =>
    cases htask : process.tasks[index]? with
    | none => simp [acceptance, handshake, htask] at hacc
    | some task =>
      cases task with
      | helloRemembered packet addr =>
        rw [acceptance_resume draw now htask] at hacc
        split at hacc
        · next hello ack keys hdec hprocess =>
          cases hacc
          exact ⟨index, now, packet, addr, ack, rfl, htask, hdec, hprocess, rfl⟩
        · cases hacc
      | _ => simp [acceptance, handshake, htask] at hacc
  | connect =>
    simp only [acceptance, handshake] at hacc
    split_ifs at hacc
  | _ => cases hacc

theorem moves_acceptHello {process : Process P} {index : Nat}
    {addr : Address} (draw : AckDraw) (now : ℚ)
    (htask : process.tasks[index]? = some (.helloRemembered packet addr)) :
    process.Moves (.resume index draw now)
      (process.node.acceptHello packet addr draw).node := by
  have hacc := acceptance_resume draw now htask
  unfold acceptHello
  cases hprocess : processHello packet process.node.peerTable.getDirectPeerIds
      process.node.identity draw with
  | error err =>
    refine .quiet ?_ rfl rfl
    rw [hacc, hprocess]
    cases HelloPayload.deserialize packet.payload <;> rfl
  | ok result =>
    cases result with
    | none =>
      refine .quiet ?_ rfl rfl
      rw [hacc, hprocess]
      cases HelloPayload.deserialize packet.payload <;> rfl
    | some answer =>
      obtain ⟨_, _⟩ := answer
      obtain ⟨_, _, hdec, _⟩ := processHello_eq_some_iff.mp hprocess
      simp only [hdec, hprocess] at hacc
      simp only
      split
      · next hreg => exact .overfull hacc (registerSession_eq_error hreg).1
      · next hreg =>
        obtain ⟨_, hregister, rfl⟩ := registerSession_eq_ok hreg
        exact .accept hacc hregister rfl

/-- Every other resumed coroutine leaves registry and pending HELLOs alone. -/
theorem resume_frame (node : Node P) (draw : AckDraw) (now : ℚ) {task : Task}
    (hother : ∀ packet addr, task ≠ .helloRemembered packet addr) :
    (node.resume draw now task).node.registry = node.registry ∧
      (node.resume draw now task).node.pendingHello = node.pendingHello := by
  cases task with
  | helloRemembered packet addr => exact absurd rfl (hother packet addr)
  | _ => exact ⟨rfl, rfl⟩

theorem moves_resume (index : Nat) (draw : AckDraw) (now : ℚ) :
    process.Moves (.resume index draw now)
      (process.stretch (.resume index draw now)).node := by
  have hquiet : (∀ packet addr,
      process.tasks[index]? ≠ some (.helloRemembered packet addr)) →
        process.acceptance (.resume index draw now) = none := by
    intro hother
    simp only [acceptance, handshake]
  simp only [stretch]
  cases htask : process.tasks[index]? with
  | none => exact .quiet (hquiet (by simp [htask])) rfl rfl
  | some task =>
    by_cases hremembered : ∃ packet addr, task = .helloRemembered packet addr
    · obtain ⟨packet, addr, rfl⟩ := hremembered
      exact moves_acceptHello draw now htask
    · have hother : ∀ packet addr, task ≠ .helloRemembered packet addr :=
        fun packet addr heq => hremembered ⟨packet, addr, heq⟩
      obtain ⟨hregistry, hpending⟩ := resume_frame process.node draw now hother
      refine .quiet (hquiet ?_) hregistry hpending
      intro packet addr heq
      rw [htask, Option.some.injEq] at heq
      exact hother packet addr heq

theorem moves_connect (peerId : PeerId)
    (endpoint : Address) (draw : HelloDraw) (now : ℚ) :
    process.Moves (.connect peerId endpoint draw now)
      (process.node.connectToPeer peerId endpoint draw now).node := by
  have hacc : process.acceptance (.connect peerId endpoint draw now) = none := by
    simp only [acceptance, handshake]
    split_ifs <;> rfl
  unfold connectToPeer
  split
  · exact .quiet hacc rfl rfl
  · next hsession =>
    split
    · exact .quiet hacc rfl rfl
    · next hpending =>
      exact .connect (eq_false_of_not_eq_true hsession)
        (eq_false_of_not_eq_true hpending) rfl rfl

theorem moves_retryHello (peerId : PeerId) (now : ℚ) :
    process.Moves (.retry peerId now)
      (process.node.retryHello peerId now).node := by
  unfold retryHello
  split
  · exact .quiet rfl rfl rfl
  · next _ htask =>
    split_ifs with _ hmore
    · exact .quiet rfl rfl rfl
    · exact .quiet rfl rfl rfl
    · refine .giveUp ?_ rfl rfl fun _ _ => get?_of_get?_erase
      simpa [givesUp, htask] using hmore

/-- A stretch of any event is one of the moves. -/
theorem moves_stretch (event : NodeEvent) :
    process.Moves event (process.stretch event).node := by
  cases event with
  | receive packet addr now =>
    simp only [stretch]
    split
    · exact moves_handleHello process packet addr now
    · next htype => exact moves_handleHelloAck process htype addr now
    · exact .quiet rfl rfl rfl
  | resume index draw now => exact moves_resume process index draw now
  | connect peerId endpoint draw now =>
    exact moves_connect process peerId endpoint draw now
  | retry peerId now => exact moves_retryHello process peerId now
  | disconnect peerId =>
    simp only [stretch, handlePeerDisconnect]
    cases hget : process.node.registry.getByPeerId peerId with
    | none => exact .quiet rfl rfl rfl
    | some => exact .disconnect rfl rfl
  | restart => exact .restart rfl rfl

end Process

/-- The HELLO a coroutine carries: one of the peer's while it is being
answered, one of the node's own while it is being sent. -/
def Task.From (own theirs : Packet → Prop) : Task → Prop
  | .helloAdded packet .. => theirs packet
  | .helloFetched packet .. => theirs packet
  | .helloRemembered packet _ => theirs packet
  | .connecting _ hello _ => own hello
  | _ => True

/-- A stretch keeps the identity, leaves a coroutine with the right HELLO, and
retries only HELLOs of its own. -/
structure Outcome.From (own theirs : Packet → Prop) (node : Node P)
    (outcome : Outcome P) : Prop where
  identity : outcome.node.identity = node.identity
  next : ∀ task, outcome.next = some task → task.From own theirs
  retry : ∀ peerId task, outcome.node.retryTasks.get? peerId = some task →
    own task.hello

/-- Every HELLO that a node keeps was received, or is its own. -/
structure Process.From (own theirs : Packet → Prop) (process : Process P) :
    Prop where
  tasks : ∀ task ∈ process.tasks, task.From own theirs
  retry : ∀ peerId task,
    process.node.retryTasks.get? peerId = some task → own task.hello

section Provenance

variable {own theirs : Packet → Prop} {node : Node P} (hretry : ∀ peerId task,
    node.retryTasks.get? peerId = some task → own task.hello)

include hretry

theorem Outcome.from_idle {outcome : Outcome P}
    (hidentity : outcome.node.identity = node.identity)
    (htasks : outcome.node.retryTasks = node.retryTasks)
    (hnext : ∀ task, outcome.next = some task → task.From own theirs) :
    outcome.From own theirs node :=
  ⟨hidentity, hnext, htasks ▸ hretry⟩

theorem Outcome.from_done {outcome : Outcome P}
    (hidentity : outcome.node.identity = node.identity)
    (htasks : outcome.node.retryTasks = node.retryTasks)
    (hnext : outcome.next = none) : outcome.From own theirs node :=
  from_idle hretry hidentity htasks fun _ htask => by
    rw [hnext] at htask
    cases htask

theorem from_retry_set {peerId other : PeerId} {task retry : RetryTask}
    (hget : (node.retryTasks.set peerId task).get? other = some retry)
    (htask : own task.hello) : own retry.hello := by
  rcases get?_set_cases hget with ⟨-, rfl⟩ | ⟨-, hget⟩
  · exact htask
  · exact hretry other retry hget

theorem from_retry_erase {peerId other : PeerId} {retry : RetryTask}
    (hget : (node.retryTasks.erase peerId).get? other = some retry) :
    own retry.hello := by
  rw [get?_erase] at hget
  split at hget
  · cases hget
  · exact hretry other retry hget

theorem from_handleHello {packet : Packet} (addr : Address) (now : ℚ)
    (htheirs : theirs packet) :
    (node.handleHello packet addr now).From own theirs node := by
  obtain ⟨hidentity, _, htasks, _, _, hnext⟩ :=
    Process.handleHello_cases node packet addr now
  refine from_idle hretry hidentity htasks ?_
  intro task htask
  rw [htask] at hnext
  rcases hnext with hnone | ⟨_, hadded⟩ | hremembered
  · cases hnone
  · cases hadded
    exact htheirs
  · cases hremembered
    exact htheirs

theorem from_handleHelloAck (packet : Packet) (addr : Address) :
    (node.handleHelloAck packet addr).From own theirs node := by
  unfold handleHelloAck
  split
  · exact from_done hretry rfl rfl rfl
  · simp only
    split
    · exact from_done hretry rfl rfl rfl
    · split
      · exact from_done hretry rfl rfl rfl
      · split
        · exact from_done hretry rfl rfl rfl
        · exact from_done hretry rfl rfl rfl
        · split
          · next hreg =>
            obtain ⟨_, rfl⟩ := registerSession_eq_error hreg
            exact from_done hretry rfl rfl rfl
          · next hreg =>
            obtain ⟨_, _, rfl⟩ := registerSession_eq_ok hreg
            refine from_idle hretry rfl rfl ?_
            rintro task ⟨⟩
            trivial

theorem from_acceptHello (packet : Packet) (addr : Address) (draw : AckDraw) :
    (node.acceptHello packet addr draw).From own theirs node := by
  unfold acceptHello
  split
  · exact from_done hretry rfl rfl rfl
  · exact from_done hretry rfl rfl rfl
  · split
    · next hreg =>
      obtain ⟨_, rfl⟩ := registerSession_eq_error hreg
      exact from_done hretry rfl rfl rfl
    · next hreg =>
      obtain ⟨_, _, rfl⟩ := registerSession_eq_ok hreg
      refine from_idle hretry rfl rfl ?_
      rintro task ⟨⟩
      trivial

theorem from_resume (draw : AckDraw) (now : ℚ) {task : Task}
    (htask : task.From own theirs) :
    (node.resume draw now task).From own theirs node := by
  cases task with
  | helloAdded | helloFetched =>
    exact from_idle hretry rfl rfl (by rintro _ ⟨⟩; exact htask)
  | helloRemembered packet addr => exact from_acceptHello hretry packet addr draw
  | helloSaved => exact from_done hretry rfl rfl rfl
  | connecting =>
    refine ⟨rfl, ?_, fun _ _ hget => from_retry_set hretry hget htask⟩
    rintro _ ⟨⟩
  | ackSaved | ackRemembered =>
    exact from_idle hretry rfl rfl (by rintro _ ⟨⟩; trivial)
  | ackFlushed =>
    refine ⟨rfl, ?_, fun _ _ hget => from_retry_erase hretry hget⟩
    rintro _ ⟨⟩

theorem from_connectToPeer (peerId : PeerId) (endpoint : Address)
    {draw : HelloDraw} (now : ℚ)
    (hown : node.hasSession peerId = false →
      node.pendingHello.contains peerId = false →
      own (createHello node.identity draw).1) :
    (node.connectToPeer peerId endpoint draw now).From own theirs node := by
  unfold connectToPeer
  split_ifs with hsession hpending
  · exact from_done hretry rfl rfl rfl
  · exact from_done hretry rfl rfl rfl
  · refine from_idle hretry rfl rfl ?_
    rintro _ ⟨⟩
    exact hown (eq_false_of_not_eq_true hsession)
      (eq_false_of_not_eq_true hpending)

theorem from_retryHello (peerId : PeerId) (now : ℚ) :
    (node.retryHello peerId now).From own theirs node := by
  unfold retryHello
  split
  · exact from_done hretry rfl rfl rfl
  · next task htask =>
    have hown : own task.hello := hretry peerId task htask
    split_ifs
    · refine ⟨rfl, ?_, fun _ _ hget => from_retry_erase hretry hget⟩
      rintro _ ⟨⟩
    · refine ⟨rfl, ?_, fun _ _ hget => from_retry_set hretry hget hown⟩
      rintro _ ⟨⟩
    · refine ⟨rfl, ?_, fun _ _ hget => from_retry_erase hretry hget⟩
      rintro _ ⟨⟩

end Provenance

namespace Process

/-- What an event brings in: a HELLO of the peer, or a draw for a new one. -/
def Supplies (own theirs : Packet → Prop) (process : Process P) :
    NodeEvent → Prop
  | .receive packet .. => packet.packetType = .hello → theirs packet
  | .connect peerId _ draw _ => process.node.hasSession peerId = false →
      process.node.pendingHello.contains peerId = false →
      own (createHello process.node.identity draw).1
  | _ => True

variable {own theirs : Packet → Prop} {process : Process P}

variable {event : NodeEvent}

theorem From.stretch (hfrom : process.From own theirs)
    (hsupplies : process.Supplies own theirs event) :
    (process.stretch event).From own theirs process.node := by
  have hretry := hfrom.retry
  cases event with
  | receive packet addr now =>
    simp only [Process.stretch]
    split
    · next htype => exact from_handleHello hretry addr now (hsupplies htype)
    · exact from_handleHelloAck hretry packet addr
    · exact from_done hretry rfl rfl rfl
  | resume _ draw now =>
    simp only [Process.stretch]
    split
    · next task htask =>
      exact from_resume hretry draw now
        (hfrom.tasks task (mem_of_getElem? htask))
    · exact from_done hretry rfl rfl rfl
  | connect peerId endpoint _ now =>
    exact from_connectToPeer hretry peerId endpoint now hsupplies
  | retry peerId now => exact from_retryHello hretry peerId now
  | disconnect => exact from_done hretry rfl rfl rfl
  | restart =>
    refine ⟨rfl, ?_, ?_⟩
    · rintro _ ⟨⟩
    · intro other retry hget
      simp [Process.stretch, start] at hget

theorem mem_suspended {task : Task}
    (hmem : task ∈ process.suspended event) : task ∈ process.tasks := by
  cases event with
  | resume => exact mem_of_mem_eraseIdx hmem
  | restart => cases hmem
  | _ => exact hmem

theorem From.step (hfrom : process.From own theirs)
    (hsupplies : process.Supplies own theirs event) :
    (process.step event).From own theirs := by
  have houtcome := hfrom.stretch hsupplies
  refine ⟨?_, houtcome.retry⟩
  intro task hmem
  rcases mem_append.mp hmem with hold | hnew
  · exact hfrom.tasks task (mem_suspended hold)
  · exact houtcome.next task (Option.mem_toList.mp hnew)

theorem From.mono (hfrom : process.From own theirs)
    {own' theirs' : Packet → Prop} (hown : ∀ packet, own packet → own' packet)
    (htheirs : ∀ packet, theirs packet → theirs' packet) :
    process.From own' theirs' := by
  refine ⟨?_, fun peerId task hget => hown _ (hfrom.retry peerId task hget)⟩
  intro task hmem
  have htask := hfrom.tasks task hmem
  cases task with
  | helloAdded | helloFetched | helloRemembered => exact htheirs _ htask
  | connecting => exact hown _ htask
  | _ => trivial

/-- The answer a node gives when it accepts a HELLO. -/
def answerTo (accepted : Acceptance P) : Packet := makePacket .helloAck
    (ackPayload accepted.responder accepted.hello accepted.draw).serialize

theorem sent_acceptHello {index : Nat} {packet : Packet} {addr : Address}
    {draw : AckDraw} (now : ℚ)
    (htask : process.tasks[index]? = some (.helloRemembered packet addr))
    {sent : Packet × Address}
    (hsent : sent ∈ (process.node.acceptHello packet addr draw).sent) :
    ∃ accepted, process.acceptance (.resume index draw now) = some accepted ∧
      sent.1 = answerTo accepted := by
  have hacc := acceptance_resume draw now htask
  unfold acceptHello at hsent
  cases hprocess : processHello packet process.node.peerTable.getDirectPeerIds
      process.node.identity draw with
  | error err => simp [hprocess] at hsent
  | ok result =>
    cases result with
    | none => simp [hprocess] at hsent
    | some answer =>
      obtain ⟨ack, _⟩ := answer
      obtain ⟨_, _, hdec, _, _, hack, _⟩ := processHello_eq_some_iff.mp hprocess
      simp only [hdec, hprocess] at hacc
      refine ⟨_, hacc, ?_⟩
      have heq : sent = (ack, addr) := by
        simp only [hprocess] at hsent
        split at hsent <;> exact mem_singleton.mp hsent
      rw [heq]
      exact hack

/-- A node sends its own HELLOs, and answers to the HELLOs it accepts. -/
theorem From.sent (hfrom : process.From own theirs)
    {sent : Packet × Address} (hsent : sent ∈ (process.stretch event).sent) :
    own sent.1 ∨ ∃ accepted, process.acceptance event = some accepted ∧
      sent.1 = answerTo accepted := by
  cases event with
  | receive packet addr now =>
    simp only [Process.stretch] at hsent
    split at hsent
    · rw [(handleHello_cases process.node packet addr now).2.2.2.1] at hsent
      cases hsent
    · unfold handleHelloAck at hsent
      split at hsent
      · cases hsent
      · simp only at hsent
        repeat' split at hsent
        all_goals cases hsent
    · cases hsent
  | resume _ _ now =>
    simp only [Process.stretch] at hsent
    split at hsent
    · next task htask =>
      cases task with
      | helloRemembered =>
        exact .inr (sent_acceptHello now htask hsent)
      | connecting =>
        have howned := hfrom.tasks _ (mem_of_getElem? htask)
        rw [mem_singleton.mp hsent]
        exact .inl howned
      | _ => cases hsent
    · cases hsent
  | connect =>
    simp only [Process.stretch, connectToPeer] at hsent
    split_ifs at hsent <;> cases hsent
  | retry peerId =>
    simp only [Process.stretch, retryHello] at hsent
    split at hsent
    · cases hsent
    · next task htask =>
      have howned := hfrom.retry peerId task htask
      split_ifs at hsent
      · cases hsent
      · rw [mem_singleton.mp hsent]
        exact .inl howned
      · rw [mem_singleton.mp hsent]
        exact .inl howned
  | disconnect | restart => cases hsent

end Process

end AshiChat
