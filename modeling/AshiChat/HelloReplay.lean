/-
How many sessions one HELLO can cause.  The handler keeps no record of the
HELLOs it has accepted; what stops a second copy is the session of the first,
for as long as that is registered, or a pending HELLO of the node's own.
-/
import AshiChat.Node
import AshiChat.NodeMoves
import AshiChat.Reference
import AshiChat.Kit.EventRun

namespace AshiChat

open EventRun List Process

variable {P : Primitives}

/-- The coroutine is handling a copy of the packet and has not verified it
yet. -/
def Task.handles (hello : Packet) : Task → Bool
  | .helloAdded packet .. => packet == hello
  | .helloFetched packet .. => packet == hello
  | .helloRemembered packet _ => packet == hello
  | _ => false

namespace Process

/-- The event registers a session on the strength of the packet. -/
def registersOn (hello : Packet) (process : Process P) : NodeEvent → Bool
  | .resume index draw _ =>
    match process.tasks[index]? with
    | some (.helloRemembered packet addr) =>
      packet == hello && (process.node.acceptHello packet addr draw).next.isSome
    | _ => false
  | _ => false

/-- The coroutines that handle a copy of the packet. -/
def copies (hello : Packet) (process : Process P) : Nat :=
  process.tasks.countP (Task.handles hello)

end Process

/-- A node, with the number of sessions that one packet has caused. -/
structure HelloWatch (P : Primitives) where
  process : Process P
  registered : Nat := 0

namespace HelloWatch

def step (hello : Packet) (watch : HelloWatch P) (event : NodeEvent) :
    HelloWatch P where
  process := watch.process.step event
  registered := watch.registered + (watch.process.registersOn hello event).toNat

/-- A copy that arrives after another was accepted, or while another is being
handled, meets one of the guards. -/
def CopiesGuarded (hello : Packet) (remote : PeerId) (watch : HelloWatch P) :
    NodeEvent → Prop
  | .receive packet _ _ => packet = hello →
      0 < watch.registered ∨ 0 < watch.process.copies hello →
        watch.process.node.helloGuarded remote
  | _ => True

instance (hello : Packet) (remote : PeerId) (watch : HelloWatch P)
    (event : NodeEvent) :
    Decidable (watch.CopiesGuarded hello remote event) := by
  cases event with
  | receive =>
    exact inferInstanceAs (Decidable (_ → _ ∨ _ →
      watch.process.node.helloGuarded remote))
  | _ => exact inferInstanceAs (Decidable True)

/-- The packet has been used at most once, counting the copies under way. -/
def UsedOnce (hello : Packet) (watch : HelloWatch P) : Prop :=
  watch.process.copies hello + watch.registered ≤ 1

end HelloWatch

namespace Process

theorem copies_step (hello : Packet) (process : Process P) (event : NodeEvent) :
    (process.step event).copies hello =
      (process.suspended event).countP (Task.handles hello) +
        ((process.stretch event).next.any (Task.handles hello)).toNat := by
  have hone : ∀ next : Option Task, next.toList.countP (Task.handles hello) =
      (next.any (Task.handles hello)).toNat := by
    intro next
    cases next with
    | none => rfl
    | some task => cases hhandles : task.handles hello <;> simp [hhandles]
  rw [← hone]
  exact countP_append

theorem copies_eraseIdx (hello : Packet) {process : Process P} {index : Nat}
    {task : Task} (htask : process.tasks[index]? = some task) :
    (process.tasks.eraseIdx index).countP (Task.handles hello) +
        (task.handles hello).toNat = process.copies hello := by
  obtain ⟨hlt, rfl⟩ := List.getElem?_eq_some_iff.mp htask
  rw [copies, ← (getElem_cons_eraseIdx_perm hlt).countP_eq, countP_cons]
  cases Task.handles hello process.tasks[index] <;> rfl

/-- The accepting stretch leaves no coroutine that handles a HELLO. -/
theorem handles_acceptHello (hello packet : Packet) (node : Node P)
    (addr : Address) (draw : AckDraw) :
    (node.acceptHello packet addr draw).next.any (Task.handles hello) =
      false := by
  unfold Node.acceptHello
  repeat' split
  all_goals rfl

/-- A resumed coroutine goes on with its copy or registers, not both. -/
theorem handles_resume (hello : Packet) {process : Process P} {index : Nat}
    {task : Task} (draw : AckDraw) (now : ℚ)
    (htask : process.tasks[index]? = some task) :
    ((process.node.resume draw now task).next.any (Task.handles hello)).toNat +
        (process.registersOn hello (.resume index draw now)).toNat ≤
      (task.handles hello).toNat := by
  simp only [registersOn, htask]
  cases task with
  | helloRemembered packet =>
    simp only [Node.resume, handles_acceptHello, Task.handles]
    cases packet == hello
    · simp
    · simpa using Bool.toNat_le _
  | _ => simp [Node.resume, Task.handles]

/-- An arriving packet starts at most a coroutine for itself, and none if a
guard drops it. -/
theorem handles_receive (hello packet : Packet) (process : Process P)
    (addr : Address) (now : ℚ)
    (hhandled : (process.stretch (.receive packet addr now)).next.any
      (Task.handles hello) = true) :
    packet = hello ∧ ∀ payload,
      HelloPayload.deserialize hello.payload = .ok payload →
        ¬ process.node.helloGuarded
          (derivePeerId P payload.identityPublicKey) := by
  simp only [stretch] at hhandled
  split at hhandled
  · have hpacket : packet = hello := by
      obtain ⟨-, -, -, -, -, hnext⟩ :=
        handleHello_cases process.node packet addr now
      rcases hnext with hnone | ⟨payload, hadded⟩ | hremembered
      · simp [hnone] at hhandled
      · simpa [hadded, Task.handles] using hhandled
      · simpa [hremembered, Task.handles] using hhandled
    subst hpacket
    refine ⟨rfl, fun payload hdec hguard => ?_⟩
    rw [Node.handleHello_guarded addr now hdec hguard] at hhandled
    cases hhandled
  · -- The ACK handler goes on with a coroutine of its own.
    unfold Node.handleHelloAck at hhandled
    split at hhandled
    · cases hhandled
    · simp only at hhandled
      repeat' split at hhandled
      all_goals cases hhandled
  · cases hhandled

end Process

namespace HelloWatch

variable {hello : Packet} {payload : HelloPayload} {watch : HelloWatch P}

section

variable (honce : watch.UsedOnce hello)

include honce

theorem UsedOnce.receive
    (hdec : HelloPayload.deserialize hello.payload = .ok payload)
    {packet : Packet} {addr : Address} {now : ℚ}
    (hguarded : watch.CopiesGuarded hello
      (derivePeerId P payload.identityPublicKey) (.receive packet addr now)) :
    (watch.step hello (.receive packet addr now)).UsedOnce hello := by
  have hcopies := watch.process.copies_step hello (.receive packet addr now)
  simp only [UsedOnce, step, registersOn, hcopies, Bool.toNat_false,
    Nat.add_zero] at honce ⊢
  cases hhandled : (watch.process.stretch
      (.receive packet addr now)).next.any (Task.handles hello) with
  | false => exact honce
  | true =>
    -- The copy passed the guards, so it is the first.
    obtain ⟨hpacket, hpassed⟩ := handles_receive hello packet
      watch.process addr now hhandled
    have hfirst : ¬ (0 < watch.registered ∨ 0 < watch.process.copies hello) :=
      fun hearlier => hpassed payload hdec (hguarded hpacket hearlier)
    have hnone : watch.process.copies hello = 0 := by omega
    have hsuspended : (watch.process.suspended
        (.receive packet addr now)).countP (Task.handles hello) = 0 := hnone
    rw [hsuspended]
    simp
    omega

theorem UsedOnce.resume (index : Nat) (draw : AckDraw) (now : ℚ) :
    (watch.step hello (.resume index draw now)).UsedOnce hello := by
  have hcopies := watch.process.copies_step hello (.resume index draw now)
  simp only [UsedOnce, step, hcopies] at honce ⊢
  simp only [suspended, stretch]
  cases htask : watch.process.tasks[index]? with
  | none =>
    have hsame := eraseIdx_of_length_le (getElem?_eq_none_iff.mp htask)
    simpa [registersOn, htask, hsame, copies] using honce
  | some =>
    have herase := copies_eraseIdx hello htask
    have hnext := handles_resume hello draw now htask
    simp only
    omega

/-- Every other event at most drops coroutines. -/
theorem UsedOnce.quiet {event : NodeEvent}
    (hregisters : watch.process.registersOn hello event = false)
    (hnext : (watch.process.stretch event).next.any (Task.handles hello) =
      false)
    (hsuspended : (watch.process.suspended event).Sublist watch.process.tasks) :
    (watch.step hello event).UsedOnce hello := by
  have hfewer : (watch.process.suspended event).countP (Task.handles hello) ≤
      watch.process.copies hello := hsuspended.countP_le
  have hcopies := watch.process.copies_step hello event
  simp only [UsedOnce, HelloWatch.step, hcopies, hnext, hregisters,
    Bool.toNat_false, Nat.add_zero] at honce ⊢
  omega

theorem UsedOnce.step
    (hdec : HelloPayload.deserialize hello.payload = .ok payload)
    (event : NodeEvent)
    (hguarded : watch.CopiesGuarded hello
      (derivePeerId P payload.identityPublicKey) event) :
    (watch.step hello event).UsedOnce hello := by
  cases event with
  | receive => exact honce.receive hdec hguarded
  | resume index draw now => exact honce.resume index draw now
  | connect =>
    refine honce.quiet rfl ?_ (List.Sublist.refl _)
    simp only [stretch, Node.connectToPeer]
    split_ifs <;> rfl
  | retry =>
    refine honce.quiet rfl ?_ (List.Sublist.refl _)
    simp only [stretch, Node.retryHello]
    repeat' split
    all_goals rfl
  | disconnect => exact honce.quiet rfl rfl (List.Sublist.refl _)
  | restart => exact honce.quiet rfl rfl (nil_sublist _)

end

end HelloWatch

open HelloWatch

/-- From a fresh start of the responder, in every run in which each further
copy of an initiator's HELLO meets one of the handler's guards, the HELLO
causes at most one session. -/
theorem hello_registers_once (initiator : LocalIdentity P) (draw : HelloDraw)
    (node : Node P) (events : List NodeEvent)
    (hguarded : EveryStep (HelloWatch.step (createHello initiator draw).1)
      (CopiesGuarded (createHello initiator draw).1 initiator.peerId)
      ⟨⟨node, []⟩, 0⟩ events) :
    Along (HelloWatch.step (createHello initiator draw).1)
      (fun watch => watch.registered ≤ 1) ⟨⟨node, []⟩, 0⟩ events := by
  have hdec := deserialize_createHello initiator draw
  have hremote := derivePeerId_helloPayload initiator draw
  have hstep : ∀ (watch : HelloWatch P) (event : NodeEvent),
      watch.UsedOnce (createHello initiator draw).1 →
      watch.CopiesGuarded (createHello initiator draw).1 initiator.peerId
        event →
      (watch.step (createHello initiator draw).1 event).UsedOnce
        (createHello initiator draw).1 := by
    intro watch event honce hgood
    rw [← hremote] at hgood
    exact honce.step hdec event hgood
  have hregistered : ∀ watch : HelloWatch P,
      watch.UsedOnce (createHello initiator draw).1 → watch.registered ≤ 1 :=
    fun watch honce => le_trans (Nat.le_add_left ..) honce
  exact along_of_everyStep hstep hregistered (Nat.zero_le 1) hguarded

namespace HelloReplayWitness

open Reference

def self : LocalIdentity primitives := .ofPrivateKey _ (replicate 32 2)

def peer : LocalIdentity primitives := .ofPrivateKey _ (replicate 32 1)

def helloDraw : HelloDraw where
  ephemeral := constant 32 3
  nonce := constant 16 4

def ackDraw (byte : UInt8) : AckDraw where
  ephemeral := constant 32 byte
  nonce := constant 16 byte
  sessionId := constant 8 byte

def hello : Packet := (createHello peer helloDraw).1

def home : Address := ("10.0.0.1", 9000)

def elsewhere : Address := ("10.6.6.6", 9000)

/-- The peer connects, is added, and gets a session. -/
def connected : List NodeEvent :=
  [.receive hello home 1, .resume 0 (ackDraw 5) 2, .resume 0 (ackDraw 5) 3,
    .resume 0 (ackDraw 5) 4, .resume 0 (ackDraw 5) 5]

/-- The session is lost; then a third party sends the old HELLO again. -/
def replayed : List NodeEvent :=
  connected ++ [.disconnect peer.peerId 6, .receive hello elsewhere 7,
    .resume 0 (ackDraw 6) 8]

def initial : HelloWatch primitives := ⟨⟨.start self .empty 0, []⟩, 0⟩

/-- The copy registers a second session with the peer. -/
theorem replayed_hello_registers_again :
    (run (HelloWatch.step hello) initial replayed).registered = 2 := by
  decide +kernel

theorem hello_registers_once_while_connected :
    Along (HelloWatch.step (createHello peer helloDraw).1)
      (fun watch => watch.registered ≤ 1) ⟨⟨.start self .empty 0, []⟩, 0⟩
      (connected ++ [.receive hello elsewhere 6]) :=
  hello_registers_once peer helloDraw (.start self .empty 0)
    (connected ++ [.receive hello elsewhere 6]) (by decide +kernel)

end HelloReplayWitness

end AshiChat
