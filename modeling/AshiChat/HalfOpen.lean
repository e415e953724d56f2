/-
Which sessions stand behind a HELLO that is discarded because a session already
exists.  The guard looks at the own registry only, so the other node may have
lost the session, or may not have received the answer that announces it; where
neither can be, both have the session.
-/
import AshiChat.SessionAgreement

namespace AshiChat

open EventRun Side Option Bool World

variable {P : Primitives}

namespace World

/-- Whenever a HELLO of the other node is discarded on the ground of a
session, `explains` says something of that session. -/
def DiscardMeets (explains : World P → Side → Session → Prop)
    (world : World P) : Side × NodeEvent → Prop
  | (side, .receive packet addr now) =>
    world.Enabled (side, .receive packet addr now) →
    packet.packetType = .hello →
    ∀ hello found, HelloPayload.deserialize packet.payload = .ok hello →
      (world.process side).node.registry.sessionFor
        (derivePeerId P hello.identityPublicKey) = some found →
      explains world side found
  | _ => True

variable (ids : Side → LocalIdentity P)

/-- The other node has the session too. -/
def OtherHolds (world : World P) (side : Side) (found : Session) : Prop :=
  ∃ theirs, session ids world side.other = some theirs ∧
    theirs.sessionId = found.sessionId

/-- The HELLO in the packet is the one that `side` is waiting on. -/
def awaitsAnswer (world : World P) (side : Side) (packet : Packet) : Bool :=
  match awaiting ids world side, HelloPayload.deserialize packet.payload with
  | some state, .ok hello => hello.randomNonce = state.localNonce
  | _, _ => false

/-- The HELLO_ACK passes for the answer that `side` is waiting on. -/
def takesAnswer (world : World P) (side : Side) (packet : Packet) : Bool :=
  match awaiting ids world side with
  | none => false
  | some state =>
    match processHelloAck P packet state
        (world.process side).node.peerTable.getDirectPeerIds with
    | .ok (some _) => true
    | _ => false

/-- While the answer to a HELLO is under way, no HELLO arrives and the one that
it answers is not given up; only the HELLO its sender is waiting on is
accepted, when neither node has a session; and no session ends. -/
def undisturbed (world : World P) : Side × NodeEvent → Bool
  | (side, .receive packet ..) =>
    if packet.packetType = .helloAck then
      -- an answer uses the HELLO up whether it passes or not
      !helloAccepted ids world side || takesAnswer ids world side packet
    else !helloAccepted ids world side && !helloAccepted ids world side.other
  | (side, .resume index ..) =>
    match (world.process side).tasks[index]? with
    | some (.helloRemembered packet _) =>
      (session ids world side).isNone &&
        (session ids world side.other).isNone &&
        awaitsAnswer ids world side.other packet
    | _ => true
  | (side, .retry peerId now) =>
    !(world.process side).givesUp (.retry peerId now) ||
      !helloAccepted ids world side
  | (side, .disconnect ..) | (side, .restart ..) =>
    (session ids world side).isNone && !helloAccepted ids world side
  | (_, .connect ..) => true

/-- A session of `side` is one that the other node has or is about to get, and
it has one if the other node's HELLO was accepted. -/
def Linked (world : World P) (side : Side) : Prop :=
  ((session ids world side).isSome → (session ids world side.other).isSome ∨
    helloAccepted ids world side.other = true) ∧
  (helloAccepted ids world side.other = true → (session ids world side).isSome)

variable {ids} {world world' : World P} {side : Side} {event : NodeEvent}

theorem linked_start (storage : Side → Storage) (now : ℚ) (side : Side) :
    Linked ids (start ids storage now) side := by
  constructor
  · intro hsome
    simp [session, start, Node.start, SessionRegistry.sessionFor_eq,
      SessionRegistry.empty] at hsome
  · intro haccepted
    simp [helloAccepted, awaiting, start, Node.start] at haccepted

theorem linked_of_side (side : Side) (hown : Linked ids world side)
    (htheirs : Linked ids world side.other) (acting : Side) :
    Linked ids world acting := by
  rcases acting.eq_or_eq_other side with rfl | rfl
  · exact hown
  · exact htheirs

theorem helloAccepted_congr
    (haccepted : world'.history.accepted = world.history.accepted)
    (hawaiting : awaiting ids world' side = awaiting ids world side) :
    helloAccepted ids world' side = helloAccepted ids world side := by
  rw [helloAccepted, helloAccepted, haccepted, hawaiting]

/-- Nothing is accepted, and `side` keeps what the other node relies on. -/
theorem Linked.of_keep (hlink : ∀ acting, Linked ids world acting)
    (hother : session ids world' side.other = session ids world side.other)
    (htheirs : helloAccepted ids world' side.other =
      helloAccepted ids world side.other)
    (hsession : (session ids world' side).isSome =
      (session ids world side).isSome)
    (hback : helloAccepted ids world' side = true →
      helloAccepted ids world side = true)
    (hforth : helloAccepted ids world side = true →
      (session ids world' side).isSome ∨
        helloAccepted ids world' side = true) (acting : Side) :
    Linked ids world' acting := by
  have hbefore := hlink side.other
  rw [Linked, other_other] at hbefore
  refine linked_of_side side ?_ ?_ acting
  · rw [Linked, hsession, hother, htheirs]
    exact hlink side
  · rw [Linked, other_other, hother]
    refine ⟨fun hsome => ?_, fun hhello => hbefore.2 (hback hhello)⟩
    rcases hbefore.1 hsome with hown | hhello
    · exact .inl (hsession ▸ hown)
    · exact hforth hhello

theorem takesAnswer_eq_true {packet : Packet}
    (htakes : takesAnswer ids world side packet = true) :
    ∃ state keys, awaiting ids world side = some state ∧
      processHelloAck P packet state
        (world.process side).node.peerTable.getDirectPeerIds =
          .ok (some keys) := by
  unfold takesAnswer at htakes
  split at htakes
  · cases htakes
  · next state hstate =>
    split at htakes
    · next keys hprocess => exact ⟨state, keys, hstate, hprocess⟩
    · cases htakes

/-- An answer that passes leaves its receiver with a session. -/
theorem Sound.session_of_takes (hsound : Sound ids world) {packet : Packet}
    {addr : Address} {now : ℚ}
    (henabled : world.Enabled (side, .receive packet addr now))
    (htype : packet.packetType = .helloAck)
    (htakes : takesAnswer ids world side packet = true) :
    (session ids (world.perform (side, .receive packet addr now))
      side).isSome := by
  obtain ⟨_, _, hstate, hprocess⟩ := takesAnswer_eq_true htakes
  obtain ⟨_, _, hdec, _⟩ := processHelloAck_eq_some_iff.mp hprocess
  obtain ⟨_, _, _, _, hpeer⟩ := hsound.answer henabled htype hdec
  have hkeys := hsound.remotePeerId_answer henabled htype hdec hprocess
  rw [awaiting] at hstate
  rw [session, process_perform_self]
  simp only [Process.step, Process.stretch, htype, Node.handleHelloAck, hdec,
    hpeer, hstate, hprocess]
  split
  · next _ => rwa [SessionRegistry.sessionFor, isSome_map]
  · split
    · next hreg =>
      exact absurd (Node.registerSession_eq_error hreg).1
        (hsound.register_ne_error _ _)
    · next hreg =>
      obtain ⟨_, hregister, rfl⟩ := Node.registerSession_eq_ok hreg
      exact isSome_of_eq_some (session_register hregister hkeys)

/-- What the condition says of an event that ends a session. -/
theorem undisturbed_drops (hdrops : event.drops = true)
    (hund : undisturbed ids world (side, event) = true) :
    session ids world side = none ∧ helloAccepted ids world side = false := by
  cases event with
  | disconnect | restart => simpa [undisturbed] using hund
  | _ => cases hdrops

/-- What the condition says of an acceptance. -/
theorem undisturbed_acceptance {accepted : Acceptance P}
    (hund : undisturbed ids world (side, event) = true)
    (hacc : (world.process side).acceptance event = some accepted) :
    session ids world side = none ∧ session ids world side.other = none ∧
      ∃ state, awaiting ids world side.other = some state ∧
        accepted.hello.randomNonce = state.localNonce := by
  obtain ⟨_, _, _, _, _, rfl, htask, hdec, _⟩ := Process.acceptance_eq_some hacc
  simp only [undisturbed, htask, and_eq_true, isNone_iff_eq_none,
    awaitsAnswer, hdec] at hund
  refine ⟨hund.1.1, hund.1.2, ?_⟩
  have hawaits := hund.2
  split at hawaits
  · next state hello hstate hhello =>
    cases hhello
    exact ⟨state, hstate, of_decide_eq_true hawaits⟩
  · cases hawaits

/-- While an event keeps the session, an answered HELLO stays pending or leads
to a session. -/
theorem undisturbed_keeps (hsound : Sound ids world)
    (henabled : world.Enabled (side, event))
    (hund : undisturbed ids world (side, event) = true)
    (hhello : helloAccepted ids world side = true) :
    (session ids (world.perform (side, event)) side).isSome ∨
      (world.process side).givesUp event = false := by
  cases event with
  | receive packet =>
    by_cases htype : packet.packetType = .helloAck
    · simp only [undisturbed, htype, hhello] at hund
      exact .inl (hsound.session_of_takes henabled htype (by simpa using hund))
    · simp [undisturbed, htype, hhello] at hund
  | retry =>
    right
    simpa [undisturbed, hhello] using hund
  | restart => simp [undisturbed, hhello] at hund
  | _ => exact .inr rfl

theorem Linked.acceptsInStep (hlink : ∀ acting, Linked ids world acting)
    (hund : undisturbed ids world (side, event) = true) :
    acceptsInStep ids world (side, event) = true := by
  have htheirs := (hlink side).2
  have hown := (hlink side.other).2
  rw [other_other] at hown
  cases event with
  | resume =>
    simp only [undisturbed, acceptsInStep] at hund ⊢
    split
    · next htask =>
      simp only [htask, and_eq_true, isNone_iff_eq_none] at hund
      simp only [hund.1.1, hund.1.2, isSome_none, false_eq_true,
        imp_false, not_eq_true] at hown htheirs
      simp [hund.1.2, hown, htheirs]
    · rfl
  | _ => rfl

/-- A HELLO that its sender is waiting on is accepted. -/
theorem Linked.of_accept (hids : ids side ≠ ids side.other)
    (hlink : ∀ acting, Linked ids world acting) {accepted : Acceptance P}
    {state : HandshakeState} (hother : session ids world side.other = none)
    (hstate : awaiting ids world' side.other = some state)
    (hnonce : accepted.hello.randomNonce = state.localNonce)
    (hresponder : accepted.responder = ids side)
    (hmem : ∀ other, other ∈ world'.history.accepted ↔
      other ∈ world.history.accepted ∨ other = accepted)
    (hother' : session ids world' side.other = none)
    (hsession : (session ids world' side).isSome)
    (hawaiting : awaiting ids world' side = awaiting ids world side)
    (acting : Side) : Linked ids world' acting := by
  have htheirs : helloAccepted ids world' side.other = true := by
    refine helloAccepted_iff.mpr ⟨state, hstate, accepted,
      (hmem _).mpr (.inr rfl), ?_, hnonce⟩
    rw [other_other, hresponder]
  refine linked_of_side side ⟨fun _ => .inr htheirs,
    fun _ => hsession⟩ ⟨?_, ?_⟩ acting
  · rw [hother']
    rintro ⟨⟩
  · rw [other_other]
    intro hhello
    obtain ⟨state', hstate', old, hold, hby, hnonce'⟩ :=
      helloAccepted_iff.mp hhello
    rcases (hmem old).mp hold with hold | rfl
    · have hsome := (hlink side.other).2
      rw [other_other, hother] at hsome
      cases hsome (helloAccepted_iff.mpr
        ⟨state', hawaiting ▸ hstate', old, hold, hby, hnonce'⟩)
    · exact absurd (hresponder.symm.trans hby) hids

theorem Linked.perform (hcomm : P.ExchangeCommutes)
    (hids : ids side ≠ ids side.other) (hsound : Sound ids world)
    (hlink : ∀ acting, Linked ids world acting)
    (henabled : world.Enabled (side, event))
    (hideal : IdealSignatures ids world (side, event))
    (hund : undisturbed ids world (side, event) = true) :
    ∀ acting, Linked ids (world.perform (side, event)) acting := by
  have hother := session_perform_other ids world side event
  have hothers := awaiting_perform_other ids world side event
  cases hsound.linkMove henabled with
  | keep haccepted hsession hawaiting hwaits =>
    refine .of_keep hlink hother (helloAccepted_congr haccepted hothers)
      (by rw [hsession]) (helloAccepted_of_lose haccepted hawaiting) ?_
    intro hhello
    refine (undisturbed_keeps hsound henabled hund hhello).imp_right ?_
    intro hkeeps
    rw [helloAccepted_congr haccepted (hwaits hkeeps), hhello]
  | drop hdrops haccepted hsession hawaiting =>
    obtain ⟨hnone, hhello⟩ := undisturbed_drops hdrops hund
    have hnone' : session ids (world.perform (side, event)) side = none :=
      eq_none_iff_forall_ne_some.mpr fun found hfound => by
        rw [hsession found hfound] at hnone
        cases hnone
    refine .of_keep hlink hother (helloAccepted_congr haccepted hothers)
      (by rw [hnone, hnone']) (helloAccepted_of_lose haccepted hawaiting) ?_
    rw [hhello]
    rintro ⟨⟩
  | create haccepted hsession hbefore hawaiting hfresh =>
    refine .of_keep hlink hother (helloAccepted_congr haccepted hothers)
      (by rw [hsession]) ?_ ?_
    · intro hhello
      obtain ⟨state, hstate, accepted, hmem, _, hnonce⟩ :=
        helloAccepted_iff.mp hhello
      rw [hawaiting, some.injEq] at hstate
      rw [haccepted] at hmem
      exact absurd (hstate ▸ hnonce) (hfresh accepted hmem)
    · intro hhello
      rw [helloAccepted, hbefore] at hhello
      cases hhello
  | accept hacc hsession _ hawaiting =>
    obtain ⟨_, hnone, state, hstate, hnonce⟩ := undisturbed_acceptance hund hacc
    refine .of_accept hids hlink hnone (hothers.trans hstate) hnonce
      (hsound.acceptance hacc).1 ?_ (hother.trans hnone)
      (isSome_of_eq_some hsession) hawaiting
    intro other
    rw [history_perform, mem_accepted_record, hacc, some.injEq, eq_comm]
  | answered hevent htype hdec hprocess haccepted hbefore hwaiting hsession
      hfound hawaiting =>
    subst hevent
    obtain ⟨accepted, hmem, hresponder, hnonce, _⟩ :=
      hsound.answered_keys hcomm henabled hideal htype hdec hwaiting hprocess
    have htheirs := (hlink side.other).2
    rw [other_other] at htheirs
    have hheld := htheirs (helloAccepted_iff.mpr
      ⟨_, hwaiting, accepted, hmem, hresponder, hnonce⟩)
    have hsome := isSome_of_eq_some hsession
    refine linked_of_side side ⟨fun _ => .inl (hother ▸ hheld),
      fun _ => hsome⟩ ⟨fun _ => .inl ?_, fun _ => hother ▸ hheld⟩
    rw [other_other]
    exact hsome

/-- No HELLO is discarded while an answer is under way. -/
theorem Linked.discard (hsound : Sound ids world) (hagree : Agreeing ids world)
    (hlink : ∀ acting, Linked ids world acting) (event : Side × NodeEvent)
    (hund : undisturbed ids world event = true) :
    DiscardMeets (OtherHolds ids) world event := by
  obtain ⟨side, event⟩ := event
  cases event with
  | receive packet =>
    intro henabled htype hello found hdec hfound
    have hsession : session ids world side = some found := by
      rcases hsound.wire side.other packet henabled with hhello | hack
      · obtain ⟨_, _, rfl⟩ := hhello.deserialize hdec
        rw [session, (ids side.other).peerId_eq]
        exact hfound
      · obtain ⟨_, _, _, rfl⟩ := hack
        cases htype
    simp only [undisturbed, htype, reduceCtorEq, if_false, and_eq_true,
      not_eq_true'] at hund
    rcases (hlink side).1 (isSome_of_eq_some hsession) with
      hsome | hhello
    · obtain ⟨theirs, htheirs⟩ := isSome_iff_exists.mp hsome
      exact ⟨theirs, htheirs,
        (hagree.sessions side found theirs hsession htheirs).1.symm⟩
    · rw [hund.2] at hhello
      cases hhello
  | _ => trivial

end World

namespace HalfOpenWitness

open KeyAgreementWitness AgreementWitness Reference

/-- The HELLO is accepted, the answer is lost, and the HELLO is sent again. -/
def lostAnswer : List (Side × NodeEvent) := AgreementWitness.opening ++
    [(.right, .resume 0 ackDraw 4), (.left, .retry bob.peerId 5)]

def retried : List (Side × NodeEvent) :=
  lostAnswer ++ [(.right, .receive hello addr 6)]

/-- The HELLO is sent again before its answer arrives, and received after. -/
def answeredRetry : List (Side × NodeEvent) := lostAnswer ++
    [(.left, .receive answerPacket addr 6), (.right, .receive hello addr 7)]

theorem answeredRetry_ideal : EveryStep step (World.IdealSignatures ids)
    initial answeredRetry := by
  refine ⟨trivial, trivial, ideal_hello _ _ _, trivial, trivial,
    ideal_answer 6 ?_ ?_, ideal_hello _ _ _, trivial⟩
  · decide +kernel
  · decide +kernel

end HalfOpenWitness

end AshiChat
