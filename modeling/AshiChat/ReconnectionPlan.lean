/-
Who tries a contact again.  A direct peer without a session is handed from the
HELLO with its retry task to the reconnect loop and back.  The hand-over is
complete along every run in which no failed handshake uses up the pending
HELLO of a peer that has no reconnect entry and no process starts on rows of
contacts that are not archived; the startup code plans nothing for those.
-/
import AshiChat.ContactEvents
import AshiChat.Reference

namespace AshiChat

open EventRun Multiset SessionRegistry

namespace Contact

/-- The node owes the contact a plan.  A `connect_to_peer` under way will take
even an archived peer to CONNECTING. -/
def Owed (contact : Contact) : Prop :=
  contact.direct = true ∧ contact.session = false ∧
    (contact.state ≠ .archived ∨ .connecting ∈ contact.jobs)

/-- Someone will try the contact again. -/
def Provided (contact : Contact) : Prop := contact.planned = true ∨
    (contact.pending = true ∧
      (contact.retrying = true ∨ .connecting ∈ contact.jobs)) ∨
    .accepting ∈ contact.jobs ∨ .attempting ∈ contact.jobs

def Kept (contact : Contact) : Prop := contact.Owed → contact.Provided

/-- The occurrences that hand the contact on. -/
def provident (contact : Contact) : Occurrence → Prop
  | .introduced => .accepting ∈ contact.jobs
  | .refused | .unanswered =>
    contact.session = true ∨ contact.direct = false ∨ contact.planned = true
  | .marked _ | .flushed => contact.session = true
  | .helloSent => .connecting ∈ contact.jobs
  | .swept session => session = contact.session
  | .resolving => .attempting ∈ contact.jobs
  | .added => contact.direct = true ∨ contact.session = true ∨ contact.Provided
  | .restarted self => self = true ∨ contact.row ≠ some false
  | _ => True

variable {contact contact' : Contact}

theorem Kept.of_session (hsession : contact.session = true) : contact.Kept := by
  rintro ⟨-, hclosed, -⟩
  rw [hsession] at hclosed
  cases hclosed

theorem Kept.of_not_direct (hdirect : contact.direct = false) :
    contact.Kept := by
  rintro ⟨hcontact, -⟩
  rw [hdirect] at hcontact
  cases hcontact

theorem Kept.of_provided (hprovided : contact.Provided) : contact.Kept :=
  fun _ => hprovided

theorem Kept.of_imp (hkept : contact.Kept)
    (howed : contact'.Owed → contact.Owed)
    (hprovided : contact.Provided → contact'.Provided) : contact'.Kept :=
  fun howes => hprovided (hkept (howed howes))

/-- What else provides for the contact does not end with another coroutine. -/
theorem Provided.swapJobs {ended : Multiset Job} {begun : Multiset Job}
    (hprovided : contact.Provided)
    (hmem : ∀ job ∈ contact.jobs, job = .connecting ∨ job = .accepting ∨
      job = .attempting → job ∈ (contact.swapJobs ended begun).jobs) :
    (contact.swapJobs ended begun).Provided := by
  rcases hprovided with hplanned | ⟨hpending, hretry⟩ | haccept | hattempt
  · exact .inl hplanned
  · exact .inr (.inl ⟨hpending,
      hretry.imp_right fun hjob => hmem _ hjob (.inl rfl)⟩)
  · exact .inr (.inr (.inl (hmem _ haccept (.inr (.inl rfl)))))
  · exact .inr (.inr (.inr (hmem _ hattempt (.inr (.inr rfl)))))

/-- A refused handshake ends nothing that the contact depends on. -/
theorem Kept.of_covered
    (hcovered : contact.session = true ∨ contact.direct = false ∨
      contact.planned = true) : contact.Kept := by
  rcases hcovered with hsession | hdirect | hplanned
  · exact .of_session hsession
  · exact .of_not_direct hdirect
  · exact .of_provided (.inl hplanned)

section

variable (hkept : contact.Kept)

include hkept

/-- The HELLO that `connect_to_peer` sends is retried from then on. -/
theorem Kept.step_helloSent
    (hjob : .connecting ∈ contact.jobs) : (contact.step .helloSent).Kept := by
  refine hkept.of_imp (fun howed => ⟨howed.1, howed.2.1, .inr hjob⟩) ?_
  rintro (hplanned | ⟨hpending, -⟩ | haccept | hattempt)
  · exact .inl hplanned
  · exact .inr (.inl ⟨hpending, .inl rfl⟩)
  · exact .inr (.inr (.inl (mem_swapJobs_of_ne 0 haccept (by decide))))
  · exact .inr (.inr (.inr (mem_swapJobs_of_ne 0 hattempt (by decide))))

/-- A retry task stops for a session or when its HELLO is used up, or leaves a
reconnect entry. -/
theorem Kept.step_retry (last : Bool) : (contact.step (.retry last)).Kept := by
  simp only [Contact.step]
  split_ifs with hidle hdone hlast
  · exact hkept
  · rw [Bool.or_eq_true, Bool.not_eq_true'] at hdone
    rcases hdone with hsession | hpending
    · exact .of_session hsession
    · refine hkept.of_imp id ?_
      rintro (hplanned | ⟨hwaits, -⟩ | hjob)
      · exact .inl hplanned
      · rw [hpending] at hwaits
        cases hwaits
      · exact .inr (.inr hjob)
  · exact .of_provided (.inl rfl)
  · exact hkept

theorem Kept.step_flagged (archived : Bool) :
    (contact.step (.flagged archived)).Kept := by
  refine hkept.of_imp ?_ (fun hprovided => hprovided.swapJobs
    fun job hmem _ => mem_swapJobs_zero _ hmem)
  rintro ⟨hdirect, hsession, hstate | hjob⟩
  · exact ⟨hdirect, hsession, .inl hstate⟩
  · rcases mem_of_mem_swapJobs hjob with hjob | hbegun
    · exact ⟨hdirect, hsession, .inr hjob⟩
    · cases mem_singleton.mp hbegun

/-- An archived peer stays so, whatever the call was for. -/
theorem Kept.step_archived (archived : Bool) :
    (contact.step (.archived archived)).Kept := by
  refine hkept.of_imp ?_ (fun hprovided => hprovided.swapJobs
    fun job hmem hkind => mem_swapJobs_of_ne _ hmem ?_)
  · rintro ⟨hdirect, hsession, hstate | hjob⟩
    · refine ⟨hdirect, hsession, .inl fun harchived => hstate ?_⟩
      simp only [Contact.step, harchived]
      cases archived <;> rfl
    · rcases mem_of_mem_swapJobs hjob with hjob | hbegun
      · exact ⟨hdirect, hsession, .inr hjob⟩
      · exact absurd hbegun (notMem_zero _)
  · rintro rfl
    rcases hkind with hkind | hkind | hkind <;> cases hkind

end

/-- A new process plans nothing for the contacts it loads. -/
theorem kept_restarted {self : Bool}
    (hrests : self = true ∨ contact.row ≠ some false) :
    (contact.step (.restarted self)).Kept := by
  rcases hrests with rfl | hrow
  · exact .of_not_direct (Bool.and_false _)
  · rcases hflag : contact.row with _ | _ | _
    · exact .of_not_direct (by simp only [Contact.step, hflag]; rfl)
    · exact absurd hflag hrow
    · rintro ⟨-, -, hstate | hjob⟩
      · simp only [Contact.step, hflag, ↓reduceIte] at hstate
        exact absurd rfl hstate
      · exact absurd hjob (notMem_zero _)

theorem Kept.step (hkept : contact.Kept) {occurrence : Occurrence}
    (hallowed : contact.provident occurrence) :
    (contact.step occurrence).Kept := by
  cases occurrence with
  | helloArrived =>
    exact .of_provided (.inr (.inr (.inl
      (mem_swapJobs_begun _ _ (mem_singleton_self _)))))
  | introduced => exact .of_provided (.inr (.inr (.inl hallowed)))
  | accepted | answered => exact .of_session rfl
  | refused | unanswered => exact .of_covered hallowed
  | marked | flushed => exact .of_session hallowed
  | connect =>
    simp only [Contact.step]
    split
    · exact hkept
    · exact .of_provided (.inr (.inl ⟨rfl, .inr
        (mem_swapJobs_begun _ _ (mem_singleton_self _))⟩))
  | helloSent => exact hkept.step_helloSent hallowed
  | retry last => exact hkept.step_retry last
  | disconnected | recorded => exact .of_provided (.inl rfl)
  | swept session =>
    have hsame : session = contact.session := hallowed
    subst hsame
    exact hkept
  | attempted =>
    exact .of_provided (.inr (.inr (.inr
      (mem_swapJobs_begun _ _ (mem_singleton_self _)))))
  | unplanned =>
    simp only [Contact.step]
    split
    · next hsession => exact .of_session hsession
    · exact hkept
  | resolving => exact .of_provided (.inr (.inr (.inr hallowed)))
  | unresolved | suspected =>
    -- From ARCHIVED neither transition is valid.
    refine hkept.of_imp ?_ id
    rintro ⟨hdirect, hsession, hstate⟩
    refine ⟨hdirect, hsession, hstate.imp_left fun hmoved harchived => ?_⟩
    simp only [Contact.step, harchived] at hmoved
    exact hmoved rfl
  | stored | unstored => exact hkept
  | added =>
    rcases hallowed with hdirect | hsession | hprovided
    · exact hkept.of_imp (fun howed => ⟨hdirect, howed.2⟩) id
    · exact .of_session hsession
    · exact .of_provided hprovided
  | flagged archived => exact hkept.step_flagged archived
  | archived archived => exact hkept.step_archived archived
  | removed => exact .of_not_direct rfl
  | restarted => exact kept_restarted hallowed

/-- A call of `connect_to_peer` provides for a contact that is not tried
yet. -/
theorem provident_added_connect
    (htried : (contact.direct = true ∨ contact.session = true ∨
      contact.Provided) ∨ contact.pending = false) :
    (contact.step .connect).provident .added := by
  simp only [Contact.step]
  split
  · next hbusy =>
    rcases htried with htried | hfree
    · exact htried
    · rw [hfree, Bool.or_false] at hbusy
      exact .inr (.inl hbusy)
  · exact .inr (.inr (.inr (.inl ⟨rfl, .inr
      (mem_swapJobs_begun _ _ (mem_singleton_self _))⟩)))

end Contact

variable {P : Primitives}

namespace Node

/-- `process_hello` accepts the packet, and the registry has room. -/
def acceptsHello (node : Node P) (packet : Packet) (draw : AckDraw) : Bool :=
  match HelloPayload.deserialize packet.payload with
  | .error _ => false
  | .ok hello =>
    helloVerifies P node.peerTable.getDirectPeerIds hello &&
      (P.x25519Exchange draw.ephemeral.val hello.ephemeralPublicKey).isSome &&
      decide (node.registry.bySession.size < maxSessions)

/-- The same of `process_hello_ack`, for the HELLO that waits. -/
def acceptsAck (node : Node P) (state : HandshakeState)
    (ack : HelloAckPayload) : Bool :=
  ackVerifies P node.peerTable.getDirectPeerIds state ack &&
    (P.x25519Exchange state.ephemeralPrivateKeyBytes
      ack.ephemeralPublicKey).isSome &&
    decide (node.registry.bySession.size < maxSessions)

/-- A handshake that fails takes nothing from the peer: it has a session or a
reconnect entry, or is not a contact. -/
def covered (node : Node P) (peerId : PeerId) : Bool :=
  node.hasSession peerId || !node.peerTable.isDirect peerId ||
    node.reconnect.contains peerId

variable {node : Node P} {packet : Packet}

theorem next_acceptHello_ne_none {draw : AckDraw}
    (haccepts : node.acceptsHello packet draw = true) (addr : Address) :
    (node.acceptHello packet addr draw).next ≠ none := by
  unfold acceptsHello at haccepts
  split at haccepts
  · cases haccepts
  · next hello hdec =>
    simp only [Bool.and_eq_true, Option.isSome_iff_exists,
      decide_eq_true_eq] at haccepts
    obtain ⟨⟨hverifies, secret, hsecret⟩, hroom⟩ := haccepts
    have hprocess : processHello packet node.peerTable.getDirectPeerIds
        node.identity draw = .ok (some (_, _)) :=
      processHello_eq_some_iff.mpr
        ⟨hello, secret, hdec, hverifies, hsecret, rfl, rfl⟩
    obtain ⟨_, hregister⟩ := exists_register hroom
      (establish node.floors (responderKeys P hello draw secret))
    simp only [acceptHello, hprocess, registerSession_of_register hregister]
    rintro ⟨⟩

theorem next_handleHelloAck_ne_none {state : HandshakeState}
    {ack : HelloAckPayload}
    (hdec : HelloAckPayload.deserialize packet.payload = .ok ack)
    (hpending : node.pendingHello.get?
      (derivePeerId P ack.identityPublicKey) = some state)
    (hsession : node.hasSession (derivePeerId P ack.identityPublicKey) = false)
    (haccepts : node.acceptsAck state ack = true) (addr : Address) :
    (node.handleHelloAck packet addr).next ≠ none := by
  simp only [acceptsAck, Bool.and_eq_true, Option.isSome_iff_exists,
    decide_eq_true_eq] at haccepts
  obtain ⟨⟨hverifies, secret, hsecret⟩, hroom⟩ := haccepts
  have hprocess := processHelloAck_eq_some_iff.mpr
    ⟨ack, secret, hdec, hverifies, hsecret, rfl⟩
  obtain ⟨_, hregister⟩ := exists_register hroom
    (establish node.floors (initiatorKeys P ack state secret))
  -- Popping the pending state touches neither table nor registry.
  have hyielded : (node.yielded (derivePeerId P
      ack.identityPublicKey)).registerSession (initiatorKeys P ack state
        secret) = .ok _ := registerSession_of_register hregister
  have hsession' : (node.yielded (derivePeerId P
      ack.identityPublicKey)).hasSession (derivePeerId P
        ack.identityPublicKey) = false := hsession
  unfold yielded at hyielded hsession'
  simp only [handleHelloAck, hdec, hpending, hsession', Bool.false_eq_true,
    ↓reduceIte, hprocess, hyielded]
  rintro ⟨⟩

end Node

/-- The peer whose session a handshake coroutine relies on. -/
def Task.relies : Task → Option PeerId
  | .helloSaved keys _ | .ackSaved keys _ | .ackFlushed keys =>
    some keys.remotePeerId
  | _ => none

/-- Every stored contact is archived; a row of the node's own id is never
loaded. -/
def Storage.rests (storage : Storage) (self : PeerId) : Bool :=
  storage.peers.entries.all fun row => decide (row.1 = self) || row.2.archived

theorem Storage.flag?_of_rests {storage : Storage} {self : PeerId}
    (hrests : storage.rests self = true) (peerId : PeerId) :
    decide (peerId = self) = true ∨ storage.flag? peerId ≠ some false := by
  cases hrow : storage.peers.get? peerId with
  | none => exact .inr (by simp [flag?, hrow])
  | some row =>
    have hmem := storage.peers.mem_entries_iff.mpr hrow
    rcases Bool.or_eq_true _ _ ▸ List.all_eq_true.mp hrests _ hmem with
      hself | (harchived : row.archived = true)
    · exact .inl hself
    · exact .inr (by simp [flag?, hrow, harchived])

namespace ContactNode

/-- A handshake packet does not use up a pending HELLO for nothing. -/
def handshakeKept (state : ContactNode P) : ContactEvent → Bool
  | .endpoint (.node (.receive packet _ _)) =>
    match packet.packetType, HelloAckPayload.deserialize packet.payload with
    | .helloAck, .ok ack =>
      let remote := derivePeerId P ack.identityPublicKey
      state.node.covered remote || (state.node.pendingHello.get? remote).all
          (state.node.acceptsAck · ack)
    | _, _ => true
  | .endpoint (.node (.resume index draw _)) =>
    match state.inner.process.tasks[index]? with
    | some (.helloRemembered packet addr) =>
      ((Task.helloRemembered packet addr).peer P).all state.node.covered ||
        state.node.acceptsHello packet draw
    | _ => true
  | _ => true

/-- A contact that is new to the table brings an endpoint, or is tried
already. -/
def inviteKept (state : ContactNode P) : ContactTask → Bool
  | .invited publicKey endpoint (some _) =>
    let peerId := derivePeerId P publicKey
    state.node.peerTable.isDirect peerId || state.node.hasSession peerId ||
      state.node.reconnect.contains peerId ||
      (state.node.pendingHello.contains peerId &&
        state.node.retryTasks.contains peerId) ||
      (!state.node.pendingHello.contains peerId && endpoint.isSome)
  | _ => true

def restartKept (state : ContactNode P) : ContactEvent → Bool
  | .endpoint (.node (.restart ..)) =>
    state.node.storage.rests state.node.identity.peerId
  | _ => true

/-- The event leaves no contact without a plan. -/
def plansKept (state : ContactNode P) (event : ContactEvent) : Bool :=
  ((state.task? event).bind Task.relies).all state.node.hasSession &&
    (state.drops event).all state.node.registry.ownsSession &&
    state.handshakeKept event && (state.call? event).all state.inviteKept &&
    state.restartKept event

variable {state : ContactNode P} {event : ContactEvent} {peerId : PeerId}

theorem covered_contact (hcovered : state.node.covered peerId = true) :
    (state.contact peerId).session = true ∨
      (state.contact peerId).direct = false ∨
      (state.contact peerId).planned = true := by
  rw [Node.covered, Bool.or_eq_true, Bool.or_eq_true, Bool.not_eq_true',
    or_assoc] at hcovered
  exact hcovered

theorem covered_of_refused {index : Nat} {draw : AckDraw} {now : ℚ}
    {packet : Packet} {addr : Address}
    (hkept : state.handshakeKept (.endpoint (.node (.resume index draw now))) =
      true)
    (htask : state.inner.process.tasks[index]? =
      some (.helloRemembered packet addr))
    (hpeer : (Task.helloRemembered packet addr).peer P = some peerId)
    (hnext : (state.node.acceptHello packet addr draw).next = none) :
    state.node.covered peerId = true := by
  simp only [handshakeKept, htask, hpeer, Option.all_some,
    Bool.or_eq_true] at hkept
  exact hkept.resolve_right fun haccepts =>
    Node.next_acceptHello_ne_none haccepts addr hnext

theorem covered_of_unanswered {packet : Packet} {addr : Address} {now : ℚ}
    {ack : HelloAckPayload}
    (hkept : state.handshakeKept
      (.endpoint (.node (.receive packet addr now))) = true)
    (htype : packet.packetType = .helloAck)
    (hdec : HelloAckPayload.deserialize packet.payload = .ok ack)
    (hpending : state.node.pendingHello.contains
      (derivePeerId P ack.identityPublicKey) = true)
    (hnext : (state.node.handleHelloAck packet addr).next = none) :
    state.node.covered (derivePeerId P ack.identityPublicKey) = true := by
  obtain ⟨_, hwaits⟩ := Option.isSome_iff_exists.mp hpending
  simp only [handshakeKept, htype, hdec, hwaits, Option.all_some,
    Bool.or_eq_true] at hkept
  rcases hkept with hcovered | haccepts
  · exact hcovered
  · by_contra hopen
    simp only [Node.covered, Bool.or_eq_true, not_or, Bool.not_eq_true] at hopen
    exact Node.next_handleHelloAck_ne_none hdec hwaits hopen.1.1 haccepts addr
      hnext

/-- An invite for a new contact is followed by a HELLO, unless the contact is
provided for. -/
theorem provident_added {publicKey : Bytes} {endpoint : Option Address}
    {saved : PeerRecord}
    (hkept : state.inviteKept (.invited publicKey endpoint (some saved)) =
      true) (hpeer : derivePeerId P publicKey = peerId) :
    EveryStep Contact.step Contact.provident (state.contact peerId)
      ((if endpoint.isSome then [.connect] else []) ++ [.added]) := by
  subst hpeer
  simp only [inviteKept, Bool.or_eq_true, Bool.and_eq_true,
    Bool.not_eq_true'] at hkept
  set contact := state.contact (derivePeerId P publicKey)
  have htried : (contact.direct = true ∨ contact.session = true ∨
      contact.Provided) ∨ (contact.pending = false ∧ endpoint.isSome) := by
    rcases hkept with (((hdirect | hsession) | hplanned) | hretried) | hfree
    · exact .inl (.inl hdirect)
    · exact .inl (.inr (.inl hsession))
    · exact .inl (.inr (.inr (.inl hplanned)))
    · exact .inl (.inr (.inr (.inr (.inl ⟨hretried.1, .inl hretried.2⟩))))
    · exact .inr hfree
  cases endpoint with
  | none =>
    refine ⟨htried.resolve_right ?_, trivial⟩
    rintro ⟨-, ⟨⟩⟩
  | some =>
    exact ⟨trivial, Contact.provident_added_connect
      (htried.imp_right And.left), trivial⟩

theorem provident_of_plansKept {occurrences : List Occurrence}
    (hkept : state.plansKept event = true)
    (hhappens : Happens state peerId event occurrences) :
    EveryStep Contact.step Contact.provident (state.contact peerId)
      occurrences := by
  simp only [plansKept, Bool.and_eq_true, Option.all_eq_true] at hkept
  obtain ⟨⟨⟨⟨hrelies, howns⟩, hhandshake⟩, hinvite⟩, hrestart⟩ := hkept
  cases hhappens with
  | plain hplain =>
    refine everyStep_of_forall (fun occurrence hmem contact => ?_) _
    have hone := hplain occurrence hmem
    cases occurrence <;> trivial
  | introduced htask hpeer hkind =>
    have hjob := kind_mem_jobs htask hpeer
    rw [hkind] at hjob
    exact ⟨hjob, trivial⟩
  | refused hevent htask hpeer hnext =>
    subst hevent
    exact ⟨covered_contact (covered_of_refused hhandshake htask hpeer hnext),
      trivial⟩
  | unanswered hevent htype hdec hpeer hpending hnext =>
    subst hevent
    subst hpeer
    exact ⟨covered_contact
      (covered_of_unanswered hhandshake htype hdec hpending hnext), trivial⟩
  | @marked task flushes htask hmarks =>
    refine ⟨hrelies peerId ?_, trivial⟩
    rw [htask]
    cases task with
    | helloSaved | ackSaved => exact hmarks
    | _ => cases hmarks
  | flushed htask hpeer =>
    exact ⟨hrelies peerId (by rw [htask]; exact congrArg some hpeer), trivial⟩
  | helloSent htask => exact ⟨kind_mem_jobs htask rfl, trivial⟩
  | swept hdrops hne =>
    refine ⟨?_, trivial⟩
    exact (sessionAfter_eq (howns _ hdrops)).trans (if_neg hne)
  | resolving =>
    refine ⟨trivial, ?_, trivial⟩
    exact Contact.mem_swapJobs_begun _ _ (mem_singleton_self _)
  | added hcall hpeer => exact provident_added (hinvite _ hcall) hpeer
  | restarted hevent =>
    subst hevent
    exact ⟨Storage.flag?_of_rests hrestart peerId, trivial⟩
  | _ => exact ⟨trivial, trivial⟩

theorem kept_start (identity : LocalIdentity P) {storage : Storage}
    (hrests : storage.rests identity.peerId = true) (now : ℚ)
    (peerId : PeerId) :
    ((start identity storage now).contact peerId).Kept := by
  rw [contact_start_eq]
  refine Contact.kept_restarted ?_
  rw [row_contact_start]
  exact Storage.flag?_of_rests hrests peerId

/-- In every run from a start on archived contacts whose events lose no plan, a
contact of a quiet node that is neither archived nor connected has a pending
HELLO with its retry task, or an entry in the reconnect loop. -/
theorem pending_or_planned {identity : LocalIdentity P} {storage : Storage}
    {now : ℚ} {events : List ContactEvent}
    (hrests : storage.rests identity.peerId = true)
    (hkept : EveryStep step (fun state event => state.plansKept event = true)
      (start identity storage now) events)
    (hquiet : (run step (start identity storage now) events).quiet = true)
    {peerId : PeerId}
    (hdirect : peerId ∈ (run step (start identity storage now)
      events).node.peerTable.getDirectPeerIds)
    (hsession : (run step (start identity storage now)
      events).node.hasSession peerId = false)
    (hstate : (run step (start identity storage now)
      events).node.peerStates.getState peerId ≠ .archived) :
    ((run step (start identity storage now) events).node.pendingHello.contains
          peerId = true ∧
        (run step (start identity storage now)
          events).node.retryTasks.contains peerId = true) ∨
      OrderedDict.contains (run step (start identity storage now)
        events).node.reconnect peerId = true := by
  have hcontact := contact_run (fun _ _ hkept => hkept.step)
    (fun _ event peerId _ hkept => provident_of_plansKept hkept (happens event))
    (coherent_start identity storage now) (kept_start identity hrests now)
    hkept peerId
  have hidle := jobs_of_quiet hquiet peerId
  rcases hcontact ⟨(PeerTable.isDirect_iff ..).mpr hdirect, hsession,
    .inl hstate⟩ with hplanned | ⟨hpending, hretry | hjob⟩ | hjob | hjob
  · exact .inr hplanned
  · exact .inl ⟨hpending, hretry⟩
  all_goals
    rw [hidle] at hjob
    exact absurd hjob (notMem_zero _)

end ContactNode

namespace ContactNodeWitness

open ContactNode EndpointNodeWitness Reference

/-- A peer just invited waits for the answer to its HELLO. -/
theorem pending_or_planned_invited :
    let invited := run step fresh invited
    (peer.peerId ∈ invited.node.peerTable.getDirectPeerIds ∧
      invited.node.hasSession peer.peerId = false ∧
      invited.node.peerStates.getState peer.peerId = .connecting) ∧
    ((invited.node.pendingHello.contains peer.peerId = true ∧
        invited.node.retryTasks.contains peer.peerId = true) ∨
      invited.node.reconnect.contains peer.peerId = true) :=
  ⟨by decide +kernel, pending_or_planned (by decide +kernel) (by decide +kernel)
      (by decide +kernel) (by decide +kernel) (by decide +kernel)
      (by decide +kernel)⟩

/-- A HELLO_ACK in the peer's name that the peer has not signed. -/
def forgedAck : Packet := makePacket .helloAck (HelloAckPayload.serialize {
    identityPublicKey := peer.publicKeyBytes
    ephemeralPublicKey := (constant 32 8).val
    sessionId := (constant 8 7).val
    randomNonce := (constant 16 6).val
    signature := (constant 64 0).val })

/-- A node that starts on a stored contact plans nothing for it; and a forged
HELLO_ACK uses up the HELLO of an invited contact. -/
theorem not_planned_after_start :
    let started : ContactNode primitives := start self contacts 0
    let answered := run step fresh
      (invited ++ [.endpoint (.node (.receive forgedAck elsewhere 0))])
    ∀ state ∈ [started, answered],
      state.quiet = true ∧ state.inner.coroutines.isEmpty = true ∧
      peer.peerId ∈ state.node.peerTable.getDirectPeerIds ∧
      state.node.hasSession peer.peerId = false ∧
      state.node.peerStates.getState peer.peerId ≠ .archived ∧
      state.node.pendingHello.contains peer.peerId = false ∧
      state.node.reconnect.contains peer.peerId = false := by
  decide +kernel

end ContactNodeWitness

end AshiChat
