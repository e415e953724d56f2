/-
The life of one contact over all events of a node: to the handshakes come the
resolutions of `EndpointNode` and the calls and reconnect attempts of
`ContactNode`.  `ContactNode.contact_step` says that an event does to a
contact exactly what its `occurrences` do.
-/
import AshiChat.ContactHandshake

namespace AshiChat

open EventRun Option PeerStates Node OrderedDict EndpointNode Contact

variable {P : Primitives}

/-- The `UPDATE` of a signed endpoint leaves the flag of the row. -/
theorem UpdateTask.archived_writeAt (rows : PeerRows)
    (tasks : List UpdateTask) (index : Nat) (now : ℚ) (peerId : PeerId) :
    ((UpdateTask.writeAt rows tasks index now).1.get? peerId).map
        PeerRecord.archived =
      (rows.get? peerId).map PeerRecord.archived := by
  unfold UpdateTask.writeAt
  split
  · rfl
  · split
    · rw [UpdateTask.get?_write]
      split
      · rw [map_map]
        rfl
      · rfl
    · rfl

/-- What a call of `connect_to_peer` is in the life of the peer. -/
def connectOccurrences (peerId other : PeerId) : List Occurrence :=
  if other = peerId then [.connect] else []

namespace EndpointNode

variable (state : EndpointNode P) (peerId : PeerId)

/-- The contact, with the jobs of coroutines above this layer. -/
def contact (others : Multiset Job) : Contact :=
  state.node.contact peerId (state.process.jobs peerId + others)

def resolvedOccurrences (other : PeerId) : ResolveCaller → List Occurrence
  | .reconnect _ => []
  | .sendMessage => connectOccurrences peerId other

def unresolvedOccurrences (other : PeerId) : ResolveCaller → List Occurrence
  | .reconnect (some _) => connectOccurrences peerId other
  | .reconnect none => if other = peerId then [.unresolved] else []
  | .sendMessage => []

/-- What the next stretch of a coroutine is in the life of the peer. -/
def resumeOccurrences : EndpointTask → List Occurrence
  | .dataStored .. | .dataRemembered .. => []
  | .resolving other future caller =>
    match state.resolver.futures[future]? with
    | some (some _) => resolvedOccurrences peerId other caller
    | _ => []
  | .resolvedRemembered other _ => connectOccurrences peerId other

/-- What the end of its wait is. -/
def timeoutOccurrences : EndpointTask → List Occurrence
  | .resolving other future caller =>
    match state.resolver.futures[future]? with
    | some none => unresolvedOccurrences peerId other caller
    | _ => []
  | _ => []

/-- What an event is in the life of the peer.  The attempt that
`record_attempt` ends is known to the layer above. -/
def occurrences : EndpointNodeEvent → List Occurrence
  | .node event => state.process.occurrences peerId event
  | .reconnect other .. =>
    if state.node.hasSession other then
      if other = peerId then [.unplanned] else []
    else
      match state.node.peerTable.getEndpoint other,
          state.node.reconnect.getAttemptCount other with
      | some _, 0 => connectOccurrences peerId other
      | _, _ => if other = peerId then [.resolving] else []
  | .sendOffline other .. =>
    match state.node.peerTable.getEndpoint other with
    | some _ => connectOccurrences peerId other
    | none => []
  | .resume index .. =>
    match state.coroutines[index]? with
    | some task => state.resumeOccurrences peerId task
    | none => []
  | .timeout index .. =>
    match state.coroutines[index]? with
    | some task => state.timeoutOccurrences peerId task
    | none => []
  | .receiveData .. | .receiveUpdate .. | .recordAttempt .. | .select ..
  | .write .. => []

variable {state} (others : Multiset Job)

theorem contact_connect (hcoherent : state.process.Coherent)
    (other : PeerId) (endpoint : Address) (draw : HelloDraw) (now : ℚ) :
    (state.connect other endpoint draw now).contact peerId others =
      run Contact.step (state.contact peerId others)
        (connectOccurrences peerId other) :=
  Process.contact_step hcoherent peerId others (by rintro _ _ ⟨⟩)

theorem contact_withNode_states (other : PeerId) (new : PeerState) :
    (state.withNode { state.node with
        peerStates := (state.node.peerStates.updateState other
          new).1 }).contact peerId others =
      if other = peerId then
        { state.contact peerId others with
          state := (state.contact peerId others).state.after new }
      else state.contact peerId others := by
  refine (state.node.contact_withStates peerId _
    (getState_updateState ..)).trans ?_
  split <;> rfl

theorem contact_receiveData (payload : DataPayload) (addr : Address) :
    (state.receiveData payload addr).contact peerId others =
      state.contact peerId others := by
  unfold receiveData
  split
  · rfl
  · next ref _ _ =>
    split
    · next session' _ =>
      have hsession := state.node.registry.isSome_sessionFor_update ref
        session' peerId
      simp only [contact, withNode, node, Node.contact,
        hasSession_eq] at hsession ⊢
      rw [hsession]
      rfl
    · rfl

theorem contact_receiveUpdate (update : EndpointUpdatePayload) :
    (state.receiveUpdate update).contact peerId others =
      state.contact peerId others := by
  unfold receiveUpdate
  split
  · have hdirect :
        (state.node.peerTable.applyEndpointUpdate update).isDirect peerId =
          state.node.peerTable.isDirect peerId := by
      refine PeerTable.isDirect_modifyEntry _ _ _ _ fun entry => ?_
      unfold PeerTable.updateEntry
      split <;> rfl
    refine (contact_withTable ..).trans ?_
    rw [hdirect]
    rfl
  · rfl

theorem contact_write (index : Nat) (now : ℚ) :
    (state.step (.write index now)).contact peerId others =
      state.contact peerId others := by
  have hrow : Storage.flag? { state.node.storage with
      peers := (UpdateTask.writeAt state.node.storage.peers state.updates index
        now).1 } peerId = state.node.storage.flag? peerId :=
    UpdateTask.archived_writeAt ..
  exact state.node.contact_withStorage peerId _ hrow

section

variable (hcoherent : state.process.Coherent)

include hcoherent

theorem contact_reconnectPeer
    (other : PeerId) (requestId : Random 16) (draw : HelloDraw) (now : ℚ) :
    (state.reconnectPeer other requestId draw now).contact peerId others =
      run Contact.step (state.contact peerId others)
        (state.occurrences peerId (.reconnect other requestId draw now)) := by
  simp only [reconnectPeer, occurrences]
  cases hsession : state.node.hasSession other with
  | true =>
    simp only [↓reduceIte]
    have hbase : (state.withNode { state.node with
        reconnect := state.node.reconnect.recordConnect other }).contact
          peerId others =
        { state.contact peerId others with
          planned := if other = peerId then false
            else state.node.reconnect.contains peerId } := by
      rw [← contains_erase]
      rfl
    rw [hbase]
    split
    · next hpeer =>
      subst hpeer
      simp [Contact.step, contact, Node.contact, hsession]
    · rfl
  | false =>
    have hresolving := state.contact_withNode_states peerId others other
      .resolving
    simp only [Bool.false_eq_true, ↓reduceIte]
    cases state.node.peerTable.getEndpoint other with
    | none =>
      refine hresolving.trans ?_
      split <;> rfl
    | some endpoint =>
      cases state.node.reconnect.getAttemptCount other with
      | zero =>
        exact contact_connect peerId others hcoherent other endpoint draw now
      | succ =>
        refine hresolving.trans ?_
        split <;> rfl

theorem contact_sendOffline
    (other : PeerId) (requestId : Random 16) (draw : HelloDraw) (now : ℚ) :
    (state.sendOffline other requestId draw now).contact peerId others =
      run Contact.step (state.contact peerId others)
        (state.occurrences peerId (.sendOffline other requestId draw now)) := by
  simp only [sendOffline, occurrences]
  cases state.node.peerTable.getEndpoint other with
  | none => rfl
  | some endpoint =>
    exact contact_connect peerId others hcoherent other endpoint draw now

theorem contact_resumeTask (draw : HelloDraw) (now : ℚ) (task : EndpointTask) :
    (state.resumeTask draw now task).contact peerId others =
      run Contact.step (state.contact peerId others)
        (state.resumeOccurrences peerId task) := by
  cases task with
  | dataStored other addr =>
    exact state.node.contact_rememberEndpoint other peerId _ addr now
  | dataRemembered other addr =>
    exact state.node.contact_setEndpoint other peerId _ addr
  | resolving other future caller =>
    simp only [resumeTask, resumeOccurrences]
    rcases state.resolver.futures[future]? with _ | _ | endpoint
    · rfl
    · rfl
    · cases caller with
      | reconnect =>
        exact state.node.contact_rememberEndpoint other peerId _ endpoint now
      | sendMessage =>
        have hfinish : (state.finish other).process.Coherent := hcoherent
        exact contact_connect peerId others hfinish other endpoint draw now
  | resolvedRemembered other endpoint =>
    have hset : (state.withNode (state.node.setEndpoint other
        endpoint)).process.Coherent := hcoherent
    refine (contact_connect peerId others hset other endpoint draw now).trans ?_
    refine congrArg (run Contact.step · _) ?_
    exact state.node.contact_setEndpoint other peerId _ endpoint

theorem contact_timeoutTask (draw : HelloDraw) (now : ℚ) (task : EndpointTask) :
    (state.timeoutTask draw now task).contact peerId others =
      run Contact.step (state.contact peerId others)
        (state.timeoutOccurrences peerId task) := by
  cases task with
  | resolving other future caller =>
    simp only [timeoutTask, timeoutOccurrences]
    rcases state.resolver.futures[future]? with _ | _ | endpoint
    · rfl
    · cases caller with
      | sendMessage => rfl
      | reconnect fallback =>
        cases fallback with
        | some endpoint =>
          have hfinish : (state.finish other).process.Coherent := hcoherent
          exact contact_connect peerId others hfinish other endpoint draw now
        | none =>
          refine ((state.finish other).contact_withNode_states peerId
            others other .failed).trans ?_
          simp only [unresolvedOccurrences]
          split <;> rfl
    · rfl
  | dataStored | dataRemembered | resolvedRemembered => rfl

/-- Taking a coroutine from the suspended ones does not change what it is in
the life of the peer. -/
theorem contact_runTask (index : Nat)
    {go : EndpointNode P → EndpointTask → EndpointNode P}
    {happens : EndpointNode P → EndpointTask → List Occurrence}
    (hgo : ∀ (state : EndpointNode P) task, state.process.Coherent →
      (go state task).contact peerId others =
        run Contact.step (state.contact peerId others) (happens state task))
    (hsame : ∀ task rest,
      happens { state with coroutines := rest } task = happens state task) :
    (state.runTask index go).contact peerId others =
      run Contact.step (state.contact peerId others)
        (match state.coroutines[index]? with
        | some task => happens state task
        | none => []) := by
  unfold runTask Pool.take?
  cases state.coroutines[index]? with
  | none => rfl
  | some task =>
    simp only [map_some]
    rw [← hsame task (state.coroutines.eraseIdx index)]
    exact hgo _ task hcoherent

/-- An event that neither restarts the node nor records an attempt, in the
life of one contact. -/
theorem contact_step {event : EndpointNodeEvent}
    (hlive : ∀ graceful now, event ≠ .node (.restart graceful now))
    (hrecord : ∀ other now, event ≠ .recordAttempt other now) :
    (state.step event).contact peerId others =
      run Contact.step (state.contact peerId others)
        (state.occurrences peerId event) := by
  cases event with
  | node event =>
    have hevent : ∀ graceful now, event ≠ .restart graceful now :=
      fun graceful now heq => hlive graceful now (heq ▸ rfl)
    have hstep := Process.contact_step hcoherent peerId others hevent
    cases event with
    | restart graceful now => exact absurd rfl (hevent graceful now)
    | _ => exact hstep
  | receiveData payload addr =>
    exact contact_receiveData peerId others payload addr
  | receiveUpdate update => exact contact_receiveUpdate peerId others update
  | reconnect other requestId draw now =>
    exact contact_reconnectPeer peerId others hcoherent other requestId draw now
  | recordAttempt other now => exact absurd rfl (hrecord other now)
  | sendOffline other requestId draw now =>
    exact contact_sendOffline peerId others hcoherent other requestId draw now
  | resume index draw now =>
    exact contact_runTask peerId others hcoherent index
      (fun state task hcoherent =>
        contact_resumeTask peerId others hcoherent draw now task)
      (fun _ _ => rfl)
  | timeout index draw now =>
    exact contact_runTask peerId others hcoherent index
      (fun state task hcoherent =>
        contact_timeoutTask peerId others hcoherent draw now task)
      (fun _ _ => rfl)
  | select => rfl
  | write index now => exact contact_write peerId others index now

end

section

variable {motive : Process P → Prop}
    (hstep : ∀ process event, motive process → motive (process.step event))
    (hnode : ∀ process node, node.identity = process.node.identity →
      motive process → motive { process with node := node })

include hstep hnode

/-- What steps of the process and changes of its node keep, every event
keeps. -/
theorem process_rule (hstate : motive state.process)
    (event : EndpointNodeEvent) : motive (state.step event).process := by
  have hsame : ∀ node, node.identity = state.node.identity →
      motive (state.withNode node).process := fun node hidentity =>
    hnode _ node hidentity hstate
  cases event with
  | node event =>
    have hevent := hstep _ event hstate
    cases event <;> exact hevent
  | receiveData =>
    simp only [step, receiveData]
    split
    · exact hstate
    · split
      · exact hsame _ rfl
      · exact hstate
  | receiveUpdate =>
    simp only [step, receiveUpdate]
    split
    · exact hsame _ rfl
    · exact hstate
  | reconnect =>
    simp only [step, reconnectPeer]
    split
    · exact hsame _ rfl
    · split
      · exact hstep _ _ (hsame _ rfl)
      · exact hsame _ rfl
  | sendOffline =>
    simp only [step, sendOffline]
    split
    · exact hstep _ _ hstate
    · exact hstate
  | resume _ draw now =>
    simp only [step, runTask]
    split
    · exact hstate
    · next task rest htake =>
      cases task with
      | resolving _ _ caller =>
        simp only [resumeTask]
        split
        · cases caller with
          | reconnect => exact hsame _ rfl
          | sendMessage => exact hstep _ _ hstate
        · exact hstate
      | resolvedRemembered other endpoint =>
        exact hstep _ (.connect other endpoint draw now) (hsame _ rfl)
      | dataStored | dataRemembered => exact hsame _ rfl
  | timeout =>
    simp only [step, runTask]
    split
    · exact hstate
    · next task rest htake =>
      cases task with
      | resolving _ _ caller =>
        simp only [timeoutTask]
        split
        · rcases caller with ⟨_ | endpoint⟩ | _
          · exact hsame _ rfl
          · exact hstep _ _ hstate
          · exact hstate
        · exact hstate
      | dataStored | dataRemembered | resolvedRemembered => exact hstate
  | recordAttempt | select | write => exact hsame _ rfl

end

end EndpointNode

/-- The state `set_peer_archived` leaves, and whether it raises. -/
theorem PeerStates.setPeerArchived_self (states : PeerStates)
    (peerId : PeerId) (archived : Bool) :
    getState (setPeerArchived states peerId archived).1 peerId =
        (getState states peerId).archivedAs archived ∧
      (setPeerArchived states peerId archived).2.isSome =
        (getState states peerId).archiveRaises archived := by
  cases hstate : getState states peerId <;> cases archived <;>
    simp [setPeerArchived, updateState, walk, hstate,
      PeerState.validTransitions, getState_set_self, getState_ensureMachine,
      PeerState.archivedAs, PeerState.archiveRaises]

theorem PeerStates.setPeerArchived_of_ne {peerId other : PeerId}
    (hne : other ≠ peerId) (states : PeerStates) (archived : Bool) :
    getState (setPeerArchived states other archived).1 peerId =
      getState states peerId := by
  have hfirst : ∀ target, getState (updateState states other target).1
      peerId = getState states peerId := by
    intro target
    rw [getState_updateState, if_neg hne]
  simp only [setPeerArchived]
  generalize (if archived = true then PeerState.archived
    else .disconnected) = target
  have hsecond := hfirst target
  by_cases hthere : getState states other = target
  · rw [if_pos hthere]
  · rw [if_neg hthere]
    rcases hupdate : updateState states other target with ⟨_, _ | _⟩
    · rw [hupdate] at hsecond
      exact hsecond
    · rw [hupdate] at hsecond
      simp only
      split_ifs
      · rw [getState_walk_of_ne hne, hsecond]
      · rw [getState_updateState, if_neg hne, hsecond]
      · exact hsecond

theorem Node.identity_addContact (node : Node P) (publicKey : Bytes)
    (endpoint : Option Address) (saved : PeerRecord) (now : ℚ) :
    (node.addContact publicKey endpoint saved now).identity =
      node.identity := by
  simp only [addContact]
  split <;> rfl

/-- What the call does for the peer. -/
def ContactTask.job? (peerId : PeerId) : ContactTask → Option Job
  | .archiving other archived =>
    if other = peerId then some (.archiving archived) else none
  | _ => none

namespace ContactNode

variable (state : ContactNode P) (peerId : PeerId)

/-- The jobs of the calls and of the reconnect loop. -/
def callJobs : Multiset Job := jobsOf (ContactTask.job? peerId) state.calls +
    if state.attempting = some peerId then {.attempting} else 0

def contact : Contact := state.inner.contact peerId (state.callJobs peerId)

/-- What the next stretch of a call is in the life of the peer. -/
def callOccurrences : ContactTask → List Occurrence
  | .archiving other archived =>
    if other = peerId then [.archived archived] else []
  | .removing other =>
    let session :=
      ((state.node.registry.dropPeer other).sessionFor peerId).isSome
    if other = peerId then [.removed session] else [.swept session]
  | .inviting .. | .invited _ _ none => []
  | .invited publicKey endpoint (some _) =>
    -- The HELLO and the entry touch different things.
    (if endpoint.isSome then
      connectOccurrences peerId (derivePeerId P publicKey) else []) ++
    if derivePeerId P publicKey = peerId ∧
        derivePeerId P publicKey ≠ state.node.identity.peerId then [.added]
    else []

/-- What an event is in the life of the peer. -/
def occurrences : ContactEvent → List Occurrence
  | .endpoint (.reconnect other requestId draw now) =>
    if state.attempting = none then
      (if other = peerId then [.attempted] else []) ++
        state.inner.occurrences peerId (.reconnect other requestId draw now)
    else []
  | .endpoint (.recordAttempt other _) =>
    if state.attempting = some other ∧ other = peerId then [.recorded]
    else []
  | .endpoint event => state.inner.occurrences peerId event
  | .addContactFromInvite publicKey _ _ =>
    if derivePeerId P publicKey = peerId ∧
        derivePeerId P publicKey ≠ state.node.identity.peerId then [.stored]
    else []
  | .setPeerArchived other archived =>
    if other = peerId then [.flagged archived] else []
  | .removePeer other => if other = peerId then [.unstored] else []
  | .suspect other => if other = peerId then [.suspected] else []
  | .resume index .. =>
    match state.calls[index]? with
    | some task => state.callOccurrences peerId task
    | none => []

variable {state}

theorem callJobs_append (task : ContactTask) (rest : List ContactTask) :
    ({ state with calls := rest ++ [task] } : ContactNode P).callJobs peerId =
      ({ state with calls := rest } : ContactNode P).callJobs peerId +
        ↑(task.job? peerId).toList := by
  have htask : jobsOf (ContactTask.job? peerId) [task] =
      ↑(task.job? peerId).toList := jobsOf_toList (some task)
  simp only [callJobs, jobsOf_append, htask]
  rw [add_right_comm]

/-- The jobs of this layer are part of the contact's. -/
theorem contact_add (inner : EndpointNode P) (others job : Multiset Job) :
    inner.contact peerId (others + job) =
      (inner.contact peerId others).swapJobs 0 job := by
  simp [EndpointNode.contact, Node.contact, Contact.swapJobs, add_assoc]

theorem contact_stepEndpoint (hcoherent : state.inner.process.Coherent)
    {event : EndpointNodeEvent}
    (hlive : ∀ graceful now, event ≠ .node (.restart graceful now)) :
    (state.stepEndpoint event).contact peerId =
      run Contact.step (state.contact peerId)
        (state.occurrences peerId (.endpoint event)) := by
  have hstep := fun others => contact_step peerId others hcoherent hlive
  cases event with
  | reconnect =>
    simp only [stepEndpoint, occurrences]
    by_cases hfree : state.attempting = none
    · rw [if_pos hfree, if_pos hfree, run_append]
      refine (hstep _ (by rintro _ _ ⟨⟩)).trans ?_
      refine congrArg (run Contact.step · _) ?_
      simp only [contact, callJobs, hfree, reduceCtorEq, ↓reduceIte,
        add_zero, some.injEq]
      split
      · rw [contact_add]
        rfl
      · rw [add_zero]
        rfl
    · rw [if_neg hfree, if_neg hfree]
      rfl
  | recordAttempt other now =>
    simp only [stepEndpoint, occurrences]
    by_cases hmine : state.attempting = some other
    · have hplanned : contains
          (state.node.reconnect.recordAttempt other now) peerId =
            if other = peerId then true
            else state.node.reconnect.contains peerId :=
        contains_set ..
      have hbase : ∀ others, (state.inner.step
          (.recordAttempt other now)).contact peerId others =
            { state.inner.contact peerId others with
              planned := contains
                (state.node.reconnect.recordAttempt other now) peerId } :=
        fun _ => rfl
      rw [if_pos hmine]
      simp only [contact, callJobs, hmine, hbase, hplanned, reduceCtorEq,
        ↓reduceIte, add_zero, some.injEq, true_and]
      split
      · simp [Contact.step, contact_add, Contact.swapJobs]
      · rw [add_zero]
        rfl
    · rw [if_neg hmine, if_neg fun hboth => hmine hboth.1]
      rfl
  | node event =>
    cases event with
    | restart graceful now => exact absurd rfl (hlive graceful now)
    | _ => exact hstep _ (by rintro _ _ ⟨⟩)
  | _ => exact hstep _ (by rintro _ _ ⟨⟩)

/-- A storage call, and the job it begins. -/
theorem contact_suspend {storage : Storage} {row : Option Bool}
    (hrow : storage.flag? peerId = row) (task : ContactTask) :
    (state.suspend storage task).contact peerId =
      { (state.contact peerId).swapJobs 0 ↑(task.job? peerId).toList with
        row := row } := by
  have hjobs : (state.suspend storage task).callJobs peerId =
      state.callJobs peerId + ↑(task.job? peerId).toList :=
    callJobs_append peerId task state.calls
  have hnode := state.node.contact_withStorage peerId
    (state.inner.process.jobs peerId +
      (state.suspend storage task).callJobs peerId) hrow
  refine hnode.trans ?_
  rw [hjobs]
  simp only [contact, EndpointNode.contact, Node.contact, Contact.swapJobs,
    tsub_zero, add_assoc]
  rfl

/-- A call that does nothing for the peer after it. -/
theorem contact_suspend_idle {storage : Storage} {row : Option Bool}
    (hrow : storage.flag? peerId = row) {task : ContactTask}
    (hjob : task.job? peerId = none) :
    (state.suspend storage task).contact peerId =
      { state.contact peerId with row := row } := by
  rw [contact_suspend peerId hrow, hjob, toList_none,
    Multiset.coe_nil, swapJobs_none]

theorem contact_withNode_archived (other : PeerId) (archived : Bool) :
    (state.withNode (state.node.withStates
        (state.node.peerStates.setPeerArchived other archived).1)).contact
          peerId =
      if other = peerId then
        { state.contact peerId with
          state := (state.contact peerId).state.archivedAs archived }
      else state.contact peerId := by
  split
  · next hpeer =>
    subst hpeer
    exact state.node.contact_withStates other _ (setPeerArchived_self ..).1
  · next hpeer =>
    exact state.node.contact_withStates peerId _
      (setPeerArchived_of_ne hpeer ..)

section

variable (hcoherent : state.inner.process.Coherent)

include hcoherent

theorem contact_addContact (publicKey : Bytes) (endpoint : Option Address)
    (saved : PeerRecord) (draw : HelloDraw) (now : ℚ) :
    (state.addContact publicKey endpoint saved draw now).contact peerId =
      run Contact.step (state.contact peerId) (state.callOccurrences peerId
          (.invited publicKey endpoint (some saved))) := by
  have hentry : (state.withNode (state.node.addContact publicKey endpoint
      saved now)).contact peerId = _ :=
    state.node.contact_addContact peerId _ publicKey endpoint saved now
  have hcoherent' : (state.withNode (state.node.addContact publicKey endpoint
      saved now)).inner.process.Coherent := hcoherent
  simp only [callOccurrences]
  cases endpoint with
  | none =>
    refine hentry.trans ?_
    simp only [isSome_none, Bool.false_eq_true, ↓reduceIte, List.nil_append]
    split <;> rfl
  | some addr =>
    refine (contact_connect peerId _ hcoherent'
      (derivePeerId P publicKey) addr draw now).trans ?_
    refine (congrArg (run Contact.step · _) hentry).trans ?_
    simp only [isSome_some, ↓reduceIte, connectOccurrences]
    split_ifs with hadded hpeer hpeer
    · exact (state.contact peerId).step_added_connect
    · exact absurd hadded.1 hpeer
    · rfl
    · rfl

/-- The next stretch of a call that has been taken from the suspended ones. -/
theorem contact_resumeCall (draw : HelloDraw) (now : ℚ) (task : ContactTask) :
    (state.resumeCall draw now task).contact peerId = run Contact.step
        ((state.contact peerId).swapJobs 0 ↑(task.job? peerId).toList)
        (state.callOccurrences peerId task) := by
  cases task with
  | archiving other archived =>
    refine (contact_withNode_archived peerId other archived).trans ?_
    simp only [ContactTask.job?, callOccurrences]
    split
    · simp [Contact.step, Contact.swapJobs]
    · exact (swapJobs_none _).symm
  | removing other =>
    refine (state.node.contact_removePeer other peerId _).trans ?_
    refine Eq.trans ?_ (congrArg (run Contact.step · _)
      (swapJobs_none (state.contact peerId)).symm)
    simp only [callOccurrences]
    split <;> rfl
  | inviting publicKey endpoint =>
    have hjobs : (state.resumeCall draw now
        (.inviting publicKey endpoint)).callJobs peerId =
          state.callJobs peerId + 0 := callJobs_append peerId _ state.calls
    rw [add_zero] at hjobs
    refine (congrArg (state.inner.contact peerId) hjobs).trans ?_
    exact (swapJobs_none _).symm
  | invited publicKey endpoint saved =>
    cases saved with
    | none => exact (swapJobs_none _).symm
    | some saved =>
      refine (contact_addContact peerId hcoherent publicKey endpoint saved
        draw now).trans ?_
      exact congrArg (run Contact.step · _)
        (swapJobs_none (state.contact peerId)).symm

theorem contact_resume (index : Nat) (draw : HelloDraw) (now : ℚ) :
    (state.step (.resume index draw now)).contact peerId =
      run Contact.step (state.contact peerId)
        (state.occurrences peerId (.resume index draw now)) := by
  simp only [step, occurrences, Pool.take?]
  cases htask : state.calls[index]? with
  | none => rfl
  | some task =>
    have hjobs : state.callJobs peerId =
        ({ state with calls := state.calls.eraseIdx index } :
          ContactNode P).callJobs peerId + ↑(task.job? peerId).toList := by
      have htaken : jobsOf (ContactTask.job? peerId) state.calls = _ :=
        jobsOf_eraseIdx htask
      simp only [callJobs, htaken]
      rw [add_comm (_ : Multiset Job) (jobsOf _ _), add_right_comm]
    have hcontact : state.contact peerId =
        (({ state with calls := state.calls.eraseIdx index } :
          ContactNode P).contact peerId).swapJobs 0
            ↑(task.job? peerId).toList := by
      rw [contact, hjobs]
      exact contact_add peerId state.inner _ _
    have hrest : ({ state with calls := state.calls.eraseIdx index } :
        ContactNode P).inner.process.Coherent := hcoherent
    rw [hcontact]
    exact contact_resumeCall peerId hrest draw now task

end

/-- A new process knows what the rows say, and nothing else. -/
theorem contact_restart (graceful : Bool) (now : ℚ) :
    (state.step (.endpoint (.node (.restart graceful now)))).contact peerId =
      (state.contact peerId).step
        (.restarted (decide (peerId = state.node.identity.peerId))) := by
  have hflag : (if graceful then state.inner.process.node.stop
      else state.inner.process.node.storage).flag? peerId =
        state.node.storage.flag? peerId := by
    cases graceful with
    | false => rfl
    | true =>
      refine congrArg (fun rows : PeerRows =>
        (rows.get? peerId).map PeerRecord.archived) ?_
      exact state.node.peers_stop
  refine (contact_start ..).trans ?_
  rw [hflag]
  rfl

/-- The contacts of the node live as the occurrences say. -/
theorem contact_step (hcoherent : state.inner.process.Coherent)
    (event : ContactEvent) :
    (state.step event).contact peerId = run Contact.step (state.contact peerId)
        (state.occurrences peerId event) := by
  cases event with
  | endpoint event =>
    by_cases hrestart : ∃ graceful now, event = .node (.restart graceful now)
    · obtain ⟨graceful, now, rfl⟩ := hrestart
      exact contact_restart peerId graceful now
    · exact contact_stepEndpoint peerId hcoherent
        (fun graceful now heq => hrestart ⟨graceful, now, heq⟩)
  | addContactFromInvite publicKey =>
    simp only [step, occurrences]
    by_cases hself : derivePeerId P publicKey = state.node.identity.peerId
    · rw [if_pos hself, if_neg fun hboth => hboth.2 hself]
      rfl
    · rw [if_neg hself]
      refine (contact_suspend_idle peerId (Storage.flag?_insertPeer ..)
        rfl).trans ?_
      simp only [hself, ne_eq, not_false_eq_true, and_true]
      split <;> rfl
  | setPeerArchived other archived =>
    have hrow := state.node.storage.flag?_setPeerArchived other peerId archived
    simp only [occurrences]
    split
    · next hpeer =>
      rw [if_pos hpeer] at hrow
      refine (contact_suspend peerId hrow _).trans ?_
      simp only [ContactTask.job?, if_pos hpeer]
      rfl
    · next hpeer =>
      rw [if_neg hpeer] at hrow
      exact contact_suspend_idle peerId hrow (if_neg hpeer)
  | removePeer =>
    refine (contact_suspend_idle peerId (Storage.flag?_removePeer ..)
      rfl).trans ?_
    simp only [occurrences]
    split <;> rfl
  | suspect other =>
    refine (contact_withNode_states peerId _ other .suspect).trans ?_
    simp only [occurrences]
    split <;> rfl
  | resume index draw now => exact contact_resume peerId hcoherent index draw now

section

variable {motive : Process P → Prop}
    (hstep : ∀ process event, motive process → motive (process.step event))
    (hnode : ∀ process node, node.identity = process.node.identity →
      motive process → motive { process with node := node })

include hstep hnode

/-- The same for the events of this layer. -/
theorem process_rule (hstate : motive state.inner.process)
    (event : ContactEvent) : motive (state.step event).inner.process := by
  have hsame : ∀ node, node.identity = state.node.identity →
      motive (state.withNode node).inner.process := fun node hidentity =>
    hnode _ node hidentity hstate
  cases event with
  | endpoint event =>
    have hevent := EndpointNode.process_rule hstep hnode hstate event
    cases event with
    | node event => cases event <;> exact hevent
    | reconnect | recordAttempt =>
      simp only [step, stepEndpoint]
      split
      · exact hevent
      · exact hstate
    | _ => exact hevent
  | addContactFromInvite =>
    simp only [step]
    split
    · exact hstate
    · exact hsame _ rfl
  | setPeerArchived | removePeer | suspect => exact hsame _ rfl
  | resume _ _ now =>
    simp only [step]
    split
    · exact hstate
    · next task _ _ =>
      cases task with
      | archiving | removing => exact hsame _ rfl
      | inviting => exact hstate
      | invited publicKey endpoint saved =>
        cases saved with
        | none => exact hstate
        | some saved =>
          have hentry := hsame (state.node.addContact publicKey
            endpoint saved now) (identity_addContact ..)
          cases endpoint with
          | none => exact hentry
          | some => exact hstep _ _ hentry

end

/-- No event breaks a handshake coroutine. -/
theorem coherent_step (hcoherent : state.inner.process.Coherent)
    (event : ContactEvent) :
    (state.step event).inner.process.Coherent :=
  process_rule (fun _ event hcoherent => hcoherent.step event)
    (fun _ _ _ hcoherent => hcoherent) hcoherent event

variable (identity : LocalIdentity P)

variable (storage : Storage)

theorem coherent_start
    (now : ℚ) : (start identity storage now).inner.process.Coherent := by
  intro task hmem
  cases hmem

theorem contact_start (now : ℚ) : (start identity storage now).contact peerId =
      (Node.start identity storage now).contact peerId 0 := rfl

/-- A start leaves every contact as a restart does. -/
theorem contact_start_eq (now : ℚ) :
    (start identity storage now).contact peerId =
      ((start identity storage now).contact peerId).step
        (.restarted (decide (peerId = identity.peerId))) := by
  rw [contact_start, Node.contact_start]
  rfl

theorem row_contact_start (now : ℚ) :
    ((start identity storage now).contact peerId).row =
      storage.flag? peerId := by
  rw [contact_start, Node.contact_start]

/-- A node refines one small machine for each peer: a run does to a contact
what the occurrences of its events do. -/
theorem contact_refines (storage : Storage)
    (now : ℚ) (events : List ContactEvent) (peerId : PeerId) :
    (run step (start identity storage now) events).contact peerId =
      run Contact.step ((start identity storage now).contact peerId)
        (outputs step (occurrences · peerId) (start identity storage now)
          events) := by
  have hcoherent := coherent_start identity storage now
  generalize start identity storage now = state at hcoherent ⊢
  induction events generalizing state with
  | nil => rfl
  | cons event _ ih =>
    rw [run_cons, ih _ (coherent_step hcoherent event), outputs_cons,
      run_append, contact_step peerId hcoherent event]

section

variable {good : ContactNode P → ContactEvent → Prop}
    {allowed : Contact → Occurrence → Prop} {property : Contact → Prop}

section

variable (hkeep : ∀ contact occurrence, property contact →
    allowed contact occurrence → property (contact.step occurrence))
  (hallowed : ∀ (state : ContactNode P) event peerId,
    state.inner.process.Coherent → good state event →
      EveryStep Contact.step allowed (state.contact peerId)
        (state.occurrences peerId event))

include hkeep hallowed

/-- An event made of occurrences that keep a property keeps it for all
contacts. -/
theorem contacts_step (state : ContactNode P) (event : ContactEvent)
    (hall : state.inner.process.Coherent ∧
      ∀ peerId, property (state.contact peerId))
    (hgood : good state event) :
    (state.step event).inner.process.Coherent ∧
      ∀ peerId, property ((state.step event).contact peerId) := by
  refine ⟨coherent_step hall.1 event, fun peerId => ?_⟩
  rw [contact_step peerId hall.1 event]
  exact inv_run_of_everyStep hkeep (hall.2 peerId)
    (hallowed state event peerId hall.1 hgood)

/-- A property of one contact that every allowed occurrence keeps holds of all
contacts along every run whose events are made of allowed occurrences. -/
theorem contact_run (hcoherent : state.inner.process.Coherent)
    (hstart : ∀ peerId, property (state.contact peerId))
    {events : List ContactEvent} (hgood : EveryStep step good state events) :
    ∀ peerId, property ((run step state events).contact peerId) :=
  (inv_run_of_everyStep (contacts_step hkeep hallowed) ⟨hcoherent, hstart⟩
    hgood).2

/-- What such a property means for an event, at every step of such a run. -/
theorem contact_everyStep {goal : ContactNode P → ContactEvent → Prop}
    (himp : ∀ (state : ContactNode P) event, state.inner.process.Coherent →
      (∀ peerId, property (state.contact peerId)) → good state event →
        goal state event)
    (hcoherent : state.inner.process.Coherent)
    (hstart : ∀ peerId, property (state.contact peerId))
    {events : List ContactEvent} (hgood : EveryStep step good state events) :
    EveryStep step goal state events :=
  everyStep_of_good (contacts_step hkeep hallowed)
    (fun state event hall => himp state event hall.1 hall.2)
    ⟨hcoherent, hstart⟩ hgood

end

end

end ContactNode

end AshiChat
