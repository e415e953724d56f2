/-
Overlapping `resolve_peer` calls (`resolution.py`).  All calls for one target
share one slot of `_pending`: a call puts its future there when it starts,
and whoever ends first, by a result or by a timeout, empties it.
-/
import AshiChat.EndpointNode
import AshiChat.Kit.EventRun

namespace AshiChat

open EventRun OrderedDict List Resolver

/-- A `resolve_peer` call: whom it looks for, and the future it waits on. -/
structure ResolveCall where
  target : PeerId
  future : Nat
deriving DecidableEq

/-- The process ends, with everything that waits in it. -/
def EndpointNodeEvent.restarts : EndpointNodeEvent → Bool
  | .node (.restart ..) => true
  | _ => false

namespace EndpointNode

variable {P : Primitives}

/-- The call that the event starts, with its caller. -/
def starts (state : EndpointNode P) :
    EndpointNodeEvent → Option (ResolveCall × ResolveCaller)
  | .reconnect peerId _ _ _ =>
    if state.node.hasSession peerId then none
    else
      match state.node.peerTable.getEndpoint peerId,
          state.node.reconnect.getAttemptCount peerId with
      | some _, 0 => none
      | known, _ =>
        some (⟨peerId, state.resolver.futures.length⟩, .reconnect known)
  | .sendOffline peerId _ _ _ =>
    match state.node.peerTable.getEndpoint peerId with
    | some _ => none
    | none => some (⟨peerId, state.resolver.futures.length⟩, .sendMessage)
  | _ => none

/-- The call that ends with the event, and what it returns. -/
def returns (state : EndpointNode P) :
    EndpointNodeEvent → Option (ResolveCall × Option Address)
  | .resume index _ _ =>
    match Pool.take? state.coroutines index with
    | some (.resolving target future _, _) =>
      match state.resolver.futures[future]? with
      | some (some endpoint) => some (⟨target, future⟩, some endpoint)
      | _ => none
    | _ => none
  | .timeout index _ _ =>
    match Pool.take? state.coroutines index with
    | some (.resolving target future _, _) =>
      match state.resolver.futures[future]? with
      | some none => some (⟨target, future⟩, none)
      | _ => none
    | _ => none
  | _ => none

/-- Some `resolve_peer` call for the target starts or ends. -/
def usesSlot (target : PeerId) (state : EndpointNode P)
    (event : EndpointNodeEvent) : Bool :=
  event.restarts || (state.starts event).any (·.1.target = target) ||
    (state.returns event).any (·.1.target = target)

/-- What an event does to the resolver and to the calls that wait. -/
inductive ResolverMove (state next : EndpointNode P) :
    Option (ResolveCall × ResolveCaller) →
    Option (ResolveCall × Option Address) → Prop where
  /-- no call is concerned -/
  | quiet (hresolver : next.resolver = state.resolver)
      (hcalls : ∀ target future caller,
        .resolving target future caller ∈ state.coroutines →
          .resolving target future caller ∈ next.coroutines) :
      ResolverMove state next none none
  | started (target : PeerId) (requestId : Random 16) (caller : ResolveCaller)
      (hresolver : next.resolver =
        (state.resolver.request state.node.peerTable target requestId).1)
      (hcalls : next.coroutines = state.coroutines ++
        [.resolving target state.resolver.futures.length caller]) :
      ResolverMove state next
        (some (⟨target, state.resolver.futures.length⟩, caller)) none
  | ended (target : PeerId) (future : Nat) (result : Option Address)
      (hfuture : state.resolver.futures[future]? = some result)
      (hresolver : next.resolver = state.resolver.finish target)
      (hcalls : ∀ other waiting caller, (other, waiting) ≠ (target, future) →
        .resolving other waiting caller ∈ state.coroutines →
          .resolving other waiting caller ∈ next.coroutines) :
      ResolverMove state next none (some (⟨target, future⟩, result))
  | updated (peerId : PeerId) (endpoint : Address)
      (hresolver : next.resolver = state.resolver.complete peerId endpoint)
      (hcalls : next.coroutines = state.coroutines) :
      ResolverMove state next none none

theorem resolverMove_reconnect (state : EndpointNode P) (peerId : PeerId)
    (requestId : Random 16) (draw : HelloDraw) (now : ℚ) :
    ResolverMove state (state.reconnectPeer peerId requestId draw now)
      (state.starts (.reconnect peerId requestId draw now)) none := by
  simp only [reconnectPeer, starts]
  split
  · exact .quiet rfl fun _ _ _ hmem => hmem
  · cases state.node.peerTable.getEndpoint peerId with
    | none => exact .started peerId requestId _ rfl rfl
    | some =>
      cases state.node.reconnect.getAttemptCount peerId with
      | zero => exact .quiet rfl fun _ _ _ hmem => hmem
      | succ => exact .started peerId requestId _ rfl rfl

theorem resolverMove_sendOffline (state : EndpointNode P) (peerId : PeerId)
    (requestId : Random 16) (draw : HelloDraw) (now : ℚ) :
    ResolverMove state (state.sendOffline peerId requestId draw now)
      (state.starts (.sendOffline peerId requestId draw now)) none := by
  simp only [sendOffline, starts]
  cases state.node.peerTable.getEndpoint peerId with
  | none => exact .started peerId requestId _ rfl rfl
  | some => exact .quiet rfl fun _ _ _ hmem => hmem

section Taken

variable {state : EndpointNode P} {index : Nat} {task other : EndpointTask}
  {rest : List EndpointTask}

/-- Everything that is not taken stays. -/
theorem mem_rest (htake : Pool.take? state.coroutines index = some (task, rest))
    (hne : other ≠ task) (hmem : other ∈ state.coroutines) : other ∈ rest :=
  ((Pool.mem_iff_of_take? htake).mp hmem).resolve_left hne

theorem mem_putBack
    (htake : Pool.take? state.coroutines index = some (task, rest))
    (hmem : other ∈ state.coroutines) : other ∈ rest ++ [task] := by
  rw [mem_append, mem_singleton]
  exact ((Pool.mem_iff_of_take? htake).mp hmem).symm

end Taken

theorem resolverMove_resume (state : EndpointNode P) (index : Nat)
    (draw : HelloDraw) (now : ℚ) :
    ResolverMove state (state.step (.resume index draw now)) none
      (state.returns (.resume index draw now)) := by
  simp only [step, runTask, returns]
  cases htake : Pool.take? state.coroutines index with
  | none => exact .quiet rfl fun _ _ _ hmem => hmem
  | some taken =>
    obtain ⟨task, _⟩ := taken
    cases task with
    | resolving target future caller =>
      simp only [resumeTask]
      cases hfuture : state.resolver.futures[future]? with
      | none => exact .quiet rfl fun _ _ _ hmem => mem_putBack htake hmem
      | some result =>
        cases result with
        | none => exact .quiet rfl fun _ _ _ hmem => mem_putBack htake hmem
        | some endpoint =>
          refine .ended target future (some endpoint) hfuture ?_ ?_
          · cases caller <;> rfl
          · intro other waiting asker hne hmem
            have hrest := mem_rest htake (by rintro ⟨⟩; exact hne rfl) hmem
            cases caller with
            | reconnect => exact mem_append_left _ hrest
            | sendMessage => exact hrest
    | dataStored =>
      refine .quiet rfl fun _ _ _ hmem => ?_
      exact mem_append_left _ (mem_rest htake (by rintro ⟨⟩) hmem)
    | dataRemembered | resolvedRemembered =>
      exact .quiet rfl fun _ _ _ hmem =>
        mem_rest htake (by rintro ⟨⟩) hmem

theorem resolverMove_timeout (state : EndpointNode P) (index : Nat)
    (draw : HelloDraw) (now : ℚ) :
    ResolverMove state (state.step (.timeout index draw now)) none
      (state.returns (.timeout index draw now)) := by
  simp only [step, runTask, returns]
  cases htake : Pool.take? state.coroutines index with
  | none => exact .quiet rfl fun _ _ _ hmem => hmem
  | some taken =>
    obtain ⟨task, _⟩ := taken
    cases task with
    | resolving target future caller =>
      simp only [timeoutTask]
      cases hfuture : state.resolver.futures[future]? with
      | none => exact .quiet rfl fun _ _ _ hmem => mem_putBack htake hmem
      | some result =>
        cases result with
        | some =>
          exact .quiet rfl fun _ _ _ hmem => mem_putBack htake hmem
        | none =>
          refine .ended target future none hfuture ?_ ?_
          · rcases caller with (_ | _) | _ <;> rfl
          · intro other waiting asker hne hmem
            have hrest := mem_rest htake (by rintro ⟨⟩; exact hne rfl) hmem
            rcases caller with (_ | _) | _
            · exact hrest
            · exact hrest
            · exact hrest
    | _ => exact .quiet rfl fun _ _ _ hmem => mem_putBack htake hmem

/-- What every event but a restart does. -/
theorem resolverMove_step (state : EndpointNode P) {event : EndpointNodeEvent}
    (hlives : event.restarts = false) :
    ResolverMove state (state.step event) (state.starts event)
      (state.returns event) := by
  cases event with
  | node event =>
    cases event with
    | restart => cases hlives
    | _ => exact .quiet rfl fun _ _ _ hmem => hmem
  | receiveData =>
    simp only [step, receiveData, starts, returns]
    split
    · exact .quiet rfl fun _ _ _ hmem => hmem
    · split
      · exact .quiet rfl fun _ _ _ hmem => mem_append_left _ hmem
      · exact .quiet rfl fun _ _ _ hmem => hmem
  | receiveUpdate update =>
    simp only [step, receiveUpdate, starts, returns]
    split
    · exact .updated update.peerId _ rfl rfl
    · exact .quiet rfl fun _ _ _ hmem => hmem
  | reconnect peerId requestId draw now =>
    exact state.resolverMove_reconnect peerId requestId draw now
  | sendOffline peerId requestId draw now =>
    exact state.resolverMove_sendOffline peerId requestId draw now
  | resume index draw now => exact state.resolverMove_resume index draw now
  | timeout index draw now => exact state.resolverMove_timeout index draw now
  | recordAttempt | select | write => exact .quiet rfl fun _ _ _ hmem => hmem

variable {state : EndpointNode P} {call : ResolveCall}
  {event : EndpointNodeEvent}

/-- The call is suspended at its future. -/
def Waits (call : ResolveCall) (state : EndpointNode P) : Prop :=
  ∃ caller, .resolving call.target call.future caller ∈ state.coroutines

/-- The call waits, and its future is the one in the slot of the target. -/
structure HoldsSlot (call : ResolveCall) (state : EndpointNode P) : Prop where
  slot : state.resolver.pending.get? call.target = some call.future
  waits : state.Waits call

/-- The call waits, and its future has the result. -/
structure Answered (call : ResolveCall) (endpoint : Address)
    (state : EndpointNode P) : Prop where
  result : state.resolver.futures[call.future]? = some (some endpoint)
  waits : state.Waits call

variable {endpoint : Address} {caller : ResolveCaller}

theorem restarts_eq_false_of_starts
    (hstart : state.starts event = some (call, caller)) :
    event.restarts = false := by
  cases event with
  | node => cases hstart
  | _ => rfl

theorem holdsSlot_of_starts (hstart : state.starts event = some (call, caller)) :
    (state.step event).HoldsSlot call := by
  have hmove := state.resolverMove_step (restarts_eq_false_of_starts hstart)
  rw [hstart] at hmove
  generalize state.returns event = returned at hmove
  cases hmove with
  | started _ _ caller hresolver hcalls =>
    constructor
    · rw [hresolver]
      exact get?_set_self ..
    · refine ⟨caller, ?_⟩
      rw [hcalls]
      exact mem_append_right _ mem_cons_self

/-- While no call for the target starts or ends, the slot and the call stay. -/
theorem HoldsSlot.step (hholds : state.HoldsSlot call)
    (hquiet : state.usesSlot call.target event = false) :
    (state.step event).HoldsSlot call := by
  simp only [usesSlot, Bool.or_eq_false_iff] at hquiet
  obtain ⟨⟨hlives, hstarts⟩, hreturns⟩ := hquiet
  obtain ⟨caller, hmem⟩ := hholds.waits
  have hmove := state.resolverMove_step hlives
  generalize state.starts event = started at hmove hstarts
  generalize state.returns event = returned at hmove hreturns
  cases hmove with
  | quiet hresolver hcalls =>
    exact ⟨hresolver ▸ hholds.slot, caller, hcalls _ _ _ hmem⟩
  | started target _ _ hresolver hcalls =>
    have hne : target ≠ call.target := by simpa using hstarts
    constructor
    · rw [hresolver]
      simp only [request, get?_set, if_neg hne]
      exact hholds.slot
    · refine ⟨caller, ?_⟩
      rw [hcalls]
      exact mem_append_left _ hmem
  | ended target _ _ _ hresolver hcalls =>
    have hne : target ≠ call.target := by simpa using hreturns
    constructor
    · rw [hresolver]
      simp only [Resolver.finish, get?_erase, if_neg hne]
      exact hholds.slot
    · refine ⟨caller, hcalls _ _ _ ?_ hmem⟩
      rintro ⟨⟩
      exact hne rfl
  | updated _ _ hresolver hcalls =>
    constructor
    · rw [hresolver, pending_complete]
      exact hholds.slot
    · exact ⟨caller, hcalls ▸ hmem⟩

theorem HoldsSlot.receiveUpdate (hholds : state.HoldsSlot call)
    (hwaiting : state.resolver.futures[call.future]? = some none)
    {update : EndpointUpdatePayload} (hpeer : update.peerId = call.target)
    (hverified : verifyEndpointSignature P state.node.peerTable update = true) :
    (state.step (.receiveUpdate update)).Answered call
      (update.endpointIp, update.endpointPort) := by
  simp only [EndpointNode.step, EndpointNode.receiveUpdate, hverified,
    ↓reduceIte]
  constructor
  · rw [hpeer]
    exact complete_waiting hholds.slot hwaiting _
  · exact hholds.waits

/-- A result is set once; the call keeps it until it returns it. -/
theorem Answered.step (hanswered : state.Answered call endpoint)
    (hlives : event.restarts = false) :
    state.returns event = some (call, some endpoint) ∨
      (state.step event).Answered call endpoint := by
  obtain ⟨hresult, caller, hmem⟩ := hanswered
  have hmove := state.resolverMove_step hlives
  generalize state.starts event = started at hmove
  generalize state.returns event = returned at hmove
  cases hmove with
  | quiet hresolver hcalls =>
    exact .inr ⟨hresolver ▸ hresult, caller, hcalls _ _ _ hmem⟩
  | started _ _ _ hresolver hcalls =>
    right
    constructor
    · rw [hresolver]
      obtain ⟨hlt, -⟩ := List.getElem?_eq_some_iff.mp hresult
      simp only [request, getElem?_append_left hlt]
      exact hresult
    · refine ⟨caller, ?_⟩
      rw [hcalls]
      exact mem_append_left _ hmem
  | ended target future _ hfuture hresolver hcalls =>
    by_cases hsame : (call.target, call.future) = (target, future)
    · obtain ⟨rfl, rfl⟩ := Prod.mk.inj hsame
      cases hresult.symm.trans hfuture
      exact .inl rfl
    · right
      constructor
      · rw [hresolver]
        exact hresult
      · exact ⟨caller, hcalls _ _ _ hsame hmem⟩
  | updated peerId other hresolver hcalls =>
    right
    constructor
    · rw [hresolver]
      exact complete_done hresult peerId other
    · exact ⟨caller, hcalls ▸ hmem⟩

/-- An answered call returns its result as soon as it is resumed. -/
theorem Answered.exists_resume (hanswered : state.Answered call endpoint) :
    ∃ index, ∀ draw now,
      state.returns (.resume index draw now) = some (call, some endpoint) := by
  obtain ⟨hresult, _, hmem⟩ := hanswered
  obtain ⟨index, _, htake⟩ := Pool.exists_take?_of_mem hmem
  exact ⟨index, fun _ _ => by simp only [returns, htake, hresult]⟩

/-- The call returns the endpoint during the events, or it does so at the end
when it is resumed. -/
def GetsResult (call : ResolveCall) (endpoint : Address)
    (state : EndpointNode P) (events : List EndpointNodeEvent) : Prop :=
  (∃ before event after, events = before ++ event :: after ∧
    (run step state before).returns event = some (call, some endpoint)) ∨
  ∃ index, ∀ draw now, (run step state events).returns
    (.resume index draw now) = some (call, some endpoint)

theorem Answered.getsResult (hanswered : state.Answered call endpoint)
    {later : List EndpointNodeEvent}
    (hlives : ∀ event ∈ later, event.restarts = false) :
    state.GetsResult call endpoint later := by
  induction later generalizing state with
  | nil => exact .inr hanswered.exists_resume
  | cons event rest ih =>
    rw [forall_mem_cons] at hlives
    rcases hanswered.step hlives.1 with hreturns | hnext
    · exact .inl ⟨[], event, rest, rfl, hreturns⟩
    · rcases ih hnext hlives.2 with
        ⟨before, last, after, rfl, hreturns⟩ | hresume
      · exact .inl ⟨event :: before, last, after, rfl, hreturns⟩
      · exact .inr hresume

/-- A call that still waits when a verified update for its target is handled
returns that endpoint, if from its start to the update no other call for the
target has started or ended. -/
theorem waiting_call_returns_update {caller : ResolveCaller}
    (hstart : state.starts event = some (call, caller))
    {between : List EndpointNodeEvent}
    (hquiet : EveryStep step
      (fun state event => state.usesSlot call.target event = false)
      (state.step event) between)
    (hwaiting : (run step (state.step event) between).resolver.futures[
      call.future]? = some none)
    {update : EndpointUpdatePayload} (hpeer : update.peerId = call.target)
    (hverified : verifyEndpointSignature P
      (run step (state.step event) between).node.peerTable update = true)
    {later : List EndpointNodeEvent}
    (hlives : ∀ event ∈ later, event.restarts = false) :
    GetsResult call (update.endpointIp, update.endpointPort)
      ((run step (state.step event) between).step (.receiveUpdate update))
      later := by
  have hstep : ∀ state event, HoldsSlot (P := P) call state →
      state.usesSlot call.target event = false →
      (state.step event).HoldsSlot call :=
    fun _ _ hholds hquiet => hholds.step hquiet
  have hholds := inv_run_of_everyStep hstep (holdsSlot_of_starts hstart) hquiet
  exact (hholds.receiveUpdate hwaiting hpeer hverified).getsResult hlives

end EndpointNode

namespace ResolveCallsWitness

open EndpointNodeWitness

/-- A contact from an invite without an address. -/
def storage : Storage := { Storage.empty with
    peers := empty.set peer.peerId
      ⟨peer.publicKeyBytes, none, 0, none, none, false, none⟩ }

def contact : EndpointNode Reference.primitives where
  process := ⟨.start self storage 0, []⟩
  resolver := .empty
  coroutines := []
  updates := []

/-- `send_message` to the contact. -/
def ask : EndpointNodeEvent :=
  .sendOffline peer.peerId (Reference.constant 16 8) draw 0

def answer : EndpointNodeEvent := .receiveUpdate (signed home 1)

/-- The second of two calls, while the first still waits. -/
theorem waiting_call_returns_update_second :
    EndpointNode.GetsResult ⟨peer.peerId, 1⟩ home
      ((run EndpointNode.step ((contact.step ask).step ask)
        [.recordAttempt peer.peerId 5]).step answer)
      [.timeout 0 draw 30, ask] := by
  have hstart : (contact.step ask).starts ask =
      some (⟨peer.peerId, 1⟩, .sendMessage) := by
    decide +kernel
  exact EndpointNode.waiting_call_returns_update hstart
    (by decide +kernel) (by decide +kernel) rfl (by decide +kernel) (by decide)

/-- Two messages to the contact.  The second call overwrites the slot, so the
answer does not reach the first; if the first times out before the answer
comes, the slot is empty and the answer reaches neither. -/
theorem overlapping_calls_unanswered :
    (run EndpointNode.step contact [ask, ask]).resolver.futures = [none, none] ∧
    verifyEndpointSignature Reference.primitives
      (run EndpointNode.step contact [ask, ask]).node.peerTable
      (signed home 1) = true ∧
    (run EndpointNode.step contact [ask, ask, answer]).returns
      (.timeout 0 draw 30) = some (⟨peer.peerId, 0⟩, none) ∧
    (run EndpointNode.step contact
        [ask, ask, .timeout 0 draw 30, answer]).returns
      (.timeout 0 draw 31) = some (⟨peer.peerId, 1⟩, none) := by
  decide +kernel

end ResolveCallsWitness

end AshiChat
