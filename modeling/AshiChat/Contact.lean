/-
One contact of a node, seen alone: whether it is in the peer table, has a
session, a reconnect entry, a pending HELLO and a retry task, its state and
the flag of its row, and the coroutines at work for it.  What happens to it is
an `Occurrence`; the events of a whole node come down to such occurrences in
`ContactLife`, so that a property of every contact is proved here, on one.
-/
import AshiChat.Kit.EventRun
import AshiChat.Peers
import Mathlib.Algebra.Order.Group.Multiset

namespace AshiChat

open Multiset

/-- A coroutine at work for the contact. -/
inductive Job where
  /-- `_handle_hello` before `process_hello` -/
  | accepting
  /-- either handshake handler after `save_session_state` -/
  | saved
  /-- `_handle_hello_ack` between `record_connect` and its end -/
  | flushing
  /-- `connect_to_peer` after `remember_endpoint` -/
  | connecting
  /-- the reconnect loop, until it records the attempt -/
  | attempting
  /-- `set_peer_archived` after the storage call -/
  | archiving (archived : Bool)
deriving DecidableEq

/-- `row` is the archived flag of the stored row, if there is one. -/
@[ext] structure Contact where
  direct : Bool
  session : Bool
  state : PeerState
  planned : Bool
  pending : Bool
  retrying : Bool
  row : Option Bool
  jobs : Multiset Job

/-- What can happen to a contact.  Where a session is dropped by its id, the
occurrence says whether the contact has one afterwards. -/
inductive Occurrence where
  | helloArrived
  | introduced
  | accepted
  | refused
  | answered
  | unanswered
  | marked (flushes : Bool)
  | flushed
  | connect
  | helloSent
  | retry (last : Bool)
  | disconnected (session : Bool)
  | swept (session : Bool)
  | attempted
  | unplanned
  | recorded
  | resolving
  | unresolved
  | suspected
  | stored
  | added
  | flagged (archived : Bool)
  | archived (archived : Bool)
  | unstored
  | removed (session : Bool)
  | restarted (self : Bool)

/-- Occurrences that happen to a contact in whatever state it is. -/
def Occurrence.plain : Occurrence → Bool
  | .helloArrived | .accepted | .answered | .connect | .retry _ | .attempted
  | .unplanned | .recorded | .unresolved | .suspected | .stored => true
  | _ => false

/-- The state `set_peer_archived` leaves. -/
def PeerState.archivedAs (archived : Bool) (state : PeerState) : PeerState :=
  match archived, state with
  | true, .resolving => .resolving
  | true, _ => .archived
  | false, .resolving => .resolving
  | false, .archived => .archived
  | false, _ => .disconnected

/-- It raises exactly from these states. -/
def PeerState.archiveRaises (archived : Bool) (state : PeerState) : Bool :=
  match archived, state with
  | true, .resolving => true
  | false, .archived => true
  | _, _ => false

/-- A session is in use in these states. -/
def PeerState.live : PeerState → Bool
  | .connected | .idle | .suspect => true
  | _ => false

namespace Contact

/-- A coroutine ends, and others begin. -/
def swapJobs (contact : Contact) (ended begun : Multiset Job) : Contact :=
  { contact with jobs := contact.jobs - ended + begun }

theorem swapJobs_none (contact : Contact) : contact.swapJobs 0 0 = contact := by
  simp [swapJobs]

variable {job : Job} {contact : Contact} {begun ended : Multiset Job}

theorem mem_swapJobs_begun (contact : Contact) (ended : Multiset Job)
    (hmem : job ∈ begun) :
    job ∈ (contact.swapJobs ended begun).jobs :=
  mem_add.mpr (.inr hmem)

/-- A coroutine goes on when another one ends. -/
theorem mem_swapJobs_of_ne {ended : Job} (begun : Multiset Job)
    (hmem : job ∈ contact.jobs) (hne : job ≠ ended) :
    job ∈ (contact.swapJobs {ended} begun).jobs := by
  refine mem_add.mpr (.inl ?_)
  rw [sub_singleton]
  exact (mem_erase_of_ne hne).mpr hmem

theorem mem_swapJobs_zero (begun : Multiset Job) (hmem : job ∈ contact.jobs) :
    job ∈ (contact.swapJobs 0 begun).jobs := by
  refine mem_add.mpr (.inl ?_)
  rwa [tsub_zero]

/-- What is at work afterwards was so before, or has begun. -/
theorem mem_of_mem_swapJobs (hmem : job ∈ (contact.swapJobs ended begun).jobs) :
    job ∈ contact.jobs ∨ job ∈ begun :=
  (mem_add.mp hmem).imp_left (mem_of_le (Multiset.sub_le_self _ _))

/-- Neither ended nor begun, a coroutine is as it was. -/
theorem mem_swapJobs_iff (hended : job ∉ ended) (hbegun : job ∉ begun) :
    job ∈ (contact.swapJobs ended begun).jobs ↔ job ∈ contact.jobs := by
  simp only [swapJobs, ← count_pos, count_add,
    count_sub, count_eq_zero_of_notMem hended,
    count_eq_zero_of_notMem hbegun, tsub_zero, add_zero]

/-- `add_peer`: the flag of an existing row stays. -/
def storeRow (contact : Contact) : Contact :=
  { contact with row := some (contact.row.getD false) }

def step (contact : Contact) : Occurrence → Contact
  | .helloArrived =>
    let contact := if contact.direct then contact else contact.storeRow
    { contact.swapJobs 0 {.accepting} with pending := false }
  | .introduced | .added => { contact with direct := true }
  | .accepted => { contact.swapJobs {.accepting} {.saved} with session := true }
  | .refused => contact.swapJobs {.accepting} 0
  | .answered =>
    { contact.swapJobs 0 {.saved} with session := true, pending := false }
  | .unanswered => { contact with pending := false }
  | .marked flushes =>
    { contact.swapJobs {.saved} (if flushes then {.flushing} else 0) with
      state := .connected
      planned := false }
  | .flushed => { contact.swapJobs {.flushing} 0 with retrying := false }
  | .connect =>
    if contact.session || contact.pending then contact
    else { contact.swapJobs 0 {.connecting} with pending := true }
  | .helloSent =>
    { contact.swapJobs {.connecting} 0 with
      state := contact.state.after .connecting
      retrying := true }
  | .retry last =>
    if !contact.retrying then contact
    else if contact.session || !contact.pending then
      { contact with retrying := false }
    else if last then
      { contact with
        retrying := false
        pending := false
        planned := true
        state := contact.state.after .disconnected }
    else contact
  | .disconnected session =>
    { contact with
      session := session
      planned := true
      state := contact.state.after .disconnected }
  | .swept session => { contact with session := session }
  | .attempted => contact.swapJobs 0 {.attempting}
  | .unplanned =>
    if contact.session then { contact with planned := false } else contact
  | .recorded => { contact.swapJobs {.attempting} 0 with planned := true }
  | .resolving => { contact with state := contact.state.after .resolving }
  | .unresolved => { contact with state := contact.state.after .failed }
  | .suspected => { contact with state := contact.state.after .suspect }
  | .stored => contact.storeRow
  | .flagged archived =>
    { contact.swapJobs 0 {.archiving archived} with
      row := contact.row.map fun _ => archived }
  | .archived archived =>
    { contact.swapJobs {.archiving archived} 0 with
      state := contact.state.archivedAs archived }
  | .unstored => { contact with row := none }
  | .removed session => { contact with direct := false, session := session }
  | .restarted self =>
    { direct := contact.row.isSome && !self
      session := false
      state := if contact.row = some true then .archived else .disconnected
      planned := false
      pending := false
      retrying := false
      row := contact.row
      jobs := 0 }

/-- Whether a HELLO is created does not depend on the entry. -/
theorem step_added_connect (contact : Contact) :
    (contact.step .added).step .connect =
      (contact.step .connect).step .added := by
  cases hbusy : contact.session || contact.pending with
  | true => simp [step, hbusy]
  | false =>
    simp only [step, hbusy, Bool.false_eq_true, ↓reduceIte]
    rfl

end Contact

end AshiChat
