/-
The order of the messages in a queue.  A slip keeps what matters of an entry:
its text, its sequence number once it has one, and whether it is still QUEUED.
Messages are in sequence if every message before a numbered one has a smaller
number; this is so as long as numbers are given to the oldest QUEUED message.
What is received in the order of the numbers is then received in the order of
the queue.
-/
import AshiChat.Endpoint

namespace AshiChat

open QueueManager List Option Function

/-- A queue entry without its retries, its send time and its later states. -/
structure Slip where
  messageId : MessageId
  receiver : PeerId
  text : Bytes
  number : Option Nat
  queued : Bool
deriving DecidableEq

namespace Slip

def ofBinding (binding : MessageId × QueueEntry) : Slip where
  messageId := binding.1
  receiver := binding.2.receiver
  text := binding.2.plaintext
  number := binding.2.sequenceNumber
  queued := binding.2.status == .queued

/-- The message has been sent under a number. -/
def assign (slip : Slip) (number : Nat) : Slip :=
  { slip with number := some number, queued := false }

@[simp] theorem queued_assign (slip : Slip) (number : Nat) :
    (slip.assign number).queued = false := rfl

/-- If the newer message has a number, the older one has a smaller one. -/
def Precedes (older newer : Slip) : Prop :=
  ∀ number, newer.number = some number →
    ∃ smaller < number, older.number = some smaller

end Slip

/-- The messages QUEUED for a peer, oldest first. -/
def waiting (peerId : PeerId) (slips : List Slip) : List MessageId :=
  (slips.filter fun slip => slip.receiver == peerId && slip.queued).map
    Slip.messageId

/-- Messages to one peer, numbered in their order. -/
structure InSequence (peerId : PeerId) (slips : List Slip) : Prop where
  receiver : ∀ slip ∈ slips, slip.receiver = peerId
  queued : ∀ slip ∈ slips, slip.queued = true ↔ slip.number = none
  ordered : slips.Pairwise Slip.Precedes
  nodup : (slips.map Slip.messageId).Nodup

/-- The numbers are below the session's counter. -/
def Below (next : Nat) (slips : List Slip) : Prop :=
  ∀ slip ∈ slips, ∀ number, slip.number = some number → number < next

/-- Numbered messages stay as they are. -/
def Keeps (before after : List Slip) : Prop :=
  ∀ slip ∈ before, slip.number ≠ none → slip ∈ after

/-- Those of the messages that still wait are the first in line. -/
def Leads (messageIds line : List MessageId) : Prop :=
  messageIds.filter (· ∈ line) <+: line

section Slips

variable {peerId : PeerId} {slips before after : List Slip}
  {slip new : Slip} {next number : Nat} {messageId : MessageId}

theorem Keeps.refl (slips : List Slip) : Keeps slips slips :=
  fun _ hslip _ => hslip

/-- The item is the number and the text of a message. -/
def Sent (slips : List Slip) (item : Nat × Bytes) : Prop :=
  ∃ slip ∈ slips, slip.number = some item.1 ∧ slip.text = item.2

theorem Sent.of_keeps {item : Nat × Bytes} (hsent : Sent before item)
    (hkeeps : Keeps before after) : Sent after item := by
  obtain ⟨slip, hslip, hnumber, htext⟩ := hsent
  refine ⟨slip, hkeeps slip hslip ?_, hnumber, htext⟩
  rw [hnumber]
  exact some_ne_none _

section Arrival

variable {item : Nat × Bytes} {oldest : Slip} {rest : List Slip}

theorem Sent.of_ne (hsent : Sent (oldest :: rest) item)
    (hne : oldest.number ≠ some item.1) : Sent rest item := by
  obtain ⟨slip, hslip, hnumber, htext⟩ := hsent
  rcases mem_cons.mp hslip with rfl | hrest
  · exact absurd hnumber hne
  · exact ⟨slip, hrest, hnumber, htext⟩

/-- Only the oldest message has the oldest message's number. -/
theorem Sent.text_eq (hsent : Sent (oldest :: rest) item)
    (holdest : ∀ slip ∈ rest, oldest.Precedes slip)
    (hnumber : oldest.number = some item.1) : oldest.text = item.2 := by
  obtain ⟨slip, hslip, hsame, htext⟩ := hsent
  rcases mem_cons.mp hslip with rfl | hrest
  · exact htext
  · obtain ⟨_, hless, hfound⟩ := holdest slip hrest item.1 hsame
    cases hnumber.symm.trans hfound
    exact absurd hless (Nat.lt_irrefl _)

/-- What is numbered in the rest has a larger number than the oldest. -/
theorem Sent.lt_of_rest (hsent : Sent rest item)
    (holdest : ∀ slip ∈ rest, oldest.Precedes slip) {number : Nat}
    (hnumber : oldest.number = some number) : number < item.1 := by
  obtain ⟨slip, hslip, hitem, -⟩ := hsent
  obtain ⟨_, hless, hfound⟩ := holdest slip hslip item.1 hitem
  cases hnumber.symm.trans hfound
  exact hless

end Arrival

/-- What arrives in the order of the numbers arrives in the order of the
messages. -/
theorem texts_sublist (hordered : slips.Pairwise Slip.Precedes)
    {received : List (Nat × Bytes)}
    (hincreasing : received.Pairwise (·.1 < ·.1))
    (hsent : ∀ item ∈ received, Sent slips item) :
    (received.map Prod.snd).Sublist (slips.map Slip.text) := by
  induction slips generalizing received with
  | nil =>
    cases received with
    | nil => exact List.Sublist.slnil
    | cons item =>
      obtain ⟨_, hslip, -⟩ := hsent item mem_cons_self
      cases hslip
  | cons oldest _ ih =>
    cases received with
    | nil => exact nil_sublist _
    | cons item =>
      obtain ⟨holdest, hrest⟩ := pairwise_cons.mp hordered
      obtain ⟨hless, hlater⟩ := pairwise_cons.mp hincreasing
      obtain ⟨hitem, hsent'⟩ := forall_mem_cons.mp hsent
      -- The oldest message is the first to arrive, or does not arrive.
      by_cases hnumber : oldest.number = some item.1
      · rw [map_cons, map_cons, ← hitem.text_eq holdest hnumber]
        refine (ih hrest hlater ?_).cons_cons _
        intro other hother
        refine (hsent' other hother).of_ne fun hsame => ?_
        have hequal := some.inj (hnumber.symm.trans hsame)
        exact Nat.ne_of_lt (hless other hother) hequal
      · have hfirst := hitem.of_ne hnumber
        refine (ih hrest hincreasing ?_).cons _
        refine forall_mem_cons.mpr ⟨hfirst, fun other hother => ?_⟩
        refine (hsent' other hother).of_ne fun hsame => ?_
        have hsmaller := hfirst.lt_of_rest holdest hsame
        exact Nat.lt_asymm hsmaller (hless other hother)

theorem InSequence.add (hsequence : InSequence peerId slips)
    (hreceiver : new.receiver = peerId) (hqueued : new.queued = true)
    (hnumber : new.number = none)
    (hfresh : new.messageId ∉ slips.map Slip.messageId) :
    InSequence peerId (slips ++ [new]) where
  receiver := by
    intro slip hslip
    rcases mem_append.mp hslip with hold | hnew
    · exact hsequence.receiver slip hold
    · rwa [mem_singleton.mp hnew]
  queued := by
    intro slip hslip
    rcases mem_append.mp hslip with hold | hnew
    · exact hsequence.queued slip hold
    · rw [mem_singleton.mp hnew]
      exact iff_of_true hqueued hnumber
  ordered := by
    refine pairwise_append.mpr ⟨hsequence.ordered, pairwise_singleton .., ?_⟩
    intro older _ newer hnewer number hfound
    rw [mem_singleton.mp hnewer, hnumber] at hfound
    cases hfound
  nodup := by
    rw [map_append, map_singleton]
    exact nodup_append.mpr ⟨hsequence.nodup, nodup_singleton _,
      fun left hleft right hright heq => hfresh (by
        rwa [← mem_singleton.mp hright, ← heq])⟩

theorem Keeps.add (slips : List Slip) (new : Slip) :
    Keeps slips (slips ++ [new]) :=
  fun _ hslip _ => mem_append_left _ hslip

theorem Below.add (hbelow : Below next slips) (hnumber : new.number = none) :
    Below next (slips ++ [new]) := by
  intro slip hslip number hfound
  rcases mem_append.mp hslip with hold | hnew
  · exact hbelow slip hold number hfound
  · rw [mem_singleton.mp hnew, hnumber] at hfound
    cases hfound

/-- The message is given the number. -/
def assignNumber (messageId : MessageId) (number : Nat) (slips : List Slip) :
    List Slip :=
  slips.map fun slip =>
    if slip.messageId = messageId then slip.assign number else slip

theorem mem_assignNumber (number : Nat) (hslip : slip ∈ slips) :
    slip.assign number ∈ assignNumber slip.messageId number slips :=
  mem_map.mpr ⟨slip, hslip, if_pos rfl⟩

/-- A number changes nothing that a slip has besides. -/
theorem map_assignNumber {field : Slip → α}
    (hfield : ∀ slip number, field (slip.assign number) = field slip)
    (messageId : MessageId) (number : Nat) (slips : List Slip) :
    (assignNumber messageId number slips).map field = slips.map field := by
  rw [assignNumber, List.map_map]
  refine map_congr_left fun slip _ => ?_
  rw [comp_apply]
  split
  · exact hfield slip number
  · rfl

theorem map_messageId_assignNumber (messageId : MessageId) (number : Nat)
    (slips : List Slip) :
    (assignNumber messageId number slips).map Slip.messageId =
      slips.map Slip.messageId :=
  map_assignNumber (fun _ _ => rfl) messageId number slips

theorem map_text_assignNumber (messageId : MessageId) (number : Nat)
    (slips : List Slip) :
    (assignNumber messageId number slips).map Slip.text = slips.map Slip.text :=
  map_assignNumber (fun _ _ => rfl) messageId number slips

/-- The oldest of the messages that wait, and those around it. -/
theorem exists_split_of_head? (hhead : (waiting peerId slips).head? =
      some messageId) :
    ∃ front slip back, slips = front ++ slip :: back ∧
      slip.messageId = messageId ∧ slip.queued = true ∧
      ∀ other ∈ front, ¬ (other.receiver = peerId ∧ other.queued = true) := by
  rw [waiting, head?_map, head?_filter] at hhead
  obtain ⟨slip, hfind, hid⟩ := map_eq_some_iff.mp hhead
  obtain ⟨htest, front, back, hslips, hfront⟩ :=
    find?_eq_some_iff_append.mp hfind
  simp only [Bool.and_eq_true, beq_iff_eq] at htest
  refine ⟨front, slip, back, hslips, hid, htest.2, fun other hother hwaits => ?_⟩
  simpa [hwaits.1, hwaits.2] using hfront other hother

section Assign

variable {front back : List Slip}

theorem assignNumber_split (number : Nat)
    (hnodup : ((front ++ slip :: back).map Slip.messageId).Nodup) :
    assignNumber slip.messageId number (front ++ slip :: back) =
      front ++ slip.assign number :: back := by
  rw [map_append, map_cons] at hnodup
  have hother : ∀ other ∈ front ++ back, other.messageId ≠ slip.messageId := by
    have hnot := (nodup_middle.mp hnodup).notMem
    rw [← map_append] at hnot
    exact fun other hmem heq => hnot (heq ▸ mem_map_of_mem hmem)
  have hsame : ∀ part ⊆ front ++ back,
      assignNumber slip.messageId number part = part := by
    intro part hpart
    refine (map_congr_left fun other hmem => ?_).trans (map_id _)
    exact if_neg (hother other (hpart hmem))
  have hfront := hsame front (subset_append_left ..)
  have hback := hsame back (subset_append_right ..)
  rw [assignNumber] at hfront hback ⊢
  rw [map_append, map_cons, hfront, hback, if_pos rfl]

/-- The oldest message may have the next number. -/
theorem InSequence.assign (hsequence : InSequence peerId slips)
    (hbelow : Below next slips)
    (hhead : (waiting peerId slips).head? = some messageId) :
    InSequence peerId (assignNumber messageId next slips) ∧
      Keeps slips (assignNumber messageId next slips) := by
  have hnodup' : ((assignNumber messageId next slips).map
      Slip.messageId).Nodup := by
    rw [map_messageId_assignNumber]
    exact hsequence.nodup
  obtain ⟨_, _, _, rfl, rfl, hqueued, hfront⟩ := exists_split_of_head? hhead
  rw [assignNumber_split next hsequence.nodup] at hnodup' ⊢
  obtain ⟨hreceivers, hreceiver, hreceivers'⟩ := by
    simpa only [forall_mem_append, forall_mem_cons] using hsequence.receiver
  obtain ⟨hstates, hstate, hstates'⟩ := by
    simpa only [forall_mem_append, forall_mem_cons] using hsequence.queued
  obtain ⟨hordered, hordered', hacross⟩ := pairwise_append.mp hsequence.ordered
  obtain ⟨hprecedes, hback⟩ := pairwise_cons.mp hordered'
  have hunnumbered := hstate.mp hqueued
  refine ⟨⟨?_, ?_, ?_, hnodup'⟩, ?_⟩
  · simpa only [forall_mem_append, forall_mem_cons] using
      ⟨hreceivers, hreceiver, hreceivers'⟩
  · simpa only [forall_mem_append, forall_mem_cons] using
      ⟨hstates, by simp [Slip.assign], hstates'⟩
  · refine pairwise_append.mpr ⟨hordered, pairwise_cons.mpr ⟨?_, hback⟩, ?_⟩
    · -- Nothing behind a message without a number has one.
      intro newer hnewer number hnumber
      obtain ⟨_, -, hfound⟩ := hprecedes newer hnewer number hnumber
      cases hunnumbered.symm.trans hfound
    · intro older holder
      refine forall_mem_cons.mpr
        ⟨?_, fun newer hnewer => hacross older holder newer
          (mem_cons_of_mem _ hnewer)⟩
      rintro number ⟨⟩
      have hnot : older.number ≠ none := fun hnone =>
        hfront older holder ⟨hreceivers older holder,
          (hstates older holder).mpr hnone⟩
      obtain ⟨smaller, hsmaller⟩ := ne_none_iff_exists'.mp hnot
      exact ⟨smaller, hbelow older (mem_append_left _ holder) smaller
        hsmaller, hsmaller⟩
  · intro other hother hnumber
    rcases mem_append.mp hother with hmem | hmem
    · exact mem_append_left _ hmem
    · rcases mem_cons.mp hmem with rfl | hmem
      · exact absurd hunnumbered hnumber
      · exact mem_append_right _ (mem_cons_of_mem _ hmem)

end Assign

theorem Below.assign (hbelow : Below next slips) (messageId : MessageId) :
    Below (next + 1) (assignNumber messageId next slips) := by
  intro slip hslip number hnumber
  obtain ⟨old, hold, rfl⟩ := mem_map.mp hslip
  split at hnumber
  · cases hnumber
    exact Nat.lt_succ_self _
  · exact Nat.lt_succ_of_lt (hbelow old hold number hnumber)

theorem waiting_assignNumber (peerId : PeerId) (messageId : MessageId)
    (number : Nat) (slips : List Slip) :
    waiting peerId (assignNumber messageId number slips) =
      (waiting peerId slips).filter (· ≠ messageId) := by
  induction slips with
  | nil => rfl
  | cons slip _ ih =>
    simp only [waiting, assignNumber, map_cons, filter_cons] at ih ⊢
    by_cases hid : slip.messageId = messageId
    · simp only [hid, ↓reduceIte, Slip.queued_assign, Bool.and_false,
        Bool.false_eq_true, ih]
      split <;> simp [hid]
    · simp only [hid, ↓reduceIte]
      split <;> simp [hid, ih]

theorem mem_waiting {slips : List Slip} : messageId ∈ waiting peerId slips ↔
      ∃ slip ∈ slips, slip.messageId = messageId ∧
        slip.receiver = peerId ∧ slip.queued = true := by
  simp only [waiting, List.mem_map, List.mem_filter, Bool.and_eq_true,
    beq_iff_eq]
  constructor
  · rintro ⟨slip, ⟨hslip, hwaits⟩, hid⟩
    exact ⟨slip, hslip, hid, hwaits⟩
  · rintro ⟨slip, hslip, hid, hwaits⟩
    exact ⟨slip, ⟨hslip, hwaits⟩, hid⟩

theorem waiting_add (hreceiver : new.receiver = peerId)
    (hqueued : new.queued = true) :
    waiting peerId (slips ++ [new]) =
      waiting peerId slips ++ [new.messageId] := by
  simp [waiting, filter_append, hreceiver, hqueued]

section Line

variable {messageIds line skipped rest : List MessageId}

theorem leads_self (line : List MessageId) : Leads line line := by
  have hall : line.filter (· ∈ line) = line :=
    filter_eq_self.mpr fun _ hmem => decide_eq_true hmem
  rw [Leads, hall]

theorem leads_nil (line : List MessageId) : Leads [] line := nil_prefix

/-- A message leaves the line. -/
theorem Leads.remove (hleads : Leads messageIds line) (messageId : MessageId) :
    Leads messageIds (line.filter (· ≠ messageId)) := by
  have hfilter : messageIds.filter (· ∈ line.filter (· ≠ messageId)) =
      (messageIds.filter (· ∈ line)).filter (· ≠ messageId) := by
    rw [List.filter_filter]
    refine filter_congr fun other _ => ?_
    simp [and_comm]
  rw [Leads, hfilter]
  exact List.IsPrefix.filter _ hleads

/-- A message joins the line. -/
theorem Leads.append (hleads : Leads messageIds line)
    (hfresh : messageId ∉ messageIds) :
    Leads messageIds (line ++ [messageId]) := by
  have hfilter : messageIds.filter (· ∈ line ++ [messageId]) =
      messageIds.filter (· ∈ line) := by
    refine filter_congr fun other hother => ?_
    have hne : other ≠ messageId := fun heq => hfresh (heq ▸ hother)
    simp [hne]
  rw [Leads, hfilter]
  exact hleads.trans (prefix_append ..)

/-- The first of the messages that still waits is the first in line. -/
theorem Leads.head? (hleads : Leads (skipped ++ messageId :: rest) line)
    (hskipped : ∀ other ∈ skipped, other ∉ line) (hwaits : messageId ∈ line) :
    line.head? = some messageId := by
  have hgone : skipped.filter (· ∈ line) = [] :=
    filter_eq_nil_iff.mpr fun other hother => by
      simpa using hskipped other hother
  rw [Leads, filter_append, hgone, nil_append,
    filter_cons_of_pos (by simpa using hwaits)] at hleads
  obtain ⟨_, hline⟩ := hleads
  rw [← hline]
  rfl

/-- Once it has left, the rest is. -/
theorem Leads.tail (hleads : Leads (skipped ++ messageId :: rest) line)
    (hskipped : ∀ other ∈ skipped, other ∉ line) :
    Leads rest (line.filter (· ≠ messageId)) := by
  have hremoved := hleads.remove messageId
  have hgone : (skipped ++ [messageId]).filter
      (· ∈ line.filter (· ≠ messageId)) = [] := by
    refine filter_eq_nil_iff.mpr fun other hother => ?_
    rcases mem_append.mp hother with hmem | hmem
    · simp [hskipped other hmem]
    · simp [mem_singleton.mp hmem]
  rwa [Leads, ← singleton_append, ← append_assoc,
    filter_append, hgone, nil_append] at hremoved

end Line

end Slips

namespace QueueManager

def slips (queue : QueueManager) : List Slip := queue.entries.map Slip.ofBinding

variable {queue : QueueManager} {messageId : MessageId} {entry : QueueEntry}

theorem map_messageId_slips (queue : QueueManager) :
    queue.slips.map Slip.messageId = queue.entries.map Prod.fst := by
  rw [slips, List.map_map]
  rfl

theorem mem_slips (hget : queue.get? messageId = some entry) :
    Slip.ofBinding (messageId, entry) ∈ queue.slips :=
  mem_map_of_mem (queue.mem_entries_iff.mpr hget)

/-- The slip of an entry is the only one with its id. -/
theorem eq_ofBinding_of_mem_slips {slip : Slip} (hslip : slip ∈ queue.slips)
    (hget : queue.get? slip.messageId = some entry) :
    slip = Slip.ofBinding (slip.messageId, entry) := by
  obtain ⟨⟨_, _⟩, hfound, rfl⟩ := mem_map.mp hslip
  have hsame := queue.get?_eq_of_mem_entries hfound
  cases hget.symm.trans hsame
  rfl

theorem getQueuedForPeer_eq (queue : QueueManager) (peerId : PeerId) :
    queue.getQueuedForPeer peerId = waiting peerId queue.slips := by
  rw [getQueuedForPeer, waiting, slips, List.filter_map, List.map_map]
  rfl

theorem slips_enqueue (hfresh : queue.get? messageId = none) (receiver : PeerId)
    (plaintext : Bytes) :
    (queue.enqueue messageId receiver plaintext).slips =
      queue.slips ++ [⟨messageId, receiver, plaintext, none, true⟩] := by
  rw [enqueue, slips, OrderedDict.entries_set_of_get?_eq_none hfresh,
    map_append]
  rfl

theorem slips_dispatched (queue : QueueManager) (messageId : MessageId)
    (number : Nat) (now : ℚ) :
    slips (queue.modify messageId (QueueEntry.dispatched number now)) =
      assignNumber messageId number queue.slips := by
  rw [slips, slips, assignNumber, OrderedDict.modify, List.map_map,
    List.map_map]
  refine map_congr_left fun binding _ => ?_
  by_cases hid : binding.1 = messageId
  · simp only [comp_apply, Slip.ofBinding, hid, ↓reduceIte]
    rfl
  · simp [Slip.ofBinding, hid]

/-- A change that a slip does not show. -/
theorem slips_modify {change : QueueEntry → QueueEntry}
    (hchange : ∀ entry, queue.get? messageId = some entry →
      Slip.ofBinding (messageId, change entry) =
        Slip.ofBinding (messageId, entry)) :
    slips (queue.modify messageId change) = queue.slips := by
  rw [slips, slips, OrderedDict.modify, List.map_map]
  refine map_congr_left fun binding hmem => ?_
  obtain ⟨_, entry⟩ := binding
  rw [comp_apply]
  split
  · next heq =>
    cases heq
    exact hchange entry (queue.get?_eq_of_mem_entries hmem)
  · rfl

theorem slips_handleAck {queue' : QueueManager} {ack : AckPayload}
    (hack : queue.handleAck ack = (queue', some messageId)) :
    queue'.slips = queue.slips := by
  obtain ⟨rfl, _, hget, hpending, -⟩ := handleAck_eq_some hack
  refine slips_modify fun found hfound => ?_
  cases hget.symm.trans hfound
  simp [Slip.ofBinding, hpending]

theorem slips_acknowledgeBySequence {queue' : QueueManager} {peerId : PeerId}
    {seq : Nat}
    (hack : queue.acknowledgeBySequence peerId seq = (queue', some messageId)) :
    queue'.slips = queue.slips := by
  obtain ⟨rfl, _, hget, hdelivered⟩ := acknowledgeBySequence_eq_some hack
  refine slips_modify fun found hfound => ?_
  cases hget.symm.trans hfound
  simp [Slip.ofBinding, hdelivered]

theorem slips_rebuildForSync (P : Primitives) (queue : QueueManager)
    (messageId : MessageId) (session : Session) (now : ℚ) :
    (rebuildForSync P queue messageId session now).1.slips = queue.slips := by
  have htouch : slips (queue.modify messageId
      fun entry => { entry with sentAt := some now }) = queue.slips :=
    slips_modify fun _ _ => rfl
  unfold rebuildForSync
  repeat' split
  all_goals first
    | rfl
    | exact htouch

theorem slips_resendMissed (P : Primitives) (session : Session)
    (peerHighest : Nat) (now : ℚ) (queue : QueueManager)
    (items : List (MessageId × QueueEntry)) :
    (resendMissed P session peerHighest now queue items).queue.slips =
      queue.slips :=
  resendMissed_keeps (fun after before => after.slips = before.slips)
    (fun _ => rfl) Eq.trans
    (fun queue messageId => slips_rebuildForSync P queue messageId session now)
    peerHighest queue items

end QueueManager

end AshiChat
