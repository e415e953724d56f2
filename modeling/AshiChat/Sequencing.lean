/-
How the coroutines of a sender number its messages to one peer.  A flush takes
a snapshot of what is queued and awaits between its messages, so its list must
stay ahead of everything else that is queued; then it always builds the oldest
message.  `send_message` builds its own message when it goes on.  As long as
that is the oldest one too, the messages stay in sequence.
-/
import AshiChat.MessagingMoves
import AshiChat.Numbering

namespace AshiChat

open QueueManager List Keeps

/-- What a flush still has to go through is ahead of all else that is queued. -/
def DispatchCaller.InTurn (peerId : PeerId) (slips : List Slip) :
    DispatchCaller → Prop
  | .send _ => True
  | .flush _ _ _ rest =>
    rest ⊆ slips.map Slip.messageId ∧ Leads rest (waiting peerId slips)
  | .retry .. => False

/-- The message of a built packet has the packet's number. -/
structure Dispatch.InTurn (peerId : PeerId) (slips : List Slip)
    (dispatch : Dispatch) : Prop where
  numbered : ∃ slip ∈ slips, slip.messageId = dispatch.messageId ∧
    slip.number = some dispatch.seq
  caller : dispatch.caller.InTurn peerId slips

def Work.InTurn (peerId : PeerId) (slips : List Slip) : Work → Prop
  | .sequenceStored dispatch | .numberStored dispatch
  | .statusStored dispatch => dispatch.InTurn peerId slips
  | .failureStored _ => False
  | _ => True

/-- The invariant of the sender: its messages are in sequence, up to the
counter of its one session, and its coroutines keep them so. -/
structure Sequenced (keys : SessionKeys) (slips : List Slip)
    (objects : List Session) (works : List Work) : Prop where
  sequence : InSequence keys.remotePeerId slips
  single : objects.length ≤ 1
  closed : objects = [] → ∀ slip ∈ slips, slip.number = none
  below : ∀ session ∈ objects, Below session.sendSequence slips
  keyed : ∀ session ∈ objects, session.sessionId = keys.sessionId ∧
    session.encryptionKey = keys.encryptionKey
  coroutines : ∀ work ∈ works, work.InTurn keys.remotePeerId slips

theorem sequenced_nil (keys : SessionKeys) : Sequenced keys [] [] [] where
  sequence := by constructor <;> simp
  single := Nat.zero_le _
  closed := by simp
  below := by simp
  keyed := by simp
  coroutines := by simp

section Moves

variable {keys : SessionKeys} {peerId : PeerId} {slips slips' : List Slip}
  {objects : List Session} {works works' : List Work} {new : Slip}
  {messageId : MessageId} {ref : Nat} {session session' : Session}

/-- Coroutines stay in turn when numbered messages keep their numbers and no
list of a flush loses its place. -/
theorem Work.InTurn.move {work : Work} (hturn : work.InTurn peerId slips)
    (hkeeps : Keeps slips slips')
    (hids : slips.map Slip.messageId ⊆ slips'.map Slip.messageId)
    (hleads : ∀ ids, ids ⊆ slips.map Slip.messageId →
      Leads ids (waiting peerId slips) → Leads ids (waiting peerId slips')) :
    work.InTurn peerId slips' := by
  have hdispatch : ∀ dispatch : Dispatch, dispatch.InTurn peerId slips →
      dispatch.InTurn peerId slips' := by
    intro dispatch ⟨⟨slip, hslip, hid, hnumber⟩, hcaller⟩
    refine ⟨⟨slip, hkeeps slip hslip ?_, hid, hnumber⟩, ?_⟩
    · rw [hnumber]
      exact Option.some_ne_none _
    · cases hwho : dispatch.caller with
      | send => exact trivial
      | flush _ _ _ rest =>
        rw [hwho] at hcaller
        exact ⟨List.Subset.trans hcaller.1 hids, hleads rest hcaller.1 hcaller.2⟩
      | retry =>
        rw [hwho] at hcaller
        exact hcaller
  cases work with
  | sequenceStored dispatch => exact hdispatch dispatch hturn
  | numberStored dispatch => exact hdispatch dispatch hturn
  | statusStored dispatch => exact hdispatch dispatch hturn
  | _ => exact hturn

section

variable (hseq : Sequenced keys slips objects works)

include hseq

theorem Sequenced.withWorks
    (hworks : ∀ work ∈ works', work.InTurn keys.remotePeerId slips) :
    Sequenced keys slips objects works' :=
  { hseq with coroutines := hworks }

theorem Sequenced.withWork
    {work : Work} (hwork : work.InTurn keys.remotePeerId slips) :
    Sequenced keys slips objects (works ++ [work]) :=
  hseq.withWorks (forall_mem_append.mpr ⟨hseq.coroutines,
    forall_mem_singleton.mpr hwork⟩)

/-- `send_message` enqueues. -/
theorem Sequenced.add (hreceiver : new.receiver = keys.remotePeerId)
    (hqueued : new.queued = true) (hnumber : new.number = none)
    (hfresh : new.messageId ∉ slips.map Slip.messageId) :
    Sequenced keys (slips ++ [new]) objects works where
  sequence := hseq.sequence.add hreceiver hqueued hnumber hfresh
  single := hseq.single
  closed := by
    intro hnone slip hslip
    rcases mem_append.mp hslip with hold | hnew
    · exact hseq.closed hnone slip hold
    · rwa [mem_singleton.mp hnew]
  below := fun session hmem => (hseq.below session hmem).add hnumber
  keyed := hseq.keyed
  coroutines := by
    intro work hwork
    refine (hseq.coroutines work hwork).move (Keeps.add slips new) ?_ ?_
    · rw [map_append]
      exact subset_append_left ..
    · intro ids hids hleads
      rw [waiting_add hreceiver hqueued]
      exact hleads.append fun hmem => hfresh (hids hmem)

end

/-- The handshake registers the session. -/
theorem Sequenced.register (hseq : Sequenced keys slips [] works)
    (hid : session.sessionId = keys.sessionId)
    (hkey : session.encryptionKey = keys.encryptionKey) :
    Sequenced keys slips [session] works where
  sequence := hseq.sequence
  single := le_rfl
  closed := by rintro ⟨⟩
  below := by
    intro _ _ slip hslip number hnumber
    rw [hseq.closed rfl slip hslip] at hnumber
    cases hnumber
  keyed := by
    intro found hfound
    rw [mem_singleton.mp hfound]
    exact ⟨hid, hkey⟩
  coroutines := hseq.coroutines

section

variable (hseq : Sequenced keys slips objects works)
  (hobject : objects[ref]? = some session)

include hseq hobject

/-- There is only one session object. -/
theorem Sequenced.objects_set (session' : Session) :
    objects = [session] ∧ objects.set ref session' = [session'] := by
  obtain ⟨hlt, hget⟩ := List.getElem?_eq_some_iff.mp hobject
  have hlength := hseq.single
  cases objects with
  | nil => cases hlt
  | cons _ rest =>
    cases rest with
    | nil =>
      cases Nat.lt_one_iff.mp hlt
      cases hget
      exact ⟨rfl, rfl⟩
    | cons => simp at hlength

/-- The counter moves on, or the session receives. -/
theorem Sequenced.update (hid : session'.sessionId = session.sessionId)
    (hkey : session'.encryptionKey = session.encryptionKey)
    (hcounter : session.sendSequence ≤ session'.sendSequence) :
    Sequenced keys slips (objects.set ref session') works := by
  obtain ⟨rfl, hset⟩ := hseq.objects_set hobject session'
  rw [hset]
  obtain ⟨hid', hkey'⟩ := hseq.keyed session mem_cons_self
  refine ⟨hseq.sequence, le_rfl, by rintro ⟨⟩, ?_, ?_, hseq.coroutines⟩
  · intro found hfound slip hslip number hnumber
    rw [mem_singleton.mp hfound]
    exact (hseq.below session mem_cons_self slip hslip number
      hnumber).trans_le hcounter
  · intro found hfound
    rw [mem_singleton.mp hfound]
    exact ⟨hid.trans hid', hkey.trans hkey'⟩

/-- The oldest message is built under the next number. -/
theorem Sequenced.assign
    (hhead : (waiting keys.remotePeerId slips).head? = some messageId) :
    Sequenced keys (assignNumber messageId session.sendSequence slips)
        (objects.set ref session.nextSequence.2) works ∧
      Keeps slips (assignNumber messageId session.sendSequence slips) := by
  obtain ⟨rfl, hset⟩ := hseq.objects_set hobject session.nextSequence.2
  have hbelow := hseq.below session mem_cons_self
  obtain ⟨hslips, hkeeps⟩ := hseq.sequence.assign hbelow hhead
  rw [hset]
  refine ⟨⟨hslips, le_rfl, by rintro ⟨⟩, ?_, ?_, ?_⟩, hkeeps⟩
  · intro found hfound
    rw [mem_singleton.mp hfound]
    exact hbelow.assign messageId
  · intro found hfound
    rw [mem_singleton.mp hfound]
    exact hseq.keyed session mem_cons_self
  · intro work hwork
    refine (hseq.coroutines work hwork).move hkeeps ?_ ?_
    · rw [map_messageId_assignNumber]
      exact List.Subset.refl _
    · intro ids _ hleads
      rw [waiting_assignNumber]
      exact hleads.remove messageId

end

end Moves

namespace Messaging

/-- The invariant of the sender, for the work its coroutines have left. -/
def Orderly (node : Messaging) (keys : SessionKeys) (works : List Work) :
    Prop :=
  Sequenced keys node.queue.slips node.registry.objects works

/-- A stretch keeps the invariant and the numbered messages, and enqueues
`texts`. -/
structure Advances (keys : SessionKeys) (node : Messaging) (works : List Work)
    (texts : List Bytes) (stretch : Stretch) : Prop where
  orderly : stretch.node.Orderly keys (works ++ stretch.next.works)
  keeps : Keeps node.queue.slips stretch.node.queue.slips
  texts : stretch.node.queue.slips.map Slip.text =
    node.queue.slips.map Slip.text ++ texts

/-- The same of a whole step. -/
structure Progress (keys : SessionKeys) (node : Messaging)
    (texts : List Bytes) (after : Messaging) : Prop where
  orderly : after.Orderly keys after.works
  keeps : Keeps node.queue.slips after.queue.slips
  texts : after.queue.slips.map Slip.text =
    node.queue.slips.map Slip.text ++ texts

variable {keys : SessionKeys} {node : Messaging}
  {works : List Work} {stretch : Stretch} {messageId : MessageId} {ref : Nat}
  {entry : QueueEntry} {session : Session} {now : ℚ}

theorem Advances.settle {texts : List Bytes}
    (hadvances : Advances keys node works texts stretch)
    (hworks : stretch.node.works = works) :
    Progress keys node texts stretch.settle := by
  refine ⟨?_, ?_, ?_⟩
  · rw [Orderly, queue_settle, registry_settle, works_settle, hworks]
    exact hadvances.orderly
  · rw [queue_settle]
    exact hadvances.keeps
  · rw [queue_settle]
    exact hadvances.texts

section

variable (horderly : node.Orderly keys works)

include horderly

section

variable (hslips : stretch.node.queue.slips = node.queue.slips)
  (hobjects : stretch.node.registry.objects = node.registry.objects)

include hslips hobjects

/-- Queue and sessions are as before, up to what slips do not show. -/
theorem Orderly.same (hworks : ∀ work ∈ stretch.next.works,
      work.InTurn keys.remotePeerId node.queue.slips) :
    Advances keys node works [] stretch := by
  refine ⟨?_, by rw [hslips]; exact refl _, by rw [hslips, append_nil]⟩
  rw [Orderly, hslips, hobjects]
  exact horderly.withWorks (forall_mem_append.mpr ⟨horderly.coroutines, hworks⟩)

theorem Orderly.ends (hnone : stretch.next.works = []) :
    Advances keys node works [] stretch :=
  horderly.same hslips hobjects (by simp [hnone])

theorem Orderly.goesOn {work : Work} (hone : stretch.next.works = [work])
    (hwork : work.InTurn keys.remotePeerId node.queue.slips) :
    Advances keys node works [] stretch :=
  horderly.same hslips hobjects (by simpa [hone] using hwork)

end

theorem mem_waiting_of_ready (hready : node.Ready messageId ref entry session) :
    messageId ∈ waiting keys.remotePeerId node.queue.slips := by
  have hslip := mem_slips hready.entry_eq
  refine mem_waiting.mpr ⟨_, hslip, rfl, horderly.sequence.receiver _ hslip, ?_⟩
  simp [Slip.ofBinding, hready.status_eq]

end

theorem exists_ready_of_mem_waiting
    (hwaits : messageId ∈ waiting keys.remotePeerId node.queue.slips)
    (hobject : node.registry.objects[ref]? = some session) :
    ∃ entry, node.Ready messageId ref entry session := by
  obtain ⟨_, hslip, hid, -, hqueued⟩ := mem_waiting.mp hwaits
  obtain ⟨⟨_, entry⟩, hmem, rfl⟩ := mem_map.mp hslip
  cases hid
  exact ⟨entry, OrderedDict.get?_eq_of_mem_entries _ hmem,
    eq_of_beq hqueued, hobject⟩

section

variable (horderly : node.Orderly keys works)

include horderly

/-- A build that raises has used up a number. -/
theorem Orderly.advance
    (hready : node.Ready messageId ref entry session) {peerId : PeerId} :
    Advances keys node works [] ⟨node.advance ref session, .raised peerId⟩ := by
  refine ⟨?_, refl _, (append_nil _).symm⟩
  simp only [Orderly, Next.works, append_nil]
  exact horderly.update hready.object_eq rfl rfl (Nat.le_succ _)

/-- The oldest message is built. -/
theorem Orderly.dispatched (hready : node.Ready messageId ref entry session)
    (hhead : (waiting keys.remotePeerId node.queue.slips).head? =
      some messageId)
    (packet : Packet) {caller : DispatchCaller}
    (hcaller : caller.InTurn keys.remotePeerId
      (assignNumber messageId session.sendSequence node.queue.slips)) :
    Advances keys node works [] ⟨node.dispatched messageId ref session now,
      firstWrite messageId session packet caller⟩ := by
  obtain ⟨hassigned, hkeeps⟩ := horderly.assign hready.object_eq hhead
  have hslips : (node.dispatched messageId ref session now).queue.slips =
      assignNumber messageId session.sendSequence node.queue.slips :=
    slips_dispatched ..
  refine ⟨?_, hslips ▸ hkeeps, ?_⟩
  · rw [Orderly, hslips]
    have hnumbered := mem_assignNumber session.sendSequence
      (mem_slips hready.entry_eq)
    exact hassigned.withWork ⟨⟨_, hnumbered, rfl, rfl⟩, hcaller⟩
  · rw [hslips, map_text_assignNumber, append_nil]

variable (P : Primitives)

/-- A flush whose list leads the line builds the oldest message. -/
theorem Orderly.flushWalk (peerId : PeerId) (ref : Nat) (endpoint : Address)
    (now : ℚ) {ids : List MessageId}
    (hids : ids ⊆ node.queue.slips.map Slip.messageId)
    (hleads : Leads ids (waiting keys.remotePeerId node.queue.slips)) :
    Advances keys node works []
      (Messaging.flushWalk P peerId ref endpoint now node ids) := by
  have hend := flushEnd P peerId ref endpoint now node ids
  generalize Messaging.flushWalk P peerId ref endpoint now node ids = stretch
    at hend ⊢
  cases hend with
  | finished => exact horderly.ends rfl rfl rfl
  | stopped _ hready => exact horderly.advance hready
  | @started skipped rest messageId entry session packet hsplit hnot hready =>
    subst hsplit
    -- What the walk skips no longer waits, so it builds the oldest message.
    have hskipped : ∀ other ∈ skipped,
        other ∉ waiting keys.remotePeerId node.queue.slips := by
      intro other hother hwaits
      obtain ⟨found, hfound⟩ :=
        exists_ready_of_mem_waiting hwaits hready.object_eq
      exact hnot other hother found session hfound
    have hwaits := mem_waiting_of_ready horderly hready
    refine horderly.dispatched hready (hleads.head? hskipped hwaits) packet ?_
    refine ⟨?_, ?_⟩
    · rw [map_messageId_assignNumber]
      exact fun other hother => hids (mem_append_right _
        (mem_cons_of_mem _ hother))
    · rw [waiting_assignNumber]
      exact hleads.tail hskipped

/-- A flush begins with all that is queued. -/
theorem Orderly.flushQueued (peerId : PeerId) (now : ℚ) :
    Advances keys node works [] (node.flushQueued P peerId now) := by
  have hline : Leads (node.queue.getQueuedForPeer peerId)
      (waiting keys.remotePeerId node.queue.slips) := by
    rw [getQueuedForPeer_eq]
    by_cases hpeer : peerId = keys.remotePeerId
    · rw [hpeer]
      exact leads_self _
    · have hnone : waiting peerId node.queue.slips = [] := by
        refine eq_nil_iff_forall_not_mem.mpr fun other hother => hpeer ?_
        obtain ⟨slip, hslip, -, hreceiver, -⟩ := mem_waiting.mp hother
        exact hreceiver.symm.trans (horderly.sequence.receiver slip hslip)
      rw [hnone]
      exact leads_nil _
  unfold Messaging.flushQueued
  split
  · refine horderly.flushWalk P _ _ _ now ?_ hline
    intro other hother
    rw [getQueuedForPeer_eq] at hother
    obtain ⟨slip, hslip, hid, -⟩ := mem_waiting.mp hother
    exact hid ▸ mem_map_of_mem hslip
  · exact horderly.ends rfl rfl rfl

/-- A coroutine goes on; `send_message` builds only the oldest message. -/
theorem Orderly.resumeWork (now : ℚ) {work : Work}
    (hwork : work.InTurn keys.remotePeerId node.queue.slips)
    (hturn : ∀ peerId messageId ref,
      work = .enqueued peerId messageId (some ref) →
      messageId ∈ waiting keys.remotePeerId node.queue.slips →
      (waiting keys.remotePeerId node.queue.slips).head? = some messageId) :
    Advances keys node works [] (node.resumeWork P now work) := by
  cases work with
  | enqueued peerId messageId found =>
    cases found with
    | none => exact horderly.ends rfl rfl rfl
    | some ref =>
      have hbuild := buildStep P node messageId ref now (.send peerId)
      simp only [Messaging.resumeWork]
      generalize node.build P messageId ref now (.send peerId) = result
        at hbuild ⊢
      cases hbuild with
      | nothing => exact horderly.ends rfl rfl rfl
      | error hready => exact horderly.advance hready
      | started hready =>
        have hwaits := mem_waiting_of_ready horderly hready
        exact horderly.dispatched hready
          (hturn peerId messageId ref rfl hwaits) _ trivial
  | sequenceStored | numberStored => exact horderly.goesOn rfl rfl rfl hwork
  | statusStored dispatch =>
    have hcaller := hwork.caller
    simp only [Messaging.resumeWork, afterDispatch]
    split
    · split <;> exact horderly.ends rfl rfl rfl
    · split <;> exact horderly.ends rfl rfl rfl
    · next peerId ref endpoint _ _ hwho _ =>
      rw [hwho] at hcaller
      have hhanded : (node.handOver dispatch).Orderly keys works := horderly
      have hwalk := hhanded.flushWalk P peerId ref endpoint now hcaller.1
        hcaller.2
      exact ⟨hwalk.orderly, hwalk.keeps, hwalk.texts⟩
    · exact horderly.ends rfl rfl rfl
    · next hwho _ =>
      rw [hwho] at hcaller
      exact hcaller.elim
    · next hwho _ =>
      rw [hwho] at hcaller
      exact hcaller.elim
  | failureStored => exact hwork.elim
  | heartbeat peerId => exact horderly.flushQueued P peerId now
  | receiptStored | received => exact horderly.ends rfl rfl rfl
  | helloSaved | ackSaved | ackRemembered =>
    exact horderly.goesOn rfl rfl rfl trivial

end

end Messaging

end AshiChat
