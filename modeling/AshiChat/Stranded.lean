/-
No message is stranded.  While a peer has a session, some coroutine still
answers for each message queued for it: the `send_message` that found the
session, a flush with the message on its list, or a handshake that has not
flushed yet.  Once they have all finished, nothing is left queued.
-/
import AshiChat.MessagingMoves

namespace AshiChat

open QueueManager EventRun OrderedDict SessionRegistry Option

/-- The coroutine will still try to send the message. -/
def Work.Attends (peerId : PeerId) (messageId : MessageId) : Work → Prop
  | .enqueued peer sent (some _) => peer = peerId ∧ sent = messageId
  | .sequenceStored dispatch | .numberStored dispatch
  | .statusStored dispatch =>
    match dispatch.caller with
    | .flush peer _ _ rest => peer = peerId ∧ messageId ∈ rest
    | _ => False
  | .helloSaved peer | .ackSaved peer _ | .ackRemembered peer _
  | .heartbeat peer => peer = peerId
  | _ => False

/-- The coroutine will still set the peer's endpoint, and flush after that. -/
def Work.Locates (peerId : PeerId) : Work → Prop
  | .ackSaved peer _ | .ackRemembered peer _ => peer = peerId
  | _ => False

/-- The session object the coroutine holds on to. -/
def Work.ref? : Work → Option Nat
  | .enqueued _ _ session => session
  | .sequenceStored dispatch | .numberStored dispatch
  | .statusStored dispatch =>
    match dispatch.caller with
    | .flush _ ref _ _ => some ref
    | _ => none
  | _ => none

variable {work : Work} {peerId : PeerId}

theorem Work.Locates.attends (hlocates : work.Locates peerId)
    (messageId : MessageId) :
    work.Attends peerId messageId := by
  cases work <;> first | exact hlocates | exact hlocates.elim

namespace Messaging

/-- A session is registered for the peer. -/
def Connected (node : Messaging) (peerId : PeerId) : Prop :=
  node.registry.byPeer.contains peerId = true

/-- The message is queued for the peer. -/
def Waits (node : Messaging) (peerId : PeerId) (messageId : MessageId) :
    Prop :=
  ∃ entry, node.queue.get? messageId = some entry ∧
    entry.receiver = peerId ∧ entry.status = .queued

/-- The invariant, for a node whose coroutines have `works` left to do. -/
structure Attended (node : Messaging) (works : List Work) : Prop where
  covered : ∀ peerId messageId, node.Waits peerId messageId →
    node.Connected peerId →
    peerId ∈ node.raised ∨ ∃ work ∈ works, work.Attends peerId messageId
  located : ∀ peerId, node.Connected peerId →
    node.endpoints.contains peerId = true ∨ ∃ work ∈ works, work.Locates peerId
  held : ∀ work ∈ works, ∀ ref, work.ref? = some ref →
    ref < node.registry.objects.length

variable {P : Primitives} {node node' : Messaging} {works works' : List Work}

theorem connected_iff (node : Messaging) (peerId : PeerId) :
    node.Connected peerId ↔
      ∃ session, node.registry.sessionFor peerId = some session := by
  rw [Connected, contains_iff]
  constructor
  · rintro ⟨ref, href⟩
    have hlt := node.registry.byPeer_lt (peerId, ref)
      (node.registry.byPeer.mem_entries_iff.mpr href)
    exact ⟨node.registry.objects[ref], by
      rw [sessionFor_eq, href]
      exact List.getElem?_eq_getElem hlt⟩
  · rintro ⟨session, hsession⟩
    rw [sessionFor_eq] at hsession
    obtain ⟨ref, href, _⟩ := bind_eq_some_iff.mp hsession
    exact ⟨ref, href⟩

variable {work : Work} {peerId : PeerId}

theorem Connected.of_getByPeerId {found : Nat × Session}
    (hget : node.registry.getByPeerId peerId = some found) :
    node.Connected peerId := by
  rw [connected_iff]
  exact ⟨found.2, by rw [sessionFor, hget, map_some]⟩

theorem not_connected_of_getByPeerId
    (hget : node.registry.getByPeerId peerId = none) :
    ¬ node.Connected peerId := by
  rw [connected_iff]
  rintro ⟨session, hsession⟩
  rw [sessionFor, hget] at hsession
  cases hsession

/-- What a step may change: no message starts to wait unattended, no peer
becomes connected without an endpoint, and no session object goes. -/
theorem Attended.move (hattended : node.Attended works)
    (hwaits : ∀ peerId messageId, node'.Waits peerId messageId →
      node'.Connected peerId →
      (node.Waits peerId messageId ∧ node.Connected peerId) ∨
        ∃ work ∈ works', work.Attends peerId messageId)
    (hconnected : ∀ peerId, node'.Connected peerId →
      node.Connected peerId ∨ node'.endpoints.contains peerId = true ∨
        ∃ work ∈ works', work.Locates peerId)
    (hendpoints : ∀ peerId, node.endpoints.contains peerId = true →
      node'.endpoints.contains peerId = true)
    (hobjects : node.registry.objects.length ≤ node'.registry.objects.length)
    (hraised : ∀ peerId ∈ node.raised, peerId ∈ node'.raised)
    (hworks : ∀ work ∈ works, work ∈ works')
    (hheld : ∀ work ∈ works', work ∈ works ∨ ∀ ref, work.ref? = some ref →
      ref < node'.registry.objects.length) :
    node'.Attended works' where
  covered := by
    intro peerId messageId hwait hconn
    rcases hwaits peerId messageId hwait hconn with ⟨hold, hconn⟩ | hnew
    · rcases hattended.covered peerId messageId hold hconn with
        hraise | ⟨work, hmem, hattends⟩
      · exact .inl (hraised peerId hraise)
      · exact .inr ⟨work, hworks work hmem, hattends⟩
    · exact .inr hnew
  located := by
    intro peerId hconn
    rcases hconnected peerId hconn with hold | hnew
    · rcases hattended.located peerId hold with hend | ⟨work, hmem, hloc⟩
      · exact .inl (hendpoints peerId hend)
      · exact .inr ⟨work, hworks work hmem, hloc⟩
    · exact hnew
  held := by
    intro work hmem ref href
    rcases hheld work hmem with hold | hnew
    · exact (hattended.held work hold ref href).trans_le hobjects
    · exact hnew ref href

/-- Only the messages that wait change, and fewer of them do. -/
theorem Attended.of_waits (hattended : node.Attended works)
    (hwaits : ∀ peerId messageId, node'.Waits peerId messageId →
      node.Waits peerId messageId)
    (hregistry : node'.registry = node.registry)
    (hendpoints : node'.endpoints = node.endpoints)
    (hraised : node'.raised = node.raised) : node'.Attended works := by
  have hconnected : ∀ peerId, node'.Connected peerId →
      node.Connected peerId := by
    unfold Connected
    rw [hregistry]
    exact fun _ hconn => hconn
  apply hattended.move
  · exact fun peerId messageId hwait hconn =>
      .inl ⟨hwaits peerId messageId hwait, hconnected peerId hconn⟩
  · exact fun peerId hconn => .inl (hconnected peerId hconn)
  · exact hendpoints ▸ fun _ h => h
  · rw [hregistry]
  · exact hraised ▸ fun _ h => h
  · exact fun _ h => h
  · exact fun _ h => .inl h

/-- A coroutine that answers for nothing any more may end. -/
theorem Attended.drop (hattended : node.Attended (work :: works))
    (hnothing : ∀ peerId messageId, node.Waits peerId messageId →
      node.Connected peerId → work.Attends peerId messageId →
      peerId ∈ node.raised ∨ ∃ other ∈ works, other.Attends peerId messageId)
    (hnowhere : ∀ peerId, work.Locates peerId →
      node.endpoints.contains peerId = true) : node.Attended works where
  covered := by
    intro peerId messageId hwait hconn
    rcases hattended.covered peerId messageId hwait hconn with
      hraise | ⟨other, hmem, hattends⟩
    · exact .inl hraise
    · rcases List.mem_cons.mp hmem with rfl | hmem
      · exact hnothing peerId messageId hwait hconn hattends
      · exact .inr ⟨other, hmem, hattends⟩
  located := by
    intro peerId hconn
    rcases hattended.located peerId hconn with hend | ⟨other, hmem, hloc⟩
    · exact .inl hend
    · rcases List.mem_cons.mp hmem with rfl | hmem
      · exact .inl (hnowhere peerId hloc)
      · exact .inr ⟨other, hmem, hloc⟩
  held := fun other hmem => hattended.held other (List.mem_cons_of_mem _ hmem)

/-- The coroutine goes on with other work that answers for the same. -/
theorem Attended.swap {work' : Work} (hattended : node.Attended (work :: works))
    (hattends : ∀ peerId messageId, node.Waits peerId messageId →
      work.Attends peerId messageId → work'.Attends peerId messageId)
    (hlocates : ∀ peerId, work.Locates peerId →
      node.endpoints.contains peerId = true ∨ work'.Locates peerId)
    (hheld : ∀ ref, work'.ref? = some ref →
      ref < node.registry.objects.length) :
    node.Attended (work' :: works) where
  covered := by
    intro peerId messageId hwait hconn
    rcases hattended.covered peerId messageId hwait hconn with
      hraise | ⟨other, hmem, hother⟩
    · exact .inl hraise
    · rcases List.mem_cons.mp hmem with rfl | hmem
      · exact .inr ⟨work', List.mem_cons_self,
          hattends peerId messageId hwait hother⟩
      · exact .inr ⟨other, List.mem_cons_of_mem _ hmem, hother⟩
  located := by
    intro peerId hconn
    rcases hattended.located peerId hconn with hend | ⟨other, hmem, hloc⟩
    · exact .inl hend
    · rcases List.mem_cons.mp hmem with rfl | hmem
      · exact (hlocates peerId hloc).imp id
          (fun hnew => ⟨work', List.mem_cons_self, hnew⟩)
      · exact .inr ⟨other, List.mem_cons_of_mem _ hmem, hloc⟩
  held := by
    intro other hmem
    rcases List.mem_cons.mp hmem with rfl | hmem
    · exact hheld
    · exact hattended.held other (List.mem_cons_of_mem _ hmem)

theorem Attended.add (hattended : node.Attended works)
    (hheld : ∀ ref, work.ref? = some ref → ref < node.registry.objects.length) :
    node.Attended (work :: works) where
  covered := fun peerId messageId hwait hconn =>
    (hattended.covered peerId messageId hwait hconn).imp id
      (fun ⟨other, hmem, hattends⟩ =>
        ⟨other, List.mem_cons_of_mem _ hmem, hattends⟩)
  located := fun peerId hconn =>
    (hattended.located peerId hconn).imp id
      (fun ⟨other, hmem, hloc⟩ => ⟨other, List.mem_cons_of_mem _ hmem, hloc⟩)
  held := List.forall_mem_cons.mpr ⟨hheld, hattended.held⟩

theorem Attended.congr (hattended : node.Attended works)
    (hworks : ∀ work, work ∈ works ↔ work ∈ works') :
    node.Attended works' where
  covered := fun peerId messageId hwait hconn =>
    (hattended.covered peerId messageId hwait hconn).imp id
      (fun ⟨work, hmem, hattends⟩ => ⟨work, (hworks work).mp hmem, hattends⟩)
  located := fun peerId hconn =>
    (hattended.located peerId hconn).imp id
      (fun ⟨work, hmem, hloc⟩ => ⟨work, (hworks work).mp hmem, hloc⟩)
  held := fun work hmem => hattended.held work ((hworks work).mpr hmem)

end Messaging

/-- The stretch ends with every message attended to. -/
def Stretch.Attended (stretch : Stretch) : Prop :=
  stretch.settle.Attended stretch.settle.works

namespace Messaging

variable {P : Primitives} {node : Messaging} {works : List Work}

theorem attended_settle {stretch : Stretch} (hattended : stretch.node.Attended
      (stretch.next.works ++ stretch.node.works)) : stretch.Attended := by
  obtain ⟨node, next⟩ := stretch
  unfold Stretch.Attended
  cases next with
  | done => exact hattended
  | write _ work | pause work =>
    have hsame : node.Attended (node.works ++ [work]) :=
      hattended.congr (by simp [Next.works, or_comm])
    simp only [Stretch.settle, Messaging.works, List.map_append,
      List.map_cons, List.map_nil]
    exact ⟨hsame.covered, hsame.located, hsame.held⟩
  | raised =>
    exact ⟨fun peer messageId hwait hconn =>
        (hattended.covered peer messageId hwait hconn).imp
          (List.mem_append_left _) id,
      hattended.located, hattended.held⟩

theorem Attended.raise (hattended : node.Attended works) (peerId : PeerId) :
    (node.raise peerId).Attended works :=
  hattended.move (fun _ _ hwait hconn => .inl ⟨hwait, hconn⟩)
    (fun _ hconn => .inl hconn) (fun _ hend => hend) le_rfl
    (fun _ hmem => List.mem_append_left _ hmem) (fun _ hmem => hmem)
    (fun _ hmem => .inl hmem)

variable {peerId : PeerId} {messageId other : MessageId} {work : Work}
  {ref : Nat}

/-- A coroutine that raises drops the messages of its peer. -/
theorem attended_raise (hattended : node.Attended (work :: node.works))
    (hown : ∀ peer messageId, work.Attends peer messageId → peer = peerId)
    (hnowhere : ∀ peer, ¬ work.Locates peer) :
    Stretch.Attended ⟨node, .raised peerId⟩ := by
  refine (hattended.raise peerId).drop ?_ fun peer hloc =>
    absurd hloc (hnowhere peer)
  intro peer messageId _ _ hattends
  rw [hown peer messageId hattends]
  exact .inl (List.mem_append_right _ List.mem_cons_self)

section

variable (hattended : node.Attended works)

include hattended

theorem Attended.advance (ref : Nat)
    (session : Session) : (node.advance ref session).Attended works :=
  hattended.move (fun _ _ hwait hconn => .inl ⟨hwait, hconn⟩)
    (fun _ hconn => .inl hconn) (fun _ hend => hend)
    (by simp [Messaging.advance, update])
    (fun _ hmem => hmem) (fun _ hmem => hmem) (fun _ hmem => .inl hmem)

theorem Attended.setEndpoint (peerId : PeerId) (addr : Address) :
    Attended { node with endpoints := node.endpoints.set peerId addr }
      works := by
  refine hattended.move (fun _ _ hwait hconn => .inl ⟨hwait, hconn⟩)
    (fun _ hconn => .inl hconn) ?_ le_rfl (fun _ hmem => hmem)
    (fun _ hmem => hmem) (fun _ hmem => .inl hmem)
  intro peer hend
  rw [contains_iff] at hend ⊢
  rw [get?_set]
  split
  · exact ⟨_, rfl⟩
  · exact hend

theorem Attended.remove (sessionId : Bytes) :
    Attended { node with registry := node.registry.remove sessionId }
      works := by
  have hconnected : ∀ peerId,
      (node.registry.remove sessionId).byPeer.contains peerId = true →
      node.Connected peerId := by
    intro peerId hconn
    unfold SessionRegistry.remove at hconn
    split at hconn
    · exact hconn
    · rw [contains_iff, get?_erase] at hconn
      split at hconn
      · obtain ⟨_, hnone⟩ := hconn
        cases hnone
      · exact (contains_iff _ _).mpr hconn
  exact hattended.move (fun peerId _ hwait hconn => .inl ⟨hwait, hconnected
    peerId hconn⟩) (fun peerId hconn => .inl (hconnected peerId hconn)) (fun _
    hend => hend) (by simp) (fun _ hmem => hmem) (fun _ hmem => hmem) (fun _
    hmem => .inl hmem)

end

/-- A message that has been built no longer waits. -/
theorem waits_dispatched {session : Session} {now : ℚ}
    (hwait : (node.dispatched messageId ref session now).Waits peerId other) :
    other ≠ messageId ∧ node.Waits peerId other := by
  obtain ⟨entry, hget, hreceiver, hstatus⟩ := hwait
  rcases get?_modify_cases hget with
    ⟨-, _, -, rfl⟩ | ⟨hne, hget⟩
  · cases hstatus
  · exact ⟨hne, entry, hget, hreceiver, hstatus⟩

theorem Attended.dispatched (hattended : node.Attended works)
    (messageId : MessageId) (ref : Nat) (session : Session) (now : ℚ) :
    (node.dispatched messageId ref session now).Attended works :=
  (hattended.advance ref session).of_waits
    (fun _ _ hwait => (waits_dispatched hwait).2) rfl rfl rfl

/-- A waiting message is ready under any session object there is. -/
theorem Waits.ready (hwait : node.Waits peerId messageId)
    (hlt : ref < node.registry.objects.length) :
    ∃ entry session, node.Ready messageId ref entry session := by
  obtain ⟨entry, hget, _, hstatus⟩ := hwait
  exact ⟨entry, _, hget, hstatus, List.getElem?_eq_getElem hlt⟩

theorem Attended.flushWalk {dispatch : Dispatch} {endpoint : Address}
    {ids : List MessageId}
    (hcaller : dispatch.caller = .flush peerId ref endpoint ids)
    (hattended : node.Attended (.statusStored dispatch :: node.works))
    (now : ℚ) : (flushWalk P peerId ref endpoint now node ids).Attended := by
  have hlt : ref < node.registry.objects.length :=
    hattended.held _ List.mem_cons_self ref (by simp [Work.ref?, hcaller])
  have hown : ∀ peer messageId,
      (Work.statusStored dispatch).Attends peer messageId →
      peerId = peer ∧ messageId ∈ ids := by
    intro peer messageId hattends
    simpa only [Work.Attends, hcaller] using hattends
  have hend := flushEnd P peerId ref endpoint now node ids
  generalize Messaging.flushWalk P peerId ref endpoint now node ids = stretch
    at hend ⊢
  cases hend with
  | finished hnot =>
    refine attended_settle (hattended.drop ?_ (fun _ hloc => hloc.elim))
    intro peer messageId hwait _ hattends
    obtain ⟨entry, session, hready⟩ := hwait.ready hlt
    exact absurd hready (hnot messageId (hown _ _ hattends).2 entry session)
  | stopped =>
    exact attended_raise (hattended.advance ref _) (fun peer messageId hattends
      => (hown peer messageId hattends).1.symm) (fun _ hloc => hloc)
  | @started skipped rest messageId _ session _ hids hnot _ _ =>
    refine attended_settle
      ((hattended.dispatched messageId ref session now).swap ?_
        (fun _ hloc => hloc.elim) ?_)
    · intro peer other hwait hattends
      obtain ⟨hne, hwait⟩ := waits_dispatched hwait
      obtain ⟨rfl, hmem⟩ := hown peer other hattends
      rw [hids] at hmem
      rcases List.mem_append.mp hmem with hskip | hmem
      · obtain ⟨entry, found, hready⟩ := hwait.ready hlt
        exact absurd hready (hnot other hskip entry found)
      · exact ⟨rfl, (List.mem_cons.mp hmem).resolve_left hne⟩
    · rintro _ ⟨⟩
      simpa [Messaging.dispatched, Messaging.advance, update] using hlt

/-- A timeout touches its own message only. -/
theorem waits_timeout (hwait : (node.timeout messageId).Waits peerId other) :
    node.Waits peerId other ∨
      (other = messageId ∧ ∃ entry, node.queue.get? messageId = some entry ∧
        entry.receiver = peerId ∧ entry.timedOut.status = .queued) := by
  obtain ⟨entry, hget, hreceiver, hstatus⟩ := hwait
  rw [get?_timeout] at hget
  split at hget
  · next heq =>
    subst heq
    obtain ⟨old, hold, rfl⟩ := map_eq_some_iff.mp hget
    exact .inr ⟨rfl, old, hold, by simpa using hreceiver, hstatus⟩
  · exact .inl ⟨entry, hget, hreceiver, hstatus⟩

/-- The retry loop leaves a message queued only where the peer cannot be sent
to; then there is no session, or a handshake is about to set the endpoint. -/
theorem Attended.retryWalk (hattended : node.Attended node.works) (now : ℚ)
    (ids : List MessageId) : (retryWalk P now node ids).Attended := by
  refine retryWalk_rule (fun node _ => node.Attended node.works)
    Stretch.Attended ?_ ?_ ?_ ?_ ?_ ?_ hattended
  · exact fun node hattended => attended_settle hattended
  · intro node messageId rest hattended hgone
    refine hattended.of_waits ?_ rfl rfl rfl
    intro peerId other hwait
    rcases waits_timeout hwait with hold | ⟨_, entry, hget, _⟩
    · exact hold
    · cases hgone.symm.trans hget
  · intro node messageId rest entry hattended hget _ hunreachable
    refine hattended.move ?_ (fun _ hconn => .inl hconn) (fun _ hend => hend)
      le_rfl (fun _ hmem => hmem) (fun _ hmem => hmem) (fun _ hmem => .inl hmem)
    intro peerId other hwait hconn
    rcases waits_timeout hwait with hold | ⟨rfl, found, hfound, rfl, _⟩
    · exact .inl ⟨hold, hconn⟩
    · cases hget.symm.trans hfound
      rcases hunreachable with hnone | hnone
      · exact absurd hconn (not_connected_of_getByPeerId hnone)
      · rcases hattended.located _ hconn with hend | ⟨work, hmem, hloc⟩
        · simp [contains, hnone] at hend
        · exact .inr ⟨work, hmem, hloc.attends other⟩
  · intro node messageId rest entry hattended hget hfailed
    have htimeout : (node.timeout messageId).Attended node.works := by
      refine hattended.of_waits ?_ rfl rfl rfl
      intro peerId other hwait
      rcases waits_timeout hwait with hold | ⟨_, found, hfound, _, hqueued⟩
      · exact hold
      · cases hget.symm.trans hfound
        cases hfailed.symm.trans hqueued
    exact attended_settle (htimeout.add (by rintro _ ⟨⟩))
  · intro node messageId rest entry ref session hattended _ hready
    constructor
    · intro peerId other hwait hconn
      rcases waits_timeout hwait with hold | ⟨rfl, found, hfound, rfl, _⟩
      · exact (hattended.covered peerId other hold hconn).imp
          (List.mem_append_left _) id
      · have hentry := hready.entry_eq
        rw [get?_timeout, if_pos rfl, hfound, map_some, some.injEq] at hentry
        rw [← hentry, QueueEntry.timedOut_receiver]
        exact .inl (List.mem_append_right _ List.mem_cons_self)
    · exact hattended.located
    · simp only [Messaging.raise, Messaging.advance, update, List.length_set]
      exact hattended.held
  · intro node messageId rest entry ref session endpoint packet hattended _ _
    have hadvance := hattended.advance ref session
    refine attended_settle (Attended.add (hadvance.of_waits ?_ rfl rfl rfl)
      (by rintro _ ⟨⟩))
    intro peerId other hwait
    obtain ⟨hne, hwait⟩ := waits_dispatched hwait
    rcases waits_timeout hwait with hold | ⟨heq, _⟩
    · exact hold
    · exact absurd heq hne

/-- The snapshot of a flush holds every message that waits for its peer. -/
theorem Waits.mem_getQueuedForPeer (hwait : node.Waits peerId messageId) :
    messageId ∈ node.queue.getQueuedForPeer peerId := by
  obtain ⟨entry, hget, hreceiver, hstatus⟩ := hwait
  refine List.mem_map.mpr ⟨(messageId, entry), List.mem_filter.mpr
    ⟨(mem_entries_iff _).mpr hget, ?_⟩, rfl⟩
  simp [hreceiver, hstatus]

theorem Attended.flushQueued
    (hattended : node.Attended (.heartbeat peerId :: node.works)) (now : ℚ) :
    (node.flushQueued P peerId now).Attended := by
  unfold Messaging.flushQueued
  split
  · next ref _ endpoint hsession _ =>
    -- The snapshot stands for all the peer's messages from here on.
    have hflush : node.Attended (.statusStored ⟨0, [], 0,
        makePacket .data [], .flush peerId ref endpoint
          (node.queue.getQueuedForPeer peerId)⟩ :: node.works) := by
      refine hattended.swap ?_ (fun _ hloc => hloc.elim) ?_
      · rintro peer messageId hwait ⟨⟩
        exact ⟨rfl, hwait.mem_getQueuedForPeer⟩
      · rintro _ ⟨⟩
        exact (List.getElem?_eq_some_iff.mp (getByPeerId_eq_some hsession).2).1
    exact hflush.flushWalk rfl now
  · next hnone =>
    refine attended_settle (hattended.drop ?_ (fun _ hloc => hloc.elim))
    rintro peer messageId hwait hconn ⟨⟩
    -- There is a session, so the endpoint is missing and will be set.
    rcases hattended.located peerId hconn with hend | ⟨work, hmem, hloc⟩
    · obtain ⟨endpoint, hend⟩ := (contains_iff _ _).mp hend
      cases hget : node.registry.getByPeerId peerId with
      | none => exact absurd hconn (not_connected_of_getByPeerId hget)
      | some => exact absurd hend (hnone _ _ _ hget)
    · rcases List.mem_cons.mp hmem with rfl | hmem
      · exact hloc.elim
      · exact .inr ⟨work, hmem, hloc.attends messageId⟩

/-- A coroutine that answers for no message. -/
theorem Attended.drop_other (hattended : node.Attended (work :: works))
    (hnothing : ∀ peerId messageId, ¬ work.Attends peerId messageId) :
    node.Attended works :=
  hattended.drop (fun peerId messageId _ _ hattends =>
      absurd hattends (hnothing peerId messageId))
    (fun peerId hloc => absurd (hloc.attends 0) (hnothing peerId 0))

/-- A coroutine goes on. -/
theorem Attended.resumeWork (hattended : node.Attended (work :: node.works))
    (now : ℚ) :
    (node.resumeWork P now work).Attended := by
  cases work with
  | enqueued peerId messageId session =>
    cases session with
    | none => exact attended_settle (hattended.drop_other fun _ _ hno => hno)
    | some ref =>
      have hlt : ref < node.registry.objects.length :=
        hattended.held _ List.mem_cons_self ref rfl
      have hbuild := buildStep P node messageId ref now (.send peerId)
      simp only [Messaging.resumeWork]
      generalize node.build P messageId ref now (.send peerId) = result
        at hbuild ⊢
      cases hbuild with
      | nothing hnot =>
        refine attended_settle (hattended.drop ?_ (fun _ hloc => hloc.elim))
        rintro peer other hwait _ ⟨rfl, rfl⟩
        obtain ⟨entry, session, hready⟩ := hwait.ready hlt
        exact absurd hready (hnot entry session)
      | error =>
        exact attended_raise (hattended.advance ref _)
          (fun _ _ hattends => hattends.1.symm) (fun _ hloc => hloc)
      | started =>
        refine attended_settle
          ((hattended.dispatched messageId ref _ now).swap ?_
            (fun _ hloc => hloc.elim) (by simp [Work.ref?]))
        rintro peer other hwait ⟨rfl, rfl⟩
        exact absurd rfl (waits_dispatched hwait).1
  | sequenceStored dispatch | numberStored dispatch =>
    have hheld := hattended.held _ List.mem_cons_self
    exact attended_settle (hattended.swap (fun _ _ _ hattends => hattends)
      (fun _ hloc => hloc.elim) hheld)
  | statusStored dispatch =>
    have hhand : (node.handOver dispatch).Attended
        (.statusStored dispatch :: node.works) :=
      ⟨hattended.covered, hattended.located, hattended.held⟩
    simp only [Messaging.resumeWork, afterDispatch]
    split
    · next peerId _ hcaller _ =>
      have hnot : ∀ peer messageId,
          ¬ (Work.statusStored dispatch).Attends peer messageId := by
        simp [Work.Attends, hcaller]
      split
      · exact attended_settle (hhand.drop_other hnot)
      · exact attended_settle (hattended.drop_other hnot)
    · next peerId _ hcaller _ =>
      have hnot : ∀ peer messageId,
          ¬ (Work.statusStored dispatch).Attends peer messageId := by
        simp [Work.Attends, hcaller]
      split
      · exact attended_raise hattended (fun peer messageId hattends =>
            absurd hattends (hnot peer messageId)) (fun _ hloc => hloc)
      · exact attended_settle (hattended.drop_other hnot)
    · next hcaller _ => exact hhand.flushWalk hcaller now
    · next peerId ref _ rest _ hcaller _ =>
      -- The rest of the list is lost with the flush, which has raised.
      refine attended_raise hattended ?_ (fun _ hloc => hloc)
      intro peer messageId hattends
      simp only [Work.Attends, hcaller] at hattends
      exact hattends.1.symm
    · next hcaller _ =>
      refine (hhand.drop_other ?_ :
        (node.handOver dispatch).Attended node.works).retryWalk now _
      simp [Work.Attends, hcaller]
    · next peerId _ rest _ hcaller _ =>
      have hnot : ∀ peer messageId,
          ¬ (Work.statusStored dispatch).Attends peer messageId := by
        simp [Work.Attends, hcaller]
      exact ((hattended.drop_other hnot).raise peerId).retryWalk now rest
  | failureStored rest =>
    exact (hattended.drop_other fun _ _ hno => hno).retryWalk now rest
  | receiptStored =>
    exact attended_settle (hattended.drop_other fun _ _ hno => hno)
  | received =>
    have hrest := hattended.drop_other fun _ _ hno => hno
    exact attended_settle ⟨hrest.covered, hrest.located, hrest.held⟩
  | helloSaved =>
    exact attended_settle (hattended.swap (fun _ _ _ hattends => hattends)
      (fun _ hloc => hloc.elim) (by simp [Work.ref?]))
  | ackSaved =>
    exact attended_settle (hattended.swap (fun _ _ _ hattends => hattends)
      (fun _ hloc => .inr hloc) (by simp [Work.ref?]))
  | ackRemembered peerId addr =>
    have hset : Attended { node with
        endpoints := node.endpoints.set peerId addr }
        (.ackRemembered peerId addr :: node.works) :=
      hattended.setEndpoint peerId addr
    refine attended_settle (hset.swap (fun _ _ _ hattends => hattends) ?_
      (by simp [Work.ref?]))
    rintro peer ⟨⟩
    exact .inl (by simp [contains])
  | heartbeat => exact hattended.flushQueued now

/-- Calls that touch the queue only, and let no message start to wait. -/
theorem Attended.setQueue (hattended : node.Attended works)
    {queue : QueueManager}
    (hqueue : ∀ messageId entry, queue.get? messageId = some entry →
      entry.status = .queued → ∃ old, node.queue.get? messageId = some old ∧
          old.receiver = entry.receiver ∧ old.status = .queued) :
    Attended { node with queue := queue } works := by
  refine hattended.of_waits ?_ rfl rfl rfl
  rintro peerId messageId ⟨entry, hget, hreceiver, hstatus⟩
  obtain ⟨old, hold, hpeer, hqueued⟩ := hqueue messageId entry hget hstatus
  exact ⟨old, hold, hpeer.trans hreceiver, hqueued⟩

/-- A message gets a status other than queued. -/
theorem Attended.mark (hattended : node.Attended works)
    (messageId : MessageId) {status : MessageStatus} (hne : status ≠ .queued) :
    Attended { node with
        queue := node.queue.modify messageId
          (fun entry => { entry with status := status }) } works := by
  refine hattended.setQueue ?_
  intro other entry hget hstatus
  rcases get?_modify_cases hget with
    ⟨-, _, -, rfl⟩ | ⟨-, hget⟩
  · exact absurd hstatus hne
  · exact ⟨entry, hget, rfl, hstatus⟩

section

variable (hattended : node.Attended node.works)

include hattended

theorem Attended.registerSession {keys : SessionKeys}
    (hattends : ∀ messageId, work.Attends keys.remotePeerId messageId)
    (hlocates : node.endpoints.contains keys.remotePeerId = true ∨
      work.Locates keys.remotePeerId) (hheld : work.ref? = none) :
    (node.registerSession keys work).Attended := by
  unfold Messaging.registerSession
  dsimp only
  split
  · exact attended_settle ⟨hattended.covered, hattended.located, hattended.held⟩
  · next registry hreg =>
    have hpeer := (applySequenceFloors_identity node.floors
      (Session.ofKeys keys)).2.2
    have hbyPeer := byPeer_register hreg
    rw [hpeer] at hbyPeer
    have hconnected : ∀ peerId, registry.byPeer.contains peerId = true →
        peerId = keys.remotePeerId ∨ node.Connected peerId := by
      intro peerId hconn
      rw [hbyPeer, contains_iff, get?_set] at hconn
      split at hconn
      · next heq => exact .inl heq.symm
      · exact .inr ((contains_iff _ _).mpr hconn)
    refine attended_settle (hattended.move ?_ ?_ (fun _ hend => hend) ?_
      (fun _ hmem => hmem) (fun _ hmem => List.mem_cons_of_mem _ hmem) ?_)
    · intro peerId messageId hwait hconn
      rcases hconnected peerId hconn with rfl | hold
      · exact .inr ⟨work, List.mem_cons_self, hattends messageId⟩
      · exact .inl ⟨hwait, hold⟩
    · intro peerId hconn
      rcases hconnected peerId hconn with rfl | hold
      · exact .inr (hlocates.imp id
          (fun hloc => ⟨work, List.mem_cons_self, hloc⟩))
      · exact .inl hold
    · simp [objects_register hreg]
    · intro other hmem
      rcases List.mem_cons.mp hmem with rfl | hmem
      · exact .inr (by simp [hheld])
      · exact .inl hmem

theorem Attended.sendMessage (hfresh : node.drawn messageId = false)
    (peerId : PeerId) (plaintext : Bytes) :
    (node.handle P (.sendMessage peerId messageId plaintext)).Attended := by
  simp only [Messaging.handle, hfresh, Bool.false_eq_true, ↓reduceIte]
  refine attended_settle (hattended.move ?_ (fun _ hconn => .inl hconn)
    (fun _ hend => hend) le_rfl (fun _ hmem => hmem)
    (fun _ hmem => List.mem_cons_of_mem _ hmem) ?_)
  · rintro peer other ⟨entry, hget, hreceiver, hstatus⟩ hconn
    rcases get?_set_cases hget with ⟨rfl, rfl⟩ | ⟨-, hget⟩
    · cases hreceiver
      -- The session that is there now is the one the coroutine found.
      cases hsession : node.registry.getByPeerId peerId with
      | none => exact absurd hconn (not_connected_of_getByPeerId hsession)
      | some => exact .inr ⟨_, List.mem_cons_self, rfl, rfl⟩
    · exact .inl ⟨⟨entry, hget, hreceiver, hstatus⟩, hconn⟩
  · intro work hmem
    rcases List.mem_cons.mp hmem with rfl | hmem
    · refine .inr fun ref href => ?_
      obtain ⟨_, hfound, rfl⟩ := map_eq_some_iff.mp href
      exact (List.getElem?_eq_some_iff.mp (getByPeerId_eq_some hfound).2).1
    · exact .inl hmem

/-- The first stretch of every call. -/
theorem Attended.handle
    (call : MessagingCall) : (node.handle P call).Attended := by
  cases call with
  | sendMessage peerId messageId plaintext =>
    cases hfresh : node.drawn messageId with
    | false => exact hattended.sendMessage hfresh peerId plaintext
    | true =>
      simp only [Messaging.handle, hfresh, ↓reduceIte]
      exact attended_settle hattended
  | handleHello =>
    simp only [Messaging.handle]
    split
    · exact attended_settle hattended
    · next hguard =>
      simp only [Bool.not_eq_true', Bool.not_eq_false] at hguard
      exact hattended.registerSession (fun _ => rfl) (.inl hguard) rfl
  | handleHelloAck =>
    exact hattended.registerSession (fun _ => rfl) (.inr rfl) rfl
  | handleData =>
    simp only [Messaging.handle]
    split
    · exact attended_settle hattended
    · next ref _ _ =>
      split
      · next session' _ =>
        have hnext : Attended
            { node with registry := node.registry.update ref session' }
            node.works :=
          hattended.move (fun _ _ hwait hconn => .inl ⟨hwait, hconn⟩)
            (fun _ hconn => .inl hconn) (fun _ hend => hend)
            (by simp [update]) (fun _ hmem => hmem)
            (fun _ hmem => hmem) (fun _ hmem => .inl hmem)
        exact attended_settle (hnext.add (by rintro _ ⟨⟩))
      · exact attended_settle hattended
  | handleAck =>
    simp only [Messaging.handle]
    split
    · next queue messageId hack =>
      obtain ⟨rfl, _⟩ := handleAck_eq_some hack
      exact attended_settle
        ((hattended.mark messageId (by decide)).add (by rintro _ ⟨⟩))
    · exact attended_settle hattended
  | handleAppAck =>
    simp only [Messaging.handle]
    split
    · exact attended_settle hattended
    · split
      · next queue messageId hack =>
        obtain ⟨rfl, _⟩ := acknowledgeBySequence_eq_some hack
        exact attended_settle
          ((hattended.mark messageId (by decide)).add (by rintro _ ⟨⟩))
      · exact attended_settle hattended
  | handleSync _ now =>
    simp only [Messaging.handle]
    split
    · exact attended_settle hattended
    · refine attended_settle (hattended.setQueue ?_)
      intro other entry hget hstatus
      obtain ⟨old, hold, hsame⟩ :=
        (resendMissed_sameCore P _ _ now _ _).get? hget
      exact ⟨old, hold, hsame.receiver_eq.symm,
        hsame.status_eq.symm.trans hstatus⟩
  | retryPass now =>
    simp only [Messaging.handle]
    split
    · exact attended_settle hattended
    · exact hattended.retryWalk now _
  | handlePeerDisconnect =>
    simp only [Messaging.handle]
    split
    · exact attended_settle hattended
    · exact attended_settle (hattended.remove _)
  | setEndpoint peerId addr =>
    exact attended_settle (hattended.setEndpoint peerId addr)
  | saveSession =>
    simp only [Messaging.handle]
    split
    · exact attended_settle hattended
    · exact attended_settle (hattended.add (by rintro _ ⟨⟩))

theorem Attended.resume (index : Nat) (now : ℚ) :
    (node.resume P index now).Attended (node.resume P index now).works := by
  have hstep := resumeStep P node index now
  generalize node.resume P index now = next at hstep ⊢
  cases hstep with
  | idle => exact hattended
  | commit htask =>
    simp only [Messaging.works, works_commit htask]
    exact ⟨hattended.covered, hattended.located, hattended.held⟩
  | @run task htask _ =>
    have hall := hattended.congr (fun _ => (works_perm htask).symm.mem_iff)
    have hrest : Attended { node with tasks := node.tasks.eraseIdx index }
        (task.work :: (node.tasks.eraseIdx index).map MessagingTask.work) :=
      ⟨hall.covered, hall.located, hall.held⟩
    exact hrest.resumeWork now

theorem Attended.step (event : MessagingEvent) :
    (node.step P event).Attended (node.step P event).works := by
  cases event with
  | call call => exact hattended.handle call
  | resume index now => exact hattended.resume index now
  | execute => exact ⟨hattended.covered, hattended.located, hattended.held⟩
  | restart endpoints known =>
    -- The new process has no session yet.
    have hnone : ∀ peerId,
        ¬ (node.restart endpoints known).Connected peerId := by
      simp [Connected, restart, SessionRegistry.empty, OrderedDict.contains]
    exact ⟨fun peerId _ _ hconn => absurd hconn (hnone peerId),
      fun peerId hconn => absurd hconn (hnone peerId), by
        simp [Messaging.step, restart, Messaging.works]⟩

end

theorem attended_initial : ({} : Messaging).Attended [] := by
  have hnone : ∀ peerId, ¬ ({} : Messaging).Connected peerId := by
    simp [Connected, SessionRegistry.empty, OrderedDict.contains]
  exact ⟨fun peerId _ _ hconn => absurd hconn (hnone peerId),
    fun peerId hconn => absurd hconn (hnone peerId), by simp⟩

end Messaging

/-- The coroutine is one of those that may send the peer a queued message: a
`send_message` to it, a handshake with it, or a pass of the retry loop. -/
def Work.concerns (peerId : PeerId) : Work → Bool
  | .enqueued peer _ _ => peer == peerId
  | .sequenceStored dispatch | .numberStored dispatch
  | .statusStored dispatch =>
    match dispatch.caller with
    | .send peer => peer == peerId
    | .flush peer .. => peer == peerId
    | .retry .. => true
  | .failureStored _ => true
  | .helloSaved peer | .ackSaved peer _ | .ackRemembered peer _
  | .heartbeat peer => peer == peerId
  | .receiptStored | .received .. => false

theorem Work.Attends.concerns {messageId : MessageId}
    (hattends : work.Attends peerId messageId) :
    work.concerns peerId = true := by
  cases work with
  | enqueued _ _ session =>
    cases session with
    | none => exact hattends.elim
    | some => simpa [Work.concerns] using hattends.1
  | sequenceStored dispatch | numberStored dispatch
  | statusStored =>
    simp only [Work.Attends, Work.concerns] at hattends ⊢
    split at hattends
    · next hcaller => simpa [hcaller] using hattends.1
    · exact hattends.elim
  | helloSaved peer | ackSaved peer _ | ackRemembered peer _
  | heartbeat => exact beq_iff_eq.mpr hattends
  | failureStored | receiptStored | received => exact hattends.elim

namespace Messaging

/-- When all coroutines that concern a peer have finished, none of them raised,
and the peer has a session and an endpoint, no message is queued for it. -/
def NoneStranded (node : Messaging) : Prop :=
  ∀ peerId, (∀ task ∈ node.tasks, task.work.concerns peerId = false) →
    peerId ∉ node.raised →
    (node.registry.getByPeerId peerId).isSome →
    (node.endpoints.get? peerId).isSome →
    ∀ messageId entry, node.queue.get? messageId = some entry →
      entry.receiver = peerId → entry.status ≠ .queued

theorem Attended.noneStranded {node : Messaging}
    (hattended : node.Attended node.works) : node.NoneStranded := by
  intro peerId hfinished hraised hsession _ messageId entry hget hreceiver
    hqueued
  obtain ⟨_, hfound⟩ := isSome_iff_exists.mp hsession
  rcases hattended.covered peerId messageId
    ⟨entry, hget, hreceiver, hqueued⟩ (.of_getByPeerId hfound) with
      hraise | ⟨_, hmem, hattends⟩
  · exact hraised hraise
  · obtain ⟨task, htask, rfl⟩ := List.mem_map.mp hmem
    cases (hfinished task htask).symm.trans hattends.concerns

theorem attended_run (P : Primitives) (events : List MessagingEvent) :
    (run (step P) {} events).Attended (run (step P) {} events).works := by
  have hstep : ∀ (node : Messaging) (event : MessagingEvent),
      node.Attended node.works →
      (node.step P event).Attended (node.step P event).works :=
    fun _ event hattended => hattended.step event
  exact inv_run hstep attended_initial events

/-- Along every run a message queued for a peer with a session is answered for,
and the peer has an endpoint or a handshake that will set it. -/
theorem queued_attended (P : Primitives) (events : List MessagingEvent) :
    Along (Messaging.step P) (fun node => node.Attended node.works) {} events :=
  fun pre _ => attended_run P pre

/-- No interleaving of sends, retries and handshakes strands a message. -/
theorem no_message_stranded (P : Primitives) (events : List MessagingEvent) :
    Along (Messaging.step P) NoneStranded {} events :=
  fun pre _ => (attended_run P pre).noneStranded

end Messaging

end AshiChat
