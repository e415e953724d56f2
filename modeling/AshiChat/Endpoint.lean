/-
One endpoint of one live session: the outgoing queue, the session object, and
the history of everything the endpoint encrypted.  The events are the calls
the node makes on the queue manager; `sync` is the body of `_handle_sync`.
-/
import AshiChat.QueueManager
import AshiChat.Kit.EventRun

namespace AshiChat

open QueueManager OrderedDict Option List EventRun

/-- What one `_handle_sync` pass leaves behind: the queue, the packets handed
to the transport, and the exception that ended the loop early, if any. -/
structure ResendOutcome where
  queue : QueueManager
  sent : List (MessageId × Built)
  error : Option PyError

/-- The loop of `_handle_sync` over `list(queue.items())`, with the packets as
they are rebuilt; which of them serialise is for the transport to see. -/
def resendMissed (P : Primitives) (session : Session) (peerHighest : Nat)
    (now : ℚ) : QueueManager → List (MessageId × QueueEntry) → ResendOutcome
  | queue, [] => ⟨queue, [], none⟩
  | queue, (messageId, entry) :: rest =>
    if entry.receiver ≠ session.remotePeerId then
      resendMissed P session peerHighest now queue rest
    else
      match entry.sequenceNumber with
      | none => resendMissed P session peerHighest now queue rest
      | some seq =>
        if peerHighest < seq then
          match rebuildForSync P queue messageId session now with
          | (queue', .error err) => ⟨queue', [], some err⟩
          | (queue', .ok none) =>
            resendMissed P session peerHighest now queue' rest
          | (queue', .ok (some built)) =>
            let later := resendMissed P session peerHighest now queue' rest
            ⟨later.queue, (messageId, built) :: later.sent, later.error⟩
        else resendMissed P session peerHighest now queue rest

/-- The entries a SYNC naming `peerHighest` asks for again. -/
def Missed (session : Session) (peerHighest : Nat) (entry : QueueEntry)
    (seq : Nat) : Prop :=
  entry.receiver = session.remotePeerId ∧ entry.sequenceNumber = some seq ∧
    peerHighest < seq ∧ entry.plaintext ≠ []

instance (session : Session) (peerHighest : Nat) (entry : QueueEntry)
    (seq : Nat) : Decidable (Missed session peerHighest entry seq) :=
  inferInstanceAs (Decidable (_ ∧ _ ∧ _ ∧ _))

/-- What the loop does with one entry of the snapshot. -/
inductive ResendStep (P : Primitives) (session : Session) (peerHighest : Nat)
    (now : ℚ) (queue : QueueManager) (messageId : MessageId)
    (entry : QueueEntry) (rest : List (MessageId × QueueEntry)) :
    ResendOutcome → Prop where
  /-- Another peer's entry, or one that the peer has seen. -/
  | skip (hnot : ∀ seq, ¬ Missed session peerHighest entry seq) :
      ResendStep P session peerHighest now queue messageId entry rest
        (resendMissed P session peerHighest now queue rest)
  /-- The exception leaves the loop. -/
  | raise {seq : Nat} {queue' : QueueManager} {err : PyError}
      (hnum : entry.sequenceNumber = some seq)
      (hbuild : rebuildForSync P queue messageId session now =
        (queue', .error err)) :
      ResendStep P session peerHighest now queue messageId entry rest
        ⟨queue', [], some err⟩
  /-- Nothing to send for this entry. -/
  | nothing {seq : Nat} {queue' : QueueManager}
      (hnum : entry.sequenceNumber = some seq)
      (hbuild : rebuildForSync P queue messageId session now =
        (queue', .ok none)) :
      ResendStep P session peerHighest now queue messageId entry rest
        (resendMissed P session peerHighest now queue' rest)
  | send {seq : Nat} {queue' : QueueManager} {built : Built}
      (hreceiver : entry.receiver = session.remotePeerId)
      (hnum : entry.sequenceNumber = some seq) (hhigh : peerHighest < seq)
      (hbuild : rebuildForSync P queue messageId session now =
        (queue', .ok (some built))) :
      ResendStep P session peerHighest now queue messageId entry rest
        ⟨(resendMissed P session peerHighest now queue' rest).queue,
          (messageId, built) ::
            (resendMissed P session peerHighest now queue' rest).sent,
          (resendMissed P session peerHighest now queue' rest).error⟩

variable (P : Primitives)

theorem resendStep (session : Session) (peerHighest : Nat)
    (now : ℚ) (queue : QueueManager) (messageId : MessageId)
    (entry : QueueEntry) (rest : List (MessageId × QueueEntry)) :
    ResendStep P session peerHighest now queue messageId entry rest
      (resendMissed P session peerHighest now queue
        ((messageId, entry) :: rest)) := by
  simp only [resendMissed]
  split
  · next hother => exact .skip fun _ hmissed => hother hmissed.1
  · next hreceiver =>
    split
    · next hnone =>
      refine .skip fun seq hmissed => ?_
      cases hnone.symm.trans hmissed.2.1
    · next seq hnum =>
      split
      · next hhigh =>
        split
        · next hbuild => exact .raise hnum hbuild
        · next hbuild => exact .nothing hnum hbuild
        · next hbuild =>
          exact .send (not_not.mp hreceiver) hnum hhigh hbuild
      · next hseen =>
        refine .skip fun seq' hmissed => hseen ?_
        obtain ⟨_, hstored, hhigh, _⟩ := hmissed
        rw [hnum, some.injEq] at hstored
        exact hstored ▸ hhigh

variable {session : Session} {start queue : QueueManager}

/-- What every rebuild keeps, the whole pass keeps. -/
theorem resendMissed_keeps (same : QueueManager → QueueManager → Prop)
    (hrefl : ∀ queue, same queue queue)
    (htrans : ∀ {left middle right}, same left middle → same middle right →
      same left right) {P : Primitives} {now : ℚ}
    (hrebuild : ∀ queue messageId,
      same (rebuildForSync P queue messageId session now).1 queue)
    (peerHighest : Nat) (queue : QueueManager)
    (items : List (MessageId × QueueEntry)) :
    same (resendMissed P session peerHighest now queue items).queue queue := by
  induction items generalizing queue with
  | nil => exact hrefl queue
  | cons item rest ih =>
    obtain ⟨messageId, entry⟩ := item
    have hone := hrebuild queue messageId
    have hstep := resendStep P session peerHighest now queue messageId entry
      rest
    generalize resendMissed P session peerHighest now queue
      ((messageId, entry) :: rest) = outcome at hstep ⊢
    cases hstep with
    | skip => exact ih queue
    | raise _ hbuild =>
      rw [hbuild] at hone
      exact hone
    | nothing _ hbuild =>
      rw [hbuild] at hone
      exact htrans (ih _) hone
    | send _ _ _ hbuild =>
      rw [hbuild] at hone
      exact htrans (ih _) hone

theorem resendMissed_sameCore (session : Session) (peerHighest : Nat) (now : ℚ)
    (queue : QueueManager) (items : List (MessageId × QueueEntry)) :
    SameCore (resendMissed P session peerHighest now queue items).queue
      queue :=
  resendMissed_keeps SameCore SameCore.refl SameCore.trans
    (fun queue messageId =>
      rebuildForSync_sameCore P queue messageId session now)
    peerHighest queue items

section Resend

variable {P : Primitives} {session : Session} {now : ℚ}
  {start queue queue' : QueueManager} {messageId : MessageId}
  {entry : QueueEntry} {seq : Nat} {built : Built}

/-- The packet is made from the entry as the pass found it. -/
theorem rebuildForSync_of_sameCore (hcore : SameCore queue start)
    (hstart : start.get? messageId = some entry)
    (hnum : entry.sequenceNumber = some seq)
    (hbuild : rebuildForSync P queue messageId session now =
      (queue', .ok (some built))) :
    entry.plaintext ≠ [] ∧
      sealData P session seq entry.plaintext = .ok built.sealed := by
  obtain ⟨_, seq', hget, hnum', hplain, hseal⟩ := rebuildForSync_eq_some hbuild
  obtain ⟨_, hother, hsame⟩ := hcore.get? hget
  rw [hstart, some.injEq] at hother
  subst hother
  have hseq : seq' = seq := by
    rw [hsame.sequenceNumber_eq, hnum] at hnum'
    exact (some.inj hnum').symm
  rw [hsame.plaintext_eq, hseq] at hseal
  exact ⟨hsame.plaintext_eq ▸ hplain, hseal⟩

theorem wellFormed_of_sameCore {left right : QueueManager}
    (hcore : SameCore left right) (hwf : WellFormed right) :
    WellFormed left := by
  intro messageId entry hget seq hnum
  obtain ⟨other, hother, hsame⟩ := hcore.get? hget
  rw [hsame.plaintext_eq]
  exact hwf messageId other hother seq (hsame.sequenceNumber_eq ▸ hnum)

/-- In a well-formed queue the rebuild of a dispatched entry does not raise;
it makes a packet unless the text is empty. -/
theorem rebuildForSync_of_dispatched (P : Primitives) (now : ℚ)
    (hsized : session.Sized) (hwf : WellFormed start)
    (hcore : SameCore queue start) (hstart : start.get? messageId = some entry)
    (hnum : entry.sequenceNumber = some seq) :
    (entry.plaintext = [] ∧
      rebuildForSync P queue messageId session now = (queue, .ok none)) ∨
    ∃ queue' built, rebuildForSync P queue messageId session now =
      (queue', .ok (some built)) := by
  obtain ⟨_, hget, hsame⟩ := hcore.symm.get? hstart
  have htext := hsame.plaintext_eq
  have hseqs := hsame.sequenceNumber_eq
  by_cases hempty : entry.plaintext = []
  · refine .inl ⟨hempty, ?_⟩
    simp [rebuildForSync, hget, ← hseqs, hnum, ← htext, hempty]
  · exact .inr (rebuildForSync_of_wellFormed P (wellFormed_of_sameCore hcore
      hwf) now hsized hget (hseqs.symm.trans hnum) (htext ▸ hempty))

end Resend

/-- Every packet a SYNC pass sends carries a missed entry under its stored
number. -/
theorem resendMissed_sound (session : Session) (peerHighest : Nat) (now : ℚ)
    (hcore : SameCore queue start) (items : List (MessageId × QueueEntry))
    (hitems : ∀ item ∈ items, start.get? item.1 = some item.2) :
    ∀ resent ∈ (resendMissed P session peerHighest now queue items).sent,
      ∃ entry seq, (resent.1, entry) ∈ items ∧
        Missed session peerHighest entry seq ∧
        sealData P session seq entry.plaintext = .ok resent.2.sealed := by
  induction items generalizing queue with
  | nil => simp [resendMissed]
  | cons item rest ih =>
    obtain ⟨messageId, entry⟩ := item
    obtain ⟨hhead, hrest⟩ := forall_mem_cons.mp hitems
    have hone := rebuildForSync_sameCore P queue messageId session now
    -- Later packets come from the tail; only the queue's send times differ.
    have later : ∀ queue', SameCore queue' start →
        ∀ resent ∈ (resendMissed P session peerHighest now queue' rest).sent,
        ∃ entry' seq, (resent.1, entry') ∈ (messageId, entry) :: rest ∧
          Missed session peerHighest entry' seq ∧
          sealData P session seq entry'.plaintext = .ok resent.2.sealed := by
      intro queue' hcore' resent hresent
      obtain ⟨entry', seq, hmem, hfacts⟩ := ih hcore' hrest resent hresent
      exact ⟨entry', seq, mem_cons_of_mem _ hmem, hfacts⟩
    intro resent hresent
    have hstep := resendStep P session peerHighest now queue messageId entry
      rest
    generalize resendMissed P session peerHighest now queue
      ((messageId, entry) :: rest) = outcome at hstep hresent
    cases hstep with
    | skip => exact later queue hcore resent hresent
    | raise => cases hresent
    | nothing _ hbuild =>
      rw [hbuild] at hone
      exact later _ (hone.trans hcore) resent hresent
    | send hreceiver hnum hhigh hbuild =>
      rw [hbuild] at hone
      rcases mem_cons.mp hresent with rfl | hresent
      · obtain ⟨hplain, hseal⟩ := rebuildForSync_of_sameCore hcore hhead
          hnum hbuild
        exact ⟨entry, _, mem_cons_self, ⟨hreceiver, hnum, hhigh, hplain⟩, hseal⟩
      · exact later _ (hone.trans hcore) resent hresent

/-- In a well-formed queue a SYNC pass never raises and reaches every missed
entry. -/
theorem resendMissed_complete (hsized : session.Sized)
    (peerHighest : Nat) (now : ℚ) (hwf : WellFormed start)
    (hcore : SameCore queue start) (items : List (MessageId × QueueEntry))
    (hitems : ∀ item ∈ items, start.get? item.1 = some item.2)
    {messageId : MessageId} {entry : QueueEntry} {seq : Nat}
    (hmem : (messageId, entry) ∈ items)
    (hmissed : Missed session peerHighest entry seq) :
    ∃ resent ∈ (resendMissed P session peerHighest now queue items).sent,
      resent.2.sealed = sealedWith P session seq entry.plaintext := by
  induction items generalizing queue with
  | nil => cases hmem
  | cons item rest ih =>
    obtain ⟨headId, head⟩ := item
    obtain ⟨hhead, hrest⟩ := forall_mem_cons.mp hitems
    have hone := rebuildForSync_sameCore P queue headId session now
    have hstep := resendStep P session peerHighest now queue headId head rest
    generalize resendMissed P session peerHighest now queue
      ((headId, head) :: rest) = outcome at hstep ⊢
    simp only [mem_cons, Prod.mk.injEq] at hmem
    cases hstep with
    | skip hnot =>
      rcases hmem with ⟨_, rfl⟩ | hmem
      · exact absurd hmissed (hnot seq)
      · exact ih hcore hrest hmem
    | raise hnum hbuild =>
      rcases rebuildForSync_of_dispatched P now hsized hwf hcore hhead
        hnum with ⟨_, hnone⟩ | ⟨_, _, hsome⟩
      · cases hbuild.symm.trans hnone
      · cases hbuild.symm.trans hsome
    | nothing hnum hbuild =>
      rw [hbuild] at hone
      rcases hmem with ⟨_, rfl⟩ | hmem
      · rcases rebuildForSync_of_dispatched P now hsized hwf hcore hhead
          hnum with ⟨hempty, _⟩ | ⟨_, _, hsome⟩
        · exact absurd hempty hmissed.2.2.2
        · cases hbuild.symm.trans hsome
      · exact ih (hone.trans hcore) hrest hmem
    | send _ _ _ hbuild =>
      rw [hbuild] at hone
      rcases hmem with ⟨_, rfl⟩ | hmem
      · obtain ⟨_, hseal⟩ := rebuildForSync_of_sameCore hcore hhead
          hmissed.2.1 hbuild
        obtain ⟨_, _, hsealed⟩ := sealData_eq_ok hsized hseal
        exact ⟨_, mem_cons_self, hsealed⟩
      · obtain ⟨found, hfound, hsealed⟩ := ih (hone.trans hcore) hrest hmem
        exact ⟨found, mem_cons_of_mem _ hfound, hsealed⟩

/-- Queue, session and encryption history of one endpoint. -/
structure Endpoint where
  queue : QueueManager
  session : Session
  sealed : List SealedData := []

/-- The calls that reach the queue manager of an endpoint. -/
inductive EndpointOp where
  | enqueue (messageId : MessageId) (receiver : PeerId) (plaintext : Bytes)
  | build (messageId : MessageId) (now : ℚ)
  | ack (ack : AckPayload)
  | timeout (messageId : MessageId)
  | sync (peerHighest : Nat) (now : ℚ)
deriving DecidableEq

namespace Endpoint

/-- The packet a build call produced, if it neither declined nor raised. -/
def builtBy : Except PyError (Option Built) → List SealedData
  | .ok (some built) => [built.sealed]
  | _ => []

/-- One call.  `uuid4` does not return an id that is in use, so such an
`enqueue` is not an event of any run. -/
def step (P : Primitives) (endpoint : Endpoint) : EndpointOp → Endpoint
  | .enqueue messageId receiver plaintext =>
    if endpoint.queue.contains messageId then endpoint
    else
      { endpoint with
        queue := endpoint.queue.enqueue messageId receiver plaintext }
  | .build messageId now =>
    let outcome :=
      buildDataPacket P endpoint.queue messageId endpoint.session now
    { queue := outcome.queue
      session := outcome.session
      sealed := endpoint.sealed ++ builtBy outcome.result }
  | .ack ack => { endpoint with queue := (endpoint.queue.handleAck ack).1 }
  | .timeout messageId =>
    { endpoint with queue := (endpoint.queue.handleTimeout messageId).1 }
  | .sync peerHighest now =>
    let outcome := resendMissed P endpoint.session peerHighest now
      endpoint.queue endpoint.queue.entries
    { endpoint with
      queue := outcome.queue
      sealed := endpoint.sealed ++ outcome.sent.map (·.2.sealed) }

variable {endpoint : Endpoint} {messageId : MessageId} {entry : QueueEntry}
  {plaintext : Bytes}

variable (P : Primitives)

section

variable (hsized : endpoint.session.Sized)

include hsized

/-- All a build call can do: nothing, send under the next number, or use the
number up without sending. -/
theorem step_build_cases (messageId : MessageId) (now : ℚ) :
    (readyPlaintext? endpoint.queue messageId = none ∧
      step P endpoint (.build messageId now) = endpoint) ∨
    (∃ plaintext, readyPlaintext? endpoint.queue messageId = some plaintext ∧
      endpoint.session.sendSequence < 2 ^ 32 ∧ Encryptable plaintext ∧
      step P endpoint (.build messageId now) =
        { queue := endpoint.queue.modify messageId
            (QueueEntry.dispatched endpoint.session.sendSequence now)
          session := endpoint.session.nextSequence.2
          sealed := endpoint.sealed ++ [sealedWith P endpoint.session
            endpoint.session.sendSequence plaintext] }) ∨
    (∃ plaintext, readyPlaintext? endpoint.queue messageId = some plaintext ∧
      ¬ (endpoint.session.sendSequence < 2 ^ 32 ∧ Encryptable plaintext) ∧
      step P endpoint (.build messageId now) =
        { endpoint with session := endpoint.session.nextSequence.2 }) := by
  cases hready : readyPlaintext? endpoint.queue messageId with
  | none =>
    refine Or.inl ⟨rfl, ?_⟩
    simp [step,
      buildDataPacket_of_not_ready P endpoint.session now       hready, builtBy]
  | some plaintext =>
    refine Or.inr ?_
    by_cases hgood :
        endpoint.session.sendSequence < 2 ^ 32 ∧ Encryptable plaintext
    · obtain ⟨_, _, hbuild⟩ :=
        buildDataPacket_of_ready P now hready hsized.keyed hgood.1 hgood.2
      refine Or.inl ⟨plaintext, rfl, hgood.1, hgood.2, ?_⟩
      simp only [step, hbuild, builtBy]
    · obtain ⟨_, hbuild⟩ :=
        buildDataPacket_of_ready_error P now hready hsized hgood
      refine Or.inr ⟨plaintext, rfl, hgood, ?_⟩
      simp [step, hbuild, builtBy]

/-- Finding a queued entry always uses up a number. -/
theorem sendSequence_build
    (hready : readyPlaintext? endpoint.queue messageId = some plaintext)
    (now : ℚ) :
    (step P endpoint (.build messageId now)).session.sendSequence =
      endpoint.session.sendSequence + 1 := by
  rcases step_build_cases P hsized messageId now with
    ⟨hnone, _⟩ | ⟨_, _, _, _, hstep⟩ | ⟨_, _, _, hstep⟩
  · simp [hready] at hnone
  · rw [hstep]; rfl
  · rw [hstep]; rfl

/-- Every call keeps the id, the key, the peer and the receive counter of the
session, and never lowers its send counter. -/
theorem step_session (op : EndpointOp) :
    ∃ sendSequence, endpoint.session.sendSequence ≤ sendSequence ∧
      (step P endpoint op).session =
        { endpoint.session with sendSequence := sendSequence } := by
  cases op with
  | enqueue =>
    refine ⟨_, le_rfl, ?_⟩
    simp only [step]
    split <;> rfl
  | build messageId now =>
    rcases step_build_cases P hsized messageId now with
      ⟨_, hstep⟩ | ⟨_, _, _, _, hstep⟩ | ⟨_, _, _, hstep⟩
    · exact ⟨_, le_rfl, by rw [hstep]⟩
    · exact ⟨_, Nat.le_succ _, by rw [hstep]; rfl⟩
    · exact ⟨_, Nat.le_succ _, by rw [hstep]; rfl⟩
  | ack | timeout | sync => exact ⟨_, le_rfl, rfl⟩

theorem sized_step (op : EndpointOp) : (step P endpoint op).session.Sized := by
  obtain ⟨_, _, hsession⟩ := step_session P hsized op
  rw [hsession]
  exact ⟨hsized.sessionId, hsized.encryptionKey⟩

end

/-- The same message for the same peer, under the same number. -/
def SameMessage (left right : QueueEntry) : Prop :=
  left.receiver = right.receiver ∧ left.plaintext = right.plaintext ∧
    left.sequenceNumber = right.sequenceNumber

theorem SameMessage.refl (entry : QueueEntry) : SameMessage entry entry :=
  ⟨rfl, rfl, rfl⟩

theorem sameMessage_of_sameEntry {left right : QueueEntry}
    (hsame : SameEntry left right) : SameMessage left right :=
  ⟨hsame.receiver_eq, hsame.plaintext_eq, hsame.sequenceNumber_eq⟩

theorem sameMessage_timedOut (entry : QueueEntry) :
    SameMessage entry.timedOut entry := by
  unfold QueueEntry.timedOut
  split <;> exact ⟨rfl, rfl, rfl⟩

theorem entry_of_modify {queue : QueueManager} {target : MessageId}
    {change : QueueEntry → QueueEntry}
    (hchange : ∀ entry, SameMessage (change entry) entry)
    (hget : (modify queue target change).get? messageId = some entry) :
    ∃ old, queue.get? messageId = some old ∧ SameMessage entry old := by
  rcases get?_modify_cases hget with
    ⟨-, old, hold, rfl⟩ | ⟨-, hget⟩
  · exact ⟨old, hold, hchange old⟩
  · exact ⟨entry, hget, SameMessage.refl entry⟩

section

variable (hsized : endpoint.session.Sized)

include hsized

/-- Where the entries after a call come from: an entry that was there with the
same message and number, a new message without a number, or the message just
dispatched. -/
theorem step_entry_cases {op : EndpointOp}
    (hget : get? (step P endpoint op).queue messageId = some entry) :
    (∃ old, endpoint.queue.get? messageId = some old ∧ SameMessage entry old) ∨
    entry.sequenceNumber = none ∨
    (∃ now, op = .build messageId now ∧
      readyPlaintext? endpoint.queue messageId = some entry.plaintext ∧
      entry.sequenceNumber = some endpoint.session.sendSequence ∧
      endpoint.session.sendSequence < 2 ^ 32 ∧
      Encryptable entry.plaintext) := by
  cases op with
  | enqueue =>
    simp only [step] at hget
    split at hget
    · exact Or.inl ⟨entry, hget, SameMessage.refl entry⟩
    · rcases get?_set_cases hget with ⟨-, rfl⟩ | ⟨-, hget⟩
      · exact Or.inr (Or.inl rfl)
      · exact Or.inl ⟨entry, hget, SameMessage.refl entry⟩
  | build target now =>
    rcases step_build_cases P hsized target now with
      ⟨_, hstep⟩ | ⟨plaintext, hready, hseq, hplain, hstep⟩ | ⟨_, _, _, hstep⟩
    · rw [hstep] at hget
      exact Or.inl ⟨entry, hget, SameMessage.refl entry⟩
    · rw [hstep] at hget
      rcases get?_modify_cases hget with
        ⟨rfl, old, hold, rfl⟩ | ⟨-, hget⟩
      · obtain ⟨_, hentry, _, rfl⟩ := readyPlaintext?_eq_some hready
        rw [hold, some.injEq] at hentry
        subst hentry
        exact Or.inr (Or.inr ⟨now, rfl, hready, rfl, hseq, hplain⟩)
      · exact Or.inl ⟨entry, hget, SameMessage.refl entry⟩
    · rw [hstep] at hget
      exact Or.inl ⟨entry, hget, SameMessage.refl entry⟩
  | ack =>
    simp only [step, handleAck] at hget
    split at hget
    · exact Or.inl ⟨entry, hget, SameMessage.refl entry⟩
    · have hsame : ∀ entry : QueueEntry,
          SameMessage { entry with status := .delivered } entry :=
        fun _ => ⟨rfl, rfl, rfl⟩
      exact Or.inl (entry_of_modify hsame hget)
  | timeout =>
    simp only [step, handleTimeout] at hget
    split at hget
    · exact Or.inl ⟨entry, hget, SameMessage.refl entry⟩
    · exact Or.inl (entry_of_modify sameMessage_timedOut hget)
  | sync peerHighest now =>
    have hcore := resendMissed_sameCore P endpoint.session peerHighest now
      endpoint.queue endpoint.queue.entries
    obtain ⟨old, hold, hsame⟩ := hcore.get? hget
    exact Or.inl ⟨old, hold, sameMessage_of_sameEntry hsame⟩

theorem wellFormed_step (hwf : WellFormed endpoint.queue) (op : EndpointOp) :
    WellFormed (step P endpoint op).queue := by
  intro messageId entry hget seq hnum
  rcases step_entry_cases P hsized hget with
    ⟨old, hold, _, htext, hseqs⟩ | hnone | ⟨_, _, _, hsome, hseq, hplain⟩
  · rw [htext]
    exact hwf messageId old hold seq (hseqs ▸ hnum)
  · simp [hnone] at hnum
  · rw [hsome, some.injEq] at hnum
    exact ⟨hnum ▸ hseq, hplain⟩

/-- What a call can encrypt: the message just dispatched, under the next
number, or a message a SYNC asks for, under its stored number. -/
theorem step_sealed_cases (op : EndpointOp) :
    ∃ new, (step P endpoint op).sealed = endpoint.sealed ++ new ∧
      ∀ sealed ∈ new, ∃ seq plaintext, seq < 2 ^ 32 ∧
        sealed = sealedWith P endpoint.session seq plaintext ∧
        ((∃ messageId now, op = .build messageId now ∧
            readyPlaintext? endpoint.queue messageId = some plaintext ∧
            seq = endpoint.session.sendSequence) ∨
          ∃ messageId entry peerHighest,
            endpoint.queue.get? messageId = some entry ∧
            Missed endpoint.session peerHighest entry seq ∧
            plaintext = entry.plaintext) := by
  cases op with
  | enqueue =>
    refine ⟨[], ?_, by simp⟩
    simp only [step, append_nil]
    split <;> rfl
  | build target now =>
    rcases step_build_cases P hsized target now with
      ⟨_, hstep⟩ | ⟨plaintext, hready, hseq, _, hstep⟩ | ⟨_, _, _, hstep⟩
    · exact ⟨[], by rw [hstep, append_nil], by simp⟩
    · refine ⟨_, by rw [hstep], ?_⟩
      intro sealed hmem
      rw [mem_singleton] at hmem
      exact ⟨_, plaintext, hseq, hmem, Or.inl ⟨target, now, rfl, hready, rfl⟩⟩
    · exact ⟨[], by rw [hstep, append_nil], by simp⟩
  | ack | timeout => exact ⟨[], by simp [step], by simp⟩
  | sync peerHighest now =>
    refine ⟨_, rfl, ?_⟩
    intro sealed hmem
    obtain ⟨resent, hresent, rfl⟩ := mem_map.mp hmem
    obtain ⟨entry, seq, hentry, hmissed, hseal⟩ :=
      resendMissed_sound P endpoint.session peerHighest now
        (SameCore.refl endpoint.queue) endpoint.queue.entries
        (fun _ hmem => get?_eq_of_mem_entries _ hmem) resent
        hresent
    obtain ⟨hseq, _, hsealed⟩ := sealData_eq_ok hsized hseal
    exact ⟨seq, entry.plaintext, hseq, hsealed, Or.inr ⟨resent.1, entry,
      peerHighest, get?_eq_of_mem_entries _ hentry, hmissed, rfl⟩⟩

end

/-- A SYNC reaches every missed entry of a well-formed queue. -/
theorem mem_sealed_sync (endpoint : Endpoint) (hsized : endpoint.session.Sized)
    (hwf : WellFormed endpoint.queue)
    (hget : endpoint.queue.get? messageId = some entry) {peerHighest seq : Nat}
    (hmissed : Missed endpoint.session peerHighest entry seq) (now : ℚ) :
    sealedWith P endpoint.session seq entry.plaintext ∈
      (step P endpoint (.sync peerHighest now)).sealed := by
  obtain ⟨resent, hresent, hsealed⟩ := resendMissed_complete P hsized
    peerHighest now hwf (SameCore.refl _) endpoint.queue.entries (fun _ hmem =>
    get?_eq_of_mem_entries _ hmem) (mem_entries_iff _ |>.mpr hget) hmissed
  exact mem_append_right _ (mem_map.mpr ⟨resent, hresent, hsealed⟩)

/-- A message enqueued under an unused id and built at once goes out under the
next number. -/
theorem exists_send (hsized : endpoint.session.Sized)
    (hseq : endpoint.session.sendSequence < 2 ^ 32) (receiver : PeerId)
    (hplain : Encryptable plaintext) :
    ∃ ops, (run (step P) endpoint ops).session =
        endpoint.session.nextSequence.2 ∧
      (run (step P) endpoint ops).sealed = endpoint.sealed ++
        [sealedWith P endpoint.session endpoint.session.sendSequence
          plaintext] := by
  obtain ⟨messageId, hfresh⟩ := exists_get?_eq_none endpoint.queue
  have hcontains : endpoint.queue.contains messageId = false :=
    (contains_eq_false_iff ..).mpr hfresh
  let queued : Endpoint :=
    { endpoint with queue := endpoint.queue.enqueue messageId receiver plaintext }
  have henqueue : step P endpoint (.enqueue messageId receiver plaintext) =
      queued := by
    simp [step, hcontains, queued]
  have hready : readyPlaintext? queued.queue messageId = some plaintext := by
    simp [readyPlaintext?, queued, enqueue, get?_set_self]
  have hlive : queued.session.Sized := hsized
  refine ⟨[.enqueue messageId receiver plaintext, .build messageId 0], ?_⟩
  rw [run_cons, henqueue, run_cons, run_nil]
  rcases step_build_cases P hlive messageId 0 with
    ⟨hnone, _⟩ | ⟨text, hsome, _, _, hstep⟩ | ⟨text, hsome, hbad, _⟩
  · simp [hready] at hnone
  · rw [hready, some.injEq] at hsome
    subst hsome
    rw [hstep]
    exact ⟨rfl, rfl⟩
  · rw [hready, some.injEq] at hsome
    exact absurd ⟨hseq, hsome ▸ hplain⟩ hbad

end Endpoint

end AshiChat
