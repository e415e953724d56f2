/-
Which plaintexts one endpoint encrypts under one number of a live session.  A
build call draws the next number; a SYNC makes the endpoint encrypt again
under numbers stored in the queue, and those may come from an earlier session
with the same peer.
-/
import AshiChat.Endpoint
import AshiChat.Reference

namespace AshiChat

open QueueManager Endpoint EventRun OrderedDict Nat List

/-- Queues a node can hold in memory.  A restart begins with an empty queue
and restores rows saved from an earlier one; the saved status and retry count
may lag behind. -/
inductive ReachableQueue (P : Primitives) : QueueManager → Prop
  | empty : ReachableQueue P .empty
  | call {endpoint : Endpoint} (op : EndpointOp) :
      ReachableQueue P endpoint.queue → endpoint.session.Sized →
      ReachableQueue P (endpoint.step P op).queue
  | appAck {queue : QueueManager} (peerId : PeerId) (seq : Nat) :
      ReachableQueue P queue →
      ReachableQueue P (queue.acknowledgeBySequence peerId seq).1
  | restore {saved queue : QueueManager} {messageId : MessageId}
      {entry : QueueEntry} (status : String) (retryCount : Nat) :
      ReachableQueue P saved →
      saved.get? messageId = some entry → entry.plaintext ≠ [] →
      ReachableQueue P queue →
      ReachableQueue P (queue.restoreEntry messageId entry.receiver status
        retryCount entry.plaintext entry.sequenceNumber)

variable {P : Primitives}

theorem ReachableQueue.wellFormed {queue : QueueManager}
    (hreach : ReachableQueue P queue) : WellFormed queue := by
  induction hreach with
  | empty => intro messageId entry hget; simp [get?_empty] at hget
  | call op _ hsized ih => exact wellFormed_step P hsized ih op
  | appAck _ _ _ ih =>
    intro messageId entry hget number hnum
    have hsame : ∀ entry : QueueEntry,
        SameMessage { entry with status := .acknowledged } entry :=
      fun _ => ⟨rfl, rfl, rfl⟩
    simp only [acknowledgeBySequence] at hget
    split at hget
    · exact ih messageId entry hget number hnum
    · obtain ⟨old, hold, _, htext, hseqs⟩ := entry_of_modify hsame hget
      rw [htext]
      exact ih messageId old hold number (hseqs ▸ hnum)
  | restore _ _ _ hsaved _ _ ihSaved ih =>
    intro messageId entry hget number hnum
    rcases get?_set_cases hget with ⟨-, rfl⟩ | ⟨-, hget⟩
    · exact ihSaved _ _ hsaved number hnum
    · exact ih messageId entry hget number hnum

theorem ReachableQueue.run (endpoint : Endpoint)
    (hreach : ReachableQueue P endpoint.queue)
    (hsized : endpoint.session.Sized) (ops : List EndpointOp) :
    ReachableQueue P (EventRun.run (step P) endpoint ops).queue := by
  induction ops generalizing endpoint with
  | nil => exact hreach
  | cons op _ ih =>
    exact ih _ (.call op hreach hsized) (sized_step P hsized op)

/-- Two encryptions under the key with one nonce have one plaintext. -/
def NonceFixesPlaintext (key : Bytes) (history : List SealedData) : Prop :=
  ∀ left ∈ history, ∀ right ∈ history,
    left.encryption.key = key → right.encryption.key = key →
    left.encryption.nonce = right.encryption.nonce →
    left.encryption.plaintext = right.encryption.plaintext

/-- The numbers stored with messages for the session's peer are below the next
number to be drawn, and no two different messages share one. -/
def StoredNumbersSpent (queue : QueueManager) (session : Session) : Prop :=
  ∀ messageId entry seq, queue.get? messageId = some entry →
    Missed session 0 entry seq →
    seq < session.sendSequence ∧
      ∀ otherId other, queue.get? otherId = some other →
        Missed session 0 other seq → other.plaintext = entry.plaintext

/-- Invariant of the runs that start with spent numbers: `text` gives the one
message of each number below the counter. -/
structure NumbersFixText (P : Primitives) (start : Session)
    (text : Nat → Bytes) (endpoint : Endpoint) : Prop where
  session : ∃ sendSequence,
    endpoint.session = { start with sendSequence := sendSequence }
  stored : ∀ messageId entry seq, endpoint.queue.get? messageId = some entry →
    Missed start 0 entry seq →
    seq < endpoint.session.sendSequence ∧ entry.plaintext = text seq
  history : ∀ sealed ∈ endpoint.sealed, ∃ seq < 2 ^ 32,
    seq < endpoint.session.sendSequence ∧
      sealed = sealedWith P start seq (text seq)

section

variable {P : Primitives} {start : Session} {endpoint : Endpoint}

variable {text : Nat → Bytes} {seq peerHighest : Nat} {entry : QueueEntry}
  {queue : QueueManager} {messageId : MessageId} {plaintext : Bytes}

theorem NumbersFixText.sized (hsized : start.Sized)
    (hinv : NumbersFixText P start text endpoint) :
    endpoint.session.Sized := by
  obtain ⟨_, hsession⟩ := hinv.session
  rw [hsession]
  exact ⟨hsized.sessionId, hsized.encryptionKey⟩

/-- Seals under the running session are seals under the one it started as. -/
theorem NumbersFixText.sealedWith_eq
    (hinv : NumbersFixText P start text endpoint) (seq : Nat)
    (plaintext : Bytes) :
    sealedWith P endpoint.session seq plaintext =
      sealedWith P start seq plaintext := by
  obtain ⟨_, hsession⟩ := hinv.session
  exact sealedWith_congr P (by rw [hsession]) (by rw [hsession]) seq plaintext

theorem missed_iff_of_session {session : Session} {sendSequence : Nat}
    (hsession : session = { start with sendSequence := sendSequence })
    (peerHighest : Nat) (entry : QueueEntry) (seq : Nat) :
    Missed session peerHighest entry seq ↔
      Missed start peerHighest entry seq := by
  subst hsession
  exact Iff.rfl

theorem missed_zero_of_missed (hmissed : Missed start peerHighest entry seq) :
    Missed start 0 entry seq :=
  ⟨hmissed.1, hmissed.2.1, zero_lt_of_lt hmissed.2.2.1, hmissed.2.2.2⟩

theorem missed_of_sameMessage {old : QueueEntry} (hsame : SameMessage entry old)
    (hmissed : Missed start peerHighest entry seq) :
    Missed start peerHighest old seq := by
  obtain ⟨hreceiver, htext, hseqs⟩ := hsame
  exact ⟨hreceiver ▸ hmissed.1, hseqs ▸ hmissed.2.1, hmissed.2.2.1,
    htext ▸ hmissed.2.2.2⟩

/-- `text` after a call: a build call that finds its entry settles the next
number. -/
def drawText (text : Nat → Bytes) (endpoint : Endpoint) :
    EndpointOp → Nat → Bytes
  | .build messageId _ =>
    match readyPlaintext? endpoint.queue messageId with
    | some plaintext =>
      Function.update text endpoint.session.sendSequence plaintext
    | none => text
  | _ => text

theorem drawText_of_lt (text : Nat → Bytes) (op : EndpointOp)
    (hseq : seq < endpoint.session.sendSequence) :
    drawText text endpoint op seq = text seq := by
  cases op with
  | build messageId =>
    cases hready : readyPlaintext? endpoint.queue messageId with
    | none => simp only [drawText, hready]
    | some =>
      simp only [drawText, hready]
      exact Function.update_of_ne (Nat.ne_of_lt hseq) ..
  | _ => rfl

theorem drawText_build (text : Nat → Bytes) (now : ℚ)
    (hready : readyPlaintext? endpoint.queue messageId = some plaintext) :
    drawText text endpoint (.build messageId now)
      endpoint.session.sendSequence = plaintext := by
  simp [drawText, hready]

theorem NumbersFixText.step (hsized : start.Sized)
    (hinv : NumbersFixText P start text endpoint) (op : EndpointOp) :
    NumbersFixText P start (drawText text endpoint op)
      (endpoint.step P op) := by
  have hlive := hinv.sized hsized
  obtain ⟨sendSequence, hmono, hsession⟩ := step_session P hlive op
  have hle : endpoint.session.sendSequence ≤
      (endpoint.step P op).session.sendSequence := by rw [hsession]; exact hmono
  obtain ⟨_, hbefore⟩ := hinv.session
  refine ⟨⟨sendSequence, by rw [hsession, hbefore]⟩, ?_, ?_⟩
  · intro messageId entry seq hget hmissed
    rcases step_entry_cases P hlive hget with
      ⟨old, hold, hsame⟩ | hnone | ⟨now, rfl, hready, hnum, _, _⟩
    · obtain ⟨hlt, htext⟩ := hinv.stored messageId old seq hold
        (missed_of_sameMessage hsame hmissed)
      rw [drawText_of_lt text op hlt, ← htext]
      exact ⟨Nat.lt_of_lt_of_le hlt hle, hsame.2.1⟩
    · have hnum := hmissed.2.1
      simp [hnone] at hnum
    · -- The entry was dispatched by this very call.
      have hseq : seq = endpoint.session.sendSequence := by
        have hstored := hmissed.2.1
        rw [hnum, Option.some.injEq] at hstored
        exact hstored.symm
      subst hseq
      rw [drawText_build text now hready]
      exact ⟨by rw [sendSequence_build P hlive hready]; omega, rfl⟩
  · obtain ⟨_, hnew, hsource⟩ := step_sealed_cases P hlive op
    rw [hnew]
    intro sealed hmem
    rcases mem_append.mp hmem with hold | hfresh
    · obtain ⟨seq, hbound, hlt, hsealed⟩ := hinv.history sealed hold
      refine ⟨seq, hbound, Nat.lt_of_lt_of_le hlt hle, ?_⟩
      rw [hsealed, drawText_of_lt text op hlt]
    · obtain ⟨seq, _, hbound, hsealed, hcase⟩ := hsource sealed hfresh
      rw [hinv.sealedWith_eq] at hsealed
      rcases hcase with
        ⟨messageId, now, rfl, hready, rfl⟩ |
          ⟨messageId, entry, _, hget, hmissed, rfl⟩
      · refine ⟨_, hbound, ?_, ?_⟩
        · rw [sendSequence_build P hlive hready]; omega
        · rw [hsealed, drawText_build text now hready]
      · obtain ⟨hlt, htext⟩ := hinv.stored messageId entry seq hget
          (missed_zero_of_missed
            ((missed_iff_of_session hbefore ..).mp hmissed))
        refine ⟨seq, hbound, Nat.lt_of_lt_of_le hlt hle, ?_⟩
        rw [hsealed, drawText_of_lt text op hlt, htext]

theorem nonceFixesPlaintext_of_inv
    (hinv : NumbersFixText P start text endpoint) :
    NonceFixesPlaintext start.encryptionKey endpoint.sealed := by
  intro left hleft right hright _ _ hnonce
  obtain ⟨i, hi, _, rfl⟩ := hinv.history left hleft
  obtain ⟨j, hj, _, rfl⟩ := hinv.history right hright
  have hij : i = j := (sealCall_nonce_eq_iff rfl hi hj _ _).mp hnonce
  rw [hij]

/-- A queue whose stored numbers are spent has one message for each. -/
theorem exists_text (hspent : StoredNumbersSpent queue start) :
    ∃ text, NumbersFixText P start text ⟨queue, start, []⟩ := by
  classical
  let text : Nat → Bytes := fun seq =>
    if h : ∃ entry messageId, queue.get? messageId = some entry ∧
        Missed start 0 entry seq then h.choose.plaintext else []
  refine ⟨text, ⟨_, rfl⟩, ?_, by simp⟩
  intro messageId entry seq hget hmissed
  obtain ⟨hlt, honly⟩ := hspent messageId entry seq hget hmissed
  have hexists : ∃ entry messageId, queue.get? messageId = some entry ∧
        Missed start 0 entry seq := ⟨entry, messageId, hget, hmissed⟩
  obtain ⟨otherId, hother, hmissedOther⟩ := hexists.choose_spec
  refine ⟨hlt, ?_⟩
  simp only [text, dif_pos hexists]
  exact (honly otherId _ hother hmissedOther).symm

theorem nonceFixesPlaintext_run (hsized : start.Sized)
    (hspent : StoredNumbersSpent queue start) (ops : List EndpointOp) :
    NonceFixesPlaintext start.encryptionKey
      (run (step P) ⟨queue, start, []⟩ ops).sealed := by
  have hkeep : ∀ endpoint op, (∃ text, NumbersFixText P start text endpoint) →
      ∃ text, NumbersFixText P start text (endpoint.step P op) :=
    fun endpoint op ⟨text, hinv⟩ =>
      ⟨drawText text endpoint op, hinv.step hsized op⟩
  obtain ⟨_, hinv⟩ := inv_run hkeep (exists_text hspent) ops
  exact nonceFixesPlaintext_of_inv hinv

/-- By sending enough new messages an endpoint reaches every later number,
with any message it likes. -/
theorem exists_run_reaching (P : Primitives) (hplain : Encryptable plaintext)
    (distance : Nat) {endpoint : Endpoint} (hsized : endpoint.session.Sized)
    (hseq : endpoint.session.sendSequence + distance < 2 ^ 32) :
    ∃ ops, (∀ sealed ∈ endpoint.sealed,
        sealed ∈ (run (step P) endpoint ops).sealed) ∧
      sealedWith P endpoint.session
          (endpoint.session.sendSequence + distance) plaintext ∈
        (run (step P) endpoint ops).sealed := by
  induction distance generalizing endpoint with
  | zero =>
    obtain ⟨ops, _, hsealed⟩ := exists_send P hsized hseq
      endpoint.session.remotePeerId hplain
    refine ⟨ops, ?_⟩
    rw [hsealed]
    exact ⟨fun _ hmem => mem_append_left _ hmem,
      mem_append_right _ mem_cons_self⟩
  | succ _ ih =>
    obtain ⟨first, hsession, hsealed⟩ := exists_send P hsized (by omega)
      endpoint.session.remotePeerId hplain
    have hnumber : (run (step P) endpoint first).session.sendSequence
        = endpoint.session.sendSequence + 1 := by rw [hsession]; rfl
    have hlive : (run (step P) endpoint first).session.Sized := by
      rw [hsession]
      exact ⟨hsized.sessionId, hsized.encryptionKey⟩
    obtain ⟨later, hkeep, hreach⟩ := ih hlive (by omega)
    refine ⟨first ++ later, ?_⟩
    rw [run_append]
    constructor
    · intro sealed hmem
      refine hkeep sealed ?_
      rw [hsealed]
      exact mem_append_left _ hmem
    · rw [hnumber, hsession, Nat.add_assoc, Nat.add_comm 1] at hreach
      exact hreach

/-- A stored number at or above the counter: the SYNC encrypts under it, and
so does a later build, with another message. -/
theorem stored_number_lt (hsized : start.Sized) (hwf : WellFormed queue)
    (hsafe : ∀ ops, NonceFixesPlaintext start.encryptionKey
      (run (step P) ⟨queue, start, []⟩ ops).sealed)
    (hget : queue.get? messageId = some entry)
    (hmissed : Missed start 0 entry seq) : seq < start.sendSequence := by
  by_contra hge
  let synced := step P ⟨queue, start, []⟩ (.sync 0 0)
  have hresent : sealedWith P start seq entry.plaintext ∈ synced.sealed :=
    mem_sealed_sync P ⟨queue, start, []⟩ hsized hwf hget hmissed 0
  have hseq := (hwf messageId entry hget seq hmissed.2.1).1
  have hlive : synced.session.Sized := hsized
  have hnumber : synced.session.sendSequence + (seq - start.sendSequence) =
      seq := add_sub_of_le (Nat.not_lt.mp hge)
  have hempty : Encryptable [] := zero_le _
  obtain ⟨ops, hkeep, hreach⟩ := exists_run_reaching P hempty
    (seq - start.sendSequence) hlive (by rw [hnumber]; exact hseq)
  rw [hnumber] at hreach
  exact hmissed.2.2.2 (hsafe (.sync 0 0 :: ops) _ (hkeep _ hresent) _ hreach
    rfl rfl rfl)

end

/-- The exact condition under which no run encrypts two plaintexts under one
nonce: the numbers stored in the queue at the start are spent. -/
theorem one_plaintext_per_nonce_iff (P : Primitives) {queue : QueueManager}
    (hreach : ReachableQueue P queue) {session : Session}
    (hsized : session.Sized) :
    (∀ ops, NonceFixesPlaintext session.encryptionKey
        (run (step P) ⟨queue, session, []⟩ ops).sealed) ↔
      StoredNumbersSpent queue session := by
  constructor
  · intro hsafe messageId entry seq hget hmissed
    refine ⟨stored_number_lt hsized hreach.wellFormed hsafe hget hmissed, ?_⟩
    intro otherId other hother hmissedOther
    have hfirst := mem_sealed_sync P ⟨queue, session, []⟩ hsized
      hreach.wellFormed hget hmissed 0
    have hsecond := mem_sealed_sync P ⟨queue, session, []⟩ hsized
      hreach.wellFormed hother hmissedOther 0
    exact hsafe [.sync 0 0] _ hsecond _ hfirst rfl rfl rfl
  · intro hspent ops
    exact nonceFixesPlaintext_run hsized hspent ops

namespace NonceReuseWitness

open Reference

instance (key : Bytes) (history : List SealedData) :
    Decidable (NonceFixesPlaintext key history) :=
  inferInstanceAs (Decidable (∀ left ∈ history, ∀ right ∈ history, _))

def peer : PeerId := replicate 32 7

/-- Sessions with one peer, told apart by the fill of their id and key. -/
def session (fill : UInt8) (sendSequence : Nat) : Session where
  sessionId := replicate 8 fill
  encryptionKey := replicate 32 fill
  remotePeerId := peer
  sendSequence := sendSequence

theorem session_sized (fill : UInt8) (sendSequence : Nat) :
    (session fill sendSequence).Sized :=
  ⟨by simp [session], by simp [session]⟩

/-- The queue after one message went out under an earlier session. -/
def dispatchedQueue : QueueManager :=
  (run (step primitives) ⟨.empty, session 1 1, []⟩
    [.enqueue 1 peer [104, 105], .build 1 0]).queue

theorem dispatchedQueue_reachable : ReachableQueue primitives dispatchedQueue :=
  ReachableQueue.run ⟨.empty, session 1 1, []⟩ .empty (session_sized 1 1) _

/-- After a reconnect without floors, a SYNC and a new message meet at
number 1. -/
theorem sync_then_build_reuses_nonce :
    ReachableQueue primitives dispatchedQueue ∧ (session 2 1).Sized ∧
      ¬ NonceFixesPlaintext (session 2 1).encryptionKey (run (step primitives)
          ⟨dispatchedQueue, session 2 1, []⟩
          [.sync 0 0, .enqueue 2 peer [98], .build 2 0]).sealed :=
  ⟨dispatchedQueue_reachable, session_sized 2 1, by decide⟩

/-- With the counter raised above the stored number every run is safe. -/
theorem raised_counter_one_plaintext_per_nonce :
    ReachableQueue primitives dispatchedQueue ∧
      ∀ ops, NonceFixesPlaintext (session 2 2).encryptionKey
        (run (step primitives)
          ⟨dispatchedQueue, session 2 2, []⟩ ops).sealed := by
  refine ⟨dispatchedQueue_reachable, (one_plaintext_per_nonce_iff primitives
      dispatchedQueue_reachable (session_sized 2 2)).mpr ?_⟩
  have honly : ∀ messageId entry, dispatchedQueue.get? messageId = some entry →
      messageId = 1 ∧ entry = ⟨peer, .pending, 0, [104, 105], some 1, some 0⟩ := by
    intro messageId entry hget
    have hmem := (mem_entries_iff dispatchedQueue).mpr hget
    have hentries : dispatchedQueue.entries =
        [(1, ⟨peer, .pending, 0, [104, 105], some 1, some 0⟩)] := by decide
    rw [hentries, mem_singleton, Prod.mk.injEq] at hmem
    exact hmem
  intro messageId entry seq hget hmissed
  obtain ⟨_, rfl⟩ := honly messageId entry hget
  have hseq : 1 = seq := Option.some.inj hmissed.2.1
  refine ⟨hseq ▸ (by decide), ?_⟩
  intro otherId other hother _
  rw [(honly otherId other hother).2]

end NonceReuseWitness

end AshiChat
