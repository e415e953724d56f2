/-
The two endpoints of one session.  A handshake gives both the same session id
and the same key, and each numbers its own packets from its own counter.
-/
import AshiChat.Endpoint
import AshiChat.Handshake
import AshiChat.Reference

namespace AshiChat

open QueueManager Endpoint EventRun Session List Option

structure SessionPair where
  left : Endpoint
  right : Endpoint

namespace SessionPair

def get (pair : SessionPair) : Side → Endpoint
  | .left => pair.left
  | .right => pair.right

def put (pair : SessionPair) (endpoint : Endpoint) : Side → SessionPair
  | .left => { pair with left := endpoint }
  | .right => { pair with right := endpoint }

end SessionPair

/-- The calls behind `send_message`. -/
inductive SendOp where
  | enqueue (messageId : MessageId) (receiver : PeerId) (plaintext : Bytes)
  | build (messageId : MessageId) (now : ℚ)
deriving DecidableEq

def SendOp.toOp : SendOp → EndpointOp
  | .enqueue messageId receiver plaintext =>
    .enqueue messageId receiver plaintext
  | .build messageId now => .build messageId now

def Endpoint.send (P : Primitives) (endpoint : Endpoint) (op : SendOp) :
    Endpoint :=
  endpoint.step P op.toOp

/-- The message a call finds queued, and for which it draws a number. -/
def Endpoint.draw? (endpoint : Endpoint) : SendOp → Option Bytes
  | .enqueue .. => none
  | .build messageId _ => readyPlaintext? endpoint.queue messageId

/-- The messages for which a run draws numbers, in order. -/
def drawn (P : Primitives) : Endpoint → List SendOp → List Bytes
  | _, [] => []
  | endpoint, op :: rest =>
    (endpoint.draw? op).toList ++ drawn P (endpoint.send P op) rest

/-- What consecutive numbers from `seq` on encrypt.  A message that is too
long, or a number that does not fit its field, raises and leaves a gap. -/
def sealNumbered (P : Primitives) (session : Session) :
    Nat → List Bytes → List SealedData
  | _, [] => []
  | seq, plaintext :: rest =>
    (if seq < 2 ^ 32 ∧ Encryptable plaintext then
      [sealedWith P session seq plaintext] else []) ++
      sealNumbered P session (seq + 1) rest

theorem mem_sealNumbered {P : Primitives} {session : Session} {seq : Nat}
    {plaintexts : List Bytes} {sealed : SealedData} :
    sealed ∈ sealNumbered P session seq plaintexts ↔
      ∃ i plaintext, plaintexts[i]? = some plaintext ∧ seq + i < 2 ^ 32 ∧
        Encryptable plaintext ∧
        sealed = sealedWith P session (seq + i) plaintext := by
  induction plaintexts generalizing seq with
  | nil => simp [sealNumbered]
  | cons head _ ih =>
    simp only [sealNumbered, mem_append, ih]
    constructor
    · rintro (hhead | ⟨i, plaintext, hget, hlt, hplain, hsealed⟩)
      · split at hhead
        · next hok =>
          rw [mem_singleton] at hhead
          exact ⟨0, head, rfl, hok.1, hok.2, hhead⟩
        · simp at hhead
      · have hshift : seq + 1 + i = seq + (i + 1) := by omega
        exact ⟨i + 1, plaintext, hget, hshift ▸ hlt, hplain, hshift ▸ hsealed⟩
    · rintro ⟨i, plaintext, hget, hlt, hplain, hsealed⟩
      cases i with
      | zero =>
        rw [getElem?_cons_zero, some.injEq] at hget
        subst hget
        left
        rw [if_pos ⟨hlt, hplain⟩, hsealed]
        exact mem_cons_self
      | succ i =>
        have hshift : seq + (i + 1) = seq + 1 + i := by omega
        exact Or.inr ⟨i, plaintext, hget, hshift ▸ hlt, hplain,
          hshift ▸ hsealed⟩

variable (P : Primitives)

theorem sealNumbered_congr {left right : Session}
    (hid : left.sessionId = right.sessionId)
    (hkey : left.encryptionKey = right.encryptionKey) (seq : Nat)
    (plaintexts : List Bytes) :
    sealNumbered P left seq plaintexts =
      sealNumbered P right seq plaintexts := by
  induction plaintexts generalizing seq with
  | nil => rfl
  | cons _ _ ih =>
    simp only [sealNumbered, ih, sealedWith_congr P hid hkey]

/-- A run of sends encrypts the drawn messages under consecutive numbers. -/
theorem sealed_run_send {endpoint : Endpoint}
    (hsized : endpoint.session.Sized) (ops : List SendOp) :
    (run (send P) endpoint ops).sealed = endpoint.sealed ++
      sealNumbered P endpoint.session endpoint.session.sendSequence
        (drawn P endpoint ops) := by
  induction ops generalizing endpoint with
  | nil => simp [drawn, sealNumbered]
  | cons op _ ih =>
    have hlive : (endpoint.send P op).session.Sized :=
      sized_step P hsized op.toOp
    rw [run_cons, ih hlive]
    cases op with
    | enqueue messageId receiver plaintext =>
      have hsame : (endpoint.send P
          (.enqueue messageId receiver plaintext)).session = endpoint.session ∧
          (endpoint.send P (.enqueue messageId receiver plaintext)).sealed =
            endpoint.sealed := by
        simp only [send, SendOp.toOp, step]
        split <;> exact ⟨rfl, rfl⟩
      simp [drawn, draw?, hsame.1, hsame.2]
    | build messageId now =>
      simp only [drawn, draw?, send, SendOp.toOp]
      rcases step_build_cases P hsized messageId now with
        ⟨hready, hstep⟩ | ⟨plaintext, hready, hseq, hplain, hstep⟩ |
          ⟨plaintext, hready, hbad, hstep⟩
      · rw [hstep, hready]
        rfl
      · rw [hstep, hready]
        simp only [toList_some, cons_append, nil_append,
          sealNumbered, hseq, hplain, and_self, ↓reduceIte, append_assoc]
        rw [sealNumbered_congr P (nextSequence_sessionId endpoint.session)
          (nextSequence_encryptionKey endpoint.session)]
        rfl
      · rw [hstep, hready]
        simp only [toList_some, cons_append, nil_append,
          sealNumbered, hbad, ↓reduceIte]
        rw [sealNumbered_congr P (nextSequence_sessionId endpoint.session)
          (nextSequence_encryptionKey endpoint.session)]
        rfl

/-- One call on one of the two endpoints. -/
def SessionPair.sendStep (P : Primitives) (pair : SessionPair)
    (event : Side × SendOp) : SessionPair :=
  pair.put ((pair.get event.1).send P event.2) event.1

/-- The calls an interleaving makes on one endpoint. -/
def callsOn (side : Side) (events : List (Side × SendOp)) : List SendOp :=
  events.filterMap fun event => if event.1 = side then some event.2 else none

/-- Interleaving does not matter to an endpoint: it sees its own calls. -/
theorem get_run_sendStep (pair : SessionPair) (side : Side)
    (events : List (Side × SendOp)) :
    (run (SessionPair.sendStep P) pair events).get side =
      run (send P) (pair.get side) (callsOn side events) := by
  refine run_component (fun pair : SessionPair => pair.get side) (fun event =>
    if event.1 = side then some event.2 else none) ?_ ?_ pair events
  · rintro pair ⟨owner, op⟩ hown
    cases owner <;> cases side <;> first | rfl | simp at hown
  · rintro pair ⟨owner, op⟩ own hown
    cases owner <;> cases side <;> simp at hown <;> subst hown <;> rfl

/-- The endpoints as two handshake handlers leave them. -/
def establishedPair (initiator responder : SessionKeys)
    (floorsLeft floorsRight : SequenceFloors)
    (queueLeft queueRight : QueueManager) : SessionPair where
  left := ⟨queueLeft, establish floorsLeft initiator, []⟩
  right := ⟨queueRight, establish floorsRight responder, []⟩

/-- No encryption of one history shares key and nonce with one of the
other. -/
def NoncesApart (left right : List SealedData) : Prop :=
  ∀ x ∈ left, ∀ y ∈ right, ¬ (x.encryption.key = y.encryption.key ∧
    x.encryption.nonce = y.encryption.nonce)

/-- Counting on from the two counters, no number comes up for an encryptable
message on both sides. -/
def NumbersApart (startLeft startRight : Nat)
    (drawnLeft drawnRight : List Bytes) : Prop :=
  ∀ i j p q, drawnLeft[i]? = some p → drawnRight[j]? = some q →
    Encryptable p → Encryptable q → startLeft + i = startRight + j →
    2 ^ 32 ≤ startLeft + i

theorem noncesApart_sealNumbered_iff {left right : Session}
    (hid : left.sessionId = right.sessionId)
    (hkey : left.encryptionKey = right.encryptionKey)
    (startLeft startRight : Nat) (drawnLeft drawnRight : List Bytes) :
    NoncesApart (sealNumbered P left startLeft drawnLeft)
        (sealNumbered P right startRight drawnRight) ↔
      NumbersApart startLeft startRight drawnLeft drawnRight := by
  constructor
  · intro hapart i j p q hp hq hencp hencq heq
    by_contra hlt
    have hi : startLeft + i < 2 ^ 32 := Nat.not_le.mp hlt
    have hj : startRight + j < 2 ^ 32 := heq ▸ hi
    refine hapart _ (mem_sealNumbered.mpr ⟨i, p, hp, hi, hencp, rfl⟩) _
      (mem_sealNumbered.mpr ⟨j, q, hq, hj, hencq, rfl⟩) ⟨hkey, ?_⟩
    exact (sealCall_nonce_eq_iff hid hi hj p q).mpr heq
  · rintro hnumbers x hx y hy ⟨_, hnonce⟩
    obtain ⟨i, p, hp, hi, hencp, rfl⟩ := mem_sealNumbered.mp hx
    obtain ⟨j, q, hq, hj, hencq, rfl⟩ := mem_sealNumbered.mp hy
    have heq := (sealCall_nonce_eq_iff hid hi hj p q).mp hnonce
    exact Nat.not_le.mpr hi (hnumbers i j p q hp hq hencp hencq heq)

/-- The exact condition under which the two directions of a session never
share a nonce, for every handshake and every interleaving of sends. -/
theorem directions_nonces_apart_iff {initiator responder : SessionKeys}
    (hshared : SharedKeys initiator responder)
    (floorsLeft floorsRight : SequenceFloors)
    (queueLeft queueRight : QueueManager) (events : List (Side × SendOp)) :
    let pair := establishedPair initiator responder floorsLeft floorsRight
      queueLeft queueRight
    let final := run (SessionPair.sendStep P) pair events
    NoncesApart final.left.sealed final.right.sealed ↔
      NumbersApart pair.left.session.sendSequence
        pair.right.session.sendSequence
        (drawn P pair.left (callsOn .left events))
        (drawn P pair.right (callsOn .right events)) := by
  intro pair final
  have hleft : pair.left.session.Sized :=
    ⟨by simpa [pair, establishedPair] using hshared.length_sessionId,
      by simpa [pair, establishedPair] using hshared.length_encryptionKey⟩
  have hright : pair.right.session.Sized :=
    ⟨by simpa [pair, establishedPair, ← hshared.sessionId]
        using hshared.length_sessionId,
      by simpa [pair, establishedPair, ← hshared.encryptionKey]
        using hshared.length_encryptionKey⟩
  have hsealedLeft : final.left.sealed = _ :=
    (congrArg sealed (get_run_sendStep P pair .left events)).trans
      (sealed_run_send P hleft (callsOn .left events))
  have hsealedRight : final.right.sealed = _ :=
    (congrArg sealed (get_run_sendStep P pair .right events)).trans
      (sealed_run_send P hright (callsOn .right events))
  rw [hsealedLeft, hsealedRight]
  exact noncesApart_sealNumbered_iff P
    (by simpa [pair, establishedPair] using hshared.sessionId)
    (by simpa [pair, establishedPair] using hshared.encryptionKey) _ _ _ _

namespace DirectionsWitness

/-- What one handshake leaves at the two ends. -/
def keysFor (remote : UInt8) : SessionKeys where
  encryptionKey := replicate 32 5
  sessionId := replicate 8 9
  remotePeerId := replicate 32 remote
  remotePublicKeyBytes := replicate 32 remote

theorem keysFor_shared : SharedKeys (keysFor 2) (keysFor 1) :=
  ⟨rfl, rfl, by decide, by decide⟩

/-- Each side sends one message. -/
def oneMessageEach : List (Side × SendOp) :=
  [(.left, .enqueue 1 (replicate 32 2) [104, 105]), (.left, .build 1 0),
    (.right, .enqueue 2 (replicate 32 1) [121, 111]),
    (.right, .build 2 0)]

instance (left right : List SealedData) : Decidable (NoncesApart left right) :=
  inferInstanceAs (Decidable (∀ x ∈ left, ∀ y ∈ right, _))

/-- Fresh counters on both sides: the first messages share a nonce. -/
theorem first_messages_share_nonce : SharedKeys (keysFor 2) (keysFor 1) ∧
      let final := run (SessionPair.sendStep Reference.primitives)
        (establishedPair (keysFor 2) (keysFor 1) .empty .empty .empty .empty)
        oneMessageEach
      ¬ NoncesApart final.left.sealed final.right.sealed :=
  ⟨keysFor_shared, by decide⟩

/-- A restart floor on one side keeps these two apart. -/
theorem floored_directions_nonces_apart : SharedKeys (keysFor 2) (keysFor 1) ∧
      let final := run (SessionPair.sendStep Reference.primitives)
        (establishedPair (keysFor 2) (keysFor 1)
          (OrderedDict.empty.set (replicate 32 2) (10, 0)) .empty
          .empty .empty) oneMessageEach
      NoncesApart final.left.sealed final.right.sealed := by
  refine ⟨keysFor_shared,
    (directions_nonces_apart_iff Reference.primitives keysFor_shared
      (OrderedDict.empty.set (replicate 32 2) (10, 0)) .empty .empty
      .empty oneMessageEach).mpr ?_⟩
  intro i j p q hp hq _ _ heq
  have hi : i < 1 := (List.getElem?_eq_some_iff.mp hp).1
  have hj : j < 1 := (List.getElem?_eq_some_iff.mp hq).1
  have hstart : (establish (OrderedDict.empty.set (replicate 32 2)
      (10, 0)) (keysFor 2)).sendSequence = 10 := by decide
  have hfresh : (establish .empty (keysFor 1)).sendSequence = 1 := by decide
  simp only [establishedPair, hstart, hfresh] at heq
  omega

end DirectionsWitness

end AshiChat
