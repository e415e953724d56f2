/-
One direction of one session over a link that neither loses nor reorders.  A
packet of `build_data_packet` waits for three database writes before it is
handed to the transport; the tasks behind it get their answers in the same
order, so built packets leave in the order of their numbers.  A SYNC
retransmission goes out at once, under the number the message has in the
queue, which may be one of an earlier session.
-/
import AshiChat.Endpoint
import AshiChat.Reference

namespace AshiChat

open QueueManager EventRun List

/-- Which call made a packet. -/
inductive DataOrigin where
  | built | retransmitted
deriving DecidableEq

structure InTransit where
  origin : DataOrigin
  sealed : SealedData
deriving DecidableEq

def SealedData.number (data : SealedData) : Nat := data.payload.sequenceNumber

def InTransit.number (packet : InTransit) : Nat := packet.sealed.number

/-- A sender, the packets its tasks have built and not yet handed over, the
link, and the receiver's session object. -/
structure DataLink where
  sender : Endpoint
  outgoing : List SealedData := []
  channel : List InTransit := []
  receiver : Session

inductive DataLinkEvent where
  | call (op : EndpointOp)
  | acknowledge (peerId : PeerId) (sequenceNumber : Nat)
  /-- `_send_to` of the task that built first. -/
  | transmit
  /-- The receiver's `decrypt_data_packet`. -/
  | deliver

namespace DataLink

variable (P : Primitives)

def step (link : DataLink) : DataLinkEvent → DataLink
  | .call op =>
    let sender := link.sender.step P op
    let new := sender.sealed.drop link.sender.sealed.length
    match op with
    | .build _ _ =>
      { link with sender := sender, outgoing := link.outgoing ++ new }
    | _ =>
      { link with
        sender := sender
        channel := link.channel ++ new.map (⟨.retransmitted, ·⟩) }
  | .acknowledge peerId sequenceNumber =>
    { link with
      sender := { link.sender with
        queue := (link.sender.queue.acknowledgeBySequence peerId
          sequenceNumber).1 } }
  | .transmit =>
    match link.outgoing with
    | [] => link
    | data :: rest =>
      { link with
        outgoing := rest
        channel := link.channel ++ [⟨.built, data⟩] }
  | .deliver =>
    match link.channel with
    | [] => link
    | packet :: rest =>
      { link with
        channel := rest
        receiver :=
          (decryptDataPacket P packet.sealed.payload link.receiver).2 }

/-- `decrypt_data_packet` returns a message. -/
def Accepted (payload : DataPayload) (session : Session) : Prop :=
  ∃ plaintext, (decryptDataPacket P payload session).1 = .ok (some plaintext)

instance (payload : DataPayload) (session : Session) :
    Decidable (Accepted P payload session) :=
  match hresult : (decryptDataPacket P payload session).1 with
  | .ok (some plaintext) => isTrue ⟨plaintext, hresult⟩
  | .ok none => isFalse fun ⟨_, hsome⟩ => by
      rw [hresult] at hsome
      cases hsome
  | .error _ => isFalse fun ⟨_, hsome⟩ => by
      rw [hresult] at hsome
      cases hsome

/-- A built packet that arrives is accepted. -/
def AcceptsBuilt (link : DataLink) : DataLinkEvent → Prop
  | .deliver => ∀ packet ∈ link.channel.head?, packet.origin = .built →
      Accepted P packet.sealed.payload link.receiver
  | _ => True

/-- A SYNC asks only for numbers below those of the waiting packets and below
the next number of the session. -/
def SyncsBehind (link : DataLink) : DataLinkEvent → Prop
  | .call (.sync peerHighest _) =>
    ∀ item ∈ link.sender.queue.entries, ∀ seq ∈ item.2.sequenceNumber,
      Missed link.sender.session peerHighest item.2 seq →
        seq < link.sender.session.sendSequence ∧
          ∀ data ∈ link.outgoing, seq < data.number
  | _ => True

instance (link : DataLink) (event : DataLinkEvent) :
    Decidable (AcceptsBuilt P link event) := by
  cases event with
  | deliver =>
    exact inferInstanceAs (Decidable (∀ packet ∈ link.channel.head?,
      _ → Accepted P packet.sealed.payload link.receiver))
  | _ => exact inferInstanceAs (Decidable True)

instance (link : DataLink) (event : DataLinkEvent) :
    Decidable (SyncsBehind link event) := by
  cases event with
  | call op =>
    cases op with
    | sync peerHighest =>
      exact inferInstanceAs (Decidable (∀ item ∈
        link.sender.queue.entries, ∀ seq ∈ item.2.sequenceNumber,
          Missed link.sender.session peerHighest item.2 seq → _ ∧
            ∀ data ∈ link.outgoing, _))
    | _ => exact inferInstanceAs (Decidable True)
  | _ => exact inferInstanceAs (Decidable True)

/-- The receive counter once the packets have arrived. -/
def highest (recv : Nat) (packets : List InTransit) : Nat :=
  packets.foldl (fun bound packet => max bound packet.number) recv

variable (recv : Nat)

theorem highest_append (first second : List InTransit) :
    highest recv (first ++ second) = highest (highest recv first) second :=
  foldl_append

/-- No built packet has a number that the receiver has passed when it
arrives. -/
def Unseen : Nat → List InTransit → Prop
  | _, [] => True
  | recv, packet :: rest =>
    (packet.origin = .built → recv < packet.number) ∧
      Unseen (max recv packet.number) rest

theorem unseen_append (first second : List InTransit) :
    Unseen recv (first ++ second) ↔
      Unseen recv first ∧ Unseen (highest recv first) second := by
  induction first generalizing recv with
  | nil => simp [Unseen, highest]
  | cons _ _ ih =>
    simp only [cons_append, Unseen, ih, highest, foldl_cons]
    tauto

theorem unseen_retransmitted (new : List SealedData) :
    Unseen recv (new.map (⟨.retransmitted, ·⟩)) := by
  induction new generalizing recv with
  | nil => trivial
  | cons _ _ ih =>
    refine ⟨?_, ih _⟩
    rintro ⟨⟩

theorem highest_lt {recv bound : Nat} {packets : List InTransit}
    (hrecv : recv < bound) (hall : ∀ packet ∈ packets, packet.number < bound) :
    highest recv packets < bound := by
  induction packets generalizing recv with
  | nil => exact hrecv
  | cons _ _ ih =>
    obtain ⟨hpacket, hrest⟩ := forall_mem_cons.mp hall
    exact ih (max_lt hrecv hpacket) hrest

/-- What is sealed under the session of the link. -/
def SealedFor (session : Session) (data : SealedData) : Prop :=
  ∃ seq plaintext, seq < 2 ^ 32 ∧ data = sealedWith P session seq plaintext

/-- The numbers to come, from what the link holds to the next draw, strictly
increase. -/
def upcoming (link : DataLink) : List Nat :=
  highest link.receiver.recvSequence link.channel ::
    (link.outgoing.map SealedData.number ++ [link.sender.session.sendSequence])

structure InOrder (link : DataLink) : Prop where
  sized : link.sender.session.Sized
  sessionId : link.receiver.sessionId = link.sender.session.sessionId
  encryptionKey :
    link.receiver.encryptionKey = link.sender.session.encryptionKey
  outgoing : ∀ data ∈ link.outgoing, SealedFor P link.receiver data
  channel : ∀ packet ∈ link.channel, SealedFor P link.receiver packet.sealed
  unseen : Unseen link.receiver.recvSequence link.channel
  increasing : link.upcoming.Pairwise (· < ·)

variable {P} {link : DataLink}

theorem SealedFor.congr {left right : Session} {data : SealedData}
    (hsealed : SealedFor P left data) (hid : left.sessionId = right.sessionId)
    (hkey : left.encryptionKey = right.encryptionKey) :
    SealedFor P right data := by
  obtain ⟨seq, plaintext, hseq, rfl⟩ := hsealed
  exact ⟨seq, plaintext, hseq, sealedWith_congr P hid hkey seq plaintext⟩

/-- The receiver decrypts what passes its replay check, and its counter moves
to the larger number either way. -/
theorem decryptDataPacket_of_sealedFor (hideal : P.IdealAead)
    {session : Session} (hsized : session.Sized) {data : SealedData}
    (hsealed : SealedFor P session data) :
    (session.recvSequence < data.number → Accepted P data.payload session) ∧
      (decryptDataPacket P data.payload session).2 = { session with
          recvSequence := max session.recvSequence data.number } := by
  obtain ⟨seq, plaintext, hseq, rfl⟩ := hsealed
  have hdecrypt := decryptDataPacket_sealPayload hideal.undoes hsized.keyed
    hseq plaintext
  simp only [SealedData.number, sealedWith_payload,
    sealPayload_sequenceNumber, hdecrypt]
  by_cases hlt : session.recvSequence < seq
  · simp [Accepted, hdecrypt, Session.checkRecvSequence,
      Session.advanceRecvSequence, hlt, Nat.max_eq_right hlt.le]
  · simp [Session.checkRecvSequence, hlt, Nat.max_eq_left (Nat.not_lt.mp hlt)]

theorem InOrder.receiver_sized (horder : InOrder P link) :
    link.receiver.Sized :=
  horder.sized.congr horder.sessionId horder.encryptionKey

/-- A call that builds nothing and sends nothing. -/
theorem InOrder.queue (horder : InOrder P link) (queue : QueueManager) :
    InOrder P { link with sender := { link.sender with queue := queue } } :=
  ⟨horder.sized, horder.sessionId, horder.encryptionKey, horder.outgoing,
    horder.channel, horder.unseen, horder.increasing⟩

theorem InOrder.deliver (hideal : P.IdealAead) (horder : InOrder P link) :
    InOrder P (link.step P .deliver) := by
  simp only [step]
  split
  · exact horder
  · next packet _ hchannel =>
    obtain ⟨-, hmoved⟩ := decryptDataPacket_of_sealedFor hideal
      horder.receiver_sized (horder.channel packet (hchannel ▸ mem_cons_self))
    have hunseen := horder.unseen
    have hincreasing := horder.increasing
    simp only [upcoming, hchannel] at hunseen hincreasing
    rw [hmoved]
    refine ⟨horder.sized, horder.sessionId, horder.encryptionKey, ?_, ?_,
      hunseen.2, hincreasing⟩
    · intro data hmem
      exact (horder.outgoing data hmem).congr rfl rfl
    · intro other hmem
      exact (horder.channel other
        (hchannel ▸ mem_cons_of_mem _ hmem)).congr rfl rfl

theorem InOrder.transmit (horder : InOrder P link) :
    InOrder P (link.step P .transmit) := by
  simp only [step]
  split
  · exact horder
  · next data _ houtgoing =>
    have hincreasing := horder.increasing
    simp only [upcoming, houtgoing, map_cons, cons_append] at hincreasing
    have hahead : highest link.receiver.recvSequence link.channel <
        data.number :=
      (pairwise_cons.mp hincreasing).1 _ mem_cons_self
    refine ⟨horder.sized, horder.sessionId, horder.encryptionKey, ?_, ?_,
      ?_, ?_⟩
    · intro other hmem
      exact horder.outgoing other (houtgoing ▸ mem_cons_of_mem _ hmem)
    · intro packet hmem
      rcases mem_append.mp hmem with hmem | hmem
      · exact horder.channel packet hmem
      · rw [mem_singleton.mp hmem]
        exact horder.outgoing data (houtgoing ▸ mem_cons_self)
    · exact (unseen_append ..).mpr ⟨horder.unseen, fun _ => hahead, trivial⟩
    · have hmax : highest link.receiver.recvSequence
          (link.channel ++ [⟨.built, data⟩]) = data.number := by
        rw [highest_append]
        exact Nat.max_eq_right hahead.le
      rw [upcoming, hmax]
      exact (pairwise_cons.mp hincreasing).2

/-- A strictly increasing list goes on above its last number. -/
theorem pairwise_snoc {numbers : List Nat} {last next : Nat}
    (hincreasing : (numbers ++ [last]).Pairwise (· < ·)) (hlt : last < next) :
    (numbers ++ [last] ++ [next]).Pairwise (· < ·) := by
  refine pairwise_append.mpr ⟨hincreasing, pairwise_singleton .., ?_⟩
  intro number hmem other hother
  rw [mem_singleton.mp hother]
  rcases mem_append.mp hmem with hmem | hmem
  · exact ((pairwise_append.mp hincreasing).2.2 number hmem last
      mem_cons_self).trans hlt
  · rwa [mem_singleton.mp hmem]

theorem InOrder.build (horder : InOrder P link) (messageId : MessageId)
    (now : ℚ) : InOrder P (link.step P (.call (.build messageId now))) := by
  have hnext : (highest link.receiver.recvSequence link.channel ::
      link.outgoing.map SealedData.number ++
        [link.sender.session.sendSequence] ++
        [link.sender.session.sendSequence + 1]).Pairwise (· < ·) :=
    pairwise_snoc horder.increasing (Nat.lt_succ_self _)
  simp only [step]
  rcases Endpoint.step_build_cases P horder.sized messageId now with
    ⟨_, hstep⟩ | ⟨plaintext, _, hseq, _, hstep⟩ | ⟨_, _, _, hstep⟩
  · rw [hstep, drop_length, append_nil]
    exact horder
  · rw [hstep, drop_left]
    refine ⟨⟨horder.sized.sessionId, horder.sized.encryptionKey⟩,
      horder.sessionId, horder.encryptionKey, ?_, horder.channel,
      horder.unseen, ?_⟩
    · intro data hmem
      rcases mem_append.mp hmem with hmem | hmem
      · exact horder.outgoing data hmem
      · rw [mem_singleton.mp hmem]
        refine ⟨_, plaintext, hseq, ?_⟩
        exact sealedWith_congr P horder.sessionId.symm
          horder.encryptionKey.symm _ _
    · simpa [upcoming, Session.nextSequence, SealedData.number] using hnext
  · rw [hstep, drop_length, append_nil]
    refine ⟨⟨horder.sized.sessionId, horder.sized.encryptionKey⟩,
      horder.sessionId, horder.encryptionKey, horder.outgoing, horder.channel,
      horder.unseen, ?_⟩
    -- The number drawn in vain is left out.
    have hskip : (highest link.receiver.recvSequence link.channel ::
        link.outgoing.map SealedData.number ++
          [link.sender.session.sendSequence + 1]).Pairwise (· < ·) :=
      hnext.sublist (List.Sublist.append_right (sublist_append_left ..) _)
    exact hskip

/-- What a SYNC puts on the link. -/
theorem sealed_sync (P : Primitives) (endpoint : Endpoint)
    (hsized : endpoint.session.Sized) (peerHighest : Nat) (now : ℚ) :
    ∃ new, (endpoint.step P (.sync peerHighest now)).sealed =
        endpoint.sealed ++ new ∧
      ∀ data ∈ new, SealedFor P endpoint.session data ∧
        ∃ item ∈ endpoint.queue.entries,
          item.2.sequenceNumber = some data.number ∧
            Missed endpoint.session peerHighest item.2 data.number := by
  refine ⟨_, rfl, ?_⟩
  intro data hmem
  obtain ⟨resent, hresent, rfl⟩ := mem_map.mp hmem
  obtain ⟨_, seq, hentry, hmissed, hseal⟩ :=
    resendMissed_sound P endpoint.session peerHighest now
      (SameCore.refl endpoint.queue) endpoint.queue.entries
      (fun _ hmem => OrderedDict.get?_eq_of_mem_entries _ hmem) resent hresent
  obtain ⟨hseq, _, hsealed⟩ := sealData_eq_ok hsized hseal
  have hnumber : resent.2.sealed.number = seq := by
    rw [hsealed]
    rfl
  rw [hnumber]
  exact ⟨⟨seq, _, hseq, hsealed⟩, _, hentry, hmissed.2.1, hmissed⟩

theorem InOrder.sync (horder : InOrder P link) (peerHighest : Nat) (now : ℚ)
    (hbehind : SyncsBehind link (.call (.sync peerHighest now))) :
    InOrder P (link.step P (.call (.sync peerHighest now))) := by
  obtain ⟨_, hnew, hfrom⟩ := sealed_sync P link.sender horder.sized
    peerHighest now
  simp only [step, hnew, drop_left]
  obtain ⟨hahead, htail⟩ := pairwise_cons.mp horder.increasing
  refine ⟨horder.sized, horder.sessionId, horder.encryptionKey,
    horder.outgoing, ?_, ?_, ?_⟩
  · intro packet hmem
    rcases mem_append.mp hmem with hmem | hmem
    · exact horder.channel packet hmem
    · obtain ⟨data, hdata, rfl⟩ := mem_map.mp hmem
      exact (hfrom data hdata).1.congr horder.sessionId.symm
        horder.encryptionKey.symm
  · exact (unseen_append ..).mpr ⟨horder.unseen, unseen_retransmitted ..⟩
  · refine pairwise_cons.mpr ⟨?_, htail⟩
    intro next hnext
    dsimp only
    rw [highest_append]
    apply highest_lt (hahead next hnext)
    intro packet hmem
    obtain ⟨data, hdata, rfl⟩ := mem_map.mp hmem
    obtain ⟨-, item, hitem, hnumber, hmissed⟩ := hfrom data hdata
    obtain ⟨hsend, hwaiting⟩ := hbehind item hitem _ hnumber hmissed
    rcases mem_append.mp hnext with hnext | hnext
    · obtain ⟨waiting, hmem', rfl⟩ := mem_map.mp hnext
      exact hwaiting waiting hmem'
    · rw [mem_singleton.mp hnext]
      exact hsend

theorem InOrder.step (hideal : P.IdealAead) (horder : InOrder P link)
    (event : DataLinkEvent) (hbehind : SyncsBehind link event) :
    InOrder P (link.step P event) := by
  cases event with
  | call op =>
    cases op with
    | build messageId now => exact horder.build messageId now
    | sync peerHighest now => exact horder.sync peerHighest now hbehind
    | enqueue =>
      simp only [DataLink.step, Endpoint.step]
      split <;> simpa using horder.queue _
    | ack => simpa [DataLink.step, Endpoint.step] using horder.queue _
    | timeout =>
      simpa [DataLink.step, Endpoint.step] using horder.queue _
  | acknowledge => exact horder.queue _
  | transmit => exact horder.transmit
  | deliver => exact horder.deliver hideal

theorem InOrder.accepts (hideal : P.IdealAead) (horder : InOrder P link)
    (event : DataLinkEvent) : AcceptsBuilt P link event := by
  cases event with
  | deliver =>
    intro packet hhead hbuilt
    obtain ⟨_, hchannel⟩ := head?_eq_some_iff.mp hhead
    have hunseen := horder.unseen
    rw [hchannel] at hunseen
    exact (decryptDataPacket_of_sealedFor hideal horder.receiver_sized
      (horder.channel packet (hchannel ▸ mem_cons_self))).1 (hunseen.1 hbuilt)
  | _ => trivial

end DataLink

open DataLink

/-- Over a link that neither loses nor reorders, from a new session whose first
number the receiver has not passed, and as long as every SYNC asks only for
numbers below those still to come, every packet of `build_data_packet` is
accepted. -/
theorem built_packets_accepted (P : Primitives) (hideal : P.IdealAead)
    (sender : Endpoint) (receiver : Session) (hsized : sender.session.Sized)
    (hid : receiver.sessionId = sender.session.sessionId)
    (hkey : receiver.encryptionKey = sender.session.encryptionKey)
    (hstart : receiver.recvSequence < sender.session.sendSequence)
    (events : List DataLinkEvent)
    (hbehind : EveryStep (DataLink.step P) SyncsBehind
      { sender := sender, receiver := receiver } events) :
    EveryStep (DataLink.step P) (AcceptsBuilt P)
      { sender := sender, receiver := receiver } events := by
  have hinitial : InOrder P { sender := sender, receiver := receiver } :=
    ⟨hsized, hid, hkey, by simp, by simp, trivial, pairwise_pair.mpr hstart⟩
  have hstep : ∀ link event, InOrder P link → SyncsBehind link event →
      InOrder P (link.step P event) :=
    fun _ event horder hgood => horder.step hideal event hgood
  have haccepts : ∀ link event, InOrder P link → SyncsBehind link event →
      AcceptsBuilt P link event :=
    fun _ event horder _ => horder.accepts hideal event
  exact everyStep_of_good hstep haccepts hinitial hbehind

namespace SyncReplayWitness

open Reference

def session (number : UInt8) : Session where
  sessionId := replicate 8 number
  encryptionKey := replicate 32 number
  remotePeerId := replicate 32 2

/-- A message sent and acknowledged in a first session. -/
def afterFirstSession : Endpoint := run (Endpoint.step primitives)
    ⟨.empty, session 1, []⟩
    [.enqueue 1 (replicate 32 2) (ascii "one"), .build 1 0,
      .ack ⟨replicate 8 1, 1⟩]

/-- The same queue in a second session, whose counters are new. -/
def secondSession : DataLink where
  sender := { afterFirstSession with session := session 2 }
  receiver := session 2

def send (messageId : MessageId) : List DataLinkEvent :=
  [.call (.enqueue messageId (replicate 32 2) (ascii "two")),
    .call (.build messageId 1), .transmit, .deliver]

/-- The receiver announces that it has nothing; the old message goes out
again as number 1, and so does the next one. -/
def afterSync : List DataLinkEvent := .call (.sync 0 1) :: .deliver :: send 2

theorem fresh_message_dropped : ¬ EveryStep (DataLink.step primitives)
      (AcceptsBuilt primitives) secondSession afterSync := by
  decide +kernel

theorem built_packets_accepted_two_sends : EveryStep (DataLink.step primitives)
      (AcceptsBuilt primitives)
      { sender := ⟨.empty, session 1, []⟩, receiver := session 1 }
      (send 1 ++ .call (.sync 0 1) :: send 2) :=
  built_packets_accepted primitives idealAead
    ⟨.empty, session 1, []⟩ (session 1) ⟨rfl, rfl⟩ rfl rfl (by decide)
    (send 1 ++ .call (.sync 0 1) :: send 2) (by decide +kernel)

end SyncReplayWitness

end AshiChat
