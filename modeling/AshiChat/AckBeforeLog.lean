/-
The receiver's side of a DATA packet (`Node._handle_data`) up to its last
await: the packet is decrypted, the receive counter goes to the database, then
the ACK is handed to the transport, and only then the ciphertext is appended
to the peer's message log.  A crash may fall between any two file operations
of the append.
-/
import AshiChat.MessageLog
import AshiChat.QueueManager
import AshiChat.Reference
import AshiChat.Kit.EventRun

namespace AshiChat

open QueueManager EventRun LogFiles List

/-- A `_handle_data` coroutine that has accepted its packet. -/
structure DataHandler where
  peerId : PeerId
  payload : DataPayload
deriving DecidableEq

/-- `dp.ciphertext + dp.auth_tag` -/
def DataHandler.blob (handler : DataHandler) : Bytes :=
  handler.payload.ciphertext ++ handler.payload.authTag

/-- The handlers of a node, by the await they are at; between the ACK and the
end of the append there is none. -/
structure ReceivingNode where
  registry : SessionRegistry := .empty
  files : LogFiles := .empty
  /-- at `update_recv_sequence` -/
  waiting : List DataHandler := []
  /-- in the stretch that begins with the ACK -/
  appending : Option (DataHandler × AppendStage) := none
  /-- at `remember_endpoint` -/
  finishing : List DataHandler := []

inductive ReceiveEvent where
  | register (session : Session)
  | remove (sessionId : Bytes)
  | deliver (payload : DataPayload)
  | acknowledge (index : Nat)
  | fileOp
  | finish (index : Nat)
  | restart

/-- The largest UDP datagram. -/
def maxDatagram : Nat := 65507

namespace ReceivingNode

variable (P : Primitives) (config : LogConfig)

/-- `_handle_data` up to its first await. -/
def handleData (node : ReceivingNode) (payload : DataPayload) :
    ReceivingNode :=
  match node.registry.getBySessionId payload.sessionId with
  | none => node
  | some (ref, session) =>
    match decryptDataPacket P payload session with
    | (.ok (some _), session') =>
      { node with
        registry := node.registry.update ref session'
        waiting := node.waiting ++ [⟨session.remotePeerId, payload⟩] }
    | _ => node

/-- The ACK goes out and `append_message` begins; an exception of its
`struct.pack` ends the handler. -/
def sendAck (node : ReceivingNode) (index : Nat) : ReceivingNode :=
  match node.waiting[index]? with
  | none => node
  | some handler =>
    { node with
      waiting := node.waiting.eraseIdx index
      appending :=
        match buildEntry handler.blob with
        | .error _ => none
        | .ok _ => some (handler, .write) }

/-- The next file operation of the running append. -/
def fileOp (node : ReceivingNode) : ReceivingNode :=
  match node.appending with
  | none => node
  | some (handler, .done) =>
    { node with
      appending := none
      finishing := node.finishing ++ [handler] }
  | some (handler, stage) =>
    let after := appendStep config none node.files handler.peerId
      (entryLine handler.blob) stage
    { node with
      files := after.1
      appending := some (handler, after.2) }

/-- While an append runs, nothing else does. -/
def step (node : ReceivingNode) : ReceiveEvent → ReceivingNode
  | .fileOp => node.fileOp config
  | .restart => { files := node.files }
  | .register session =>
    match node.appending, node.registry.register session with
    | none, .ok registry => { node with registry := registry }
    | _, _ => node
  | .remove sessionId =>
    if node.appending = none then
      { node with registry := node.registry.remove sessionId }
    else node
  | .deliver payload =>
    if node.appending = none ∧
        payload.ciphertext.length + payload.authTag.length ≤ maxDatagram then
      node.handleData P payload
    else node
  | .acknowledge index =>
    if node.appending = none then node.sendAck index else node
  | .finish index =>
    if node.appending = none then
      { node with finishing := node.finishing.eraseIdx index }
    else node

/-- The handlers whose ACK has been handed to the transport. -/
def acknowledged (node : ReceivingNode) : List DataHandler :=
  (node.appending.map Prod.fst).toList ++ node.finishing

/-- If the node crashes here, every message it is handling and has
acknowledged is in the log of its sender. -/
def Survives (node : ReceivingNode) : Prop := ∀ handler ∈ node.acknowledged,
    Logged config node.files handler.peerId handler.blob

end ReceivingNode

/-- The new log has not been put in place yet. -/
def AppendStage.BeforeRename : AppendStage → Prop
  | .write | .sync | .rename => True
  | _ => False

namespace ReceivingNode

variable (config : LogConfig)

/-- No append is between its ACK and its rename, except of an entry that the
log has already. -/
def OutsideWindow (node : ReceivingNode) : Prop :=
  ∀ handler stage, node.appending = some (handler, stage) →
    stage.BeforeRename → Logged config node.files handler.peerId handler.blob

/-- A rotation does not unlink the message of a handler that has not
finished. -/
def KeepsUnfinished (node : ReceivingNode) : ReceiveEvent → Prop
  | .fileOp => ∀ running ∈ node.appending, running.2 = .unlink →
      ∀ other ∈ node.finishing, other.peerId = running.1.peerId →
        ∃ index < config.maxRotations,
          other.blob ∈ node.files.entriesOf (.log running.1.peerId index)
  | _ => True

instance (node : ReceivingNode) (event : ReceiveEvent) :
    Decidable (node.KeepsUnfinished config event) := by
  cases event with
  | fileOp =>
    exact inferInstanceAs (Decidable (∀ running ∈ node.appending, _ →
      ∀ other ∈ node.finishing, _ → ∃ index < config.maxRotations, _))
  | _ => exact inferInstanceAs (Decidable True)

instance (node : ReceivingNode) : Decidable (node.Survives config) :=
  inferInstanceAs (Decidable (∀ handler ∈ node.acknowledged, _))

structure Sound (node : ReceivingNode) : Prop where
  intact : Intact node.files
  fits : ∀ handler ∈ node.waiting, handler.blob.length < 2 ^ 32
  appending : ∀ handler stage, node.appending = some (handler, stage) →
    handler.blob.length < 2 ^ 32 ∧
      InProgress config node.files handler.peerId handler.blob stage
  finishing : ∀ handler ∈ node.finishing,
    Logged config node.files handler.peerId handler.blob

variable {P : Primitives} {config} {node : ReceivingNode}

theorem sound_initial (files : LogFiles) (hintact : Intact files) :
    Sound config { files := files } where
  intact := hintact
  fits := by simp
  appending := by
    rintro handler stage ⟨⟩
  finishing := by simp

section

variable (hsound : Sound config node)

include hsound

/-- Handlers come and go while the log rests. -/
theorem Sound.idle {later : ReceivingNode}
    (hfiles : later.files = node.files) (hlater : later.appending = none)
    (hwaiting : ∀ handler ∈ later.waiting, handler ∈ node.waiting ∨
      handler.blob.length < 2 ^ 32)
    (hfinishing : later.finishing ⊆ node.finishing) :
    Sound config later where
  intact := hfiles ▸ hsound.intact
  fits := fun handler hmem =>
    (hwaiting handler hmem).elim (hsound.fits handler) id
  appending := by
    intro handler stage hsome
    rw [hlater] at hsome
    cases hsome
  finishing := fun handler hmem =>
    hfiles ▸ hsound.finishing handler (hfinishing hmem)

theorem Sound.deliver (hidle : node.appending = none) {payload : DataPayload}
    (hsize : payload.ciphertext.length + payload.authTag.length ≤
      maxDatagram) : Sound config (node.handleData P payload) := by
  unfold handleData
  split
  · exact hsound
  · next _ _ _ =>
    split
    · refine hsound.idle rfl hidle ?_ (List.Subset.refl _)
      intro handler hmem
      rcases mem_append.mp hmem with hmem | hmem
      · exact .inl hmem
      · right
        rw [mem_singleton.mp hmem, DataHandler.blob, length_append]
        exact lt_of_le_of_lt hsize (by decide)
    · exact hsound

theorem Sound.sendAck (index : Nat) : Sound config (node.sendAck index) := by
  unfold ReceivingNode.sendAck
  split
  · exact hsound
  · next handler hget =>
    have hfits := hsound.fits handler (mem_of_getElem? hget)
    rw [buildEntry_ok hfits]
    refine ⟨hsound.intact, ?_, ?_, hsound.finishing⟩
    · exact fun other hmem =>
        hsound.fits other (mem_of_mem_eraseIdx hmem)
    · rintro other stage ⟨⟩
      exact ⟨hfits, trivial⟩

theorem Sound.append
    (hkeeps : node.KeepsUnfinished config .fileOp) {handler : DataHandler}
    {stage : AppendStage} (happending : node.appending = some (handler, stage)) :
    let after := appendStep config none node.files handler.peerId
      (entryLine handler.blob) stage
    Sound config { node with
      files := after.1
      appending := some (handler, after.2) } := by
  obtain ⟨hfits, hprogress⟩ := hsound.appending handler stage happending
  refine ⟨appendStep_intact hsound.intact hfits hprogress, hsound.fits, ?_, ?_⟩
  · rintro other next ⟨⟩
    exact ⟨hfits, appendStep_inProgress hsound.intact hfits hprogress⟩
  · intro other hmem
    refine appendStep_logged hsound.intact hfits hprogress
      (hsound.finishing other hmem) ?_
    rintro rfl hpeer
    exact hkeeps _ happending rfl other hmem hpeer

theorem Sound.fileOp (hkeeps : node.KeepsUnfinished config .fileOp) :
    Sound config (node.fileOp config) := by
  unfold ReceivingNode.fileOp
  split
  · exact hsound
  · next handler happending =>
    refine ⟨hsound.intact, hsound.fits, by rintro other stage ⟨⟩, ?_⟩
    intro other hmem
    rcases mem_append.mp hmem with hmem | hmem
    · exact hsound.finishing other hmem
    · rw [mem_singleton.mp hmem]
      exact (hsound.appending handler .done happending).2
  · next happending => exact hsound.append hkeeps happending

theorem Sound.step (event : ReceiveEvent)
    (hkeeps : node.KeepsUnfinished config event) :
    Sound config (node.step P config event) := by
  cases event with
  | fileOp => exact hsound.fileOp hkeeps
  | restart => exact sound_initial node.files hsound.intact
  | register =>
    simp only [ReceivingNode.step]
    split
    · next hidle _ =>
      exact hsound.idle rfl hidle (fun _ hmem => .inl hmem) (List.Subset.refl _)
    · exact hsound
  | remove =>
    simp only [ReceivingNode.step]
    split
    · next hidle =>
      exact hsound.idle rfl hidle (fun _ hmem => .inl hmem) (List.Subset.refl _)
    · exact hsound
  | deliver =>
    simp only [ReceivingNode.step]
    split
    · next hready => exact hsound.deliver hready.1 hready.2
    · exact hsound
  | acknowledge index =>
    simp only [ReceivingNode.step]
    split
    · exact hsound.sendAck index
    · exact hsound
  | finish =>
    simp only [ReceivingNode.step]
    split
    · next hidle =>
      exact hsound.idle rfl hidle (fun _ hmem => .inl hmem) (eraseIdx_subset ..)
    · exact hsound

end

/-- After the rename the entry is in the log. -/
theorem InProgress.logged {files : LogFiles} {peerId : PeerId} {blob : Bytes}
    {stage : AppendStage}
    (hprogress : LogFiles.InProgress config files peerId blob stage)
    (hafter : ¬ stage.BeforeRename) : Logged config files peerId blob := by
  cases stage with
  | unlink => exact ⟨0, Nat.zero_le _, hprogress⟩
  | shift => exact hprogress.2.2
  | done => exact hprogress
  | _ => exact absurd trivial hafter

theorem Sound.survives_iff (hsound : Sound config node) :
    Survives config node ↔ OutsideWindow config node := by
  constructor
  · intro hsurvives handler stage happending _
    refine hsurvives handler (mem_append_left _ ?_)
    simp [happending]
  · intro hwindow handler hmem
    rcases mem_append.mp hmem with hmem | hmem
    · obtain ⟨⟨found, stage⟩, happending, rfl⟩ :=
        Option.map_eq_some_iff.mp (Option.mem_toList.mp hmem)
      by_cases hbefore : stage.BeforeRename
      · exact hwindow found stage happending hbefore
      · exact InProgress.logged (hsound.appending found stage happending).2
          hbefore
    · exact hsound.finishing handler hmem

end ReceivingNode

open ReceivingNode

namespace AckBeforeLogWitness

open Reference

def session : Session where
  sessionId := replicate 8 1
  encryptionKey := replicate 32 3
  remotePeerId := replicate 32 2

/-- The peer's first message. -/
def payload : DataPayload :=
  sealPayload primitives session 1 (ascii "hi")

/-- A small log, rotated after every entry. -/
def config : LogConfig := ⟨8, 1, Nat.one_pos⟩

/-- The packet is accepted and its ACK is sent. -/
def acked : List ReceiveEvent :=
  [.register session, .deliver payload, .acknowledge 0]

/-- The append runs to its end, with a rotation, and the handler goes on. -/
def appended : List ReceiveEvent := acked ++ replicate 7 .fileOp ++ [.finish 0]

end AckBeforeLogWitness

end AshiChat
