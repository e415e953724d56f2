/-
One coroutine that runs while no other is resumed.  Its database calls are
answered one after the other, so the three writes of a dispatch lead straight
to what the coroutine does with the packet, whatever else is suspended.
-/
import AshiChat.MessagingMoves

namespace AshiChat

open QueueManager EventRun MessagingWitness List

namespace Messaging

variable (P : Primitives)

/-- The connection has executed and committed the statement; the coroutine
behind it has not been resumed yet. -/
def answered (node : Messaging) (statement : Statement) (work : Work) :
    Messaging :=
  { node with
    db := node.db.transact statement
    tasks := node.tasks ++ [⟨.committing (node.db.ops.length + 1), work⟩] }

/-- The state the coroutine goes on in. -/
def afterWrite (node : Messaging) (statement : Statement) : Messaging :=
  { node with db := node.db.transact statement }

variable {P} {node : Messaging} {statement : Statement} {work : Work}

@[simp] theorem stored_afterWrite (node : Messaging) (statement : Statement) :
    (node.afterWrite statement).stored = node.stored.apply statement :=
  Connection.issued_transact ..

section

variable (hidle : node.db.Idle)

include hidle

theorem idle_afterWrite (statement : Statement) :
    (node.afterWrite statement).db.Idle :=
  Connection.Idle.transact hidle statement

/-- The first three events of a storage call. -/
theorem run_answered (now : ℚ) :
    run (step P) (Stretch.settle ⟨node, .write statement work⟩)
        [.execute, .resume node.tasks.length now, .execute] =
      node.answered statement work := by
  have hdone : node.db.ops.length <
      (node.db.issue (.statement statement)).execute.executed := by
    rw [hidle.executed_execute_issue]
    exact Nat.lt_succ_self _
  have hticket : (node.db.issue (.statement statement)).execute.ops.length =
      node.db.ops.length + 1 := by
    simp [Connection.issue]
  simp only [run_cons, run_nil, step, Stretch.settle, resume, hdone,
    getElem?_concat_length, ↓reduceIte, set_append_right, Nat.le_refl,
    Nat.sub_self, set_cons_zero, hticket, answered, Connection.transact]

/-- The last event of a storage call resumes the coroutine. -/
theorem resume_answered (now : ℚ) :
    (node.answered statement work).resume P node.tasks.length now =
      (resumeWork P (node.afterWrite statement) now work).settle := by
  have hdone : node.db.ops.length + 1 <
      (node.db.transact statement).executed := by
    rw [hidle.transact statement]
    simp [Connection.transact, Connection.issue]
  simp only [resume, answered, getElem?_concat_length, hdone,
    ↓reduceIte, eraseIdx_append_of_length_le, Nat.le_refl, Nat.sub_self,
    eraseIdx_cons_zero, append_nil]
  rfl

theorem run_storageCall (now : ℚ) :
    run (step P) (Stretch.settle ⟨node, .write statement work⟩)
        (storageCall node.tasks.length now) =
      (resumeWork P (node.afterWrite statement) now work).settle := by
  change run (step P) _ ([.execute, .resume node.tasks.length now, .execute] ++
    [.resume node.tasks.length now]) = _
  rw [run_append, run_answered hidle, run_cons, run_nil]
  exact resume_answered hidle now

end

/-- The counter is stored. -/
def counted (node : Messaging) (dispatch : Dispatch) : Messaging :=
  node.afterWrite (.updateSendSequence dispatch.sessionId (dispatch.seq + 1))

/-- The number of the message is stored, too. -/
def numbered (node : Messaging) (dispatch : Dispatch) : Messaging :=
  (node.counted dispatch).afterWrite (.updateMessageSequence
    dispatch.messageId dispatch.seq)

theorem idle_counted (hidle : node.db.Idle) (dispatch : Dispatch) :
    (node.counted dispatch).db.Idle :=
  idle_afterWrite hidle _

theorem idle_numbered (hidle : node.db.Idle) (dispatch : Dispatch) :
    (node.numbered dispatch).db.Idle :=
  idle_afterWrite (idle_counted hidle dispatch) _

@[simp] theorem tasks_numbered (node : Messaging) (dispatch : Dispatch) :
    (node.numbered dispatch).tasks = node.tasks := rfl

/-- The state in which the coroutine hands its packet over. -/
def afterWrites (node : Messaging) (dispatch : Dispatch) : Messaging :=
  (node.numbered dispatch).afterWrite (.updateMessageStatus dispatch.messageId
    "pending")

theorem idle_afterWrites (hidle : node.db.Idle) (dispatch : Dispatch) :
    (node.afterWrites dispatch).db.Idle :=
  idle_afterWrite (idle_numbered hidle dispatch) _

/-- The first two storage calls of a dispatch and the third up to its last
event. -/
def writing (index : Nat) (now : ℚ) : List MessagingEvent :=
  storageCall index now ++ storageCall index now ++
    [.execute, .resume index now, .execute]

theorem dispatching_eq (index : Nat) (now : ℚ) :
    dispatching index now = writing index now ++ [.resume index now] := rfl

/-- The coroutine that has just built the packet. -/
def starting (node : Messaging) (dispatch : Dispatch) : Messaging :=
  Stretch.settle ⟨node, .write (.updateSendSequence dispatch.sessionId
    (dispatch.seq + 1)) (.sequenceStored dispatch)⟩

/-- Its second write. -/
def numbering (node : Messaging) (dispatch : Dispatch) : Messaging :=
  Stretch.settle ⟨node.counted dispatch, .write (.updateMessageSequence
    dispatch.messageId dispatch.seq) (.numberStored dispatch)⟩

/-- Its third write. -/
def marking (node : Messaging) (dispatch : Dispatch) : Messaging :=
  Stretch.settle ⟨node.numbered dispatch, .write (.updateMessageStatus
    dispatch.messageId "pending") (.statusStored dispatch)⟩

/-- The coroutine that is about to hand the packet over. -/
def handing (node : Messaging) (dispatch : Dispatch) : Messaging :=
  (node.numbered dispatch).answered (.updateMessageStatus dispatch.messageId
    "pending") (.statusStored dispatch)

section

variable (hidle : node.db.Idle)

include hidle

variable (dispatch : Dispatch)

theorem run_starting (now : ℚ) :
    run (step P) (node.starting dispatch) (storageCall node.tasks.length now) =
      node.numbering dispatch :=
  run_storageCall hidle now

theorem run_numbering (now : ℚ) :
    run (step P) (node.numbering dispatch) (storageCall node.tasks.length now) =
      node.marking dispatch :=
  run_storageCall (idle_counted hidle dispatch) now

theorem run_writing (now : ℚ) :
    run (step P) (node.starting dispatch) (writing node.tasks.length now) =
      node.handing dispatch := by
  rw [writing, run_append, run_append, run_starting hidle,
    run_numbering hidle, ← tasks_numbered node dispatch]
  exact run_answered (idle_numbered hidle dispatch) now

theorem resume_handing (now : ℚ) :
    (node.handing dispatch).resume P node.tasks.length now =
      ((node.afterWrites dispatch).afterDispatch P dispatch now).settle := by
  rw [← tasks_numbered node dispatch]
  exact resume_answered (idle_numbered hidle dispatch) now

/-- A whole dispatch. -/
theorem run_dispatching (now : ℚ) :
    run (step P) (node.starting dispatch) (dispatching node.tasks.length now) =
      ((node.afterWrites dispatch).afterDispatch P dispatch now).settle := by
  rw [dispatching_eq, run_append, run_writing hidle, run_cons, run_nil]
  exact resume_handing hidle dispatch now

/-- Nobody is there to be resumed, and the connection has nothing to do. -/
theorem run_idle {events : List MessagingEvent}
    (hevents : ∀ event ∈ events, event = .execute ∨
      ∃ now, event = .resume node.tasks.length now) :
    run (step P) node events = node := by
  induction events with
  | nil => rfl
  | cons event _ ih =>
    obtain ⟨hevent, hrest⟩ := forall_mem_cons.mp hevents
    have hstep : node.step P event = node := by
      rcases hevent with rfl | ⟨now, rfl⟩
      · simp only [step, hidle.execute_eq]
      · simp [step, resume]
    rw [run_cons, hstep, ih hrest]

end

end Messaging

end AshiChat
