/-
The `message_queue` rows and the entries of the queue they stand for.  The
relation allows for what the coroutines in progress are about to write; one
lemma for each way in which an entry and its row change, and a restart, which
brings back what the rows say.
-/
import AshiChat.MessagingMoves

namespace AshiChat

open QueueManager OrderedDict Option

/-- The dispatch whose number or status is still to be stored. -/
def Work.unstored? : Work → Option Dispatch
  | .sequenceStored dispatch | .numberStored dispatch => some dispatch
  | _ => none

/-- The dispatch whose number is still to be stored. -/
def Work.unnumbered? : Work → Option Dispatch
  | .sequenceStored dispatch => some dispatch
  | _ => none

/-- The message is not being dispatched by anyone who has yet to store it as
pending. -/
def Untouched (find : Work → Option Dispatch) (works : List Work)
    (messageId : MessageId) : Prop :=
  ∀ work ∈ works, ∀ dispatch, find work = some dispatch →
    dispatch.messageId ≠ messageId

/-- A row as its entry wants it, except for what `works` are about to write. -/
structure RowFor (works : List Work) (messageId : MessageId)
    (entry : QueueEntry) (row : MessageRecord) : Prop where
  receiver_eq : row.receiver = entry.receiver
  retryCount_eq : row.retryCount = entry.retryCount
  sequence_eq : Untouched Work.unnumbered? works messageId →
    row.sequenceNumber = entry.sequenceNumber
  status_eq : Untouched Work.unstored? works messageId →
    row.status = entry.status.text

/-- The relation between the queue and what is stored. -/
structure Mirrored (queue : QueueManager)
    (rows : OrderedDict MessageId MessageRecord)
    (outbox : OrderedDict MessageId Bytes) (works : List Work) : Prop where
  row : ∀ messageId entry, queue.get? messageId = some entry →
    ∃ row, rows.get? messageId = some row ∧ RowFor works messageId entry row
  entry : ∀ messageId row, rows.get? messageId = some row →
    row.status ∉ Messaging.loadedStatuses ∨ queue.contains messageId = true
  text : ∀ messageId entry, queue.get? messageId = some entry →
    outbox.get? messageId = some entry.plaintext ∧ entry.plaintext ≠ []
  pending : ∀ work ∈ works, ∀ dispatch, work.unstored? = some dispatch →
    ∃ entry, queue.get? dispatch.messageId = some entry ∧
      entry.status = .pending ∧ entry.sequenceNumber = some dispatch.seq
  calm : ∀ work ∈ works, work.ofRetry = false

theorem Work.unstored?_of_unnumbered? {work : Work} {dispatch : Dispatch}
    (hwork : work.unnumbered? = some dispatch) :
    work.unstored? = some dispatch := by
  cases work <;> first | exact hwork | cases hwork

namespace Mirrored

variable {queue : QueueManager} {rows : OrderedDict MessageId MessageRecord}
  {outbox : OrderedDict MessageId Bytes} {works works' : List Work}

/-- Work that stores no dispatch may come and go. -/
theorem reschedule (hmirrored : Mirrored queue rows outbox works)
    (hnew : ∀ work ∈ works', work ∈ works ∨
      (work.unstored? = none ∧ work.ofRetry = false))
    (hold : ∀ work ∈ works, ∀ dispatch, work.unstored? = some dispatch →
      work ∈ works') :
    Mirrored queue rows outbox works' where
  row := by
    intro messageId entry hget
    obtain ⟨row, hrow, hfor⟩ := hmirrored.row messageId entry hget
    refine ⟨row, hrow, hfor.receiver_eq, hfor.retryCount_eq, ?_, ?_⟩
    · intro huntouched
      apply hfor.sequence_eq
      intro work hmem dispatch hwork
      exact huntouched work (hold work hmem dispatch
        (Work.unstored?_of_unnumbered? hwork)) dispatch hwork
    · intro huntouched
      apply hfor.status_eq
      intro work hmem dispatch hwork
      exact huntouched work (hold work hmem dispatch hwork) dispatch hwork
  entry := hmirrored.entry
  text := hmirrored.text
  pending := by
    intro work hmem dispatch hwork
    rcases hnew work hmem with hin | ⟨hnone, _⟩
    · exact hmirrored.pending work hin dispatch hwork
    · cases hnone.symm.trans hwork
  calm := by
    intro work hmem
    rcases hnew work hmem with hin | ⟨_, hcalm⟩
    · exact hmirrored.calm work hin
    · exact hcalm

variable {messageId : MessageId} {entry : QueueEntry} {dispatch : Dispatch}
  {work : Work} {queue' : QueueManager}

/-- Work that stores no dispatch ends. -/
theorem drop (hmirrored : Mirrored queue rows outbox (work :: works))
    (hnone : work.unstored? = none) : Mirrored queue rows outbox works := by
  apply hmirrored.reschedule
  · exact fun _ hmem => .inl (List.mem_cons_of_mem _ hmem)
  · intro other hmem dispatch hwork
    rcases List.mem_cons.mp hmem with rfl | hmem
    · cases hnone.symm.trans hwork
    · exact hmem

section

variable (hmirrored : Mirrored queue rows outbox works)

include hmirrored

/-- Work that stores no dispatch begins. -/
theorem add (hnone : work.unstored? = none) (hcalm : work.ofRetry = false) :
    Mirrored queue rows outbox (work :: works) := by
  apply hmirrored.reschedule
  · intro other hmem
    rcases List.mem_cons.mp hmem with rfl | hmem
    · exact .inr ⟨hnone, hcalm⟩
    · exact .inl hmem
  · exact fun _ hmem _ _ => List.mem_cons_of_mem _ hmem

/-- `send_message` up to its first await. -/
theorem enqueue (hfresh : queue.get? messageId = none) (peerId : PeerId)
    {plaintext : Bytes} (htext : plaintext ≠ []) :
    Mirrored (queue.enqueue messageId peerId plaintext)
      (rows.set messageId ⟨peerId, "queued", 0, none⟩)
      (outbox.set messageId plaintext) works where
  row := by
    intro other entry hget
    simp only [QueueManager.enqueue, get?_set] at hget ⊢
    split at hget
    · next heq =>
      cases hget
      exact ⟨_, if_pos heq, rfl, rfl, fun _ => rfl, fun _ => rfl⟩
    · next hne =>
      rw [if_neg hne]
      exact hmirrored.row other entry hget
  entry := by
    intro other row hrow
    simp only [get?_set, QueueManager.enqueue, contains_iff] at hrow ⊢
    split at hrow
    · next heq => exact .inr ⟨_, if_pos heq⟩
    · next hne =>
      rw [if_neg hne]
      exact (hmirrored.entry other row hrow).imp id (contains_iff _ _).mp
  text := by
    intro other entry hget
    simp only [QueueManager.enqueue, get?_set] at hget ⊢
    split at hget
    · next heq =>
      cases hget
      exact ⟨if_pos heq, htext⟩
    · next hne =>
      rw [if_neg hne]
      exact hmirrored.text other entry hget
  pending := by
    intro work hmem dispatch hwork
    obtain ⟨entry, hget, hentry⟩ := hmirrored.pending work hmem dispatch hwork
    have hne : messageId ≠ dispatch.messageId := by
      rintro rfl
      cases hfresh.symm.trans hget
    exact ⟨entry, by rw [QueueManager.enqueue, get?_set,
      if_neg hne, hget], hentry⟩
  calm := hmirrored.calm

/-- One entry and its row change, by `change` and `store`, together with the
work that is left for that message. -/
theorem change {rows' : OrderedDict MessageId MessageRecord}
    (change : QueueEntry → QueueEntry) (store : MessageRecord → MessageRecord)
    (hqueue : ∀ other, queue'.get? other =
      if messageId = other then (queue.get? other).map change
      else queue.get? other)
    (hrows : ∀ other, rows'.get? other =
      if messageId = other then (rows.get? other).map store
      else rows.get? other) (hin : queue.contains messageId = true)
    (htext : ∀ entry, (change entry).plaintext = entry.plaintext)
    (hrow : ∀ entry row, queue.get? messageId = some entry →
      RowFor works messageId entry row →
      RowFor works' messageId (change entry) (store row))
    (hothers : ∀ work ∈ works, ∀ dispatch, work.unstored? = some dispatch →
      dispatch.messageId ≠ messageId → work ∈ works')
    (hpending : ∀ work ∈ works', ∀ dispatch, work.unstored? = some dispatch →
      (work ∈ works ∧ dispatch.messageId ≠ messageId) ∨
      (dispatch.messageId = messageId ∧ ∃ entry,
        queue.get? messageId = some entry ∧
        (change entry).status = .pending ∧
        (change entry).sequenceNumber = some dispatch.seq))
    (hcalm : ∀ work ∈ works', work.ofRetry = false) :
    Mirrored queue' rows' outbox works' where
  row := by
    intro other entry hget
    rw [hqueue] at hget
    rw [hrows]
    split at hget
    · next heq =>
      subst heq
      obtain ⟨old, hold, rfl⟩ := map_eq_some_iff.mp hget
      obtain ⟨row, hstored, hfor⟩ := hmirrored.row messageId old hold
      exact ⟨store row, by rw [if_pos rfl, hstored, map_some],
        hrow old row hold hfor⟩
    · next hne =>
      rw [if_neg hne]
      obtain ⟨row, hstored, hfor⟩ := hmirrored.row other entry hget
      refine ⟨row, hstored, hfor.receiver_eq, hfor.retryCount_eq, ?_, ?_⟩
      · intro huntouched
        refine hfor.sequence_eq fun work hmem dispatch hwork heq => ?_
        exact huntouched work (hothers work hmem dispatch
          (Work.unstored?_of_unnumbered? hwork)
          (heq ▸ Ne.symm hne)) dispatch hwork heq
      · intro huntouched
        refine hfor.status_eq fun work hmem dispatch hwork heq => ?_
        exact huntouched work (hothers work hmem dispatch hwork
          (heq ▸ Ne.symm hne)) dispatch hwork heq
  entry := by
    intro other row hstored
    rw [hrows] at hstored
    rw [contains_iff, hqueue]
    rw [contains_iff] at hin
    split at hstored
    · next heq =>
      subst heq
      obtain ⟨old, hold⟩ := hin
      exact .inr ⟨change old, by rw [if_pos rfl, hold, map_some]⟩
    · next hne =>
      rw [if_neg hne]
      exact (hmirrored.entry other row hstored).imp id (contains_iff _ _).mp
  text := by
    intro other entry hget
    rw [hqueue] at hget
    split at hget
    · obtain ⟨old, hold, rfl⟩ := map_eq_some_iff.mp hget
      rw [htext]
      exact hmirrored.text other old hold
    · exact hmirrored.text other entry hget
  pending := by
    intro work hmem dispatch hwork
    rw [hqueue]
    rcases hpending work hmem dispatch hwork with ⟨hold, hne⟩ |
      ⟨heq, entry, hget, hstatus, hseq⟩
    · rw [if_neg (Ne.symm hne)]
      exact hmirrored.pending work hold dispatch hwork
    · exact ⟨change entry, by rw [if_pos heq.symm, heq, hget,
        map_some], hstatus, hseq⟩
  calm := hcalm

/-- `build_data_packet`: the entry is marked, nothing is stored yet. -/
theorem dispatched (dispatch : Dispatch)
    (hget : queue.get? dispatch.messageId = some entry)
    (hqueued : entry.status = .queued) (now : ℚ)
    (hcalm : (Work.sequenceStored dispatch).ofRetry = false) :
    Mirrored (queue.modify dispatch.messageId
        (QueueEntry.dispatched dispatch.seq now))
      rows outbox (.sequenceStored dispatch :: works) := by
  have hself : ∀ find : Work → Option Dispatch,
      find (.sequenceStored dispatch) = some dispatch →
      ¬ Untouched find (.sequenceStored dispatch :: works) dispatch.messageId :=
    fun find hfind huntouched =>
      huntouched _ List.mem_cons_self dispatch hfind rfl
  apply hmirrored.change (QueueEntry.dispatched dispatch.seq now) id
    (fun _ => get?_modify ..)
  · simp
  · exact (contains_iff _ _).mpr ⟨entry, hget⟩
  · exact fun _ => rfl
  · exact fun _ _ _ hfor => ⟨hfor.receiver_eq, hfor.retryCount_eq,
      fun huntouched => absurd huntouched (hself _ rfl),
      fun huntouched => absurd huntouched (hself _ rfl)⟩
  · exact fun _ hmem _ _ _ => List.mem_cons_of_mem _ hmem
  · intro work hmem other hwork
    rcases List.mem_cons.mp hmem with rfl | hmem
    · cases hwork
      exact .inr ⟨rfl, entry, hget, rfl, rfl⟩
    · refine .inl ⟨hmem, fun heq => ?_⟩
      -- A message that is being dispatched is pending already.
      obtain ⟨_, hfound, hpending, _⟩ := hmirrored.pending work hmem other hwork
      rw [heq] at hfound
      cases hget.symm.trans hfound
      cases hqueued.symm.trans hpending
  · exact List.forall_mem_cons.mpr ⟨hcalm, hmirrored.calm⟩

end

/-- A storage call of a dispatch; the entry stays as it is. -/
theorem store {before : Work}
    (hmirrored : Mirrored queue rows outbox (before :: works)) (after : Work)
    (hbefore : before.unstored? = some dispatch)
    (hafter : ∀ other, after.unstored? = some other → other = dispatch)
    (hcalm : after.ofRetry = before.ofRetry)
    (store : MessageRecord → MessageRecord)
    (hrow : ∀ entry row, entry.status = .pending →
      entry.sequenceNumber = some dispatch.seq →
      RowFor (before :: works) dispatch.messageId entry row →
      RowFor (after :: works) dispatch.messageId entry (store row)) :
    Mirrored queue (rows.modify dispatch.messageId store) outbox
      (after :: works) := by
  obtain ⟨entry, hget, hstatus, hseq⟩ :=
    hmirrored.pending _ List.mem_cons_self dispatch hbefore
  obtain ⟨hhead, hrest⟩ := List.forall_mem_cons.mp hmirrored.calm
  refine hmirrored.change id store (by simp) (fun _ => get?_modify ..)
    ((contains_iff _ _).mpr ⟨entry, hget⟩) (fun _ => rfl)
    ?_ ?_ ?_ (List.forall_mem_cons.mpr ⟨hcalm.trans hhead, hrest⟩)
  · intro found row hfound hfor
    cases hget.symm.trans hfound
    exact hrow entry row hstatus hseq hfor
  · intro work hmem other hwork hne
    rcases List.mem_cons.mp hmem with rfl | hmem
    · cases hbefore.symm.trans hwork
      exact absurd rfl hne
    · exact List.mem_cons_of_mem _ hmem
  · intro work hmem other hwork
    rcases List.mem_cons.mp hmem with rfl | hmem
    · obtain rfl := hafter other hwork
      exact .inr ⟨rfl, entry, hget, hstatus, hseq⟩
    · by_cases hsame : other.messageId = dispatch.messageId
      · obtain ⟨found, hfound, hpending⟩ :=
          hmirrored.pending work (List.mem_cons_of_mem _ hmem) other hwork
        rw [hsame] at hfound
        exact .inr ⟨hsame, found, hfound, hpending⟩
      · exact .inl ⟨List.mem_cons_of_mem _ hmem, hsame⟩

/-- `update_message_sequence` -/
theorem number (hmirrored : Mirrored queue rows outbox
      (.sequenceStored dispatch :: works)) :
    Mirrored queue (rows.modify dispatch.messageId
        (fun row => { row with sequenceNumber := some dispatch.seq }))
      outbox (.numberStored dispatch :: works) := by
  refine hmirrored.store (.numberStored dispatch) rfl
    (by rintro _ ⟨⟩; rfl) rfl _ ?_
  intro entry row _ hseq hfor
  exact ⟨hfor.receiver_eq, hfor.retryCount_eq, fun _ => hseq.symm,
    fun huntouched =>
      absurd rfl (huntouched _ List.mem_cons_self dispatch rfl)⟩

/-- `update_message_status` to pending. -/
theorem markPending
    (hmirrored : Mirrored queue rows outbox (.numberStored dispatch :: works)) :
    Mirrored queue (rows.modify dispatch.messageId
        (fun row => { row with status := "pending" }))
      outbox (.statusStored dispatch :: works) := by
  refine hmirrored.store (.statusStored dispatch) rfl (by rintro _ ⟨⟩) rfl
    _ ?_
  intro entry row hstatus _ hfor
  refine ⟨hfor.receiver_eq, hfor.retryCount_eq, fun huntouched => ?_,
    fun _ => by rw [hstatus]; rfl⟩
  apply hfor.sequence_eq
  intro work hmem other hwork
  rcases List.mem_cons.mp hmem with rfl | hmem
  · cases hwork
  · exact huntouched work (List.mem_cons_of_mem _ hmem) other hwork

section

variable (hmirrored : Mirrored queue rows outbox works)

include hmirrored

/-- A status that is stored in the stretch that sets it. -/
theorem mark (hget : queue.get? messageId = some entry)
    (huntouched : Untouched Work.unstored? works messageId)
    (status : MessageStatus) :
    Mirrored (queue.modify messageId
        (fun entry => { entry with status := status }))
      (rows.modify messageId (fun row => { row with status := status.text }))
      outbox works := by
  refine hmirrored.change _ _ (fun _ => get?_modify ..) (fun _ => get?_modify
    ..) ((contains_iff _ _).mpr ⟨entry, hget⟩) (fun _ => rfl) ?_ (fun _ hmem _ _
    _ => hmem) ?_ hmirrored.calm
  · exact fun _ _ _ hfor => ⟨hfor.receiver_eq, hfor.retryCount_eq,
      hfor.sequence_eq, fun _ => rfl⟩
  · exact fun work hmem dispatch hwork =>
      .inl ⟨hmem, huntouched work hmem dispatch hwork⟩

/-- Only delivered messages are acknowledged, and those are stored. -/
theorem untouched_of_not_pending (hget : queue.get? messageId = some entry)
    (hstatus : entry.status ≠ .pending) :
    Untouched Work.unstored? works messageId := by
  rintro work hmem dispatch hwork rfl
  obtain ⟨_, hfound, hpending, _⟩ := hmirrored.pending work hmem dispatch hwork
  cases hget.symm.trans hfound
  exact hstatus hpending

/-- Send times are not stored. -/
theorem sameCore (hcore : SameCore queue' queue) :
    Mirrored queue' rows outbox works where
  row := by
    intro messageId entry hget
    obtain ⟨old, hold, hsame⟩ := hcore.get? hget
    obtain ⟨row, hrow, hfor⟩ := hmirrored.row messageId old hold
    refine ⟨row, hrow, ?_, ?_, ?_, ?_⟩
    · rw [hsame.receiver_eq]
      exact hfor.receiver_eq
    · rw [hsame.retryCount_eq]
      exact hfor.retryCount_eq
    · rw [hsame.sequenceNumber_eq]
      exact hfor.sequence_eq
    · rw [hsame.status_eq]
      exact hfor.status_eq
  entry := by
    intro messageId row hrow
    refine (hmirrored.entry messageId row hrow).imp id fun hin => ?_
    obtain ⟨entry, hget⟩ := (contains_iff _ _).mp hin
    obtain ⟨other, hother, _⟩ := hcore.symm.get? hget
    exact (contains_iff _ _).mpr ⟨other, hother⟩
  text := by
    intro messageId entry hget
    obtain ⟨old, hold, hsame⟩ := hcore.get? hget
    rw [hsame.plaintext_eq]
    exact hmirrored.text messageId old hold
  pending := by
    intro work hmem dispatch hwork
    obtain ⟨entry, hget, hstatus, hseq⟩ :=
      hmirrored.pending work hmem dispatch hwork
    obtain ⟨other, hother, hsame⟩ := hcore.symm.get? hget
    exact ⟨other, hother, hsame.status_eq.symm.trans hstatus,
      hsame.sequenceNumber_eq.symm.trans hseq⟩
  calm := hmirrored.calm

end

end Mirrored

namespace Messaging

/-- The entry `start` restores from a row, if any. -/
def restoredEntry (outbox : OrderedDict MessageId Bytes)
    (messageId : MessageId) (row : MessageRecord) : Option QueueEntry :=
  if row.status ∈ loadedStatuses ∧ (outbox.get? messageId).getD [] ≠ [] then
    some {
      receiver := row.receiver
      status := (MessageStatus.ofText row.status).getD .queued
      retryCount := row.retryCount
      plaintext := (outbox.get? messageId).getD []
      sequenceNumber := row.sequenceNumber }
  else none

/-- The row `start` leaves. -/
def keptRow (outbox : OrderedDict MessageId Bytes) (messageId : MessageId)
    (row : MessageRecord) : MessageRecord :=
  if row.status ∈ loadedStatuses ∧ (outbox.get? messageId).getD [] = [] then
    { row with status := "failed" }
  else row

variable (outbox : OrderedDict MessageId Bytes)

theorem get?_restoreRow (state : QueueManager × Tables)
    (messageId other : MessageId) (row : MessageRecord) :
    get? (restoreRow outbox state (messageId, row)).1 other =
      if messageId = other then
        (restoredEntry outbox messageId row).or (state.1.get? other)
      else state.1.get? other := by
  unfold restoreRow restoredEntry
  by_cases hloaded : row.status ∈ loadedStatuses
  · by_cases htext : (outbox.get? messageId).getD [] = []
    · simp [hloaded, htext]
    · simp [hloaded, htext, restoreEntry, get?_set]
  · simp [hloaded]

theorem get?_messages_restoreRow (state : QueueManager × Tables)
    (messageId other : MessageId) (row : MessageRecord)
    (hrow : state.2.messages.get? messageId = some row) :
    (restoreRow outbox state (messageId, row)).2.messages.get? other =
      if messageId = other then some (keptRow outbox messageId row)
      else state.2.messages.get? other := by
  unfold restoreRow keptRow
  by_cases hloaded : row.status ∈ loadedStatuses
  · by_cases htext : (outbox.get? messageId).getD [] = []
    · simp [hloaded, htext, Tables.apply, Tables.modifyMessage,
        get?_modify_of_get? hrow]
    · simp only [hloaded, htext, ↓reduceIte, and_false]
      split
      · next heq => rw [← heq, hrow]
      · rfl
  · simp only [hloaded, ↓reduceIte, false_and]
    split
    · next heq => rw [← heq, hrow]
    · rfl

/-- The pass over the rows: each message depends on its own row only. -/
theorem foldl_restoreRow {rows : List (MessageId × MessageRecord)}
    (hnodup : (rows.map Prod.fst).Nodup) (state : QueueManager × Tables)
    (hrows : ∀ binding ∈ rows, state.2.messages.get? binding.1 = some binding.2)
    (messageId : MessageId) :
    get? (rows.foldl (restoreRow outbox) state).1 messageId =
        ((lookup messageId rows).bind (restoredEntry outbox messageId)).or
            (state.1.get? messageId) ∧
      (rows.foldl (restoreRow outbox) state).2.messages.get? messageId =
        ((lookup messageId rows).map (keptRow outbox messageId)).or
            (state.2.messages.get? messageId) := by
  induction rows generalizing state with
  | nil => simp [lookup]
  | cons binding rest ih =>
    obtain ⟨key, row⟩ := binding
    obtain ⟨hkey, hnodup⟩ := List.nodup_cons.mp hnodup
    obtain ⟨hrow, hrows⟩ := List.forall_mem_cons.mp hrows
    have hrest : ∀ binding ∈ rest,
        (restoreRow outbox state (key, row)).2.messages.get? binding.1 =
          some binding.2 := by
      intro binding hmem
      have hne : key ≠ binding.1 := by
        rintro rfl
        exact hkey (List.mem_map.mpr ⟨binding, hmem, rfl⟩)
      rw [get?_messages_restoreRow outbox state key _ row hrow, if_neg hne]
      exact hrows binding hmem
    obtain ⟨hqueue, htables⟩ := ih hnodup _ hrest
    rw [List.foldl_cons, hqueue, htables, get?_restoreRow,
      get?_messages_restoreRow outbox state key _ row hrow]
    by_cases heq : key = messageId
    · subst heq
      have hnone : lookup key rest = none := by
        cases hlookup : lookup key rest with
        | none => rfl
        | some =>
          exact absurd (List.mem_map_of_mem
            (mem_of_lookup_eq_some hlookup)) hkey
      simp [lookup, hnone]
    · simp [lookup, heq]

theorem get?_restore (tables : Tables) (messageId : MessageId) :
    get? (restore outbox tables).1 messageId =
        (tables.messages.get? messageId).bind (restoredEntry outbox messageId) ∧
      (restore outbox tables).2.messages.get? messageId =
        (tables.messages.get? messageId).map (keptRow outbox messageId) := by
  obtain ⟨hqueue, htables⟩ := foldl_restoreRow outbox tables.messages.nodup
    (.empty, tables)
    (fun _ hmem => tables.messages.get?_eq_of_mem_entries hmem) messageId
  refine ⟨hqueue.trans ?_, htables.trans ?_⟩
  · exact or_none
  · change (Option.map _ (tables.messages.get? messageId)).or _ = _
    cases tables.messages.get? messageId <;> rfl

theorem loaded_of_text {status : MessageStatus} (hstatus : status ≠ .failed) :
    status.text ∈ loadedStatuses := by
  cases status with
  | failed => exact absurd rfl hstatus
  | _ => simp [loadedStatuses, MessageStatus.text]

theorem text_ofText {text : String} (hloaded : text ∈ loadedStatuses) :
    ((MessageStatus.ofText text).getD .queued).text = text := by
  simp only [loadedStatuses, List.mem_cons, List.not_mem_nil, or_false]
    at hloaded
  rcases hloaded with rfl | rfl | rfl | rfl <;> rfl

/-- A new process starts in step with the rows it found, whenever the old one
died. -/
theorem mirrored_restore (tables : Tables) :
    Mirrored (restore outbox tables).1 (restore outbox tables).2.messages
      outbox [] where
  row := by
    intro messageId entry hget
    rw [(get?_restore outbox tables messageId).1] at hget
    obtain ⟨row, hrow, hentry⟩ := bind_eq_some_iff.mp hget
    unfold restoredEntry at hentry
    split at hentry
    · next hguard =>
      cases hentry
      refine ⟨row, ?_, rfl, rfl, fun _ => rfl,
        fun _ => (text_ofText hguard.1).symm⟩
      rw [(get?_restore outbox tables messageId).2, hrow, map_some,
        keptRow, if_neg (fun hlost => hguard.2 hlost.2)]
    · cases hentry
  entry := by
    intro messageId row hrow
    rw [(get?_restore outbox tables messageId).2] at hrow
    obtain ⟨old, hold, rfl⟩ := map_eq_some_iff.mp hrow
    unfold keptRow
    split
    · exact .inl (by simp [loadedStatuses])
    · next hguard =>
      rw [contains_iff,
        (get?_restore outbox tables messageId).1, hold, bind_some]
      by_cases hloaded : old.status ∈ loadedStatuses
      · refine .inr ⟨_, if_pos ⟨hloaded, fun hlost => hguard ?_⟩⟩
        exact ⟨hloaded, hlost⟩
      · exact .inl hloaded
  text := by
    intro messageId entry hget
    rw [(get?_restore outbox tables messageId).1] at hget
    obtain ⟨row, _, hentry⟩ := bind_eq_some_iff.mp hget
    unfold restoredEntry at hentry
    split at hentry
    · next hguard =>
      cases hentry
      refine ⟨?_, hguard.2⟩
      cases htext : outbox.get? messageId with
      | none => simp [htext] at hguard
      | some => rfl
    · cases hentry
  pending := by simp
  calm := by simp

end Messaging

/-- The row an entry should have. -/
def QueueEntry.record (entry : QueueEntry) : MessageRecord where
  receiver := entry.receiver
  status := entry.status.text
  retryCount := entry.retryCount
  sequenceNumber := entry.sequenceNumber

namespace Mirrored

variable {queue : QueueManager} {tables : Tables}
  {outbox : OrderedDict MessageId Bytes} {messageId : MessageId}
  {entry : QueueEntry}

theorem record (hmirrored : Mirrored queue tables.messages outbox [])
    (hget : queue.get? messageId = some entry) :
    tables.messages.get? messageId = some entry.record := by
  obtain ⟨row, hrow, hfor⟩ := hmirrored.row messageId entry hget
  have heq : row = entry.record := by
    have hsequence := hfor.sequence_eq (by simp [Untouched])
    have hstatus := hfor.status_eq (by simp [Untouched])
    obtain ⟨_, _, _, _⟩ := row
    cases hfor.receiver_eq
    cases hfor.retryCount_eq
    cases hsequence
    cases hstatus
    rfl
  rw [hrow, heq]

/-- A restart brings back every entry that has not failed, and nothing else. -/
theorem restored (hmirrored : Mirrored queue tables.messages outbox [])
    (messageId : MessageId) :
    get? (Messaging.restore outbox tables).1 messageId =
      ((queue.get? messageId).filter
        (fun entry => entry.status ≠ .failed)).map core := by
  rw [(Messaging.get?_restore outbox tables messageId).1]
  cases hget : queue.get? messageId with
  | none =>
    rw [filter_none, map_none, bind_eq_none_iff]
    intro row hrow
    have hin : queue.contains messageId = false :=
      (contains_eq_false_iff _ _).mpr hget
    rcases hmirrored.entry messageId row hrow with hloaded | hyes
    · exact if_neg fun hguard => hloaded hguard.1
    · cases hin.symm.trans hyes
  | some entry =>
    obtain ⟨htext, hne⟩ := hmirrored.text messageId entry hget
    rw [hmirrored.record hget, bind_some, Messaging.restoredEntry, htext]
    by_cases hfailed : entry.status = .failed
    · simp [QueueEntry.record, hfailed, MessageStatus.text,
        Messaging.loadedStatuses]
    · have hloaded : entry.record.status ∈ Messaging.loadedStatuses :=
        Messaging.loaded_of_text hfailed
      rw [filter_some_pos (by simpa using hfailed), map_some,
        if_pos ⟨hloaded, hne⟩]
      simp [QueueEntry.record, core]

end Mirrored

end AshiChat
