/-
The sequence floors a node loads at a start, against all that its earlier
processes have sent and accepted.  Old rows of the `sessions` table stay, and
`start` folds the rows of a peer into one pair; the floors of a process are
applied to the first session with the peer only.
-/
import AshiChat.Peers
import AshiChat.Kit.EventRun

namespace AshiChat

open EventRun OrderedDict List Option Nat

/-- The sessions of one node through all its processes.  `objects` are the
session objects of the running process; a task may hold on to one that the
registry has dropped.  `used` and `accepted` record every number that went out
to a peer and came in from it. -/
structure SessionHistory where
  storage : Storage := .empty
  floors : SequenceFloors := .empty
  objects : List Session := []
  used : List (PeerId × Nat) := []
  accepted : List (PeerId × Nat) := []

/-- What moves the counters.  Each draw of a number and each accepted number is
followed by the update of its row. -/
inductive HistoryEvent where
  /-- A handshake handler creates, raises and saves a session. -/
  | establish (keys : SessionKeys)
  | send (ref : Nat)
  | receive (ref : Nat) (seq : Nat)
  /-- `save_session_state` of a session that exists, as `stop` does. -/
  | save (ref : Nat)
  /-- A new process reads the rows, in the order the database returns them. -/
  | restart (known : PeerId → Bool) (rows : OrderedDict Bytes SessionRecord)

namespace SessionHistory

/-- The floors that `start` loads from the rows. -/
def loadFloors (history : SessionHistory) (known : PeerId → Bool)
    (rows : OrderedDict Bytes SessionRecord) : SequenceFloors :=
  { history.storage with sessions := rows }.sequenceFloors known

def step (history : SessionHistory) : HistoryEvent → SessionHistory
  | .establish made =>
    let (session, floors) :=
      applySequenceFloors history.floors (Session.ofKeys made)
    { history with
      storage := history.storage.saveSessionState session
      floors := floors
      objects := history.objects ++ [session] }
  | .send ref =>
    match history.objects[ref]? with
    | none => history
    | some session =>
      let (seq, session') := session.nextSequence
      { history with
        storage := history.storage.updateSendSequence session.sessionId
          session'.sendSequence
        objects := history.objects.set ref session'
        used := history.used ++ [(session.remotePeerId, seq)] }
  | .receive ref seq =>
    match history.objects[ref]? with
    | none => history
    | some session =>
      if session.checkRecvSequence seq then
        let session' := session.advanceRecvSequence seq
        { history with
          storage := history.storage.updateRecvSequence session.sessionId
            session'.recvSequence
          objects := history.objects.set ref session'
          accepted := history.accepted ++ [(session.remotePeerId, seq)] }
      else history
  | .save ref =>
    match history.objects[ref]? with
    | none => history
    | some session =>
      { history with storage := history.storage.saveSessionState session }
  | .restart known rows =>
    if rows.entries.Perm history.storage.sessions.entries then
      { history with
        storage := { history.storage with sessions := rows }
        floors := history.loadFloors known rows
        objects := [] }
    else history

section Step

variable {history : SessionHistory} {event : HistoryEvent}

theorem used_subset_step (history : SessionHistory) (event : HistoryEvent) :
    history.used ⊆ (history.step event).used := by
  cases event <;> simp only [step] <;> repeat' split
  all_goals first
    | exact List.Subset.refl _
    | exact subset_append_left ..

theorem mem_accepted_step {peerId : PeerId} {seq : Nat}
    (hmem : (peerId, seq) ∈ (history.step event).accepted) :
    (peerId, seq) ∈ history.accepted ∨ ∃ ref, event = .receive ref seq := by
  cases event with
  | receive ref =>
    simp only [step] at hmem
    repeat' split at hmem
    all_goals first
      | exact .inl hmem
      | skip
    rcases mem_append.mp hmem with hmem | hmem
    · exact .inl hmem
    · cases mem_singleton.mp hmem
      exact .inr ⟨ref, rfl⟩
  | _ =>
    simp only [step] at hmem
    repeat' split at hmem
    all_goals exact .inl hmem

/-- An object after the event is an old one with other counters, or the one
that a handshake has just created. -/
theorem mem_objects_step {session : Session}
    (hmem : session ∈ (history.step event).objects) :
    (∃ old ∈ history.objects, session.remotePeerId = old.remotePeerId) ∨
      ∃ keys, event = .establish keys ∧
        session.remotePeerId = keys.remotePeerId := by
  -- A counting object replaces one of the same peer.
  have hset : ∀ {ref : Nat} {old new : Session},
      history.objects[ref]? = some old → session ∈ history.objects.set ref new →
        new.remotePeerId = old.remotePeerId →
        ∃ old ∈ history.objects, session.remotePeerId = old.remotePeerId := by
    intro ref old new hget hin hpeer
    rcases mem_or_eq_of_mem_set hin with hin | rfl
    · exact ⟨session, hin, rfl⟩
    · exact ⟨old, mem_of_getElem? hget, hpeer⟩
  cases event with
  | establish keys =>
    rcases mem_append.mp hmem with hmem | hmem
    · exact .inl ⟨session, hmem, rfl⟩
    · rw [mem_singleton.mp hmem]
      exact .inr ⟨keys, rfl, establish_remotePeerId history.floors keys⟩
  | send =>
    simp only [step] at hmem
    split at hmem
    · exact .inl ⟨session, hmem, rfl⟩
    · next old hget => exact .inl (hset hget hmem rfl)
  | receive =>
    simp only [step] at hmem
    split at hmem
    · exact .inl ⟨session, hmem, rfl⟩
    · next old hget =>
      split at hmem
      · refine .inl (hset hget hmem ?_)
        unfold Session.advanceRecvSequence
        split <;> rfl
      · exact .inl ⟨session, hmem, rfl⟩
  | save =>
    simp only [step] at hmem
    split at hmem <;> exact .inl ⟨session, hmem, rfl⟩
  | restart =>
    simp only [step] at hmem
    split at hmem
    · cases hmem
    · exact .inl ⟨session, hmem, rfl⟩

end Step

/-- The rows of one peer. -/
def rowsOf (peerId : PeerId) (rows : List SessionRecord) : List SessionRecord :=
  rows.filter fun row => row.peerId = peerId

theorem get?_foldl_floors (known : PeerId → Bool) (rows : List SessionRecord)
    (peerId : PeerId) :
    (rows.foldl (fun floors row =>
        if known row.peerId then
          floors.set row.peerId (row.sendSequence, row.recvSequence)
        else floors) (empty : SequenceFloors)).get? peerId =
      if known peerId then
        (rowsOf peerId rows).getLast?.map fun row =>
          (row.sendSequence, row.recvSequence)
      else none := by
  induction rows using reverseRecOn with
  | nil => simp [rowsOf]
  | append_singleton rows row ih =>
    rw [foldl_append, foldl_cons, foldl_nil]
    by_cases hpeer : row.peerId = peerId
    · subst hpeer
      by_cases hknown : known row.peerId
      · simp [hknown, rowsOf]
      · simp only [hknown, Bool.false_eq_true, ↓reduceIte] at ih ⊢
        exact ih
    · have hrows : rowsOf peerId (rows ++ [row]) = rowsOf peerId rows := by
        simp [rowsOf, hpeer]
      rw [hrows, ← ih]
      split_ifs
      · rw [get?_set, if_neg hpeer]
      · rfl

variable {history : SessionHistory} {rows : OrderedDict Bytes SessionRecord}
  {peerId : PeerId} {session : Session} {ref : Nat} {floor : Nat × Nat}
  {row : SessionRecord}

/-- The floor of a peer is its last row. -/
theorem exists_last_of_loadFloors {known : PeerId → Bool}
    (hfloor : (history.loadFloors known rows).get? peerId = some floor) :
    ∃ last, (rowsOf peerId rows.values).getLast? = some last ∧
      floor = (last.sendSequence, last.recvSequence) := by
  unfold loadFloors Storage.sequenceFloors at hfloor
  rw [get?_foldl_floors] at hfloor
  split at hfloor
  · obtain ⟨last, hlast, hvalue⟩ := map_eq_some_iff.mp hfloor
    exact ⟨last, hlast, hvalue.symm⟩
  · cases hfloor

/-- The last row of the peer has its largest counters. -/
def LastRowLargest (rows : OrderedDict Bytes SessionRecord)
    (peerId : PeerId) : Prop :=
  ∀ last ∈ (rowsOf peerId rows.values).getLast?,
    ∀ row ∈ rowsOf peerId rows.values, row.sendSequence ≤ last.sendSequence ∧
        row.recvSequence ≤ last.recvSequence

instance (rows : OrderedDict Bytes SessionRecord) (peerId : PeerId) :
    Decidable (LastRowLargest rows peerId) :=
  inferInstanceAs (Decidable (∀ last ∈ (rowsOf peerId rows.values).getLast?,
    ∀ row ∈ rowsOf peerId rows.values, row.sendSequence ≤ last.sendSequence ∧
        row.recvSequence ≤ last.recvSequence))

/-- A floor pair is above all that was sent, and covers all that was
accepted. -/
def Dominates (history : SessionHistory) (peerId : PeerId)
    (floor : Nat × Nat) : Prop :=
  (∀ seq, (peerId, seq) ∈ history.used → seq < floor.1) ∧
    ∀ seq, (peerId, seq) ∈ history.accepted → seq ≤ floor.2

/-- A pair of counters that the node has really reached with the peer. -/
def Reached (history : SessionHistory) (peerId : PeerId)
    (counters : Nat × Nat) : Prop :=
  0 < counters.1 ∧ (counters.1 = 1 ∨ (peerId, counters.1 - 1) ∈ history.used) ∧
    (counters.2 = 0 ∨ (peerId, counters.2) ∈ history.accepted)

theorem Reached.mono {later : SessionHistory} {counters : Nat × Nat}
    (hreached : history.Reached peerId counters)
    (hused : history.used ⊆ later.used)
    (haccepted : history.accepted ⊆ later.accepted) :
    later.Reached peerId counters :=
  ⟨hreached.1, hreached.2.1.imp_right fun hmem => hused hmem,
    hreached.2.2.imp_right fun hmem => haccepted hmem⟩

/-- The row that `save_session_state` writes for a session. -/
def rowFor (session : Session) : SessionRecord :=
  ⟨session.remotePeerId, session.sendSequence, session.recvSequence⟩

/-- Every object is saved as it is; rows and floors hold reached counters, and
every number used or accepted is covered by some row of its peer. -/
structure Persisted (history : SessionHistory) : Prop where
  saved : ∀ session ∈ history.objects,
    history.storage.sessions.get? session.sessionId = some (rowFor session)
  distinct : (history.objects.map Session.sessionId).Nodup
  rows : ∀ sessionId row, history.storage.sessions.get? sessionId = some row →
      history.Reached row.peerId (row.sendSequence, row.recvSequence)
  floors : ∀ peerId floor, history.floors.get? peerId = some floor →
    history.Reached peerId floor
  used : ∀ peerId seq, (peerId, seq) ∈ history.used →
    ∃ sessionId row, history.storage.sessions.get? sessionId = some row ∧
      row.peerId = peerId ∧ seq < row.sendSequence
  accepted : ∀ peerId seq, (peerId, seq) ∈ history.accepted →
    ∃ sessionId row, history.storage.sessions.get? sessionId = some row ∧
      row.peerId = peerId ∧ seq ≤ row.recvSequence

theorem persisted_initial : Persisted {} where
  saved := by simp
  distinct := nodup_nil
  rows := by
    rintro sessionId row ⟨⟩
  floors := by
    rintro peerId floor ⟨⟩
  used := by simp
  accepted := by simp

/-- Changing one row to larger counters of the same peer keeps what is
covered. -/
theorem covered_of_grow {rows' : OrderedDict Bytes SessionRecord}
    {changed : Bytes} {old new : SessionRecord}
    (hold : rows.get? changed = some old)
    (hrows : ∀ sessionId, rows'.get? sessionId =
      if changed = sessionId then some new else rows.get? sessionId)
    {covers : SessionRecord → Prop} (hgrow : covers old → covers new)
    (hcovered : ∃ sessionId row, rows.get? sessionId = some row ∧ covers row) :
    ∃ sessionId row, rows'.get? sessionId = some row ∧ covers row := by
  obtain ⟨sessionId, row, hget, hcovers⟩ := hcovered
  by_cases hkey : changed = sessionId
  · subst hkey
    rw [hold, some.injEq] at hget
    subst hget
    exact ⟨changed, new, by rw [hrows, if_pos rfl], hgrow hcovers⟩
  · exact ⟨sessionId, row, by rw [hrows, if_neg hkey, hget], hcovers⟩

theorem map_sessionId_set {objects : List Session} {session' : Session}
    (hget : objects[ref]? = some session)
    (hid : session'.sessionId = session.sessionId) :
    (objects.set ref session').map Session.sessionId =
      objects.map Session.sessionId := by
  obtain ⟨hlt, rfl⟩ := List.getElem?_eq_some_iff.mp hget
  have hbound : ref < (objects.map Session.sessionId).length := by
    simpa using hlt
  have hkept : session'.sessionId = (objects.map Session.sessionId)[ref] := by
    rw [hid, getElem_map]
  rw [map_set, hkept, set_getElem_self]

section Advance

variable {history later : SessionHistory} {ref : Nat}
  {session session' : Session}

/-- One object counts on and its row follows. -/
theorem Persisted.advance (hpersisted : history.Persisted)
    (hget : history.objects[ref]? = some session)
    (hobjects : later.objects = history.objects.set ref session')
    (hid : session'.sessionId = session.sessionId)
    (hpeer : session'.remotePeerId = session.remotePeerId)
    (hsend : session.sendSequence ≤ session'.sendSequence)
    (hrecv : session.recvSequence ≤ session'.recvSequence)
    (hrows : ∀ sessionId, later.storage.sessions.get? sessionId =
      if session.sessionId = sessionId then some (rowFor session')
      else history.storage.sessions.get? sessionId)
    (hfloors : later.floors = history.floors)
    (hgrow : history.used ⊆ later.used ∧ history.accepted ⊆ later.accepted)
    (hused : ∀ pair ∈ later.used, pair ∈ history.used ∨
      pair.1 = session.remotePeerId ∧ pair.2 < session'.sendSequence)
    (haccepted : ∀ pair ∈ later.accepted, pair ∈ history.accepted ∨
      pair.1 = session.remotePeerId ∧ pair.2 ≤ session'.recvSequence)
    (hreached : later.Reached session.remotePeerId
      (session'.sendSequence, session'.recvSequence)) :
    later.Persisted := by
  have hrow := hpersisted.saved session (mem_of_getElem? hget)
  have hnew : later.storage.sessions.get? session.sessionId =
      some (rowFor session') := by
    rw [hrows, if_pos rfl]
  refine ⟨?_, ?_, ?_, ?_, ?_, ?_⟩
  · intro other hother
    rw [hobjects] at hother
    obtain ⟨index, hindex⟩ := mem_iff_getElem?.mp hother
    rw [getElem?_set] at hindex
    by_cases hsame : ref = index
    · rw [if_pos hsame] at hindex
      split at hindex
      · cases hindex
        rwa [hid]
      · cases hindex
    · -- Another object has another session id.
      rw [if_neg hsame] at hindex
      have hne : session.sessionId ≠ other.sessionId := by
        intro heq
        apply hsame
        apply (getElem?_inj ?_ hpersisted.distinct).mp
        · simp [hget, hindex, heq]
        · simpa using (List.getElem?_eq_some_iff.mp hget).1
      rw [hrows, if_neg hne]
      exact hpersisted.saved other (mem_of_getElem? hindex)
  · rw [hobjects, map_sessionId_set hget hid]
    exact hpersisted.distinct
  · intro sessionId row hfound
    rw [hrows] at hfound
    split at hfound
    · cases hfound
      rw [rowFor, hpeer]
      exact hreached
    · exact (hpersisted.rows sessionId row hfound).mono hgrow.1 hgrow.2
  · intro peerId floor hfloor
    rw [hfloors] at hfloor
    exact (hpersisted.floors peerId floor hfloor).mono hgrow.1 hgrow.2
  · intro peerId seq hseq
    rcases hused _ hseq with hseq | ⟨hof, hlt⟩
    · refine covered_of_grow hrow hrows ?_ (hpersisted.used peerId seq hseq)
      exact fun ⟨hof, hlt⟩ => ⟨hpeer.trans hof, lt_of_lt_of_le hlt hsend⟩
    · exact ⟨_, _, hnew, hpeer.trans hof.symm, hlt⟩
  · intro peerId seq hseq
    rcases haccepted _ hseq with hseq | ⟨hof, hle⟩
    · refine covered_of_grow hrow hrows ?_ (hpersisted.accepted peerId seq hseq)
      exact fun ⟨hof, hle⟩ => ⟨hpeer.trans hof, le_trans hle hrecv⟩
    · exact ⟨_, _, hnew, hpeer.trans hof.symm, hle⟩

end Advance

section

variable (hpersisted : history.Persisted)

include hpersisted

section

variable (hget : history.objects[ref]? = some session)

include hget

theorem Persisted.send : Persisted { history with
      storage := history.storage.updateSendSequence session.sessionId
        session.nextSequence.2.sendSequence
      objects := history.objects.set ref session.nextSequence.2
      used := history.used ++
        [(session.remotePeerId, session.nextSequence.1)] } := by
  have hrow := hpersisted.saved session (mem_of_getElem? hget)
  have hreached := hpersisted.rows _ _ hrow
  refine hpersisted.advance hget rfl rfl rfl (le_succ _) le_rfl ?_ rfl
    ⟨subset_append_left .., List.Subset.refl _⟩ ?_
    (fun pair hmem => .inl hmem) ⟨succ_pos _, .inr ?_, hreached.2.2⟩
  · exact get?_modify_of_get? hrow _
  · intro pair hmem
    rcases mem_append.mp hmem with hmem | hmem
    · exact .inl hmem
    · rw [mem_singleton.mp hmem]
      exact .inr ⟨rfl, lt_succ_self _⟩
  · exact mem_append_right _ (mem_singleton_self _)

theorem Persisted.receive {seq : Nat} (hcheck : session.checkRecvSequence seq) :
    Persisted { history with
      storage := history.storage.updateRecvSequence session.sessionId
        (session.advanceRecvSequence seq).recvSequence
      objects := history.objects.set ref (session.advanceRecvSequence seq)
      accepted := history.accepted ++ [(session.remotePeerId, seq)] } := by
  have hrow := hpersisted.saved session (mem_of_getElem? hget)
  have hreached := hpersisted.rows _ _ hrow
  have hlt : session.recvSequence < seq := of_decide_eq_true hcheck
  have hadvance : session.advanceRecvSequence seq =
      { session with recvSequence := seq } := if_pos hlt
  rw [hadvance]
  refine hpersisted.advance hget rfl rfl rfl le_rfl hlt.le ?_ rfl
    ⟨List.Subset.refl _, subset_append_left ..⟩
    (fun pair hmem => .inl hmem) ?_ ⟨hreached.1, hreached.2.1, .inr ?_⟩
  · exact get?_modify_of_get? hrow _
  · intro pair hmem
    rcases mem_append.mp hmem with hmem | hmem
    · exact .inl hmem
    · rw [mem_singleton.mp hmem]
      exact .inr ⟨rfl, le_rfl⟩
  · exact mem_append_right _ (mem_singleton_self _)

/-- Saving an object again changes nothing. -/
theorem Persisted.saveSessionState :
    history.storage.saveSessionState session = history.storage := by
  have hrow := hpersisted.saved session (mem_of_getElem? hget)
  exact congrArg (fun rows => { history.storage with sessions := rows })
    ((set_eq_self_iff _ _ _).mpr hrow)

end

theorem Persisted.reached_startCounters (peerId : PeerId) :
    history.Reached peerId (max 1 (startCounters history.floors peerId).1,
      (startCounters history.floors peerId).2) := by
  unfold startCounters
  cases hfloor : history.floors.get? peerId with
  | none => exact ⟨Nat.one_pos, .inl rfl, .inl rfl⟩
  | some floor =>
    have hreached := hpersisted.floors peerId floor hfloor
    rwa [getD_some, Nat.max_eq_right hreached.1]

end

theorem get?_applySequenceFloors_of_some {floors : SequenceFloors}
    (hfloor : (applySequenceFloors floors session).2.get? peerId =
      some floor) : floors.get? peerId = some floor := by
  unfold applySequenceFloors at hfloor
  split at hfloor
  · exact hfloor
  · rw [get?_erase] at hfloor
    split at hfloor
    · cases hfloor
    · exact hfloor

theorem exists_of_mem_rowsOf (hmem : row ∈ rowsOf peerId rows.values) :
    ∃ sessionId, rows.get? sessionId = some row ∧ row.peerId = peerId := by
  obtain ⟨hvalue, hpeer⟩ := mem_filter.mp hmem
  obtain ⟨binding, hbinding, rfl⟩ := mem_map.mp hvalue
  exact ⟨binding.1, rows.get?_eq_of_mem_entries hbinding, by simpa using hpeer⟩

theorem Persisted.establish (hpersisted : history.Persisted)
    {keys : SessionKeys}
    (hfresh : history.storage.sessions.contains keys.sessionId = false) :
    Persisted { history with
      storage := history.storage.saveSessionState
        (AshiChat.establish history.floors keys)
      floors := (applySequenceFloors history.floors (.ofKeys keys)).2
      objects := history.objects ++
        [AshiChat.establish history.floors keys] } := by
  have hnone := (contains_eq_false_iff _ _).mp hfresh
  have hkeep : ∀ sessionId row,
      history.storage.sessions.get? sessionId = some row →
        (history.storage.saveSessionState
          (AshiChat.establish history.floors keys)).sessions.get? sessionId =
            some row := by
    intro sessionId row hget
    have hne : keys.sessionId ≠ sessionId := by
      rintro rfl
      rw [hnone] at hget
      cases hget
    simp only [Storage.saveSessionState, establish_sessionId]
    rw [get?_set, if_neg hne, hget]
  refine ⟨?_, ?_, ?_, ?_, ?_, ?_⟩
  · intro session hmem
    rcases mem_append.mp hmem with hmem | hmem
    · exact hkeep _ _ (hpersisted.saved session hmem)
    · rw [mem_singleton.mp hmem]
      exact get?_set_self ..
  · have hnew : keys.sessionId ∉ history.objects.map Session.sessionId := by
      rw [List.mem_map]
      rintro ⟨session, hmem, hid⟩
      have hsaved := hpersisted.saved session hmem
      rw [hid, hnone] at hsaved
      cases hsaved
    simpa [nodup_append, hpersisted.distinct] using hnew
  · intro sessionId row hget
    rcases get?_set_cases hget with ⟨-, rfl⟩ | ⟨-, hget⟩
    · obtain ⟨hsend, hrecv⟩ := establish_counters history.floors keys
      rw [hsend, hrecv, establish_remotePeerId]
      exact hpersisted.reached_startCounters keys.remotePeerId
    · exact hpersisted.rows sessionId row hget
  · intro peerId floor hfloor
    exact hpersisted.floors peerId floor
      (get?_applySequenceFloors_of_some hfloor)
  · intro peerId seq hseq
    obtain ⟨sessionId, row, hget, hcovers⟩ := hpersisted.used peerId seq hseq
    exact ⟨sessionId, row, hkeep sessionId row hget, hcovers⟩
  · intro peerId seq hseq
    obtain ⟨sessionId, row, hget, hcovers⟩ :=
      hpersisted.accepted peerId seq hseq
    exact ⟨sessionId, row, hkeep sessionId row hget, hcovers⟩

/-- The rows of the tables, in whatever order they come. -/
theorem Persisted.restart (hpersisted : history.Persisted)
    (known : PeerId → Bool)
    (hperm : rows.entries.Perm history.storage.sessions.entries) :
    Persisted { history with
      storage := { history.storage with sessions := rows }
      floors := history.loadFloors known rows
      objects := [] } := by
  have hget := get?_of_perm hperm
  refine ⟨by simp, nodup_nil, ?_, ?_, ?_, ?_⟩
  · intro sessionId row hrow
    exact hpersisted.rows sessionId row ((hget sessionId).symm.trans hrow)
  · intro peerId floor hfloor
    obtain ⟨last, hlast, rfl⟩ := exists_last_of_loadFloors hfloor
    obtain ⟨sessionId, hrow, rfl⟩ := exists_of_mem_rowsOf
      (mem_of_getLast? hlast)
    exact hpersisted.rows sessionId last ((hget sessionId).symm.trans hrow)
  · intro peerId seq hseq
    simp only [hget]
    exact hpersisted.used peerId seq hseq
  · intro peerId seq hseq
    simp only [hget]
    exact hpersisted.accepted peerId seq hseq

/-- A handshake brings a session id that has no row yet. -/
def FreshId (history : SessionHistory) : HistoryEvent → Prop
  | .establish made =>
    history.storage.sessions.contains made.sessionId = false
  | _ => True

instance (history : SessionHistory) : ∀ event, Decidable (history.FreshId event)
  | .establish _ => inferInstanceAs (Decidable (_ = _))
  | .send _ | .receive .. | .save _ | .restart .. =>
    inferInstanceAs (Decidable True)

theorem Persisted.step (hpersisted : history.Persisted) {event : HistoryEvent}
    (hfresh : history.FreshId event) : (history.step event).Persisted := by
  cases event with
  | establish => exact hpersisted.establish hfresh
  | send =>
    simp only [SessionHistory.step]
    split
    · exact hpersisted
    · next session hget => exact hpersisted.send hget
  | receive =>
    simp only [SessionHistory.step]
    split
    · exact hpersisted
    · next session hget =>
      split
      · next hcheck => exact hpersisted.receive hget hcheck
      · exact hpersisted
  | save =>
    simp only [SessionHistory.step]
    split
    · exact hpersisted
    · next session hget => rwa [hpersisted.saveSessionState hget]
  | restart known =>
    simp only [SessionHistory.step]
    split
    · next hperm => exact hpersisted.restart known hperm
    · exact hpersisted

theorem mem_rowsOf {sessionId : Bytes} (hget : rows.get? sessionId = some row) :
    row ∈ rowsOf row.peerId rows.values := by
  refine mem_filter.mpr ⟨?_, by simp⟩
  exact mem_map.mpr ⟨(sessionId, row), rows.mem_entries_iff.mpr hget, rfl⟩

/-- The last row dominates the past exactly if it dominates the other rows. -/
theorem Persisted.dominates_iff (hpersisted : history.Persisted)
    (hperm : rows.entries.Perm history.storage.sessions.entries)
    {last : SessionRecord}
    (hlast : (rowsOf peerId rows.values).getLast? = some last) :
    history.Dominates peerId (last.sendSequence, last.recvSequence) ↔
      LastRowLargest rows peerId := by
  have hget := get?_of_perm hperm
  constructor
  · rintro ⟨hused, haccepted⟩ last' hlast' row hrow
    rw [hlast, mem_some_iff] at hlast'
    subst hlast'
    obtain ⟨sessionId, hfound, rfl⟩ := exists_of_mem_rowsOf hrow
    obtain ⟨-, hsend, hrecv⟩ := hpersisted.rows sessionId row
      ((hget sessionId).symm.trans hfound)
    obtain ⟨lastId, hlastRow, -⟩ := exists_of_mem_rowsOf (mem_of_getLast? hlast)
    have hpos := (hpersisted.rows lastId last
      ((hget lastId).symm.trans hlastRow)).1
    constructor
    · rcases hsend with hsend | hsend
      · exact hsend.le.trans hpos
      · exact le_of_pred_lt (hused _ hsend)
    · rcases hrecv with hrecv | hrecv
      · exact hrecv.le.trans (zero_le _)
      · exact haccepted _ hrecv
  · intro hlargest
    have hrows := hlargest last hlast
    constructor
    · intro seq hseq
      obtain ⟨sessionId, row, hfound, rfl, hlt⟩ :=
        hpersisted.used peerId seq hseq
      have hrow := mem_rowsOf ((hget sessionId).trans hfound)
      exact lt_of_lt_of_le hlt (hrows row hrow).1
    · intro seq hseq
      obtain ⟨sessionId, row, hfound, rfl, hle⟩ :=
        hpersisted.accepted peerId seq hseq
      have hrow := mem_rowsOf ((hget sessionId).trans hfound)
      exact le_trans hle (hrows row hrow).2

/-- Restarts invent no counters: after any history in which no session id
comes back, rows and floors hold what has been reached with their peer. -/
theorem counters_persisted {events : List HistoryEvent}
    (hfresh : EveryStep step FreshId {} events) :
    Along step Persisted {} events :=
  along_of_everyStep (fun _ _ hpersisted => hpersisted.step)
    (fun _ hpersisted => hpersisted) persisted_initial hfresh

end SessionHistory

open SessionHistory

/-- After any history in which no session id comes back, and in whatever order
the rows do, the floor pair that a start loads for a peer dominates all that
was used towards and accepted from that peer exactly if the last of its rows
has the largest counters. -/
theorem floor_dominates_iff {events : List HistoryEvent}
    (hfresh : EveryStep SessionHistory.step FreshId {} events)
    (known : PeerId → Bool) (rows : OrderedDict Bytes SessionRecord)
    (peerId : PeerId) (floor : Nat × Nat)
    (hperm : rows.entries.Perm
      (run SessionHistory.step {} events).storage.sessions.entries)
    (hfloor : ((run SessionHistory.step {} events).loadFloors known rows).get?
      peerId = some floor) :
    (run SessionHistory.step {} events).Dominates peerId floor ↔
      LastRowLargest rows peerId := by
  have hpersisted : (run SessionHistory.step {} events).Persisted :=
    inv_run_of_everyStep (fun _ _ hpersisted => hpersisted.step)
      persisted_initial hfresh
  obtain ⟨_, hlast, rfl⟩ := exists_last_of_loadFloors hfloor
  exact hpersisted.dominates_iff hperm hlast

namespace RestartFloorsWitness

def peer : PeerId := replicate 32 1

def keysNumbered (number : UInt8) : SessionKeys where
  encryptionKey := replicate 32 7
  sessionId := replicate 8 number
  remotePeerId := peer
  remotePublicKeyBytes := replicate 32 1

/-- One session in which both sides have spoken. -/
def oneSession : List HistoryEvent :=
  [.establish (keysNumbered 1), .send 0, .send 0, .receive 0 1]

/-- A reconnect of the same process follows, and nothing is said in it. -/
def reconnected : List HistoryEvent :=
  oneSession ++ [.establish (keysNumbered 2)]

theorem counters_persisted_one_session :
    Along SessionHistory.step Persisted {} oneSession :=
  counters_persisted (by decide +kernel)

theorem floor_dominates_one_session :
    (run SessionHistory.step {} oneSession).Dominates peer (3, 1) := by
  have hfresh : EveryStep SessionHistory.step FreshId {} oneSession := by
    decide +kernel
  exact (floor_dominates_iff hfresh (fun _ => true) _ peer (3, 1)
    (List.Perm.refl _) (by decide +kernel)).mpr (by decide +kernel)

/-- The floor that the next start loads falls back to that of the unused
session. -/
theorem reconnected_floor_too_low :
    ((run SessionHistory.step {} reconnected).loadFloors (fun _ => true)
        (run SessionHistory.step {} reconnected).storage.sessions).get? peer =
          some (1, 0) ∧
      ¬ (run SessionHistory.step {} reconnected).Dominates peer (1, 0) := by
  refine ⟨by decide +kernel, ?_⟩
  rintro ⟨hused, -⟩
  exact absurd (hused 2 (by decide +kernel)) (by decide)

end RestartFloorsWitness

end AshiChat
