/-
The stored endpoint of a peer (`StorageManager.update_endpoint`).  Every
verified `ENDPOINT_UPDATE` spawns a task that first selects the stored version
and then, in a statement of its own, updates the row.  Tasks interleave at the
statements, and the connection executes statements in the order of issue.
-/
import AshiChat.Peers
import AshiChat.Wire
import AshiChat.Kit.EventRun
import AshiChat.Kit.Pool

namespace AshiChat

open List Pool Option

/-- The `peers` table. -/
abbrev PeerRows := OrderedDict PeerId PeerRecord

/-- A coroutine of `update_endpoint`; `checked` says that its `SELECT` has let
it pass. -/
structure UpdateTask where
  peerId : PeerId
  endpoint : String
  versionCounter : Nat
  signature : Option Bytes
  checked : Bool := false
deriving DecidableEq

namespace UpdateTask

/-- The call that `_apply_endpoint_update` schedules. -/
def ofUpdate (update : EndpointUpdatePayload) : UpdateTask where
  peerId := update.peerId
  endpoint := formatEndpoint (update.endpointIp, update.endpointPort)
  versionCounter := update.versionCounter
  signature := some update.signature

/-- The `SELECT`; `none` is the early `return False`. -/
def select (rows : PeerRows) (task : UpdateTask) : Option UpdateTask :=
  match rows.get? task.peerId with
  | some row =>
    if task.versionCounter ≤ row.versionCounter then none
    else some { task with checked := true }
  | none => some { task with checked := true }

/-- The `UPDATE`.  A column holds signed 64-bit integers, and the driver raises
`OverflowError` for others, which ends the task. -/
def write (rows : PeerRows) (task : UpdateTask) (now : ℚ) : PeerRows :=
  if task.versionCounter < 2 ^ 63 then
    rows.modify task.peerId fun row =>
      { row with
        lastKnownEndpoint := some task.endpoint
        versionCounter := task.versionCounter
        lastSeen := some now
        endpointSignature := task.signature <|> row.endpointSignature }
  else rows

/-- A task executes its `SELECT`. -/
def selectAt (rows : PeerRows) (tasks : List UpdateTask) (index : Nat) :
    List UpdateTask :=
  match take? tasks index with
  | none => tasks
  | some (task, rest) =>
    if task.checked then tasks else rest ++ (task.select rows).toList

/-- A task that passed its check executes its `UPDATE` and is done. -/
def writeAt (rows : PeerRows) (tasks : List UpdateTask) (index : Nat)
    (now : ℚ) : PeerRows × List UpdateTask :=
  match take? tasks index with
  | none => (rows, tasks)
  | some (task, rest) =>
    if task.checked then (task.write rows now, rest) else (rows, tasks)

theorem selectAt_cases (rows : PeerRows) (tasks : List UpdateTask)
    (index : Nat) :
    selectAt rows tasks index = tasks ∨
      ∃ task rest, take? tasks index = some (task, rest) ∧
        task.checked = false ∧
        selectAt rows tasks index = rest ++ (task.select rows).toList := by
  unfold selectAt
  split
  · exact .inl rfl
  · next task rest htake =>
    cases hchecked : task.checked with
    | true => exact .inl (if_pos rfl)
    | false => exact .inr ⟨task, rest, htake, hchecked, if_neg (by decide)⟩

theorem writeAt_cases (rows : PeerRows) (tasks : List UpdateTask)
    (index : Nat) (now : ℚ) :
    writeAt rows tasks index now = (rows, tasks) ∨
      ∃ task rest, take? tasks index = some (task, rest) ∧ task.checked = true ∧
        writeAt rows tasks index now = (task.write rows now, rest) := by
  unfold writeAt
  split
  · exact .inl rfl
  · next task rest htake =>
    cases hchecked : task.checked with
    | true => exact .inr ⟨task, rest, htake, hchecked, if_pos rfl⟩
    | false => exact .inl (if_neg (by decide))

variable {rows : PeerRows} {now : ℚ} {task : UpdateTask}

section Places

variable {tasks rest : List UpdateTask} {index : Nat}

theorem selectAt_of_take? (htake : take? tasks index = some (task, rest))
    (hchecked : task.checked = false) :
    selectAt rows tasks index = rest ++ (task.select rows).toList := by
  simp [selectAt, htake, hchecked]

theorem writeAt_of_take? (htake : take? tasks index = some (task, rest))
    (hchecked : task.checked = true) :
    writeAt rows tasks index now = (task.write rows now, rest) := by
  simp [writeAt, htake, hchecked]

/-- Nothing happens where no task stands. -/
theorem selectAt_length (rows : PeerRows) (tasks : List UpdateTask) :
    selectAt rows tasks tasks.length = tasks := by
  simp only [selectAt, take?_length]

theorem writeAt_length (rows : PeerRows) (tasks : List UpdateTask) (now : ℚ) :
    writeAt rows tasks tasks.length now = (rows, tasks) := by
  simp only [writeAt, take?_length]

end Places

/-- A task that passes its check is the same task, and finds an older row. -/
theorem select_eq_some {passed : UpdateTask}
    (hselect : task.select rows = some passed) :
    passed = { task with checked := true } ∧
      ∀ row, rows.get? task.peerId = some row →
        row.versionCounter < task.versionCounter := by
  unfold select at hselect
  split at hselect
  · next row hrow =>
    split at hselect
    · cases hselect
    · next hnewer =>
      cases hselect
      refine ⟨rfl, ?_⟩
      intro other hother
      rw [hrow] at hother
      cases hother
      exact Nat.lt_of_not_le hnewer
  · next hrow =>
    cases hselect
    refine ⟨rfl, ?_⟩
    intro other hother
    rw [hrow] at hother
    cases hother

/-- A task that is refused finds a row that is at least as new. -/
theorem select_eq_none (hselect : task.select rows = none) :
    ∃ row, rows.get? task.peerId = some row ∧
      task.versionCounter ≤ row.versionCounter := by
  unfold select at hselect
  split at hselect
  · next row hrow =>
    split at hselect
    · next hstale => exact ⟨row, hrow, hstale⟩
    · cases hselect
  · cases hselect

theorem get?_write (peerId : PeerId) : (task.write rows now).get? peerId =
      if peerId = task.peerId ∧ task.versionCounter < 2 ^ 63 then
        (rows.get? peerId).map fun row =>
          { row with
            lastKnownEndpoint := some task.endpoint
            versionCounter := task.versionCounter
            lastSeen := some now
            endpointSignature := task.signature <|> row.endpointSignature }
      else rows.get? peerId := by
  unfold write
  by_cases hfits : task.versionCounter < 2 ^ 63
  · rw [if_pos hfits, OrderedDict.get?_modify]
    by_cases hpeer : task.peerId = peerId
    · rw [if_pos hpeer, if_pos ⟨hpeer.symm, hfits⟩]
    · rw [if_neg hpeer, if_neg fun hall => hpeer hall.1.symm]
  · rw [if_neg hfits, if_neg fun hall => hfits hall.2]

/-- A write removes no row. -/
theorem exists_get?_write (task : UpdateTask) (now : ℚ) {peerId : PeerId}
    {before : PeerRecord} (hbefore : rows.get? peerId = some before) :
    ∃ row, (task.write rows now).get? peerId = some row := by
  rw [get?_write, hbefore]
  split
  · exact ⟨_, rfl⟩
  · exact ⟨before, rfl⟩

end UpdateTask

/-- Endpoint, version and signature of a row. -/
def PeerRecord.signed (row : PeerRecord) : Option String × Nat × Option Bytes :=
  (row.lastKnownEndpoint, row.versionCounter, row.endpointSignature)

/-- The same three of an update. -/
def EndpointUpdatePayload.signed (update : EndpointUpdatePayload) :
    Option String × Nat × Option Bytes :=
  (some (formatEndpoint (update.endpointIp, update.endpointPort)),
    update.versionCounter, some update.signature)

/-- The rows, the tasks that are not done, and the updates that were applied
so far. -/
structure EndpointStore where
  rows : PeerRows
  tasks : List UpdateTask
  applied : List EndpointUpdatePayload

inductive EndpointEvent where
  | apply (update : EndpointUpdatePayload)
  | select (index : Nat)
  | write (index : Nat) (now : ℚ)

namespace EndpointStore

def start (rows : PeerRows) : EndpointStore := ⟨rows, [], []⟩

def step (store : EndpointStore) : EndpointEvent → EndpointStore
  | .apply update =>
    { store with
      tasks := store.tasks ++ [.ofUpdate update]
      applied := store.applied ++ [update] }
  | .select index =>
    { store with tasks := UpdateTask.selectAt store.rows store.tasks index }
  | .write index now =>
    let after := UpdateTask.writeAt store.rows store.tasks index now
    { store with rows := after.1, tasks := after.2 }

/-- The stored version of a peer, zero if there is no row. -/
def version (store : EndpointStore) (peerId : PeerId) : Nat :=
  ((store.rows.get? peerId).map PeerRecord.versionCounter).getD 0

/-- When a task writes, no task with a lower version for the same peer stands
between its `SELECT` and its `UPDATE`, and the version fits the column. -/
def lowestFirst (store : EndpointStore) : EndpointEvent → Bool
  | .write index _ =>
    match take? store.tasks index with
    | none => true
    | some (task, rest) =>
      !task.checked || (task.versionCounter < 2 ^ 63 &&
        rest.all fun other => !other.checked || other.peerId ≠ task.peerId ||
          task.versionCounter ≤ other.versionCounter)
  | _ => true

/-- What may end up in the row of a peer: what was there, or an update that
was applied. -/
def candidates (initial : PeerRows) (store : EndpointStore) (peerId : PeerId) :
    List (Option String × Nat × Option Bytes) :=
  (initial.get? peerId).toList.map PeerRecord.signed ++
    (store.applied.filter (·.peerId = peerId)).map EndpointUpdatePayload.signed

/-- Where all tasks of a peer are done, its row is the candidate with the
greatest version. -/
def Latest (initial : PeerRows) (store : EndpointStore) : Prop :=
  ∀ peerId row, store.rows.get? peerId = some row →
    (∀ task ∈ store.tasks, task.peerId ≠ peerId) →
      row.signed ∈ store.candidates initial peerId ∧
        ∀ candidate ∈ store.candidates initial peerId,
          candidate.2.1 ≤ row.versionCounter

/-- The bookkeeping behind `Latest`: rows hold candidates, tasks come from
updates, an update is either stored, superseded or still under way, and the
rows that tasks have looked at are no newer than they. -/
structure Tracked (initial : PeerRows) (store : EndpointStore) : Prop where
  held : ∀ peerId row, store.rows.get? peerId = some row →
    row.signed ∈ store.candidates initial peerId
  old : ∀ peerId row first, store.rows.get? peerId = some row →
    initial.get? peerId = some first → first.versionCounter ≤ row.versionCounter
  origin : ∀ task ∈ store.tasks, ∃ update ∈ store.applied,
    task = { UpdateTask.ofUpdate update with checked := task.checked }
  underway : ∀ update ∈ store.applied, ∀ row,
    store.rows.get? update.peerId = some row →
      update.versionCounter ≤ row.versionCounter ∨
        ∃ task ∈ store.tasks, task.peerId = update.peerId ∧
          task.versionCounter = update.versionCounter
  passed : ∀ task ∈ store.tasks, task.checked = true → ∀ row,
    store.rows.get? task.peerId = some row →
      row.versionCounter ≤ task.versionCounter

variable {initial : PeerRows} {store : EndpointStore}

theorem Tracked.latest (htracked : Tracked initial store) :
    Latest initial store := by
  intro peerId row hrow hdone
  refine ⟨htracked.held peerId row hrow, ?_⟩
  intro candidate hcandidate
  rcases mem_append.mp hcandidate with hfirst | hupdate
  · obtain ⟨first, hinitial, rfl⟩ := mem_map.mp hfirst
    exact htracked.old peerId row first hrow (mem_toList.mp hinitial)
  · obtain ⟨update, hfiltered, rfl⟩ := mem_map.mp hupdate
    obtain ⟨happlied, hpeer⟩ := mem_filter.mp hfiltered
    have hpeer : update.peerId = peerId := by simpa using hpeer
    rcases htracked.underway update happlied row (hpeer ▸ hrow) with
      hstored | ⟨task, htask, htaskPeer, -⟩
    · exact hstored
    · exact absurd (htaskPeer.trans hpeer) (hdone task htask)

theorem tracked_start (rows : PeerRows) : Tracked rows (start rows) where
  held := by
    intro peerId row hrow
    have hrow : rows.get? peerId = some row := hrow
    simp [candidates, hrow]
  old := by
    intro peerId row first hrow hfirst
    have hrow : rows.get? peerId = some row := hrow
    rw [hrow] at hfirst
    cases hfirst
    exact Nat.le_refl _
  origin := by rintro task ⟨⟩
  underway := by rintro update ⟨⟩
  passed := by rintro task ⟨⟩

theorem Tracked.apply (htracked : Tracked initial store)
    (update : EndpointUpdatePayload) :
    Tracked initial (store.step (.apply update)) where
  held := by
    intro peerId row hrow
    have hheld := htracked.held peerId row hrow
    simp only [candidates, step, filter_append, map_append,
      ← append_assoc] at hheld ⊢
    exact mem_append_left _ hheld
  old := htracked.old
  origin := by
    intro task htask
    rcases mem_append.mp htask with htask | htask
    · obtain ⟨source, hsource, hfrom⟩ := htracked.origin task htask
      exact ⟨source, mem_append_left _ hsource, hfrom⟩
    · cases mem_singleton.mp htask
      exact ⟨update, mem_append_right _ mem_cons_self, rfl⟩
  underway := by
    intro other hother row hrow
    rcases mem_append.mp hother with hother | hother
    · rcases htracked.underway other hother row hrow with
        hstored | ⟨task, htask, hpeer, hversion⟩
      · exact .inl hstored
      · exact .inr ⟨task, mem_append_left _ htask, hpeer, hversion⟩
    · cases mem_singleton.mp hother
      exact .inr ⟨_, mem_append_right _ mem_cons_self, rfl, rfl⟩
  passed := by
    intro task htask hchecked
    rcases mem_append.mp htask with htask | htask
    · exact htracked.passed task htask hchecked
    · cases mem_singleton.mp htask
      cases hchecked

theorem Tracked.select (htracked : Tracked initial store) (index : Nat) :
    Tracked initial (store.step (.select index)) := by
  rcases UpdateTask.selectAt_cases store.rows store.tasks index with
    hsame | ⟨task, _, htake, -, htasks⟩
  · rwa [step, hsame]
  refine ⟨htracked.held, htracked.old, ?_, ?_, ?_⟩
  · intro other hother
    rw [step, htasks] at hother
    rcases mem_append.mp hother with hother | hother
    · exact htracked.origin other (mem_of_mem_rest htake hother)
    · obtain ⟨update, hupdate, hfrom⟩ :=
        htracked.origin task (mem_of_take? htake)
      have hpassed := (UpdateTask.select_eq_some (mem_toList.mp hother)).1
      exact ⟨update, hupdate, by rw [hpassed, hfrom]⟩
  · intro update hupdate row hrow
    rcases htracked.underway update hupdate row hrow with
      hstored | ⟨other, hother, hpeer, hversion⟩
    · exact .inl hstored
    rcases (mem_iff_of_take? htake).mp hother with rfl | hother
    · cases hselect : other.select store.rows with
      | none =>
        obtain ⟨found, hfound, hstale⟩ := UpdateTask.select_eq_none hselect
        have hsame : some found = some row := by
          rw [← hfound, hpeer]
          exact hrow
        cases hsame
        exact .inl (hversion ▸ hstale)
      | some passed =>
        refine .inr ⟨passed, ?_, ?_⟩
        · rw [step, htasks, hselect]
          exact mem_append_right _ mem_cons_self
        · obtain ⟨rfl, -⟩ := UpdateTask.select_eq_some hselect
          exact ⟨hpeer, hversion⟩
    · refine .inr ⟨other, ?_, hpeer, hversion⟩
      rw [step, htasks]
      exact mem_append_left _ hother
  · intro other hother hchecked row hrow
    rw [step, htasks] at hother
    rcases mem_append.mp hother with hother | hother
    · exact htracked.passed other (mem_of_mem_rest htake hother) hchecked
        row hrow
    · obtain ⟨rfl, holder⟩ := UpdateTask.select_eq_some (mem_toList.mp hother)
      exact (holder row hrow).le

variable {now : ℚ} {index : Nat} {task : UpdateTask} {rest : List UpdateTask}
  {peerId : PeerId} {row : PeerRecord} {event : EndpointEvent}

/-- What `lowestFirst` says of the task that writes. -/
theorem le_of_lowestFirst
    (hlowest : store.lowestFirst (.write index now) = true)
    (htake : take? store.tasks index = some (task, rest))
    (hchecked : task.checked = true) :
    task.versionCounter < 2 ^ 63 ∧ ∀ other ∈ rest, other.checked = true →
      other.peerId = task.peerId →
        task.versionCounter ≤ other.versionCounter := by
  simp only [lowestFirst, htake, hchecked, Bool.not_true, Bool.false_or,
    Bool.and_eq_true, decide_eq_true_eq, List.all_eq_true] at hlowest
  refine ⟨hlowest.1, fun other hother hpassed hpeer => ?_⟩
  simpa [hpassed, hpeer] using hlowest.2 other hother

/-- A write sets the version of its peer and leaves the others. -/
theorem get?_rows_write (hfits : task.versionCounter < 2 ^ 63)
    (hrow : (task.write store.rows now).get? peerId = some row) :
    (peerId = task.peerId ∧ row.versionCounter = task.versionCounter ∧
      ∃ before, store.rows.get? peerId = some before ∧ row.signed =
        (some task.endpoint, task.versionCounter,
          task.signature <|> before.endpointSignature)) ∨
      peerId ≠ task.peerId ∧ store.rows.get? peerId = some row := by
  rw [UpdateTask.get?_write] at hrow
  by_cases hpeer : peerId = task.peerId
  · rw [if_pos ⟨hpeer, hfits⟩] at hrow
    obtain ⟨before, hbefore, rfl⟩ := map_eq_some_iff.mp hrow
    exact .inl ⟨hpeer, rfl, before, hbefore, rfl⟩
  · rw [if_neg fun hall => hpeer hall.1] at hrow
    exact .inr ⟨hpeer, hrow⟩

section

variable (htracked : Tracked initial store)

include htracked

/-- A task that has passed its check raises the version, if it changes it. -/
theorem Tracked.raised (htake : take? store.tasks index = some (task, rest))
    (hchecked : task.checked = true) (hfits : task.versionCounter < 2 ^ 63)
    {before : PeerRecord}
    (hrow : (task.write store.rows now).get? peerId = some row)
    (hbefore : store.rows.get? peerId = some before) :
    before.versionCounter ≤ row.versionCounter := by
  rcases get?_rows_write hfits hrow with ⟨rfl, hversion, -⟩ | ⟨-, hkept⟩
  · rw [hversion]
    exact htracked.passed task (mem_of_take? htake) hchecked before hbefore
  · rw [hkept] at hbefore
    cases hbefore
    exact Nat.le_refl _

theorem Tracked.write (hlowest : store.lowestFirst (.write index now) = true) :
    Tracked initial (store.step (.write index now)) := by
  rcases UpdateTask.writeAt_cases store.rows store.tasks index now with
    hsame | ⟨task, _, htake, hchecked, hafter⟩
  · rwa [step, hsame]
  obtain ⟨hfits, hothers⟩ := le_of_lowestFirst hlowest htake hchecked
  obtain ⟨source, hsource, hfrom⟩ := htracked.origin task (mem_of_take? htake)
  rw [step, hafter]
  have hbefore : ∀ peerId row,
      (task.write store.rows now).get? peerId = some row →
        ∃ before, store.rows.get? peerId = some before := by
    intro peerId row hrow
    rcases get?_rows_write hfits hrow with
      ⟨-, -, before, hbefore, -⟩ | ⟨-, hkept⟩
    · exact ⟨before, hbefore⟩
    · exact ⟨row, hkept⟩
  refine ⟨?_, ?_, ?_, ?_, ?_⟩
  · intro peerId row hrow
    rcases get?_rows_write hfits hrow with
      ⟨rfl, -, before, -, hsigned⟩ | ⟨-, hkept⟩
    · refine mem_append_right _ (mem_map.mpr ⟨source, ?_, ?_⟩)
      · rw [mem_filter, hfrom]
        exact ⟨hsource, decide_eq_true rfl⟩
      · rw [hsigned, hfrom]
        rfl
    · exact htracked.held peerId row hkept
  · intro peerId row first hrow hfirst
    obtain ⟨before, hbefore⟩ := hbefore peerId row hrow
    exact (htracked.old peerId before first hbefore hfirst).trans
      (htracked.raised htake hchecked hfits hrow hbefore)
  · intro other hother
    exact htracked.origin other (mem_of_mem_rest htake hother)
  · intro update hupdate row hrow
    obtain ⟨before, hget⟩ := hbefore update.peerId row hrow
    have hle := htracked.raised htake hchecked hfits hrow hget
    rcases htracked.underway update hupdate before hget with
      hstored | ⟨other, hother, hpeer, hversion⟩
    · exact .inl (hstored.trans hle)
    rcases (mem_iff_of_take? htake).mp hother with rfl | hother
    · rcases get?_rows_write hfits hrow with
        ⟨-, hwritten, -⟩ | ⟨hne, -⟩
      · exact .inl (hversion ▸ hwritten ▸ Nat.le_refl _)
      · exact absurd hpeer.symm hne
    · exact .inr ⟨other, hother, hpeer, hversion⟩
  · intro other hother hpassed row hrow
    rcases get?_rows_write hfits hrow with
      ⟨hpeer, hwritten, -⟩ | ⟨-, hkept⟩
    · -- Here the lowest version has to come first.
      rw [hwritten]
      exact hothers other hother hpassed hpeer
    · exact htracked.passed other (mem_of_mem_rest htake hother) hpassed
        row hkept

theorem Tracked.step (hlowest : store.lowestFirst event = true) :
    Tracked initial (store.step event) := by
  cases event with
  | apply update => exact htracked.apply update
  | select index => exact htracked.select index
  | write => exact htracked.write hlowest

/-- No step lowers a stored version. -/
theorem Tracked.version_le
    (hlowest : store.lowestFirst event = true) (peerId : PeerId) :
    store.version peerId ≤ (store.step event).version peerId := by
  cases event with
  | apply | select => exact Nat.le_refl _
  | write index now =>
    rcases UpdateTask.writeAt_cases store.rows store.tasks index now with
      hsame | ⟨task, _, htake, hchecked, hafter⟩
    · rw [EndpointStore.step, hsame]
    obtain ⟨hfits, -⟩ := le_of_lowestFirst hlowest htake hchecked
    rw [EndpointStore.step, hafter]
    cases hbefore : store.rows.get? peerId with
    | none => simp [version, hbefore]
    | some =>
      obtain ⟨_, hrow⟩ := UpdateTask.exists_get?_write task now hbefore
      simp only [version, hbefore, hrow, map_some, getD_some]
      exact htracked.raised htake hchecked hfits hrow hbefore

end

/-- In every run in which tasks of one peer that have looked write in the order
of their versions, no stored version ever decreases, and a peer whose tasks are
done has the endpoint, version and signature of the greatest version. -/
theorem versions_never_regress (rows : PeerRows) (events : List EndpointEvent)
    (hlowest : EventRun.EveryStep step
      (fun store event => store.lowestFirst event = true) (start rows)
      events) :
    EventRun.EveryStep step (fun store event => ∀ peerId,
        store.version peerId ≤ (store.step event).version peerId)
      (start rows) events ∧
    EventRun.Along step (Latest rows) (start rows) events := by
  have hstep : ∀ store event, Tracked rows store →
      store.lowestFirst event = true → Tracked rows (store.step event) :=
    fun _ _ htracked hlowest => htracked.step hlowest
  constructor
  · exact EventRun.everyStep_of_good hstep (fun _ _ htracked hlowest =>
      htracked.version_le hlowest) (tracked_start rows) hlowest
  · exact EventRun.along_of_everyStep hstep
      (fun _ htracked => Tracked.latest htracked) (tracked_start rows) hlowest

end EndpointStore

namespace EndpointStoreWitness

def peer : PeerId := [7]

/-- A row as `add_peer` leaves it. -/
def rows : PeerRows := OrderedDict.set .empty peer {
    publicKey := [1]
    lastKnownEndpoint := none
    versionCounter := 0
    lastSeen := none
    nickname := none
    archived := false
    endpointSignature := none }

def update (ip : String) (version : Nat) : EndpointUpdatePayload where
  peerId := peer
  endpointIp := ip
  endpointPort := 9000
  versionCounter := version
  signature := [9]

/-- Versions 2 and 1 arrive one after the other and both look at the row
before either writes. -/
def overtaken : List EndpointEvent :=
  [.apply (update "10.0.0.2" 2), .apply (update "10.0.0.1" 1), .select 0,
    .select 0, .write 0 0, .write 0 0]

/-- The write of version 1 comes last and takes the stored version back. -/
theorem overtaken_regresses :
    let before := EventRun.run EndpointStore.step (.start rows)
      (overtaken.take 5)
    let after := EventRun.run EndpointStore.step (.start rows) overtaken
    before.version peer = 2 ∧ after.version peer = 1 ∧ after.tasks = [] ∧
      (after.rows.get? peer).map PeerRecord.lastKnownEndpoint =
        some (some "10.0.0.1:9000") := by
  decide +kernel

/-- Both tasks look before either writes, and version 1 is written first. -/
def ascending : List EndpointEvent :=
  [.apply (update "10.0.0.2" 2), .apply (update "10.0.0.1" 1), .select 0,
    .select 0, .write 1 0, .write 0 0]

theorem ascending_latest :
    let after := EventRun.run EndpointStore.step (.start rows) ascending
    after.version peer = 2 ∧ after.tasks = [] ∧
      EndpointStore.Latest rows after := by
  have hlowest : EventRun.EveryStep EndpointStore.step
      (fun store event => store.lowestFirst event = true) (.start rows)
      ascending := by decide +kernel
  exact ⟨by decide +kernel, by decide +kernel,
    (EndpointStore.versions_never_regress rows ascending hlowest).2 ascending
      (prefix_refl _)⟩

end EndpointStoreWitness

end AshiChat
