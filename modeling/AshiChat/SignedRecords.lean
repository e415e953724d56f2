/-
Cached endpoint records and their signatures.  A signature covers an address
and a version; the table and the database keep the three in separate fields,
and most writers touch only the address.
-/
import Mathlib
import AshiChat.EndpointNode
import AshiChat.Kit.SplitText

namespace AshiChat

open EventRun OrderedDict SplitText List Option PeerTable UpdateTask Pool
  Reference EndpointNode

/-- The text of an address gives the address back. -/
theorem parseEndpoint_formatEndpoint (address : Address) :
    parseEndpoint (formatEndpoint address) = some address := by
  have hdigits : ':' ∉ (toString address.2).toList := by
    intro hmem
    have hdigit : ':'.isDigit = true :=
      Nat.isDigit_of_mem_toDigits (by decide) (by decide)
        (Nat.toList_repr ▸ hmem)
    exact absurd hdigit (by decide)
  have hsplit : (formatEndpoint address).splitOn ":" =
      address.1.splitOn ":" ++ [toString address.2] :=
    splitOn_append_last ':' address.1 _ hdigits
  have hjoin : ":".intercalate (address.1.splitOn ":") = address.1 :=
    intercalate_splitOn ':' address.1
  have hnumber : (toString address.2).toNat? = some address.2 :=
    Nat.toNat?_repr address.2
  rw [parseEndpoint, hsplit, reverse_append, reverse_singleton,
    singleton_append]
  cases hpieces : (address.1.splitOn ":").reverse with
  | nil =>
    exact absurd (reverse_eq_nil_iff.mp hpieces) (splitOn_ne_nil ':' address.1)
  | cons =>
    rw [reverse_eq_iff.mp hpieces] at hjoin
    simp only [hnumber, map_some, hjoin]

/-- Different public keys have different peer ids. -/
def Primitives.DistinctIds (P : Primitives) : Prop :=
  ∀ left right : Bytes, left.length = 32 → right.length = 32 →
    derivePeerId P left = derivePeerId P right → left = right

variable {P : Primitives}

/-- The peer itself signed the update: it verifies under the key behind the
peer id. -/
def EndpointUpdatePayload.Genuine (P : Primitives)
    (update : EndpointUpdatePayload) : Prop :=
  ∀ key : Bytes, key.length = 32 → derivePeerId P key = update.peerId →
    update.signedBy P key = true

variable {update : EndpointUpdatePayload}

theorem EndpointUpdatePayload.length_of_signedBy {key : Bytes}
    (hsigned : update.signedBy P key = true) : key.length = 32 := by
  unfold EndpointUpdatePayload.signedBy at hsigned
  split at hsigned
  · cases hsigned
  · exact eq_of_beq (Bool.and_eq_true_iff.mp hsigned).1

/-- The entry that `start` makes from a row. -/
def PeerRecord.entry (peerId : PeerId) (now : ℚ) (row : PeerRecord) :
    PeerEntry where
  peerId := peerId
  publicKey := row.publicKey
  isDirect := true
  endpoint := row.lastKnownEndpoint.bind parseEndpoint
  lastSeen := now
  versionCounter := row.versionCounter
  nickname := row.nickname
  endpointSignature := row.endpointSignature

/-- The signed record that a row becomes at the next start. -/
def PeerRecord.servedUpdate (target : PeerId) (row : PeerRecord) :
    Option EndpointUpdatePayload :=
  PeerTable.servedUpdate target (row.entry target 0)

variable {target : PeerId} {entry : PeerEntry}

theorem PeerTable.get?_restore {table : PeerTable} {now : ℚ}
    {peerId : PeerId} {row : PeerRecord}
    (hget : (table.restore now peerId row).peers.get? target = some entry) :
    (target = peerId ∧ entry = row.entry peerId now) ∨
      table.peers.get? target = some entry := by
  unfold restore modifyEntry at hget
  rcases get?_modify_cases hget with
    ⟨rfl, _, hold, rfl⟩ | ⟨hother, hget⟩
  · unfold addDirectPeer at hold
    split at hold
    · next hlocal =>
      rw [hlocal, table.localAbsent] at hold
      cases hold
    · rw [get?_set_self] at hold
      cases hold
      exact .inl ⟨rfl, rfl⟩
  · rcases get?_addDirectPeer hget with ⟨htarget, -⟩ | hold
    · exact absurd htarget hother
    · exact .inr hold

theorem PeerTable.get?_load {localId : PeerId} {rows : PeerRows} {now : ℚ}
    (hget : (load localId rows now).peers.get? target = some entry) :
    ∃ row, rows.get? target = some row ∧ entry = row.entry target now := by
  have hloaded : ∀ peerId entry,
      (load localId rows now).peers.get? peerId = some entry →
        ∃ row, (peerId, row) ∈ rows.entries ∧ entry = row.entry peerId now := by
    refine List.foldlRecOn (motive := fun table : PeerTable =>
      ∀ peerId entry, table.peers.get? peerId = some entry →
        ∃ row, (peerId, row) ∈ rows.entries ∧ entry = row.entry peerId now)
      rows.entries _ (by simp [empty]) ?_
    intro table hloaded stored hmem peerId entry hget
    rcases get?_restore hget with ⟨rfl, rfl⟩ | hold
    · exact ⟨stored.2, hmem, rfl⟩
    · exact hloaded peerId entry hold
  obtain ⟨row, hmem, hentry⟩ := hloaded target entry hget
  exact ⟨row, rows.mem_entries_iff.mp hmem, hentry⟩

/-- Keys hash to the ids they are kept under, and every signed record is one
that its peer signed. -/
structure EndpointRecords.Genuine (P : Primitives)
    (records : EndpointRecords) : Prop where
  entryKeys : ∀ peerId entry, records.table.peers.get? peerId = some entry →
    derivePeerId P entry.publicKey = peerId
  rowKeys : ∀ peerId row, records.rows.get? peerId = some row →
    derivePeerId P row.publicKey = peerId
  entries : ∀ target entry update,
    records.table.peers.get? target = some entry →
      servedUpdate target entry = some update → update.Genuine P
  rows : ∀ target row update, records.rows.get? target = some row →
    row.servedUpdate target = some update → update.Genuine P

/-- An update that a node accepts is genuine. -/
theorem EndpointRecords.Genuine.of_verify (hids : P.DistinctIds)
    {records : EndpointRecords} (hrecords : records.Genuine P)
    (hverified : verifyEndpointSignature P records.table update = true) :
    update.Genuine P := by
  unfold verifyEndpointSignature at hverified
  split at hverified
  · cases hverified
  · next entry hentry =>
    intro key hlength hkey
    have hsame : key = entry.publicKey := hids key entry.publicKey hlength
        (EndpointUpdatePayload.length_of_signedBy hverified)
        (hkey.trans (hrecords.entryKeys _ entry hentry).symm)
    rw [hsame]
    exact hverified

/-- The entry has no signed record, or already this address. -/
def PeerEntry.mayTake (addr : Address) (entry : PeerEntry) : Bool :=
  entry.endpointSignature.isNone || entry.versionCounter == 0 ||
    entry.endpoint == some addr

/-- The row has no signed record, or already this address. -/
def PeerRecord.mayTake (addr : Address) (row : PeerRecord) : Bool :=
  row.endpointSignature.isNone || row.versionCounter == 0 ||
    row.lastKnownEndpoint == some (formatEndpoint addr)

/-- The write leaves signed records as they are. -/
def EndpointRecords.harmless (P : Primitives) (records : EndpointRecords) :
    EndpointWrite → Bool
  | .entry peerId addr =>
    match records.table.peers.get? peerId with
    | none => true
    | some entry => entry.mayTake addr
  | .newEntry .. => true
  | .row peerId addr _ =>
    match records.rows.get? peerId with
    | none => true
    | some row => row.mayTake addr
  | .newRow publicKey addr _ =>
    match records.rows.get? (derivePeerId P publicKey) with
    | none => true
    | some row => row.mayTake addr

theorem PeerEntry.servedUpdate_of_mayTake {addr : Address}
    (hmay : entry.mayTake addr = true)
    (hserved : servedUpdate target
      { entry with endpoint := some addr } = some update) :
    servedUpdate target entry = some update := by
  obtain ⟨endpoint, signature, hendpoint, hsignature, hversion, hupdate⟩ :=
    servedUpdate_eq_some.mp hserved
  have hsame : entry.endpoint = some addr := by
    have hne : entry.versionCounter ≠ 0 := Nat.ne_of_gt hversion
    have hsome : entry.endpointSignature = some signature := hsignature
    simpa [PeerEntry.mayTake, hsome, hne] using hmay
  exact servedUpdate_eq_some.mpr ⟨endpoint, signature,
    hsame.trans hendpoint, hsignature, hversion, hupdate⟩

/-- A row that takes the address, and keeps version and signature. -/
theorem PeerRecord.servedUpdate_of_mayTake {addr : Address}
    {row after : PeerRecord} (hmay : row.mayTake addr = true)
    (hserved : after.servedUpdate target = some update)
    (hendpoint : after.lastKnownEndpoint = some (formatEndpoint addr))
    (hversion : after.versionCounter = row.versionCounter)
    (hsignature : after.endpointSignature = row.endpointSignature) :
    row.servedUpdate target = some update := by
  obtain ⟨endpoint, signature, hparsed, hsome, hpos, hupdate⟩ :=
    servedUpdate_eq_some.mp hserved
  simp only [PeerRecord.entry, hversion, hsignature] at hsome hpos hupdate
  have hsame : row.lastKnownEndpoint = after.lastKnownEndpoint := by
    have hne : row.versionCounter ≠ 0 := Nat.ne_of_gt hpos
    rw [hendpoint]
    simpa [PeerRecord.mayTake, hsome, hne] using hmay
  refine servedUpdate_eq_some.mpr
    ⟨endpoint, signature, ?_, hsome, hpos, hupdate⟩
  simp only [PeerRecord.entry, hsame]
  exact hparsed

namespace EndpointRecords.Genuine

variable {records : EndpointRecords}

variable {addr : Address}

section

variable (hrecords : records.Genuine P)

include hrecords

theorem write_entry {peerId : PeerId}
    (hharmless : records.harmless P (.entry peerId addr)) :
    (EndpointWrite.apply P records (.entry peerId addr)).Genuine P := by
  have hentry : ∀ target entry, (records.table.setEndpoint peerId
      addr).peers.get? target = some entry →
        records.table.peers.get? target = some entry ∨
        ∃ old, records.table.peers.get? target = some old ∧
          old.mayTake addr = true ∧
          entry = { old with endpoint := some addr } := by
    intro target entry hget
    rcases get?_modify_cases hget with
      ⟨rfl, old, hold, rfl⟩ | ⟨-, hold⟩
    · simp only [harmless, hold] at hharmless
      exact .inr ⟨old, hold, hharmless, rfl⟩
    · exact .inl hold
  refine ⟨?_, hrecords.rowKeys, ?_, hrecords.rows⟩
  · intro target entry hget
    rcases hentry target entry hget with hold | ⟨old, hold, -, rfl⟩
    · exact hrecords.entryKeys target entry hold
    · exact hrecords.entryKeys target old hold
  · intro target entry update hget hserved
    rcases hentry target entry hget with hold | ⟨old, hold, hmay, rfl⟩
    · exact hrecords.entries target entry update hold hserved
    · exact hrecords.entries target old update hold
        (PeerEntry.servedUpdate_of_mayTake hmay hserved)

theorem write_newEntry (publicKey : Bytes)
    (nickname : Option String) (addr : Address) (now : ℚ) :
    (EndpointWrite.apply P records
      (.newEntry publicKey nickname addr now)).Genuine P := by
  refine ⟨?_, hrecords.rowKeys, ?_, hrecords.rows⟩
  · intro target entry hget
    rcases get?_addDirectPeer hget with ⟨rfl, rfl⟩ | hold
    · rfl
    · exact hrecords.entryKeys target entry hold
  · intro target entry update hget hserved
    rcases get?_addDirectPeer hget with ⟨rfl, rfl⟩ | hold
    · -- A new entry has no signature.
      obtain ⟨_, _, -, hsignature, -⟩ := servedUpdate_eq_some.mp hserved
      cases hsignature
    · exact hrecords.entries target entry update hold hserved

/-- Other rows under the same table. -/
theorem withRows {rows : PeerRows}
    (hkeys : ∀ peerId row, rows.get? peerId = some row →
      derivePeerId P row.publicKey = peerId)
    (hrows : ∀ target row update, rows.get? target = some row →
      row.servedUpdate target = some update → update.Genuine P) :
    ({ records with rows := rows } : EndpointRecords).Genuine P :=
  ⟨hrecords.entryKeys, hkeys, hrecords.entries, hrows⟩

theorem write_row {peerId : PeerId} {now : ℚ}
    (hharmless : records.harmless P (.row peerId addr now)) :
    (EndpointWrite.apply P records (.row peerId addr now)).Genuine P := by
  refine hrecords.withRows ?_ ?_
  · intro target row hget
    rcases get?_modify_cases hget with
      ⟨-, old, hold, rfl⟩ | ⟨-, hold⟩
    · exact hrecords.rowKeys target old hold
    · exact hrecords.rowKeys target row hold
  · intro target row update hget hserved
    rcases get?_modify_cases hget with
      ⟨rfl, old, hold, rfl⟩ | ⟨-, hold⟩
    · simp only [harmless, hold] at hharmless
      exact hrecords.rows target old update hold
        (PeerRecord.servedUpdate_of_mayTake hharmless hserved rfl rfl rfl)
    · exact hrecords.rows target row update hold hserved

theorem write_newRow {publicKey : Bytes} {now : ℚ}
    (hharmless : records.harmless P (.newRow publicKey addr now)) :
    (EndpointWrite.apply P records (.newRow publicKey addr now)).Genuine P := by
  refine hrecords.withRows ?_ ?_
  · intro target row hget
    rcases get?_set_cases hget with ⟨rfl, rfl⟩ | ⟨-, hold⟩
    · split <;> rfl
    · exact hrecords.rowKeys target row hold
  · intro target row update hget hserved
    rcases get?_set_cases hget with ⟨rfl, rfl⟩ | ⟨-, hold⟩
    · split at hserved
      · -- A new row has no signature.
        obtain ⟨_, _, -, hsignature, -⟩ := servedUpdate_eq_some.mp hserved
        cases hsignature
      · next old hold =>
        simp only [harmless, hold] at hharmless
        exact hrecords.rows _ old update hold
          (PeerRecord.servedUpdate_of_mayTake hharmless hserved rfl rfl rfl)
    · exact hrecords.rows target row update hold hserved

theorem write {write : EndpointWrite} (hharmless : records.harmless P write) :
    (write.apply P records).Genuine P := by
  cases write with
  | entry => exact hrecords.write_entry hharmless
  | newEntry publicKey nickname addr now =>
    exact hrecords.write_newEntry publicKey nickname addr now
  | row => exact hrecords.write_row hharmless
  | newRow => exact hrecords.write_newRow hharmless

/-- A verified update keeps the table genuine. -/
theorem applyEndpointUpdate
    {update : EndpointUpdatePayload} (hgenuine : update.Genuine P) :
    ({ records with table := records.table.applyEndpointUpdate update } :
      EndpointRecords).Genuine P := by
  refine ⟨?_, hrecords.rowKeys, ?_, hrecords.rows⟩
  · intro target entry hget
    have hkey := records.table.publicKey_applyEndpointUpdate update target
    rw [hget, map_some] at hkey
    obtain ⟨old, hold, hsame⟩ := map_eq_some_iff.mp hkey.symm
    rw [← hsame]
    exact hrecords.entryKeys target old hold
  · intro target entry served hget hserved
    have hcached : (records.table.applyEndpointUpdate update).cachedUpdate
        target = some served := by
      rw [cachedUpdate, hget]
      exact hserved
    rcases cachedUpdate_applyEndpointUpdate hcached with
      hold | ⟨-, rfl⟩
    · obtain ⟨old, hget, hserved⟩ := bind_eq_some_iff.mp hold
      exact hrecords.entries target old served hget hserved
    · exact hgenuine

end

end EndpointRecords.Genuine

/-- The task writes what the update says. -/
def UpdateTask.Carries (task : UpdateTask) (update : EndpointUpdatePayload) :
    Prop :=
  task = { ofUpdate update with checked := task.checked }

namespace EndpointRecords.Genuine

variable {records : EndpointRecords}

/-- The `UPDATE` of a task writes address, version and signature together. -/
theorem update_row (hrecords : records.Genuine P) {task : UpdateTask}
    {update : EndpointUpdatePayload} (hcarries : task.Carries update)
    (hgenuine : update.Genuine P) (now : ℚ) :
    ({ records with rows := task.write records.rows now } :
      EndpointRecords).Genuine P := by
  refine hrecords.withRows ?_ ?_
  · intro target row hget
    rw [get?_write] at hget
    split at hget
    · obtain ⟨old, hold, rfl⟩ := map_eq_some_iff.mp hget
      exact hrecords.rowKeys target old hold
    · exact hrecords.rowKeys target row hget
  · intro target row served hget hserved
    rw [get?_write] at hget
    split at hget
    · next hwritten =>
      obtain ⟨old, hold, rfl⟩ := map_eq_some_iff.mp hget
      obtain ⟨rfl, -⟩ := hwritten
      obtain ⟨_, _, hendpoint, hsignature, -, rfl⟩ :=
        servedUpdate_eq_some.mp hserved
      rw [hcarries] at hendpoint hsignature ⊢
      simp only [PeerRecord.entry, ofUpdate, bind_some,
        parseEndpoint_formatEndpoint, some.injEq] at hendpoint
      cases hendpoint
      cases hsignature
      exact hgenuine
    · exact hrecords.rows target row served hget hserved

/-- The table that `start` loads is as genuine as the rows. -/
theorem load (hrecords : records.Genuine P) (localId : PeerId) (now : ℚ) :
    ({ records with table := load localId records.rows now } :
      EndpointRecords).Genuine P := by
  refine ⟨?_, hrecords.rowKeys, ?_, hrecords.rows⟩
  · intro target entry hget
    obtain ⟨row, hrow, rfl⟩ := get?_load hget
    exact hrecords.rowKeys target row hrow
  · intro target entry update hget hserved
    obtain ⟨row, hrow, rfl⟩ := get?_load hget
    exact hrecords.rows target row update hrow hserved

end EndpointRecords.Genuine

/-- The writes leave signed records as they are, one after the other. -/
def EndpointRecords.harmlessAll (P : Primitives) :
    EndpointRecords → List EndpointWrite → Bool
  | _, [] => true
  | records, write :: rest =>
    records.harmless P write &&
      EndpointRecords.harmlessAll P (write.apply P records) rest

theorem EndpointRecords.Genuine.writes {records : EndpointRecords}
    (hrecords : records.Genuine P) {writes : List EndpointWrite}
    (hharmless : records.harmlessAll P writes = true) :
    (writes.foldl (EndpointWrite.apply P) records).Genuine P := by
  induction writes generalizing records with
  | nil => exact hrecords
  | cons write _ ih =>
    obtain ⟨hfirst, hrest⟩ := Bool.and_eq_true_iff.mp hharmless
    exact ih (hrecords.write hfirst) hrest

namespace EndpointNode

/-- The event does not write another address over a signed one. -/
def keepsSigned (state : EndpointNode P) (event : EndpointNodeEvent) : Bool :=
  state.records.harmlessAll P (state.writes event)

/-- Every record a node holds or is about to store is genuine. -/
structure Sound (state : EndpointNode P) : Prop where
  records : state.records.Genuine P
  updates : ∀ task ∈ state.updates, ∃ update : EndpointUpdatePayload,
    update.Genuine P ∧ task.Carries update

/-- What the node answers from its cache verifies wherever the key of the peer
is known. -/
def CacheVerifies (state : EndpointNode P) : Prop := ∀ target update,
    state.node.peerTable.cachedUpdate target = some update → update.Genuine P ∧
      ∀ (table : PeerTable) (entry : PeerEntry),
        table.peers.get? target = some entry → entry.publicKey.length = 32 →
          derivePeerId P entry.publicKey = target →
            verifyEndpointSignature P table update = true

variable {state : EndpointNode P}

theorem Sound.cacheVerifies (hsound : state.Sound) : state.CacheVerifies := by
  intro target update hcached
  obtain ⟨entry, hentry, hserved⟩ := bind_eq_some_iff.mp hcached
  have hgenuine := hsound.records.entries target entry update hentry hserved
  refine ⟨hgenuine, ?_⟩
  intro table other hother hlength hkey
  obtain rfl := peerId_of_cachedUpdate hcached
  rw [verifyEndpointSignature, hother]
  exact hgenuine other.publicKey hlength hkey

theorem Sound.receiveUpdate (hids : P.DistinctIds) (hsound : state.Sound)
    (update : EndpointUpdatePayload) : (state.receiveUpdate update).Sound := by
  unfold EndpointNode.receiveUpdate
  split
  · next hverified =>
    have hgenuine := hsound.records.of_verify hids hverified
    refine ⟨hsound.records.applyEndpointUpdate hgenuine, ?_⟩
    intro task hmem
    rcases mem_append.mp hmem with hmem | hmem
    · exact hsound.updates task hmem
    · cases mem_singleton.mp hmem
      exact ⟨update, hgenuine, rfl⟩
  · exact hsound

theorem Sound.select (hsound : state.Sound) (index : Nat) :
    (state.step (.select index)).Sound := by
  refine ⟨hsound.records, ?_⟩
  rcases selectAt_cases state.node.storage.peers state.updates
      index with hsame | ⟨task, rest, htake, -, hselect⟩
  · intro task hmem
    exact hsound.updates task (hsame ▸ hmem)
  · intro other hmem
    have hpool : other ∈ rest ++
        (task.select state.node.storage.peers).toList := hselect ▸ hmem
    rcases mem_append.mp hpool with hrest | hpassed
    · exact hsound.updates other (mem_of_mem_rest htake hrest)
    · obtain ⟨rfl, -⟩ := select_eq_some (mem_toList.mp hpassed)
      obtain ⟨update, hgenuine, hcarries⟩ :=
        hsound.updates task (mem_of_take? htake)
      refine ⟨update, hgenuine, ?_⟩
      rw [UpdateTask.Carries, hcarries]

theorem Sound.write (hsound : state.Sound) (index : Nat) (now : ℚ) :
    (state.step (.write index now)).Sound := by
  rcases writeAt_cases state.node.storage.peers state.updates index
      now with hsame | ⟨task, _, htake, -, hwrite⟩
  · have hstep : state.step (.write index now) = state := by
      simp only [step, hsame]
      rfl
    rw [hstep]
    exact hsound
  · obtain ⟨_, hgenuine, hcarries⟩ := hsound.updates task (mem_of_take? htake)
    have hrecords := hsound.records.update_row hcarries hgenuine now
    simp only [step, hwrite]
    refine ⟨hrecords, ?_⟩
    intro other hmem
    exact hsound.updates other (mem_of_mem_rest htake hmem)

theorem Sound.restart (hsound : state.Sound) (graceful : Bool) (now : ℚ) :
    (state.restart graceful now).Sound := by
  refine ⟨?_, by simp [EndpointNode.restart]⟩
  rw [records_restart]
  exact hsound.records.load state.node.identity.peerId now

/-- Every event that leaves signed addresses alone keeps the records
genuine. -/
theorem Sound.step (hids : P.DistinctIds) (hsound : state.Sound)
    {event : EndpointNodeEvent} (hkeeps : state.keepsSigned event = true) :
    (state.step event).Sound := by
  cases hhandles : event.handlesUpdates with
  | false =>
    refine ⟨?_, ?_⟩
    · rw [state.records_step hhandles]
      exact hsound.records.writes hkeeps
    · rw [state.updates_step hhandles]
      exact hsound.updates
  | true =>
    cases event with
    | node event =>
      cases event with
      | restart graceful now => exact hsound.restart graceful now
      | _ => cases hhandles
    | receiveUpdate update => exact hsound.receiveUpdate hids update
    | select index => exact hsound.select index
    | write index now => exact hsound.write index now
    | _ => cases hhandles

theorem sound_fresh (identity : LocalIdentity P) (now : ℚ) :
    (fresh identity now).Sound := by
  have hempty : (fresh identity now).records =
      ⟨.empty identity.peerId, .empty⟩ := rfl
  refine ⟨?_, by simp [fresh]⟩
  rw [hempty]
  constructor <;> simp [PeerTable.empty]

/-- While no address learned in another way is written over a signed one,
every record that the node answers from its cache verifies. -/
theorem cached_records_verify (hids : P.DistinctIds) (hstart : state.Sound)
    (events : List EndpointNodeEvent)
    (hkeeps : EveryStep step
      (fun state event => state.keepsSigned event = true) state events) :
    Along step CacheVerifies state events :=
  along_of_everyStep (fun _ _ hsound => hsound.step hids)
    (fun _ hsound => hsound.cacheVerifies) hstart hkeeps

end EndpointNode

theorem Reference.distinctIds : primitives.DistinctIds := by
  intro left right hleft hright hids
  have hfit : fit 32 left = fit 32 right := hids
  rwa [fit_of_length hleft, fit_of_length hright] at hfit

namespace EndpointNodeWitness

/-- After a restart the stored record verifies. -/
theorem restarted_cache_verifies : (run EndpointNode.step (.fresh self 0)
      (introduced ++ [.node (.restart true 1)])).CacheVerifies :=
  cached_records_verify distinctIds
    (sound_fresh self 0) (introduced ++ [.node (.restart true 1)])
    (by decide +kernel) _ (prefix_refl _)

/-- A HELLO from another address parts the address from its signature. -/
theorem moved_hello_breaks_record : (fresh self 0).Sound ∧
    ¬ (run EndpointNode.step (.fresh self 0)
      (introduced ++ [.node (.receive hello elsewhere 1)])).CacheVerifies := by
  refine ⟨sound_fresh self 0, ?_⟩
  intro hverifies
  have hserved : (((run EndpointNode.step (.fresh self 0) (introduced ++
      [.node (.receive hello elsewhere 1)])).node.peerTable.cachedUpdate
        peer.peerId).map fun update => update.signedBy primitives
          peer.publicKeyBytes) = some false := by
    decide +kernel
  obtain ⟨update, hcached, hsigned⟩ := map_eq_some_iff.mp hserved
  have hid := peerId_of_cachedUpdate hcached
  have hgenuine := (hverifies peer.peerId update hcached).1
    peer.publicKeyBytes peer.length_publicKeyBytes
    (peer.peerId_eq.symm.trans hid.symm)
  rw [hsigned] at hgenuine
  cases hgenuine

end EndpointNodeWitness

end AshiChat
