/-
The version counter of a node's own ENDPOINT_UPDATEs
(`_build_endpoint_update`, `set_local_endpoint_version`).  The counter lives in
memory; every update schedules a background task that writes it, and the update
is sent without waiting for that task.  Tasks start in the order in which they
were made, the connection executes what is issued at its own pace, and the
process may die at any point.
-/
import AshiChat.Resolution
import AshiChat.WireRoundTrip
import AshiChat.Kit.Connection
import AshiChat.Kit.Pool
import AshiChat.Kit.EventRun
import AshiChat.Reference

namespace AshiChat

open EventRun List Connection

/-- What the coroutines of a node execute on the connection, as far as the
`local_endpoint_version` row of `meta` can tell. -/
inductive MetaStatement where
  | setLocalEndpointVersion (version : Nat)
  | other
deriving DecidableEq

/-- The row after a statement. -/
def MetaStatement.apply (row : Option Nat) : MetaStatement → Option Nat
  | .setLocalEndpointVersion version => some version
  | .other => row

/-- A `set_local_endpoint_version` call that waits for its statement or for its
commit. -/
inductive VersionWrite where
  | executing (version ticket : Nat)
  | committing (version ticket : Nat)
deriving DecidableEq

/-- The counter, the writes made by `ensure_future` that have not begun, those
that have, the database, and the updates handed to the transport. -/
structure VersionedNode (P : Primitives) where
  identity : LocalIdentity P
  localEndpointVersion : Nat
  scheduled : List Nat := []
  writes : List VersionWrite := []
  db : Connection (Option Nat) MetaStatement
  sent : List EndpointUpdatePayload := []

/-- SQLite integers are below this. -/
def sqliteLimit : Nat := 2 ^ 63

inductive VersionEvent where
  /-- `_build_endpoint_update` for the own id, and one send for each target. -/
  | advertise (endpoint : Address) (targets : Nat)
  /-- The oldest scheduled write begins. -/
  | beginWrite
  | resume (index : Nat)
  /-- Another coroutine issues an operation. -/
  | issue (op : DbOp Unit)
  | execute
  | restart

namespace VersionedNode

variable {P : Primitives} (ip : IpLibrary)

/-- `get_local_endpoint_version` -/
def storedVersion (row : Option Nat) : Nat := row.getD 0

/-- A process that starts on the stored row. -/
def start (identity : LocalIdentity P) (row : Option Nat)
    (sent : List EndpointUpdatePayload) : VersionedNode P where
  identity := identity
  localEndpointVersion := storedVersion row
  db := .opened row
  sent := sent

/-- `_build_endpoint_update`, and the sends of its caller.  An address or a
port that cannot be written out raises after the counter has moved. -/
def advertise (node : VersionedNode P) (endpoint : Address) (targets : Nat) :
    VersionedNode P :=
  let built :=
    buildEndpointUpdate node.identity node.localEndpointVersion endpoint
  let counted := { node with
    localEndpointVersion := built.1
    scheduled := node.scheduled ++ [built.1] }
  match built.2 with
  | .error _ => counted
  | .ok update =>
    match update.serialize ip with
    | .error _ => counted
    | .ok _ =>
      { counted with sent := node.sent ++ replicate targets update }

/-- The first stretch of `set_local_endpoint_version`; `execute` raises on an
integer SQLite cannot hold. -/
def beginWrite (node : VersionedNode P) : VersionedNode P :=
  match node.scheduled with
  | [] => node
  | version :: rest =>
    if version < sqliteLimit then
      { node with
        scheduled := rest
        writes := node.writes ++ [.executing version node.db.ops.length]
        db := node.db.issue (.statement (.setLocalEndpointVersion version)) }
    else { node with scheduled := rest }

/-- A write goes on once the connection has executed what it waits for. -/
def resume (node : VersionedNode P) (index : Nat) : VersionedNode P :=
  match Pool.take? node.writes index with
  | none => node
  | some (.executing version ticket, rest) =>
    if ticket < node.db.executed then
      { node with
        writes := rest ++ [.committing version node.db.ops.length]
        db := node.db.issue .commit }
    else node
  | some (.committing _ ticket, rest) =>
    if ticket < node.db.executed then { node with writes := rest }
    else node

/-- An operation of another coroutine. -/
def otherOp : DbOp Unit → DbOp MetaStatement
  | .statement () => .statement .other
  | .commit => .commit

def step (node : VersionedNode P) : VersionEvent → VersionedNode P
  | .advertise endpoint targets => node.advertise ip endpoint targets
  | .beginWrite => node.beginWrite
  | .resume index => node.resume index
  | .issue op => { node with db := node.db.issue (otherOp op) }
  | .execute => { node with db := node.db.execute }
  | .restart =>
    start node.identity (node.db.durable MetaStatement.apply) node.sent

/-- The process dies only while no write of the counter is outstanding, and
the counter stays below what SQLite can hold. -/
def settledSteps (node : VersionedNode P) : VersionEvent → Bool
  | .restart => node.scheduled.isEmpty && node.writes.isEmpty
  | .advertise _ _ => decide (node.localEndpointVersion + 1 < sqliteLimit)
  | _ => true

end VersionedNode

/-- The endpoint an update announces. -/
def EndpointUpdatePayload.endpoint (update : EndpointUpdatePayload) : Address :=
  (update.endpointIp, update.endpointPort)

/-- A later update has no smaller version, and a larger one if it announces
another endpoint. -/
def Supersedes (earlier later : EndpointUpdatePayload) : Prop :=
  earlier.versionCounter ≤ later.versionCounter ∧
    (earlier.endpoint ≠ later.endpoint →
      earlier.versionCounter < later.versionCounter)

instance (earlier later : EndpointUpdatePayload) :
    Decidable (Supersedes earlier later) :=
  inferInstanceAs (Decidable (_ ∧ _))

namespace VersionedNode

variable {P : Primitives} {ip : IpLibrary}

/-- The stored row has reached the version. -/
def Reaches (version : Nat) (row : Option Nat) : Prop :=
  version ≤ storedVersion row

/-- A write that has begun: the row has reached the version since the statement
it waits for, or since before the commit it waits for. -/
def Backed (db : Connection (Option Nat) MetaStatement) (version : Nat) :
    VersionWrite → Prop
  | .executing _ ticket =>
    ticket < db.ops.length ∧
      db.HoldsFrom MetaStatement.apply (Reaches version) (ticket + 1)
  | .committing _ ticket =>
    db.ops[ticket]? = some .commit ∧ ∃ from' ≤ ticket,
      db.HoldsFrom MetaStatement.apply (Reaches version) from'

/-- Where the current counter is on its way to the database. -/
inductive Kept (node : VersionedNode P) : Prop where
  /-- Its write has not begun; it is the last of those. -/
  | scheduled (before : List Nat)
      (hlast : node.scheduled = before ++ [node.localEndpointVersion])
  /-- Its write is waiting. -/
  | waiting (hnone : node.scheduled = []) (write : VersionWrite)
      (hmem : write ∈ node.writes)
      (hbacked : Backed node.db node.localEndpointVersion write)
  /-- A crash leaves it. -/
  | secured (hnone : node.scheduled = [])
      (hsecured : node.db.Secured MetaStatement.apply
        (Reaches node.localEndpointVersion))

structure Versioned (node : VersionedNode P) : Prop where
  sent_le : ∀ update ∈ node.sent,
    update.versionCounter ≤ node.localEndpointVersion
  ordered : node.sent.Pairwise Supersedes
  scheduled_lt : ∀ version ∈ node.scheduled, version < sqliteLimit
  kept : node.Kept

/-- What an operation that does not write the row does to it. -/
theorem perform_otherOp (row : Option Nat) (op : DbOp Unit) :
    perform MetaStatement.apply row (otherOp op) = row := by
  cases op with
  | statement | commit => rfl

section Database

variable {db : Connection (Option Nat) MetaStatement} {version : Nat}
  {write : VersionWrite} {op : DbOp MetaStatement}

theorem holdsFrom_issue_of_same {fact : Option Nat → Prop} {start : Nat}
    (hsame : ∀ row, perform MetaStatement.apply row op = row)
    (hstart : start ≤ db.ops.length)
    (hfrom : db.HoldsFrom MetaStatement.apply fact start) :
    (db.issue op).HoldsFrom MetaStatement.apply fact start := by
  refine hfrom.issue ?_
  rw [hsame]
  exact hfrom db.ops.length hstart le_rfl

theorem lt_length_of_commit {ticket : Nat}
    (hcommit : db.ops[ticket]? = some .commit) : ticket < db.ops.length :=
  (List.getElem?_eq_some_iff.mp hcommit).1

theorem Backed.issue (hsame : ∀ row, perform MetaStatement.apply row op = row)
    (hbacked : Backed db version write) :
    Backed (db.issue op) version write := by
  cases write with
  | executing =>
    obtain ⟨hlt, hfrom⟩ := hbacked
    refine ⟨?_, holdsFrom_issue_of_same hsame hlt hfrom⟩
    simpa [issue] using Nat.lt_succ_of_lt hlt
  | committing =>
    obtain ⟨hcommit, start, hstart, hfrom⟩ := hbacked
    have hlt := lt_length_of_commit hcommit
    exact ⟨getElem?_issue.mpr (.inl hcommit), start, hstart,
      holdsFrom_issue_of_same hsame (hstart.trans hlt.le) hfrom⟩

theorem Backed.execute (hbacked : Backed db version write) :
    Backed db.execute version write := by
  cases write with
  | executing => exact ⟨by simpa using hbacked.1, hbacked.2.execute⟩
  | committing =>
    obtain ⟨hcommit, start, hstart, hfrom⟩ := hbacked
    exact ⟨by simpa using hcommit, start, hstart, hfrom.execute⟩

end Database

variable {node : VersionedNode P}

theorem Kept.issue {op : DbOp MetaStatement}
    (hsame : ∀ row, perform MetaStatement.apply row op = row)
    (hkept : node.Kept) : Kept { node with db := node.db.issue op } := by
  cases hkept with
  | scheduled before hlast => exact .scheduled before hlast
  | waiting hnone write hmem hbacked =>
    exact .waiting hnone write hmem (hbacked.issue hsame)
  | secured hnone hsecured =>
    refine .secured hnone (hsecured.issue ?_)
    rw [hsame]
    exact hsecured.issued

theorem Kept.execute (hkept : node.Kept) :
    Kept { node with db := node.db.execute } := by
  cases hkept with
  | scheduled before hlast => exact .scheduled before hlast
  | waiting hnone write hmem hbacked =>
    exact .waiting hnone write hmem hbacked.execute
  | secured hnone hsecured => exact .secured hnone hsecured.execute

/-- The last scheduled write begins with the current counter. -/
theorem Kept.beginWrite (hkept : node.Kept)
    (hlimit : ∀ version ∈ node.scheduled, version < sqliteLimit) :
    node.beginWrite.Kept := by
  unfold VersionedNode.beginWrite
  cases hscheduled : node.scheduled with
  | nil => exact hkept
  | cons version =>
    have hversion : version < sqliteLimit :=
      hlimit version (hscheduled ▸ mem_cons_self)
    simp only [if_pos hversion]
    cases hkept with
    | waiting hnone => rw [hscheduled] at hnone; cases hnone
    | secured hnone => rw [hscheduled] at hnone; cases hnone
    | scheduled before hlast =>
      rw [hscheduled] at hlast
      cases before with
      | nil =>
        obtain ⟨rfl, rfl⟩ := cons_eq_cons.mp hlast
        refine .waiting rfl _ (mem_append_right _
          mem_cons_self) ⟨?_, holdsFrom_issue ?_⟩
        · simp [Connection.issue]
        · exact le_rfl
      | cons _ before =>
        obtain ⟨_, hrest⟩ := cons_eq_cons.mp hlast
        exact .scheduled before hrest

theorem Kept.resume (hkept : node.Kept) (index : Nat) :
    (node.resume index).Kept := by
  unfold VersionedNode.resume
  split
  · exact hkept
  · next version ticket rest htake =>
    split
    · next hdone =>
      have hcommit : ∀ row, perform MetaStatement.apply row
          DbOp.commit = row := fun _ => rfl
      cases hkept with
      | scheduled before hlast => exact .scheduled before hlast
      | secured hnone hsecured =>
        exact .secured hnone (hsecured.issue hsecured.issued)
      | waiting hnone write hmem hbacked =>
        rcases (Pool.mem_iff_of_take? htake).mp hmem with rfl | hrest
        · -- The write of the current counter asks for its commit.
          obtain ⟨hlt, hfrom⟩ := hbacked
          refine .waiting hnone _ (mem_append_right _
            mem_cons_self) ⟨?_, ticket + 1, hlt,
              holdsFrom_issue_of_same hcommit hlt hfrom⟩
          exact getElem?_issue.mpr (.inr ⟨rfl, rfl⟩)
        · exact .waiting hnone write (mem_append_left _ hrest)
            (hbacked.issue hcommit)
    · exact hkept
  · next version ticket rest htake =>
    split
    · next hdone =>
      cases hkept with
      | scheduled before hlast => exact .scheduled before hlast
      | secured hnone hsecured => exact .secured hnone hsecured
      | waiting hnone write hmem hbacked =>
        rcases (Pool.mem_iff_of_take? htake).mp hmem with rfl | hrest
        · obtain ⟨hcommit, _, hstart, hfrom⟩ := hbacked
          exact .secured hnone (hfrom.secured hstart hdone hcommit)
        · exact .waiting hnone write hrest hbacked
    · exact hkept

/-- An advertisement takes the next version, schedules its write, and adds
copies of one update of that version to what was sent. -/
theorem advertise_cases (ip : IpLibrary) (node : VersionedNode P)
    (endpoint : Address) (targets : Nat) :
    ∃ updates, node.advertise ip endpoint targets = { node with
          localEndpointVersion := node.localEndpointVersion + 1
          scheduled := node.scheduled ++ [node.localEndpointVersion + 1]
          sent := node.sent ++ updates } ∧
      ∀ update ∈ updates,
        update.versionCounter = node.localEndpointVersion + 1 ∧
          update.endpoint = endpoint := by
  unfold advertise
  simp only [buildEndpointUpdate]
  split
  · exact ⟨[], by rw [append_nil], by simp⟩
  · next update hbuilt =>
    split
    · exact ⟨[], by rw [append_nil], by simp⟩
    · refine ⟨_, rfl, ?_⟩
      intro copy hcopy
      rw [eq_of_mem_replicate hcopy]
      have hresult : (buildEndpointUpdate node.identity
          node.localEndpointVersion endpoint).2 = .ok update := hbuilt
      obtain ⟨-, hendpoint, hversion, -⟩ := buildEndpointUpdate_names hresult
      exact ⟨hversion, hendpoint⟩

theorem Versioned.advertise (hversioned : node.Versioned) {endpoint : Address}
    {targets : Nat} (hlimit : node.localEndpointVersion + 1 < sqliteLimit) :
    (node.advertise ip endpoint targets).Versioned := by
  obtain ⟨_, hnode, hupdates⟩ := advertise_cases ip node endpoint targets
  rw [hnode]
  refine ⟨?_, ?_, ?_, .scheduled node.scheduled rfl⟩
  · intro update hmem
    rcases mem_append.mp hmem with hold | hnew
    · exact (hversioned.sent_le update hold).trans (Nat.le_succ _)
    · exact (hupdates update hnew).1.le
  · refine pairwise_append.mpr ⟨hversioned.ordered, ?_, ?_⟩
    · refine pairwise_of_forall_mem_list ?_
      intro left hleft right hright
      obtain ⟨hversion, hendpoint⟩ := hupdates left hleft
      obtain ⟨hversion', hendpoint'⟩ := hupdates right hright
      exact ⟨(hversion.trans hversion'.symm).le,
        fun hne => absurd (hendpoint.trans hendpoint'.symm) hne⟩
    · intro old hold new hnew
      have hlt : old.versionCounter < new.versionCounter := by
        rw [(hupdates new hnew).1]
        exact Nat.lt_succ_of_le (hversioned.sent_le old hold)
      exact ⟨hlt.le, fun _ => hlt⟩
  · intro version hmem
    rcases mem_append.mp hmem with hold | hnew
    · exact hversioned.scheduled_lt version hold
    · rw [mem_singleton.mp hnew]
      exact hlimit

/-- With no write outstanding a crash leaves the current counter. -/
theorem Kept.durable (hkept : node.Kept) (hscheduled : node.scheduled = [])
    (hwrites : node.writes = []) :
    node.localEndpointVersion ≤
      storedVersion (node.db.durable MetaStatement.apply) := by
  cases hkept with
  | scheduled _ hlast => simp [hscheduled] at hlast
  | waiting _ _ hmem => simp [hwrites] at hmem
  | secured _ hsecured => exact hsecured.durable

theorem versioned_start (identity : LocalIdentity P) (row : Option Nat)
    {sent : List EndpointUpdatePayload}
    (hle : ∀ update ∈ sent, update.versionCounter ≤ storedVersion row)
    (hordered : sent.Pairwise Supersedes) :
    (start identity row sent).Versioned :=
  ⟨hle, hordered, by simp [start],
    .secured rfl (secured_opened (Nat.le_refl _))⟩

/-- The start of a write takes it off the schedule and leaves counter and sent
updates alone. -/
theorem beginWrite_frame (node : VersionedNode P) :
    node.beginWrite.sent = node.sent ∧
      node.beginWrite.localEndpointVersion = node.localEndpointVersion ∧
      ∀ version ∈ node.beginWrite.scheduled, version ∈ node.scheduled := by
  unfold beginWrite
  split
  · exact ⟨rfl, rfl, fun _ hmem => hmem⟩
  · next version _ hscheduled =>
    rw [hscheduled]
    split
    · exact ⟨rfl, rfl, fun _ hmem => mem_cons_of_mem _ hmem⟩
    · exact ⟨rfl, rfl, fun _ hmem => mem_cons_of_mem _ hmem⟩

theorem resume_frame (node : VersionedNode P) (index : Nat) :
    (node.resume index).sent = node.sent ∧
      (node.resume index).localEndpointVersion = node.localEndpointVersion ∧
      (node.resume index).scheduled = node.scheduled := by
  unfold resume
  split
  · exact ⟨rfl, rfl, rfl⟩
  · split
    · exact ⟨rfl, rfl, rfl⟩
    · exact ⟨rfl, rfl, rfl⟩
  · split
    · exact ⟨rfl, rfl, rfl⟩
    · exact ⟨rfl, rfl, rfl⟩

theorem Versioned.step (hversioned : node.Versioned) {event : VersionEvent}
    (hsettled : node.settledSteps event = true) :
    (node.step ip event).Versioned := by
  obtain ⟨hle, hordered, hlimit, hkept⟩ := hversioned
  cases event with
  | advertise =>
    refine Versioned.advertise ⟨hle, hordered, hlimit, hkept⟩ ?_
    simpa [settledSteps] using hsettled
  | beginWrite =>
    obtain ⟨hsent, hversion, hscheduled⟩ := node.beginWrite_frame
    refine ⟨?_, hsent ▸ hordered, ?_, hkept.beginWrite hlimit⟩
    · rw [VersionedNode.step, hsent, hversion]
      exact hle
    · exact fun version hmem => hlimit version (hscheduled version hmem)
  | resume index =>
    obtain ⟨hsent, hversion, hscheduled⟩ := node.resume_frame index
    refine ⟨?_, hsent ▸ hordered, hscheduled ▸ hlimit, hkept.resume index⟩
    rw [VersionedNode.step, hsent, hversion]
    exact hle
  | issue op =>
    exact ⟨hle, hordered, hlimit, hkept.issue fun row =>
      perform_otherOp row op⟩
  | execute => exact ⟨hle, hordered, hlimit, hkept.execute⟩
  | restart =>
    simp only [settledSteps, Bool.and_eq_true, List.isEmpty_iff] at hsettled
    have hdurable := hkept.durable hsettled.1 hsettled.2
    exact versioned_start node.identity _
      (fun update hmem => (hle update hmem).trans hdurable) hordered

/-- While the process dies only between writes, the versions of what a node
sends about itself grow with every change of the endpoint. -/
theorem versions_grow (identity : LocalIdentity P) (row : Option Nat)
    (events : List VersionEvent)
    (hsettled : EveryStep (step ip) (fun node event =>
      node.settledSteps event = true) (start identity row []) events) :
    (run (step ip) (start identity row []) events).sent.Pairwise
      Supersedes := by
  have hstart : (start identity row []).Versioned :=
    versioned_start identity row (by simp) List.Pairwise.nil
  have hstep : ∀ (node : VersionedNode P) event, node.Versioned →
      node.settledSteps event = true → (node.step ip event).Versioned :=
    fun _ _ hversioned hgood => hversioned.step hgood
  exact (inv_run_of_everyStep hstep hstart hsettled).ordered

end VersionedNode

namespace LocalVersionWitness

open VersionedNode

def identity : LocalIdentity Reference.primitives :=
  .ofPrivateKey _ (replicate 32 1)

def home : Address := ("192.0.2.7", 9000)

def elsewhere : Address := ("198.51.100.3", 9000)

/-- The node of a new profile. -/
def fresh : VersionedNode Reference.primitives := start identity none []

/-- The process dies after the update has left and while its write is still
scheduled; the next process announces another endpoint. -/
def crashed : List VersionEvent :=
  [.advertise home 1, .restart, .advertise elsewhere 1]

/-- Both endpoints go out, signed, under version 1. -/
theorem version_reused :
    ((run (step WireWitness.ipaddress) fresh crashed).sent.map
        fun update => (update.endpoint, update.versionCounter)) =
      [(home, 1), (elsewhere, 1)] ∧
    ¬ (run (step WireWitness.ipaddress) fresh crashed).sent.Pairwise
      Supersedes := by
  constructor
  · decide +kernel
  · decide +kernel

/-- The same change of address once the write is through. -/
def settled : List VersionEvent :=
  [.advertise home 2, .beginWrite, .execute, .resume 0, .execute, .resume 0,
    .restart, .advertise elsewhere 1]

theorem settled_versions_grow :
    EveryStep (step WireWitness.ipaddress) (fun node event =>
        node.settledSteps event = true) fresh settled ∧
      ((run (step WireWitness.ipaddress) fresh settled).sent.map
        fun update => (update.endpoint, update.versionCounter)) =
          [(home, 1), (home, 1), (elsewhere, 2)] ∧
      (run (step WireWitness.ipaddress) fresh settled).sent.Pairwise
        Supersedes := by
  have hsettled : EveryStep (step WireWitness.ipaddress) (fun node event =>
      node.settledSteps event = true) fresh settled := by decide +kernel
  exact ⟨hsettled, by decide +kernel,
    versions_grow identity none settled hsettled⟩

end LocalVersionWitness

end AshiChat
