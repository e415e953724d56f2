/-
Signed endpoint updates that are older than what the node holds.  Such an
update still spawns a task of `update_endpoint` and still completes a future
that waits for the peer.  Where no future waits and the task finds the newer
row, the node goes on as if the update had never come: a run with the update
is simulated by a run without it.
-/
import AshiChat.EndpointNode

namespace AshiChat

open EventRun List UpdateTask Pool EndpointNode

variable {P : Primitives}

/-- A `resolve_peer` for the peer waits for its result. -/
def Resolver.waitsFor (resolver : Resolver) (peerId : PeerId) : Bool :=
  match resolver.pending.get? peerId with
  | some future => resolver.futures[future]? == some none
  | none => false

theorem Resolver.complete_of_not_waitsFor {resolver : Resolver}
    {peerId : PeerId} (hidle : resolver.waitsFor peerId = false)
    (endpoint : Address) :
    resolver.complete peerId endpoint = resolver := by
  unfold Resolver.complete
  unfold Resolver.waitsFor at hidle
  split
  · rfl
  · next _ hpending =>
    simp only [hpending, beq_eq_false_iff_ne] at hidle
    split
    · next hwaiting => exact absurd hwaiting hidle
    · rfl

namespace PeerTable

/-- The table holds a newer version of the peer's endpoint. -/
def outdates (table : PeerTable) (update : EndpointUpdatePayload) : Bool :=
  match table.peers.get? update.peerId with
  | some entry => update.versionCounter < entry.versionCounter
  | none => false

theorem applyEndpointUpdate_of_outdates {table : PeerTable}
    {update : EndpointUpdatePayload} (hold : table.outdates update = true) :
    table.applyEndpointUpdate update = table := by
  have hpeers : (table.applyEndpointUpdate update).peers = table.peers := by
    refine (table.peers.modify_eq_self_iff _ _).mpr ?_
    intro entry hentry
    rw [outdates, hentry] at hold
    exact if_neg (Nat.lt_asymm (of_decide_eq_true hold))
  cases table
  simpa only [applyEndpointUpdate, modifyEntry, mk.injEq, true_and] using hpeers

end PeerTable

/-- The row of the task's peer is at least as new as the task. -/
def UpdateTask.outdated (task : UpdateTask) (rows : PeerRows) : Bool :=
  match rows.get? task.peerId with
  | some row => task.versionCounter ≤ row.versionCounter
  | none => false

theorem UpdateTask.select_of_outdated {task : UpdateTask} {rows : PeerRows}
    (hold : task.outdated rows = true) : task.select rows = none := by
  unfold outdated at hold
  cases hrow : rows.get? task.peerId with
  | none =>
    rw [hrow] at hold
    cases hold
  | some =>
    rw [hrow] at hold
    rw [select, hrow]
    exact if_pos (of_decide_eq_true hold)

/-- An event without the place of the task it moves. -/
def EndpointNodeEvent.anywhere : EndpointNodeEvent → EndpointNodeEvent
  | .select _ => .select 0
  | .write _ now => .write 0 now
  | event => event

namespace EndpointNode

/-- The `SELECT` of the task for an old update finds a row that is at least as
new. -/
def refuses (update : EndpointUpdatePayload) (state : EndpointNode P) :
    EndpointNodeEvent → Bool
  | .select index =>
    match Pool.take? state.updates index with
    | some (task, _) =>
      task ≠ .ofUpdate update || task.outdated state.node.storage.peers
    | none => true
  | _ => true

/-- One state is another with tasks of the old update added. -/
def Follows (update : EndpointUpdatePayload) (state shadow : EndpointNode P) :
    Prop :=
  ∃ updates stale, state = shadow.withUpdates updates ∧
    (∀ task ∈ stale, task = ofUpdate update) ∧
    updates.Perm (stale ++ shadow.updates)

variable {state shadow : EndpointNode P} {update : EndpointUpdatePayload}

theorem follows_receiveUpdate
    (hold : state.node.peerTable.outdates update = true)
    (hidle : state.resolver.waitsFor update.peerId = false) :
    (state.receiveUpdate update).Follows update state := by
  unfold receiveUpdate
  split
  · refine ⟨state.updates ++ [.ofUpdate update], [.ofUpdate update], ?_,
      by simp, perm_append_comm⟩
    have hsame := state.resolver.complete_of_not_waitsFor hidle
      (update.endpointIp, update.endpointPort)
    have htable := PeerTable.applyEndpointUpdate_of_outdates hold
    simp only [hsame, htable]
    rfl
  · exact ⟨state.updates, [], rfl, by simp, List.Perm.refl _⟩

theorem Follows.receiveUpdate (hfollows : state.Follows update shadow)
    (other : EndpointUpdatePayload) :
    (state.receiveUpdate other).Follows update
      (shadow.receiveUpdate other) := by
  obtain ⟨updates, stale, rfl, hstale, hperm⟩ := hfollows
  have hnode : (shadow.withUpdates updates).node = shadow.node := rfl
  simp only [receiveUpdate, hnode]
  split
  · refine ⟨updates ++ [.ofUpdate other], stale, rfl, hstale, ?_⟩
    rw [← append_assoc]
    exact hperm.append_right _
  · exact ⟨updates, stale, rfl, hstale, hperm⟩

theorem outdated_of_refuses {index : Nat} {task : UpdateTask}
    {rest : List UpdateTask}
    (hrefuses : state.refuses update (.select index) = true)
    (htake : Pool.take? state.updates index = some (task, rest))
    (htask : task = .ofUpdate update) :
    task.outdated state.node.storage.peers = true := by
  simpa only [refuses, htake, ne_eq, htask, not_true_eq_false, decide_false,
    Bool.false_or] using hrefuses

section

variable (hfollows : state.Follows update shadow)

include hfollows

/-- The `SELECT` of the stale task ends it; every other one has its match. -/
theorem Follows.select {index : Nat}
    (hrefuses : state.refuses update (.select index) = true) :
    ∃ place, (state.step (.select index)).Follows update
      (shadow.step (.select place)) := by
  obtain ⟨updates, stale, rfl, hstale, hperm⟩ := hfollows
  let rows := shadow.node.storage.peers
  have hstep : (shadow.withUpdates updates).step (.select index) =
      shadow.withUpdates (selectAt rows updates index) := rfl
  have hidle : shadow.step (.select shadow.updates.length) = shadow := by
    rw [step_select, selectAt_length]
    rfl
  rcases selectAt_cases rows updates index with
    hsame | ⟨task, rest, htake, hchecked, hselected⟩
  · refine ⟨shadow.updates.length, updates, stale, ?_, hstale, ?_⟩
    · rw [hstep, hsame, hidle]
    · rwa [hidle]
  · -- The task is the stale one, or it runs without the update as well.
    rcases take?_of_perm_append hperm htake with
      ⟨_, stale', htaken, hrest⟩ | ⟨place, _, htaken, hrest⟩
    · have htask := hstale task (mem_of_take? htaken)
      have hrefused := outdated_of_refuses hrefuses htake htask
      have hnone : task.select rows = none := select_of_outdated hrefused
      refine ⟨shadow.updates.length, rest, stale', ?_, ?_, ?_⟩
      · rw [hstep, hselected, hnone, hidle, Option.toList_none, append_nil]
      · exact fun other hother =>
          hstale other (mem_of_mem_rest htaken hother)
      · rwa [hidle]
    · refine ⟨place, rest ++ (task.select rows).toList, stale, ?_, hstale, ?_⟩
      · rw [hstep, hselected]
        rfl
      · rw [step_select, selectAt_of_take? htaken hchecked]
        exact (hrest.append_right _).trans (.of_eq (append_assoc ..))

/-- The stale task never writes: it would have to pass its check first. -/
theorem Follows.write (index : Nat) (now : ℚ) :
    ∃ place, (state.step (.write index now)).Follows update
      (shadow.step (.write place now)) := by
  obtain ⟨updates, stale, rfl, hstale, hperm⟩ := hfollows
  let rows := shadow.node.storage.peers
  have hstep : (shadow.withUpdates updates).step (.write index now) =
      (shadow.withRows (writeAt rows updates index now).1).withUpdates
        (writeAt rows updates index now).2 := rfl
  rcases writeAt_cases rows updates index now with
    hsame | ⟨task, rest, htake, hchecked, hwritten⟩
  · refine ⟨shadow.updates.length, updates, stale, ?_, hstale, ?_⟩
    · rw [hstep, hsame, step_write, writeAt_length]
      rfl
    · rwa [step_write, writeAt_length]
  · rcases take?_of_perm_append hperm htake with
      ⟨_, _, htaken, -⟩ | ⟨place, _, htaken, _⟩
    · rw [hstale task (mem_of_take? htaken)] at hchecked
      cases hchecked
    · refine ⟨place, rest, stale, ?_, hstale, ?_⟩
      · rw [hstep, hwritten, step_write, writeAt_of_take? htaken hchecked]
        rfl
      · rwa [step_write, writeAt_of_take? htaken hchecked]

theorem Follows.step
    {event : EndpointNodeEvent} (hrefuses : state.refuses update event = true) :
    ∃ other, other.anywhere = event.anywhere ∧
      (state.step event).Follows update (shadow.step other) := by
  cases hhandles : event.handlesUpdates with
  | false =>
    obtain ⟨updates, stale, rfl, hstale, _⟩ := hfollows
    refine ⟨event, rfl, updates, stale,
      shadow.step_withUpdates updates hhandles, hstale, ?_⟩
    rwa [shadow.updates_step hhandles]
  | true =>
    cases event with
    | node event =>
      cases event with
      | restart graceful now =>
        obtain ⟨updates, stale, rfl, -, -⟩ := hfollows
        exact ⟨.node (.restart graceful now), rfl, [], [], rfl, by simp,
          List.Perm.refl _⟩
      | _ => cases hhandles
    | receiveUpdate other =>
      exact ⟨.receiveUpdate other, rfl, hfollows.receiveUpdate other⟩
    | select =>
      obtain ⟨place, hplace⟩ := hfollows.select hrefuses
      exact ⟨.select place, rfl, hplace⟩
    | write index now =>
      obtain ⟨place, hplace⟩ := hfollows.write index now
      exact ⟨.write place now, rfl, hplace⟩
    | _ => cases hhandles

end

/-- An old update has no effect when no `resolve_peer` waits for its peer and
its task finds the newer row: whatever happens later happens in the same way
without it. -/
theorem stale_update_no_effect (state : EndpointNode P)
    (update : EndpointUpdatePayload)
    (hold : state.node.peerTable.outdates update = true)
    (hidle : state.resolver.waitsFor update.peerId = false)
    (events : List EndpointNodeEvent)
    (hrefuses : EveryStep step
      (fun state event => state.refuses update event = true)
      (state.step (.receiveUpdate update)) events) :
    ∃ others, others.map EndpointNodeEvent.anywhere =
        events.map EndpointNodeEvent.anywhere ∧
      let reached := run step (state.step (.receiveUpdate update)) events
      let without := run step state others
      reached.process = without.process ∧ reached.resolver = without.resolver ∧
        reached.coroutines = without.coroutines := by
  have hfollows : (state.step (.receiveUpdate update)).Follows update state :=
    follows_receiveUpdate hold hidle
  obtain ⟨others, hothers, _, _, hreached, -, -⟩ :=
    exists_run_of_simulation EndpointNodeEvent.anywhere
      (fun _ _ _ hfollows hrefuses => hfollows.step hrefuses) hfollows hrefuses
  refine ⟨others, hothers, ?_⟩
  rw [hreached]
  exact ⟨rfl, rfl, rfl⟩

end EndpointNode

namespace EndpointNodeWitness

open EndpointNode Reference

/-- With nothing waiting, the old update is dropped. -/
theorem late_update_dropped :
    let known := run step (fresh self 0) introduced
    ∃ others, others.map EndpointNodeEvent.anywhere =
        [.select 0, .node (.restart true 1)] ∧
      let reached := run step (known.step (.receiveUpdate (signed elsewhere 1)))
        [.select 0, .node (.restart true 1)]
      let without := run step known others
      reached.process = without.process ∧ reached.resolver = without.resolver ∧
        reached.coroutines = without.coroutines :=
  stale_update_no_effect _ (signed elsewhere 1) (by decide +kernel)
    (by decide +kernel) [.select 0, .node (.restart true 1)]
    (by decide +kernel)

/-- The node has lost the peer and asks the others for its endpoint. -/
def searching : EndpointNode primitives :=
  run step (fresh self 0) (introduced ++ [.recordAttempt peer.peerId 1,
      .reconnect peer.peerId (constant 16 8) draw 2])

def storedEndpoint (state : EndpointNode primitives) : Option String :=
  (state.node.storage.peers.get? peer.peerId).bind PeerRecord.lastKnownEndpoint

/-- While the node looks for the peer, the old update is taken for the answer,
and it replaces the newer endpoint in the table and in the database. -/
theorem old_answer_replaces_endpoint :
    let update := signed elsewhere 1
    let goesOn : List EndpointNodeEvent :=
      [.select 0, .resume 0 draw 3, .resume 0 draw 3]
    let reached := run step searching (.receiveUpdate update :: goesOn)
    let without := run step searching goesOn
    searching.node.peerTable.outdates update = true ∧ (ofUpdate update).outdated
        searching.node.storage.peers = true ∧
      verifyEndpointSignature primitives searching.node.peerTable
        update = true ∧
      without.node.peerTable.getEndpoint peer.peerId = some home ∧
      storedEndpoint without = some (formatEndpoint home) ∧
      reached.node.peerTable.getEndpoint peer.peerId = some elsewhere ∧
      storedEndpoint reached = some (formatEndpoint elsewhere) := by
  decide +kernel

end EndpointNodeWitness

end AshiChat
