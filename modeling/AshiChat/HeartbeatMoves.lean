/-
What the events of a whole node do to the heartbeat of one peer: to its loop,
to the PING it waits for and to the tasks the loop starts.
-/
import AshiChat.Removal

namespace AshiChat

open EventRun OrderedDict

variable {P : Primitives}

namespace ChatNode

/-- How an event moves the heartbeat of the peer.  A loop that starts anew has
missed nothing. -/
inductive Beats (peerId : PeerId) (state : ChatNode P) (event : ChatEvent)
    (next : ChatNode P) : Prop where
  | kept (hloop : next.loops.get? peerId = state.loops.get? peerId)
      (hping : next.pendingPings.get? peerId = state.pendingPings.get? peerId)
  | renewed
      (hloop : ∀ loop, next.loops.get? peerId = some loop → loop = ⟨false, 0⟩)
      (hping : next.pendingPings.get? peerId = state.pendingPings.get? peerId ∨
        next.pendingPings.get? peerId = none)
  | pinged (pingId : Bytes) (missed : Nat)
      (hevent : event = .heartbeat peerId pingId)
      (hslept : state.loops.get? peerId = some ⟨false, missed⟩)
      (hknown : state.node.heartbeat.contains peerId = true)
      (hloop : next.loops.get? peerId = some ⟨true, missed⟩)
      (hping : next.pendingPings.get? peerId = some pingId)
  | missed (pingId : Bytes) (count : Nat)
      (hevent : event = .heartbeat peerId pingId)
      (hwaited : state.loops.get? peerId = some ⟨true, count⟩)
      (hpending : state.pendingPings.contains peerId = true)
      (hcount : count + 1 < 6)
      (hloop : next.loops.get? peerId = some ⟨false, count + 1⟩)
      (hping : next.pendingPings.get? peerId = none)
  | answered (pingId : Bytes) (hevent : event = .handlePong pingId)
      (hmatched : state.pendingPings.get? peerId = some pingId)
      (hloop : next.loops.get? peerId = state.loops.get? peerId)
      (hping : next.pendingPings.get? peerId = none)

variable {state : ChatNode P} {peerId : PeerId}

theorem beats_stepContact (event : ContactEvent) :
    Beats peerId state (.contact event) (state.stepContact event) := by
  refine stepContact_rule (motive := Beats peerId state (.contact event))
    state event ?_ ?_ ?_ fun _ _ => .kept rfl rfl
  · intro graceful now _
    refine .renewed ?_ (.inr rfl)
    rintro loop ⟨⟩
  · intro other _
    exact .kept rfl rfl
  · intro other _
    by_cases hpeer : other = peerId
    · subst hpeer
      refine .renewed ?_ (.inl rfl)
      intro loop hloop
      rw [stopHeartbeat, get?_erase_self] at hloop
      cases hloop
    · refine .kept ?_ rfl
      simp only [stopHeartbeat, get?_erase, if_neg hpeer]

theorem beats_resumeWork (event : ChatEvent) (rest : List Work)
    (requestId : Random 16) (draw : HelloDraw) (now : ℚ) (work : Work) :
    Beats peerId state event
      ({ state with works := rest }.resumeWork requestId draw now work) := by
  cases work with
  | enqueued _ _ session =>
    cases session with
    | none | some => exact .kept rfl rfl
  | heartbeat other =>
    by_cases hpeer : other = peerId
    · subst hpeer
      refine .renewed (fun loop hloop => ?_) (.inl rfl)
      exact (Option.some.inj ((get?_set_self ..).symm.trans hloop)).symm
    · refine .kept ?_ rfl
      exact (get?_set ..).trans (if_neg hpeer)
  | _ => exact .kept rfl rfl

/-- The loop of another peer. -/
theorem beats_beat_of_ne {other : PeerId} (hother : other ≠ peerId)
    (event : ChatEvent) (pingId : Bytes) :
    Beats peerId state event (state.beat other pingId) := by
  have hset : ∀ {ν : Type} (dict : OrderedDict PeerId ν) (value : ν),
      (dict.set other value).get? peerId = dict.get? peerId :=
    fun dict value => (get?_set ..).trans (if_neg hother)
  have herase : ∀ {ν : Type} (dict : OrderedDict PeerId ν),
      (dict.erase other).get? peerId = dict.get? peerId :=
    fun dict => (get?_erase ..).trans (if_neg hother)
  unfold beat
  split
  · exact .kept rfl rfl
  · split
    · exact .kept (hset _ _) (hset _ _)
    · exact .kept (herase _) rfl
  · split
    · simp only
      split
      · exact .kept (herase _) (herase _)
      · exact .kept (hset _ _) (herase _)
    · exact .kept (hset _ _) rfl

theorem beats_beat (pingId : Bytes) :
    Beats peerId state (.heartbeat peerId pingId)
      (state.beat peerId pingId) := by
  unfold beat
  cases hloop : state.loops.get? peerId with
  | none => exact .kept rfl rfl
  | some loop =>
    obtain ⟨waiting, missed⟩ := loop
    cases waiting with
    | false =>
      simp only
      split
      · next hknown =>
        exact .pinged pingId missed rfl hloop hknown
          (get?_set_self ..) (get?_set_self ..)
      · refine .renewed (fun loop hnext => ?_) (.inl rfl)
        cases (get?_erase_self ..).symm.trans hnext
    | true =>
      simp only
      split
      · next hpending =>
        split
        · refine .renewed (fun loop hnext => ?_) (.inr (get?_erase_self ..))
          cases (get?_erase_self ..).symm.trans hnext
        · next hcount =>
          exact .missed pingId missed rfl hloop hpending (not_le.mp hcount)
            (get?_set_self ..) (get?_erase_self ..)
      · refine .renewed (fun loop hnext => ?_) (.inl rfl)
        exact (Option.some.inj ((get?_set_self ..).symm.trans hnext)).symm

theorem beats_handlePong (pingId : Bytes) :
    Beats peerId state (.handlePong pingId) (state.handlePong pingId) := by
  unfold handlePong
  split
  · exact .kept rfl rfl
  · next other _ hfirst =>
    by_cases hpeer : other = peerId
    · subst hpeer
      obtain ⟨hget, htest⟩ := get?_of_first? _ hfirst
      rw [beq_iff_eq] at htest
      exact .answered pingId rfl (htest ▸ hget) rfl (get?_erase_self ..)
    · exact .kept rfl ((get?_erase ..).trans (if_neg hpeer))

/-- Every event moves the heartbeat of every peer in one of these ways. -/
theorem beats (state : ChatNode P) (peerId : PeerId) (event : ChatEvent) :
    Beats peerId state event (state.step event) := by
  cases event with
  | contact event =>
    simp only [step]
    split
    · exact .kept rfl rfl
    · exact beats_stepContact event
  | resume _ requestId draw now =>
    simp only [step]
    split
    · exact .kept rfl rfl
    · next work rest _ => exact beats_resumeWork _ rest requestId draw now work
  | heartbeat other pingId =>
    by_cases hpeer : other = peerId
    · subst hpeer
      exact beats_beat pingId
    · exact beats_beat_of_ne hpeer _ pingId
  | handlePong pingId => exact beats_handlePong pingId
  | callback =>
    simp only [step]
    split <;> exact .kept rfl rfl
  | _ => exact .kept rfl rfl

/-- What an event does to the tasks that wait to run. -/
inductive Starts (state : ChatNode P) (event : ChatEvent)
    (next : ChatNode P) : Prop where
  | none (hfewer : next.callbacks.Sublist state.callbacks)
  | suspect (peerId : PeerId) (pingId : Bytes) (missed : Nat)
      (hevent : event = .heartbeat peerId pingId)
      (hwaited : state.loops.get? peerId = some ⟨true, missed⟩)
      (hpending : state.pendingPings.contains peerId = true)
      (hcount : 3 ≤ missed + 1)
      (hmore : next.callbacks = state.callbacks ++ [.suspect peerId])
  | disconnect (peerId : PeerId) (pingId : Bytes) (missed : Nat)
      (hevent : event = .heartbeat peerId pingId)
      (hwaited : state.loops.get? peerId = some ⟨true, missed⟩)
      (hpending : state.pendingPings.contains peerId = true)
      (hcount : 6 ≤ missed + 1)
      (hmore : next.callbacks = state.callbacks ++ [.disconnect peerId])

theorem starts_stepContact (event : ContactEvent) :
    Starts state (.contact event) (state.stepContact event) := by
  refine stepContact_rule (motive := Starts state (.contact event)) state event
    ?_ ?_ ?_ fun _ _ => .none (List.Sublist.refl _)
  · exact fun _ _ _ => .none (List.nil_sublist _)
  · exact fun _ _ => .none (List.Sublist.refl _)
  · exact fun _ _ => .none (List.Sublist.refl _)

/-- A task is started by a loop that has waited for its PONG in vain. -/
theorem starts_beat (peerId : PeerId) (pingId : Bytes) :
    Starts state (.heartbeat peerId pingId) (state.beat peerId pingId) := by
  unfold beat
  split
  · exact .none (List.Sublist.refl _)
  · split <;> exact .none (List.Sublist.refl _)
  · next missed hloop =>
    split
    · next hpending =>
      simp only
      split
      · next hlast =>
        exact .disconnect peerId pingId missed rfl hloop hpending hlast rfl
      · by_cases hthird : 3 ≤ missed + 1
        · simp only [if_pos hthird]
          exact .suspect peerId pingId missed rfl hloop hpending hthird rfl
        · simp only [if_neg hthird, List.append_nil]
          exact .none (List.Sublist.refl _)
    · exact .none (List.Sublist.refl _)

theorem starts (state : ChatNode P) (event : ChatEvent) :
    Starts state event (state.step event) := by
  cases event with
  | contact event =>
    simp only [step]
    split
    · exact .none (List.Sublist.refl _)
    · exact starts_stepContact event
  | resume =>
    simp only [step]
    split
    · exact .none (List.Sublist.refl _)
    · next work rest _ =>
      cases work with
      | enqueued _ _ session =>
        cases session <;> exact .none (List.Sublist.refl _)
      | _ => exact .none (List.Sublist.refl _)
  | heartbeat peerId pingId => exact starts_beat peerId pingId
  | handlePong =>
    simp only [step, handlePong]
    split <;> exact .none (List.Sublist.refl _)
  | callback =>
    simp only [step]
    split
    · exact .none (List.Sublist.refl _)
    · next callback rest htake => exact .none (Pool.sublist_of_take? htake)
  | _ => exact .none (List.Sublist.refl _)

end ChatNode

end AshiChat
