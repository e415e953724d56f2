/-
Networks of nodes that exchange datagrams.  Every node has one address, a
datagram carries the address of its sender, and datagrams in flight are
delivered in any order.  Each remembers the chain of messages that led to it,
which no node reads.
-/
import AshiChat.Kit.EventRun
import AshiChat.Kit.OrderedDict
import AshiChat.Kit.Pool

namespace Datagrams

open Pool List OrderedDict

universe u

/-- A message on its way; `causes` are the messages whose handling led to it,
the latest first. -/
structure Datagram (α μ : Type u) where
  source : α
  target : α
  message : μ
  causes : List μ

/-- What nodes do: `κ` are the calls a node's owner makes, `τ` what the
environment adds to a delivery. -/
structure Protocol (α ν μ κ τ : Type u) where
  call : α → ν → κ → ν × List (μ × α)
  receive : α → ν → τ → α → μ → ν × List (μ × α)

structure Network (α ν μ : Type u) where
  nodes : OrderedDict α ν
  wire : List (Datagram α μ)

inductive Event (α κ τ : Type u) where
  | call (self : α) (request : κ)
  | deliver (index : Nat) (input : τ)

variable {α ν μ κ τ : Type u}

/-- Put what a node sends on the wire. -/
def send (self : α) (causes : List μ) (sent : List (μ × α)) :
    List (Datagram α μ) :=
  sent.map fun packet => ⟨self, packet.2, packet.1, causes⟩

variable {self : α} {datagram : Datagram α μ}

theorem mem_send {causes : List μ} {sent : List (μ × α)} :
    datagram ∈ send self causes sent ↔
      ∃ packet ∈ sent, datagram = ⟨self, packet.2, packet.1, causes⟩ := by
  simp [send, eq_comm]

variable [DecidableEq α]

/-- A call, or a delivery; a datagram to an address without a node is lost. -/
def step (protocol : Protocol α ν μ κ τ) (net : Network α ν μ) :
    Event α κ τ → Network α ν μ
  | .call self request =>
    match net.nodes.get? self with
    | none => net
    | some node =>
      let after := protocol.call self node request
      { nodes := net.nodes.set self after.1
        wire := net.wire ++ send self [] after.2 }
  | .deliver index input =>
    match take? net.wire index with
    | none => net
    | some (datagram, rest) =>
      match net.nodes.get? datagram.target with
      | none => { net with wire := rest }
      | some node =>
        let after := protocol.receive datagram.target node input
          datagram.source datagram.message
        { nodes := net.nodes.set datagram.target after.1
          wire := rest ++ send datagram.target
            (datagram.message :: datagram.causes) after.2 }

/-- What a step can do: a node runs because of a call, a node runs because of
a datagram, or nothing happens but that a datagram is lost. -/
theorem step_cases (protocol : Protocol α ν μ κ τ) (net : Network α ν μ)
    (event : Event α κ τ) :
    (∃ self request node, event = .call self request ∧
      net.nodes.get? self = some node ∧
      step protocol net event =
        ⟨net.nodes.set self (protocol.call self node request).1,
          net.wire ++ send self [] (protocol.call self node request).2⟩) ∨
    (∃ index input datagram rest node, event = .deliver index input ∧
      take? net.wire index = some (datagram, rest) ∧
      net.nodes.get? datagram.target = some node ∧
      let after := protocol.receive datagram.target node input datagram.source
        datagram.message
      step protocol net event =
        ⟨net.nodes.set datagram.target after.1, rest ++ send datagram.target
          (datagram.message :: datagram.causes) after.2⟩) ∨
    ((step protocol net event).nodes = net.nodes ∧
      (step protocol net event).wire ⊆ net.wire) := by
  cases event with
  | call self request =>
    cases hnode : net.nodes.get? self with
    | none =>
      have hsame : step protocol net (.call self request) = net := by
        simp only [step, hnode]
      rw [hsame]
      exact .inr (.inr ⟨rfl, List.Subset.refl _⟩)
    | some node =>
      refine .inl ⟨self, request, node, rfl, hnode, ?_⟩
      simp only [step, hnode]
  | deliver index input =>
    cases htake : take? net.wire index with
    | none =>
      have hsame : step protocol net (.deliver index input) = net := by
        simp only [step, htake]
      rw [hsame]
      exact .inr (.inr ⟨rfl, List.Subset.refl _⟩)
    | some taken =>
      obtain ⟨datagram, rest⟩ := taken
      cases hnode : net.nodes.get? datagram.target with
      | none =>
        have hlost : step protocol net (.deliver index input) =
            { net with wire := rest } := by
          simp only [step, htake, hnode]
        rw [hlost]
        exact .inr (.inr ⟨rfl, fun _ => mem_of_mem_rest htake⟩)
      | some node =>
        refine .inr (.inl ⟨index, input, datagram, rest, node, rfl,
          htake, hnode, ?_⟩)
        simp only [step, htake, hnode]

variable {net : Network α ν μ}

/-- A datagram stays in flight until it is the one delivered. -/
theorem mem_wire_step (protocol : Protocol α ν μ κ τ) (hmem : datagram ∈ net.wire)
    (event : Event α κ τ) :
    datagram ∈ (step protocol net event).wire ∨
      ∃ index input rest, event = .deliver index input ∧
        take? net.wire index = some (datagram, rest) := by
  cases event with
  | call =>
    simp only [step]
    split
    · exact .inl hmem
    · exact .inl (mem_append_left _ hmem)
  | deliver index input =>
    simp only [step]
    split
    · exact .inl hmem
    · next _ rest htake =>
      rcases (mem_iff_of_take? htake).mp hmem with rfl | hrest
      · exact .inr ⟨index, input, rest, rfl, htake⟩
      · split
        · exact .inl hrest
        · exact .inl (mem_append_left _ hrest)

variable {node : ν}

/-- A step leaves the node at an address as it is, or runs it. -/
theorem node_step (protocol : Protocol α ν μ κ τ) (event : Event α κ τ)
    (hnode : net.nodes.get? self = some node) {holds : ν → Prop}
    (hsame : holds node)
    (hcall : ∀ request, event = .call self request →
      holds (protocol.call self node request).1)
    (hreceive : ∀ input source message,
      holds (protocol.receive self node input source message).1) :
    ∃ after, (step protocol net event).nodes.get? self = some after ∧
      holds after := by
  rcases step_cases protocol net event with
    ⟨_, request, found, rfl, hfound, hstep⟩ |
    ⟨_, input, datagram, _, found, rfl, -, hfound, hstep⟩ |
    ⟨hnodes, -⟩
  · rw [hstep, get?_set]
    split
    · next heq =>
      subst heq
      cases hnode.symm.trans hfound
      exact ⟨_, rfl, hcall request rfl⟩
    · exact ⟨node, hnode, hsame⟩
  · rw [hstep, get?_set]
    split
    · next heq =>
      subst heq
      cases hnode.symm.trans hfound
      exact ⟨_, rfl, hreceive input datagram.source datagram.message⟩
    · exact ⟨node, hnode, hsame⟩
  · rw [hnodes]
    exact ⟨node, hnode, hsame⟩

theorem get?_call (protocol : Protocol α ν μ κ τ) (request : κ)
    (hnode : net.nodes.get? self = some node) :
    (step protocol net (.call self request)).nodes.get? self =
      some (protocol.call self node request).1 := by
  simp [step, hnode]

variable {index : Nat} {rest : List (Datagram α μ)}

theorem get?_deliver (protocol : Protocol α ν μ κ τ) (input : τ)
    (htake : take? net.wire index = some (datagram, rest))
    (hnode : net.nodes.get? datagram.target = some node) :
    (step protocol net (.deliver index input)).nodes.get? datagram.target =
      some (protocol.receive datagram.target node input datagram.source
        datagram.message).1 := by
  simp [step, htake, hnode]

/-- What a node sends is in flight after the step in which it sends it. -/
theorem mem_wire_call {protocol : Protocol α ν μ κ τ} {request : κ}
    {packet : μ × α} (hnode : net.nodes.get? self = some node)
    (hpacket : packet ∈ (protocol.call self node request).2) :
    ⟨self, packet.2, packet.1, []⟩ ∈
      (step protocol net (.call self request)).wire := by
  simp only [step, hnode]
  exact mem_append_right _ (mem_send.mpr ⟨packet, hpacket, rfl⟩)

theorem mem_wire_deliver {protocol : Protocol α ν μ κ τ} {input : τ}
    {packet : μ × α} (htake : take? net.wire index = some (datagram, rest))
    (hnode : net.nodes.get? datagram.target = some node)
    (hpacket : packet ∈ (protocol.receive datagram.target node input
      datagram.source datagram.message).2) :
    ⟨datagram.target, packet.2, packet.1, datagram.message :: datagram.causes⟩ ∈
      (step protocol net (.deliver index input)).wire := by
  simp only [step, htake, hnode]
  exact mem_append_right _ (mem_send.mpr ⟨packet, hpacket, rfl⟩)

/-- Every node and every datagram in flight is as it should be. -/
def AllOk (nodeOk : α → ν → Prop) (wireOk : Datagram α μ → Prop)
    (net : Network α ν μ) : Prop :=
  (∀ self node, net.nodes.get? self = some node → nodeOk self node) ∧
    ∀ datagram ∈ net.wire, wireOk datagram

/-- A delivery meets `allowed` at the node it reaches. -/
def allowedStep (allowed : ν → τ → Datagram α μ → Bool)
    (net : Network α ν μ) : Event α κ τ → Bool
  | .call .. => true
  | .deliver index input =>
    match take? net.wire index with
    | none => true
    | some (datagram, _) =>
      match net.nodes.get? datagram.target with
      | none => true
      | some node => allowed node input datagram

theorem allowed_of_deliver {allowed : ν → τ → Datagram α μ → Bool} {input : τ}
    (hallowed : allowedStep allowed net
      (.deliver index input : Event α κ τ) = true)
    (htake : take? net.wire index = some (datagram, rest))
    (hnode : net.nodes.get? datagram.target = some node) :
    allowed node input datagram = true := by
  simpa only [allowedStep, htake, hnode] using hallowed

/-- Calls and allowed deliveries keep the node invariant and send only what
meets the wire invariant. -/
structure Keeps (protocol : Protocol α ν μ κ τ) (nodeOk : α → ν → Prop)
    (wireOk : Datagram α μ → Prop) (allowed : ν → τ → Datagram α μ → Bool) :
    Prop where
  call : ∀ self node request, nodeOk self node →
    nodeOk self (protocol.call self node request).1 ∧
      ∀ packet ∈ (protocol.call self node request).2,
        wireOk ⟨self, packet.2, packet.1, []⟩
  receive : ∀ node input datagram, nodeOk datagram.target node →
    wireOk datagram → allowed node input datagram = true →
      let after := protocol.receive datagram.target node input datagram.source
        datagram.message
      nodeOk datagram.target after.1 ∧ ∀ packet ∈ after.2,
        wireOk ⟨datagram.target, packet.2, packet.1,
          datagram.message :: datagram.causes⟩

variable {protocol : Protocol α ν μ κ τ} {nodeOk : α → ν → Prop}
  {wireOk : Datagram α μ → Prop} {allowed : ν → τ → Datagram α μ → Bool}

theorem AllOk.set {nodes : OrderedDict α ν} {wire sent : List (Datagram α μ)}
    (hnodes : ∀ self node, nodes.get? self = some node → nodeOk self node)
    (hnode : nodeOk self node) (hwire : ∀ datagram ∈ wire, wireOk datagram)
    (hsent : ∀ datagram ∈ sent, wireOk datagram) :
    AllOk nodeOk wireOk ⟨nodes.set self node, wire ++ sent⟩ := by
  constructor
  · intro other found hget
    rcases get?_set_cases hget with ⟨rfl, rfl⟩ | ⟨-, hget⟩
    · exact hnode
    · exact hnodes other found hget
  · intro datagram hmem
    rcases mem_append.mp hmem with hmem | hmem
    · exact hwire datagram hmem
    · exact hsent datagram hmem

theorem Keeps.step (hkeeps : Keeps protocol nodeOk wireOk allowed)
    {event : Event α κ τ} (hok : AllOk nodeOk wireOk net)
    (hallowed : allowedStep allowed net event = true) :
    AllOk nodeOk wireOk (Datagrams.step protocol net event) := by
  obtain ⟨hnodes, hwire⟩ := hok
  rcases step_cases protocol net event with
    ⟨self, request, node, rfl, hnode, hstep⟩ |
    ⟨_, input, datagram, _, node, rfl, htake, hnode, hstep⟩ |
    ⟨hsame, hsubset⟩
  · obtain ⟨hafter, hsent⟩ :=
      hkeeps.call self node request (hnodes self node hnode)
    rw [hstep]
    refine AllOk.set hnodes hafter hwire ?_
    intro datagram hmem
    obtain ⟨packet, hpacket, rfl⟩ := mem_send.mp hmem
    exact hsent packet hpacket
  · have hmeets := allowed_of_deliver hallowed htake hnode
    obtain ⟨hafter, hsent⟩ := hkeeps.receive node input datagram
      (hnodes _ node hnode) (hwire datagram (mem_of_take? htake)) hmeets
    rw [hstep]
    refine AllOk.set hnodes hafter ?_ ?_
    · intro other hother
      exact hwire other (mem_of_mem_rest htake hother)
    · intro other hother
      obtain ⟨packet, hpacket, rfl⟩ := mem_send.mp hother
      exact hsent packet hpacket
  · refine ⟨?_, fun datagram hmem => hwire datagram (hsubset hmem)⟩
    intro self node hget
    rw [hsame] at hget
    exact hnodes self node hget

/-- In a run of allowed deliveries every state is as it should be. -/
theorem Keeps.along (hkeeps : Keeps protocol nodeOk wireOk allowed)
    {events : List (Event α κ τ)} (hok : AllOk nodeOk wireOk net)
    (hallowed : EventRun.EveryStep (Datagrams.step protocol)
      (fun net event => allowedStep allowed net event = true) net events) :
    EventRun.Along (Datagrams.step protocol) (AllOk nodeOk wireOk) net
      events :=
  EventRun.along_of_everyStep (fun _ _ => hkeeps.step) (fun _ hok => hok) hok
    hallowed

end Datagrams
