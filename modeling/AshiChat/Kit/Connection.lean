/-
A database connection that executes statements and commits one after the
other, in the order in which they are issued and at its own pace.  Nothing but
the order is kept: the state after any number of operations is a replay, and
what the last executed commit covers is durable.
-/
import Mathlib.Data.List.Infix
import Mathlib.Logic.Function.Iterate
import Mathlib.Order.Basic

universe u v

inductive DbOp (α : Type v) where
  | statement (body : α)
  | commit

def DbOp.isCommit {α : Type v} : DbOp α → Bool
  | .commit => true
  | .statement _ => false

/-- The operations issued since the connection was opened on `base`, how many
of them have been executed, and how many the last commit covers. -/
structure Connection (σ : Type u) (α : Type v) where
  base : σ
  ops : List (DbOp α)
  executed : Nat
  settled : Nat
  executed_le : executed ≤ ops.length
  settled_le : settled ≤ executed
  commits : ∀ index < executed, ∀ op, ops[index]? = some op →
    op.isCommit = true → index ≤ settled

namespace Connection

open List Nat

variable {σ : Type u} {α : Type v}

def opened (base : σ) : Connection σ α where
  base := base
  ops := []
  executed := 0
  settled := 0
  executed_le := le_rfl
  settled_le := le_rfl
  commits := by simp

/-- Issue an operation; its ticket is the number of operations before it. -/
def issue (conn : Connection σ α) (op : DbOp α) : Connection σ α where
  base := conn.base
  ops := conn.ops ++ [op]
  executed := conn.executed
  settled := conn.settled
  executed_le := by
    rw [length_append]
    exact le_add_right_of_le conn.executed_le
  settled_le := conn.settled_le
  commits := by
    intro index hindex found hget
    rw [getElem?_append_left (lt_of_lt_of_le hindex conn.executed_le)] at hget
    exact conn.commits index hindex found hget

/-- The worker executes the next operation. -/
def execute (conn : Connection σ α) : Connection σ α :=
  if hnext : conn.executed < conn.ops.length then
    { conn with
      executed := conn.executed + 1
      settled :=
        if conn.ops[conn.executed].isCommit then conn.executed
        else conn.settled
      executed_le := hnext
      settled_le := by
        have := conn.settled_le
        split <;> omega
      commits := by
        intro index hindex op hget hcommit
        rcases Nat.lt_succ_iff_lt_or_eq.mp hindex with hold | rfl
        · have hle := conn.commits index hold op hget hcommit
          split
          · exact hold.le
          · exact hle
        · obtain ⟨_, rfl⟩ := List.getElem?_eq_some_iff.mp hget
          rw [if_pos hcommit] }
  else conn

section Replay

variable (apply : σ → α → σ)

def perform (state : σ) : DbOp α → σ
  | .statement body => apply state body
  | .commit => state

/-- The state after the first `count` operations. -/
def after (conn : Connection σ α) (count : Nat) : σ :=
  (conn.ops.take count).foldl (perform apply) conn.base

/-- The state once everything issued is executed. -/
def issued (conn : Connection σ α) : σ := conn.after apply conn.ops.length

/-- What a crash leaves. -/
def durable (conn : Connection σ α) : σ := conn.after apply conn.settled

variable {apply} {conn : Connection σ α}

theorem after_issue {count : Nat} (hcount : count ≤ conn.ops.length)
    (op : DbOp α) : (conn.issue op).after apply count =
      conn.after apply count := by
  simp only [after, issue, take_append_of_le_length hcount]

@[simp] theorem issued_issue (conn : Connection σ α) (op : DbOp α) :
    (conn.issue op).issued apply = perform apply (conn.issued apply) op := by
  simp only [issued, after, issue, take_length, foldl_append,
    foldl_cons, foldl_nil]

/-- From the new operation on, it counts. -/
theorem after_issue_of_lt {count : Nat} (hcount : conn.ops.length < count)
    (op : DbOp α) : (conn.issue op).after apply count =
      perform apply (conn.issued apply) op := by
  have hall : (conn.issue op).ops.length ≤ count := by
    simpa [issue] using succ_le_of_lt hcount
  rw [← issued_issue, issued, after, after, take_length, take_of_length_le hall]

/-- An operation that has been issued is an old one or the last. -/
theorem getElem?_issue {op found : DbOp α} {index : Nat} :
    (conn.issue op).ops[index]? = some found ↔ conn.ops[index]? = some found ∨
        (index = conn.ops.length ∧ op = found) := by
  rcases lt_trichotomy index conn.ops.length with hlt | rfl | hgt
  · simp [issue, getElem?_append_left hlt, hlt.ne]
  · simp [issue]
  · have hnew : (conn.ops ++ [op]).length ≤ index := by
      simpa using succ_le_of_lt hgt
    simp [issue, getElem?_eq_none hnew, getElem?_eq_none hgt.le, hgt.ne']

@[simp] theorem ops_execute (conn : Connection σ α) :
    conn.execute.ops = conn.ops := by
  unfold execute
  split <;> rfl

@[simp] theorem base_execute (conn : Connection σ α) :
    conn.execute.base = conn.base := by
  unfold execute
  split <;> rfl

@[simp] theorem after_execute (conn : Connection σ α) (count : Nat) :
    conn.execute.after apply count = conn.after apply count := by
  simp only [after, ops_execute, base_execute]

@[simp] theorem issued_execute (conn : Connection σ α) :
    conn.execute.issued apply = conn.issued apply := by
  simp only [issued, after_execute, ops_execute]

theorem settled_le_execute (conn : Connection σ α) :
    conn.settled ≤ conn.execute.settled := by
  unfold execute
  split
  · dsimp only
    split
    · exact conn.settled_le
    · exact le_rfl
  · exact le_rfl

theorem foldl_perform_of_commits {ops : List (DbOp α)}
    (hcommits : ∀ op ∈ ops, op.isCommit = true) (state : σ) :
    ops.foldl (perform apply) state = state := by
  induction ops generalizing state with
  | nil => rfl
  | cons op _ ih =>
    obtain ⟨hop, hrest⟩ := forall_mem_cons.mp hcommits
    cases op with
    | statement => cases hop
    | commit => exact ih hrest state

/-- Nothing is lost in a crash if every statement is settled. -/
theorem durable_eq_issued
    (hsettled : ∀ index body, conn.ops[index]? = some (.statement body) →
      index < conn.settled) :
    conn.durable apply = conn.issued apply := by
  have hrest : ∀ op ∈ conn.ops.drop conn.settled, op.isCommit = true := by
    intro op hmem
    obtain ⟨index, hindex⟩ := mem_iff_getElem?.mp hmem
    rw [getElem?_drop] at hindex
    cases op with
    | statement body =>
      have hlt := hsettled _ body hindex
      omega
    | commit => rfl
  have hops : conn.ops = conn.ops.take conn.settled ++
      conn.ops.drop conn.settled := (take_append_drop ..).symm
  rw [issued, after, take_length]
  conv_rhs => rw [hops]
  rw [foldl_append, foldl_perform_of_commits hrest]
  rfl

/-- Everything issued has been executed. -/
def Idle (conn : Connection σ α) : Prop := conn.executed = conn.ops.length

/-- A statement and its commit, one after the other. -/
@[irreducible] def transact (conn : Connection σ α) (body : α) : Connection σ α :=
  ((conn.issue (.statement body)).execute.issue .commit).execute

theorem Idle.execute_eq (hidle : conn.Idle) : conn.execute = conn := by
  unfold execute
  rw [dif_neg (not_lt_of_ge hidle.ge)]

/-- The worker is one operation behind. -/
theorem Idle.executed_execute_issue (hidle : conn.Idle) (op : DbOp α) :
    (conn.issue op).execute.executed = conn.ops.length + 1 := by
  have hnext : (conn.issue op).executed < (conn.issue op).ops.length := by
    simp only [issue, hidle.symm, length_append, length_singleton]
    exact lt_succ_self _
  unfold execute
  rw [dif_pos hnext]
  exact congrArg (· + 1) hidle

theorem Idle.execute_issue (hidle : conn.Idle) (op : DbOp α) :
    (conn.issue op).execute.Idle := by
  unfold Idle
  rw [hidle.executed_execute_issue, ops_execute]
  simp [issue]

theorem Idle.transact (hidle : conn.Idle) (body : α) :
    (conn.transact body).Idle := by
  unfold Connection.transact
  exact (hidle.execute_issue _).execute_issue _

@[simp] theorem issued_transact (conn : Connection σ α) (body : α) :
    (conn.transact body).issued apply = apply (conn.issued apply) body := by
  simp [Connection.transact, perform]

/-- Enough work empties the list. -/
theorem idle_execute_iterate {backlog : Nat}
    (hbacklog : conn.ops.length ≤ conn.executed + backlog) :
    (execute^[backlog] conn).Idle := by
  induction backlog generalizing conn with
  | zero => exact le_antisymm conn.executed_le hbacklog
  | succ _ ih =>
    rw [Function.iterate_succ_apply]
    apply ih
    rw [ops_execute]
    unfold execute
    split
    · dsimp only
      omega
    · omega

/-- The fact holds after every number of operations from `start` on. -/
def HoldsFrom (apply : σ → α → σ) (fact : σ → Prop) (conn : Connection σ α)
    (start : Nat) : Prop :=
  ∀ count, start ≤ count → count ≤ conn.ops.length →
    fact (conn.after apply count)

variable {fact : σ → Prop} {start : Nat}

variable {op : DbOp α}

/-- A fact goes on to hold if the next operation keeps it. -/
theorem HoldsFrom.issue (hfrom : HoldsFrom apply fact conn start)
    (hop : fact (perform apply (conn.issued apply) op)) :
    HoldsFrom apply fact (conn.issue op) start := by
  intro count hstart hcount
  by_cases hold : count ≤ conn.ops.length
  · rw [after_issue hold]
    exact hfrom count hstart hold
  · rw [after_issue_of_lt (Nat.lt_of_not_le hold)]
    exact hop

/-- An operation starts a fact. -/
theorem holdsFrom_issue (hop : fact (perform apply (conn.issued apply) op)) :
    HoldsFrom apply fact (conn.issue op) (conn.ops.length + 1) := by
  intro count hstart _
  rw [after_issue_of_lt hstart]
  exact hop

theorem HoldsFrom.execute (hfrom : HoldsFrom apply fact conn start) :
    HoldsFrom apply fact conn.execute start := by
  intro count hstart hcount
  rw [after_execute]
  exact hfrom count hstart (by simpa using hcount)

/-- The fact holds of all that a crash can leave from now on. -/
def Secured (apply : σ → α → σ) (fact : σ → Prop) (conn : Connection σ α) :
    Prop :=
  ∃ start ≤ conn.settled, HoldsFrom apply fact conn start

theorem Secured.durable (hsecured : Secured apply fact conn) :
    fact (conn.durable apply) := by
  obtain ⟨_, hle, hfrom⟩ := hsecured
  exact hfrom conn.settled hle (conn.settled_le.trans conn.executed_le)

/-- A fact that holds since before an executed commit is secured. -/
theorem HoldsFrom.secured (hfrom : HoldsFrom apply fact conn start)
    {commit : Nat} (hstart : start ≤ commit) (hdone : commit < conn.executed)
    (hcommit : conn.ops[commit]? = some .commit) :
    Secured apply fact conn :=
  ⟨start, hstart.trans (conn.commits commit hdone .commit hcommit rfl), hfrom⟩

theorem Secured.issue (hsecured : Secured apply fact conn)
    (hop : fact (perform apply (conn.issued apply) op)) :
    Secured apply fact (conn.issue op) := by
  obtain ⟨start, hle, hfrom⟩ := hsecured
  exact ⟨start, hle, hfrom.issue hop⟩

theorem Secured.execute (hsecured : Secured apply fact conn) :
    Secured apply fact conn.execute := by
  obtain ⟨start, hle, hfrom⟩ := hsecured
  exact ⟨start, hle.trans conn.settled_le_execute, hfrom.execute⟩

theorem secured_opened {base : σ} (hbase : fact base) :
    Secured apply fact (opened base : Connection σ α) := by
  refine ⟨0, le_rfl, ?_⟩
  intro count _ _
  simpa [after, opened] using hbase

theorem Secured.issued (hsecured : Secured apply fact conn) :
    fact (conn.issued apply) := by
  obtain ⟨_, hle, hfrom⟩ := hsecured
  exact hfrom _ (hle.trans (conn.settled_le.trans conn.executed_le)) le_rfl

end Replay

end Connection
