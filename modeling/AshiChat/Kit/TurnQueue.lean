/-
Jobs that take turns at one worker.  The worker serves the job at the head of
the line; the job goes to the end of the line, or leaves once it has had all
its turns.  Jobs join at any time.  Since they all need the same number of
turns, they leave in the order in which they joined, however joining and
serving interleave.
-/
import Mathlib.Data.List.Pairwise
import Mathlib.Order.Basic

universe u v

/-- The jobs in line with the turns they have had, and those that have left. -/
structure TurnQueue (α : Type u) where
  line : List (α × Nat)
  finished : List α

namespace TurnQueue

open List

variable {α : Type u} {κ : Type v}

def empty : TurnQueue α := ⟨[], []⟩

def join (queue : TurnQueue α) (job : α) : TurnQueue α :=
  { queue with line := queue.line ++ [(job, 0)] }

/-- The job at the head has another turn, of `turns` in all. -/
def serve (turns : Nat) (queue : TurnQueue α) : TurnQueue α :=
  match queue.line with
  | [] => queue
  | (job, had) :: rest =>
    if had + 1 < turns then
      { queue with line := rest ++ [(job, had + 1)] }
    else { line := rest, finished := queue.finished ++ [job] }

/-- The jobs that ever joined. -/
def jobs (queue : TurnQueue α) : List α :=
  queue.finished ++ queue.line.map Prod.fst

theorem mem_jobs_join {queue : TurnQueue α} {job other : α} :
    other ∈ (queue.join job).jobs ↔ other ∈ queue.jobs ∨ other = job := by
  simp [jobs, join, or_assoc]

theorem mem_jobs_serve {turns : Nat} {queue : TurnQueue α} {job : α} :
    job ∈ (queue.serve turns).jobs ↔ job ∈ queue.jobs := by
  unfold serve
  split
  · rfl
  · next _ => split <;> grind [jobs]

variable [Preorder κ] (key : α → κ) (turns : Nat)

/-- Two jobs in line, the first of them ahead: it came first and has had no
fewer turns, or it came later and has had fewer. -/
def Ahead (first second : α × Nat) : Prop :=
  key first.1 < key second.1 ∧ second.2 ≤ first.2 ∨
    key second.1 < key first.1 ∧ first.2 < second.2

/-- Keys say when a job joined. -/
structure Orderly (queue : TurnQueue α) : Prop where
  line : queue.line.Pairwise (Ahead key)
  unfinished : ∀ waiting ∈ queue.line, waiting.2 < turns
  finished : queue.finished.Pairwise (key · < key ·)
  before : ∀ job ∈ queue.finished, ∀ waiting ∈ queue.line,
    key job < key waiting.1

variable {key turns} {queue : TurnQueue α}

theorem orderly_empty : (empty : TurnQueue α).Orderly key turns := by
  constructor <;> simp [empty]

/-- A job that joins comes after all others. -/
theorem Orderly.join (horderly : queue.Orderly key turns) (hturns : 0 < turns)
    {job : α} (hlast : ∀ other ∈ queue.jobs, key other < key job) :
    (queue.join job).Orderly key turns where
  line := by
    refine pairwise_append.mpr ⟨horderly.line, pairwise_singleton .., ?_⟩
    intro waiting hwaiting joined hjoined
    cases mem_singleton.mp hjoined
    have hmem : waiting.1 ∈ queue.jobs :=
      mem_append_right _ (mem_map_of_mem hwaiting)
    exact .inl ⟨hlast waiting.1 hmem, Nat.zero_le _⟩
  unfinished := by
    intro waiting hwaiting
    rcases mem_append.mp hwaiting with hold | hnew
    · exact horderly.unfinished waiting hold
    · cases mem_singleton.mp hnew
      exact hturns
  finished := horderly.finished
  before := by
    intro done hdone waiting hwaiting
    rcases mem_append.mp hwaiting with hold | hnew
    · exact horderly.before done hdone waiting hold
    · cases mem_singleton.mp hnew
      exact hlast done (mem_append_left _ hdone)

section Turn

variable {job : α} {had : Nat} {rest : List (α × Nat)} {finished : List α}

theorem Orderly.requeue
    (horderly : Orderly key turns ⟨(job, had) :: rest, finished⟩)
    (hmore : had + 1 < turns) :
    Orderly key turns ⟨rest ++ [(job, had + 1)], finished⟩ := by
  obtain ⟨hahead, hrest⟩ := pairwise_cons.mp horderly.line
  obtain ⟨-, hleft⟩ := forall_mem_cons.mp horderly.unfinished
  refine ⟨?_, ?_, horderly.finished, ?_⟩
  · refine pairwise_append.mpr ⟨hrest, pairwise_singleton .., ?_⟩
    intro waiting hwaiting served hserved
    cases mem_singleton.mp hserved
    rcases hahead waiting hwaiting with ⟨holder, hless⟩ | ⟨hnewer, hless⟩
    · exact .inr ⟨holder, Nat.lt_succ_of_le hless⟩
    · exact .inl ⟨hnewer, hless⟩
  · intro waiting hwaiting
    rcases mem_append.mp hwaiting with hold | hserved
    · exact hleft waiting hold
    · cases mem_singleton.mp hserved
      exact hmore
  · intro done hdone waiting hwaiting
    obtain ⟨hhead, htail⟩ := forall_mem_cons.mp (horderly.before done hdone)
    rcases mem_append.mp hwaiting with hold | hserved
    · exact htail waiting hold
    · cases mem_singleton.mp hserved
      exact hhead

/-- A job that came before the head has had more turns than it, so none is left
when the head has its last one. -/
theorem Orderly.leave
    (horderly : Orderly key turns ⟨(job, had) :: rest, finished⟩)
    (hlast : turns ≤ had + 1) :
    Orderly key turns ⟨rest, finished ++ [job]⟩ := by
  obtain ⟨hahead, hrest⟩ := pairwise_cons.mp horderly.line
  obtain ⟨-, hleft⟩ := forall_mem_cons.mp horderly.unfinished
  have hbefore : ∀ done ∈ finished, key done < key job ∧
      ∀ waiting ∈ rest, key done < key waiting.1 :=
    fun done hdone => forall_mem_cons.mp (horderly.before done hdone)
  refine ⟨hrest, hleft, ?_, ?_⟩
  · refine pairwise_append.mpr ⟨horderly.finished, pairwise_singleton .., ?_⟩
    intro done hdone served hserved
    cases mem_singleton.mp hserved
    exact (hbefore done hdone).1
  · intro done hdone waiting hwaiting
    rcases mem_append.mp hdone with hold | hserved
    · exact (hbefore done hold).2 waiting hwaiting
    · cases mem_singleton.mp hserved
      rcases hahead waiting hwaiting with ⟨holder, -⟩ | ⟨-, _⟩
      · exact holder
      · have hbound := hleft waiting hwaiting
        omega

end Turn

theorem Orderly.serve (horderly : queue.Orderly key turns) :
    (queue.serve turns).Orderly key turns := by
  obtain ⟨line, _⟩ := queue
  cases line with
  | nil => exact horderly
  | cons =>
    simp only [TurnQueue.serve]
    split
    · next hmore => exact horderly.requeue hmore
    · next hlast => exact horderly.leave (Nat.le_of_not_lt hlast)

end TurnQueue
