/-
A pool of things that can happen next, such as suspended tasks or packets in
flight.  The scheduler names a place; what stands there is taken out, and what
follows from it is put behind the rest.
-/
import Mathlib.Data.List.Perm.Basic

namespace Pool

open Option List

universe u

variable {α : Type u}

/-- What stands at a place, and the pool without it. -/
def take? (pool : List α) (index : Nat) : Option (α × List α) :=
  pool[index]?.map fun item => (item, pool.eraseIdx index)

variable {pool rest : List α} {index : Nat} {item other : α}

section

variable (htake : take? pool index = some (item, rest))

include htake

theorem perm_of_take? : (item :: rest).Perm pool := by
  obtain ⟨_, hget, heq⟩ := map_eq_some_iff.mp htake
  obtain ⟨hlt, rfl⟩ := List.getElem?_eq_some_iff.mp hget
  cases heq
  exact getElem_cons_eraseIdx_perm hlt

theorem sublist_of_take? : rest.Sublist pool := by
  obtain ⟨_, -, heq⟩ := map_eq_some_iff.mp htake
  cases heq
  exact eraseIdx_sublist ..

theorem mem_iff_of_take? : other ∈ pool ↔ other = item ∨ other ∈ rest := by
  rw [← (perm_of_take? htake).mem_iff, mem_cons]

theorem mem_of_take? : item ∈ pool := (mem_iff_of_take? htake).mpr (.inl rfl)

theorem mem_of_mem_rest (hmem : other ∈ rest) : other ∈ pool :=
  (mem_iff_of_take? htake).mpr (.inr hmem)

end

theorem take?_length (pool : List α) : take? pool pool.length = none := by
  rw [take?, getElem?_eq_none (Nat.le_refl _), map_none]

theorem exists_take?_of_mem (hmem : item ∈ pool) :
    ∃ index rest, take? pool index = some (item, rest) := by
  obtain ⟨index, hget⟩ := mem_iff_getElem?.mp hmem
  exact ⟨index, pool.eraseIdx index, by rw [take?, hget, map_some]⟩

/-- What is taken from a pool that is two others together is taken from one of
them. -/
theorem take?_of_perm_append {left right : List α}
    (hperm : pool.Perm (left ++ right))
    (htake : take? pool index = some (item, rest)) :
    (∃ place left', take? left place = some (item, left') ∧
        rest.Perm (left' ++ right)) ∨
      ∃ place right', take? right place = some (item, right') ∧
        rest.Perm (left ++ right') := by
  have hcons := (perm_of_take? htake).trans hperm
  rcases mem_append.mp (hperm.mem_iff.mp (mem_of_take? htake)) with
    hleft | hright
  · obtain ⟨place, left', hplace⟩ := exists_take?_of_mem hleft
    refine .inl ⟨place, left', hplace, ?_⟩
    have hsplit := (perm_of_take? hplace).append_right right
    exact (hcons.trans hsplit.symm).cons_inv
  · obtain ⟨place, right', hplace⟩ := exists_take?_of_mem hright
    refine .inr ⟨place, right', hplace, ?_⟩
    have hsplit := (perm_of_take? hplace).append_left left
    have hfront := perm_middle.symm.trans hsplit
    exact (hcons.trans hfront.symm).cons_inv

end Pool
