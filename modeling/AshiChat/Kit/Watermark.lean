/-
A receiver with a high-water mark: an item whose key lies above the mark is
taken, and the mark moves there; any other item is passed over.
-/
import Mathlib.Data.List.Pairwise
import Mathlib.Order.Defs.PartialOrder

namespace Watermark

open List

universe u v

variable {κ : Type u} [Preorder κ] [DecidableLT κ] {α : Type v}

/-- What becomes of the items, in the order in which they arrive. -/
def taken : κ → List (κ × α) → List (Option α)
  | _, [] => []
  | mark, (key, item) :: rest =>
    if mark < key then some item :: taken key rest
    else none :: taken mark rest

theorem exists_of_mem_taken {mark : κ} {items : List (κ × α)} {item : α}
    (hmem : some item ∈ taken mark items) : ∃ key, (key, item) ∈ items := by
  induction items generalizing mark with
  | nil => cases hmem
  | cons head _ ih =>
    obtain ⟨key, _⟩ := head
    simp only [taken] at hmem
    split at hmem
    · rcases mem_cons.mp hmem with heq | hmem
      · cases heq
        exact ⟨key, mem_cons_self⟩
      · obtain ⟨found, hfound⟩ := ih hmem
        exact ⟨found, mem_cons_of_mem _ hfound⟩
    · rcases mem_cons.mp hmem with heq | hmem
      · cases heq
      · obtain ⟨found, hfound⟩ := ih hmem
        exact ⟨found, mem_cons_of_mem _ hfound⟩

/-- Items with increasing keys above the mark are all taken. -/
theorem taken_of_pairwise {mark : κ} {items : List (κ × α)}
    (hsorted : (mark :: items.map Prod.fst).Pairwise (· < ·)) :
    taken mark items = items.map fun item => some item.2 := by
  induction items generalizing mark with
  | nil => rfl
  | cons head _ ih =>
    obtain ⟨hmark, hrest⟩ := pairwise_cons.mp hsorted
    rw [taken, if_pos (hmark head.1 mem_cons_self), map_cons, ih hrest]

/-- Nothing is passed over exactly if the keys increase from the mark on. -/
theorem forall_taken_iff (mark : κ) (items : List (κ × α)) :
    (∀ result ∈ taken mark items, result ≠ none) ↔
      (mark :: items.map Prod.fst).Pairwise (· < ·) := by
  constructor
  · intro hall
    induction items generalizing mark with
    | nil => exact pairwise_singleton ..
    | cons head _ ih =>
      obtain ⟨key, item⟩ := head
      simp only [taken] at hall
      split at hall
      · next hlt =>
        have hrest := ih key fun result hmem =>
          hall result (mem_cons_of_mem _ hmem)
        refine pairwise_cons.mpr ⟨?_, hrest⟩
        obtain ⟨hkey, -⟩ := pairwise_cons.mp hrest
        exact forall_mem_cons.mpr
          ⟨hlt, fun other hmem => lt_trans hlt (hkey other hmem)⟩
      · exact absurd rfl (hall none mem_cons_self)
  · intro hsorted result hmem
    rw [taken_of_pairwise hsorted] at hmem
    obtain ⟨item, -, rfl⟩ := mem_map.mp hmem
    exact Option.some_ne_none item.2

end Watermark
