/-
Splitting a text at every occurrence of one character, and putting it together
again.
-/
import Mathlib.Data.String.Basic

namespace SplitText

open String

variable (c : Char)

/-- The loop of `splitOn` at a one-character separator: `front` is split
already, `piece` is the piece read so far and `rest` is still to be read. -/
theorem splitOnAux_ofList (front piece rest : List Char) (done : List String) :
    splitOnAux (ofList (front ++ piece ++ rest)) (ofList [c]) ⟨utf8Len front⟩
        ⟨utf8Len front + utf8Len piece⟩ 0 done =
      done.reverse ++
        (List.splitOnPPrepend (· == c) rest piece.reverse).map ofList := by
  induction rest generalizing front piece done with
  | nil =>
    have hend : Pos.Raw.atEnd (ofList (front ++ piece ++ []))
        ⟨utf8Len front + utf8Len piece⟩ = true := by
      rw [← utf8Len_append]
      exact (atEnd_of_valid (front ++ piece) []).mpr rfl
    rw [splitOnAux, if_pos hend]
    simp only [extract_of_valid front piece [], List.reverse_cons,
      List.splitOnPPrepend_nil, List.reverse_reverse, List.map_cons,
      List.map_nil]
  | cons head rest ih =>
    have hend : ¬ Pos.Raw.atEnd (ofList (front ++ piece ++ head :: rest))
        ⟨utf8Len front + utf8Len piece⟩ = true := by
      rw [← utf8Len_append, atEnd_of_valid (front ++ piece) (head :: rest)]
      exact List.cons_ne_nil _ _
    have hget : Pos.Raw.get (ofList (front ++ piece ++ head :: rest))
        ⟨utf8Len front + utf8Len piece⟩ = head := by
      rw [← utf8Len_append, get_of_valid (front ++ piece) (head :: rest)]
      rfl
    have hnext : Pos.Raw.next (ofList (front ++ piece ++ head :: rest))
        ⟨utf8Len front + utf8Len piece⟩ =
          ⟨utf8Len front + utf8Len (piece ++ [head])⟩ := by
      rw [← utf8Len_append, next_of_valid (front ++ piece) head rest]
      simp [Nat.add_assoc]
    have hsep : Pos.Raw.get (ofList [c]) 0 = c := get_of_valid [] [c]
    have hsepNext : Pos.Raw.next (ofList [c]) 0 = ⟨c.utf8Size⟩ := by
      simpa using next_of_valid [] c []
    have hsepEnd : Pos.Raw.atEnd (ofList [c]) ⟨c.utf8Size⟩ = true := by
      simpa using atEnd_of_valid [c] []
    rw [splitOnAux, if_neg hend, hget, hsep, hnext, hsepNext,
      if_pos hsepEnd, List.splitOnPPrepend_cons_eq_if]
    by_cases hhead : (head == c) = true
    · -- The piece ends before the separator, and the next one is empty.
      rw [if_pos hhead, if_pos hhead]
      obtain rfl : head = c := eq_of_beq hhead
      have hback : (⟨utf8Len front + utf8Len (piece ++ [head])⟩ :
          Pos.Raw).unoffsetBy ⟨head.utf8Size⟩ =
            ⟨utf8Len front + utf8Len piece⟩ := by
        simp [Pos.Raw.unoffsetBy, ← Nat.add_assoc]
      have hrest := ih (front ++ piece ++ [head]) [] (ofList piece :: done)
      rw [hback, extract_of_valid front piece (head :: rest)]
      simpa [-ofList_append, Nat.add_assoc] using hrest
    · rw [if_neg hhead, if_neg hhead]
      have hback : (⟨utf8Len front + utf8Len piece⟩ :
          Pos.Raw).unoffsetBy 0 = ⟨utf8Len front + utf8Len piece⟩ := rfl
      have hrest := ih front (piece ++ [head]) done
      rw [hback, hnext]
      simpa [-ofList_append] using hrest

variable (text : String)

theorem splitOn_ofList :
    text.splitOn (ofList [c]) = (text.toList.splitOn c).map ofList := by
  have hne : (ofList [c] == "") = false := by simp
  have hsplit := splitOnAux_ofList c [] [] text.toList []
  rw [splitOn, hne, List.splitOn]
  simpa [-ofList_append] using hsplit

theorem splitOn_ne_nil : text.splitOn (ofList [c]) ≠ [] := by
  rw [splitOn_ofList, ne_eq, List.map_eq_nil_iff]
  exact List.splitOnP_ne_nil _ _

/-- Splitting and joining gives the text back. -/
theorem intercalate_splitOn :
    (ofList [c]).intercalate (text.splitOn (ofList [c])) = text := by
  refine toList_inj.mp ?_
  rw [toList_intercalate, splitOn_ofList, List.map_map, toList_ofList]
  have hmap : (text.toList.splitOn c).map (toList ∘ ofList) =
      text.toList.splitOn c := by
    simp [Function.comp_def]
  rw [hmap, List.intercalate_splitOn]

/-- What follows the last separator is the last piece. -/
theorem splitOn_append_last (front last : String) (hlast : c ∉ last.toList) :
    (front ++ ofList [c] ++ last).splitOn (ofList [c]) =
      front.splitOn (ofList [c]) ++ [last] := by
  have hpiece : List.splitOnP (· == c) last.toList = [last.toList] := by
    refine List.splitOnP_eq_singleton ?_
    intro other hother
    refine beq_eq_false_iff_ne.mpr ?_
    rintro rfl
    exact hlast hother
  have hsplit : List.splitOnP (· == c) (front.toList ++ c :: last.toList) =
      List.splitOnP (· == c) front.toList ++
        List.splitOnP (· == c) last.toList :=
    List.splitOnP_append_cons front.toList last.toList (beq_self_eq_true c)
  rw [splitOn_ofList, splitOn_ofList, List.splitOn, List.splitOn, toList_append,
    toList_append, toList_ofList, List.append_assoc, List.singleton_append,
    hsplit, hpiece, List.map_append, List.map_singleton, ofList_toList]

end SplitText
