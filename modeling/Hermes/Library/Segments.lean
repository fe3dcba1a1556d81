import Mathlib.Algebra.BigOperators.Group.List.Basic
import Mathlib.Algebra.Order.BigOperators.Group.List
import Mathlib.Algebra.Order.Ring.Nat

/-!
# Texts in segments

A text is split at a separator, some of the segments are kept, and what is kept is joined again.
-/

namespace Hermes.Segments

variable {α : Type} {separator : α} {segment : List α} {segments fewer : List (List α)}

theorem mem_intercalate {element : α} (within : element ∈ segment) (listed : segment ∈ segments) :
    element ∈ [separator].intercalate segments := by
  induction segments with
  | nil => exact absurd listed List.not_mem_nil
  | cons first rest induction =>
      cases rest with
      | nil =>
          obtain rfl := List.mem_singleton.mp listed
          rwa [List.intercalate_singleton]
      | cons second rest =>
          rw [List.intercalate_cons_cons]
          rcases List.mem_cons.mp listed with rfl | later
          · simp [within]
          · exact List.mem_append_right _ (induction later)

theorem mem_of_intercalate {element : α} (within : element ∈ [separator].intercalate segments) :
    element = separator ∨ ∃ segment ∈ segments, element ∈ segment := by
  induction segments with
  | nil => exact absurd within List.not_mem_nil
  | cons first rest induction =>
      cases rest with
      | nil =>
          rw [List.intercalate_singleton] at within
          exact .inr ⟨first, List.mem_cons_self, within⟩
      | cons second rest =>
          rw [List.intercalate_cons_cons, List.mem_append, List.mem_append,
            List.mem_singleton] at within
          rcases within with (head | same) | later
          · exact .inr ⟨first, List.mem_cons_self, head⟩
          · exact .inl same
          · refine (induction later).imp id fun found => ?_
            obtain ⟨segment, listed, inside⟩ := found
            exact ⟨segment, List.mem_cons_of_mem _ listed, inside⟩

theorem length_intercalate (segments : List (List α)) :
    ([separator].intercalate segments).length =
      (segments.map List.length).sum + (segments.length - 1) := by
  induction segments with
  | nil => rfl
  | cons first rest induction =>
      cases rest with
      | nil => simp
      | cons second rest =>
          rw [List.intercalate_cons_cons, List.length_append, List.length_append, induction]
          simp only [List.map_cons, List.sum_cons, List.length_cons, List.length_nil]
          omega

/-- Fewer segments make a text which is no longer. -/
theorem length_intercalate_le (within : fewer.Sublist segments) :
    ([separator].intercalate fewer).length ≤ ([separator].intercalate segments).length := by
  have sums : (fewer.map List.length).sum ≤ (segments.map List.length).sum :=
    (within.map List.length).sum_le_sum (by simp)
  have counts := within.length_le
  rw [length_intercalate, length_intercalate]
  omega

section Splitting

variable [DecidableEq α] {text : List α}

theorem notMem_of_splitOn (listed : segment ∈ text.splitOn separator) : separator ∉ segment := by
  induction text generalizing segment with
  | nil =>
      rw [List.splitOn_nil, List.mem_singleton] at listed
      simp [listed]
  | cons first rest induction =>
      rw [List.splitOn_cons_eq_if_modifyHead] at listed
      obtain ⟨head, later, split⟩ := List.exists_cons_of_ne_nil (List.splitOn_ne_nil separator rest)
      rw [split] at listed induction
      split at listed
      · rcases List.mem_cons.mp listed with rfl | found
        · exact List.not_mem_nil
        · exact induction found
      next other =>
        rw [List.modifyHead_cons] at listed
        rcases List.mem_cons.mp listed with rfl | found
        · rw [List.mem_cons, not_or]
          exact ⟨fun same => other (by simp [same]), induction List.mem_cons_self⟩
        · exact induction (List.mem_cons_of_mem _ found)

theorem mem_of_splitOn {element : α} (within : element ∈ segment)
    (listed : segment ∈ text.splitOn separator) : element ∈ text := by
  rw [← @List.intercalate_splitOn _ text _ _ separator]
  exact mem_intercalate within listed

end Splitting

end Hermes.Segments
