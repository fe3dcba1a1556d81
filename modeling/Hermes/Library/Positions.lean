import Mathlib.Data.List.Basic

/-!
# Positions in a growing list

Processes are kept in a list and named by their positions.  A step appends one of them or changes
the one at a position; what stands at any position afterwards was there before, or is the new one.
-/

namespace Hermes

variable {α : Type} {list : List α} {place index : Nat} {entry found : α}

theorem getElem?_snoc {last : α} (stands : (list ++ [last])[place]? = some found) :
    list[place]? = some found ∨ place = list.length ∧ found = last := by
  obtain earlier | later := Nat.lt_or_ge place list.length
  · rw [List.getElem?_append_left earlier] at stands
    exact .inl stands
  · rw [List.getElem?_append_right later, List.getElem?_singleton] at stands
    split at stands
    next first =>
      cases stands
      exact .inr ⟨by omega, rfl⟩
    · cases stands

theorem getElem?_append_of_some (more : List α) (stands : list[place]? = some found) :
    (list ++ more)[place]? = some found := by
  rw [List.getElem?_append_left (List.getElem?_eq_some_iff.mp stands).1]
  exact stands

/-- What stands in a list after one of its entries was replaced. -/
theorem getElem?_set_cases (stands : (list.set index entry)[place]? = some found) :
    place = index ∧ found = entry ∨ place ≠ index ∧ list[place]? = some found := by
  rw [List.getElem?_set] at stands
  split at stands
  next same =>
    split at stands
    · cases stands
      exact .inl ⟨same.symm, rfl⟩
    · cases stands
  next differ => exact .inr ⟨Ne.symm differ, stands⟩

theorem getElem?_modify_cases {change : α → α} (before : list[index]? = some entry)
    (stands : (list.modify index change)[place]? = some found) :
    place = index ∧ found = change entry ∨ place ≠ index ∧ list[place]? = some found := by
  rw [List.getElem?_modify] at stands
  by_cases same : index = place
  · subst same
    rw [before] at stands
    simp only [if_true, Option.map_eq_map, Option.map_some, Option.some.injEq] at stands
    exact .inl ⟨rfl, stands.symm⟩
  · simp only [if_neg same, Option.map_eq_map, Option.map_id'] at stands
    exact .inr ⟨Ne.symm same, stands⟩

theorem getElem?_modify_of_ne {change : α → α} (differ : place ≠ index) :
    (list.modify index change)[place]? = list[place]? := by
  rw [List.getElem?_modify]
  simp [differ.symm]

end Hermes
