import Mathlib.Algebra.Order.Group.Defs
import Mathlib.Algebra.Order.Group.Basic

/-!
# Sliding windows

Events happen one after the other, and each is admitted or refused by the number of events in the
window behind it, those refused among them.  Then no window holds more admitted events than the
limit, wherever it begins, and an event with few others behind it is admitted.
-/

namespace Hermes.SlidingWindow

variable {τ : Type*} [AddCommGroup τ] [LinearOrder τ]

/-- The events, of a history of times and answers, in the window which ends with a time. -/
def recent (width : τ) (history : List (τ × Bool)) (time : τ) : List (τ × Bool) :=
  history.filter fun event => decide (time - width < event.1)

def admitted (within : τ → Bool) (history : List (τ × Bool)) : List (τ × Bool) :=
  history.filter fun event => event.2 && within event.1

/-- Every event of the history was admitted if with it the window held no more than the limit. -/
inductive Decided (limit : Int) (width : τ) : List (τ × Bool) → Prop
  | nil : Decided limit width []
  | snoc {history : List (τ × Bool)} (time : τ) (decided : Decided limit width history) :
      Decided limit width
        (history ++ [(time, decide ((recent width history time).length + 1 ≤ limit))])

/-- An event is admitted if few events are in the window behind it. -/
def Serves (limit : Int) (width : τ) (history : List (τ × Bool)) : Prop :=
  ∀ earlier time answer later, history = earlier ++ (time, answer) :: later →
    (recent width earlier time).length < limit → answer = true

/-- What a limit of events in a window promises. -/
structure Limits (limit : Int) (width : τ) (history : List (τ × Bool)) : Prop where
  /-- In a window which begins with its first moment. -/
  closed_open : ∀ start, (admitted (fun time => decide (start ≤ time ∧ time < start + width))
    history).length ≤ limit.toNat
  /-- In a window which ends with its last moment. -/
  open_closed : ∀ start, (admitted (fun time => decide (start < time ∧ time ≤ start + width))
    history).length ≤ limit.toNat
  served : Serves limit width history

section Serves

variable {limit : Int} {width : τ} {history : List (τ × Bool)}

theorem Serves.nil : Serves limit width ([] : List (τ × Bool)) :=
  fun _ _ _ _ split => absurd split (by simp)

theorem Serves.snoc (serves : Serves limit width history) {time : τ} {answer : Bool}
    (served : (recent width history time).length < limit → answer = true) :
    Serves limit width (history ++ [(time, answer)]) := by
  intro earlier other said later split few
  rcases List.eq_nil_or_concat later with rfl | ⟨later, event, rfl⟩
  · obtain ⟨same, ends⟩ := List.append_inj' split rfl
    cases same
    cases ends
    exact served few
  · rw [List.concat_eq_append, ← List.cons_append, ← List.append_assoc] at split
    exact serves earlier other said later (List.append_inj' split rfl).1 few

end Serves

section Decided

variable {limit : Int} {width : τ} {history : List (τ × Bool)} {within : τ → Bool}

/-- Any two of the times are less than a window apart. -/
def Narrow (width : τ) (within : τ → Bool) : Prop :=
  ∀ first last, within first = true → within last = true → last - width < first

theorem admitted_length_le_recent (narrow : Narrow width within) {time : τ}
    (now : within time = true) (history : List (τ × Bool)) :
    (admitted within history).length ≤ (recent width history time).length := by
  rw [admitted, recent, ← List.countP_eq_length_filter, ← List.countP_eq_length_filter]
  apply List.countP_mono_left
  intro event _ admits
  rw [Bool.and_eq_true] at admits
  exact decide_eq_true (narrow event.1 time admits.2 now)

/-- Of times close together no more than the limit are admitted. -/
theorem Decided.admitted_le (decided : Decided limit width history)
    (narrow : Narrow width within) : (admitted within history).length ≤ limit.toNat := by
  induction decided with
  | nil => exact Nat.zero_le _
  | snoc time decided induction =>
      rename_i past
      rw [admitted, List.filter_append, List.length_append]
      by_cases counts : (recent width past time).length + 1 ≤ limit ∧ within time = true
      · have earlier := admitted_length_le_recent narrow counts.2 past
        rw [admitted] at earlier
        have one := List.length_filter_le (fun event : τ × Bool => event.2 && within event.1)
          [(time, decide ((recent width past time).length + 1 ≤ limit))]
        rw [List.length_singleton] at one
        have few := counts.1
        omega
      · rw [not_and] at counts
        have none : [(time, decide ((recent width past time).length + 1 ≤ limit))].filter
            (fun event => event.2 && within event.1) = [] := by
          rw [List.filter_eq_nil_iff]
          intro event member
          rw [List.mem_singleton.mp member, Bool.and_eq_true, decide_eq_true_eq, not_and]
          exact counts
        rw [none]
        exact induction

theorem Decided.answer_eq (decided : Decided limit width history) {earlier later : List (τ × Bool)}
    {time : τ} {answer : Bool} (split : history = earlier ++ (time, answer) :: later) :
    answer = decide ((recent width earlier time).length + 1 ≤ limit) := by
  induction decided generalizing later with
  | nil => exact absurd split.symm (by simp)
  | snoc last decided induction =>
      rcases List.eq_nil_or_concat later with rfl | ⟨later, event, rfl⟩
      · obtain ⟨same, ends⟩ := List.append_inj' split rfl
        rw [List.cons.injEq, Prod.mk.injEq] at ends
        rw [← same, ← ends.1.1, ← ends.1.2]
      · rw [List.concat_eq_append, ← List.cons_append, ← List.append_assoc] at split
        exact induction (List.append_inj' split rfl).1

theorem Decided.limits [IsOrderedAddMonoid τ] (decided : Decided limit width history) :
    Limits limit width history where
  closed_open := by
    intro start
    apply decided.admitted_le
    intro first last is_first is_last
    rw [decide_eq_true_eq] at is_first is_last
    exact (sub_lt_iff_lt_add.mpr is_last.2).trans_le is_first.1
  open_closed := by
    intro start
    apply decided.admitted_le
    intro first last is_first is_last
    rw [decide_eq_true_eq] at is_first is_last
    exact (sub_le_iff_le_add.mpr is_last.2).trans_lt is_first.1
  served := by
    intro earlier time answer later split few
    rw [decided.answer_eq split, decide_eq_true_eq]
    omega

end Decided

end Hermes.SlidingWindow
