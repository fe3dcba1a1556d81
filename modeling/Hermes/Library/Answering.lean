import Mathlib.Data.List.Perm.Basic
import Mathlib.Data.List.Nodup

/-!
# Calls and their results

A list of events is answered when every event which makes calls is followed, before the next such
event, by one result for each of them.  `settle` decides this with the calls still waiting as its
only memory, so that histories can be extended at their end.
-/

namespace Hermes.Answering

variable {ι : Type}

/-- An event of a history: it makes some calls, possibly none, or it is the result of one. -/
inductive Event (ι : Type)
  | calls (ids : List ι)
  | result (id : ι)

/-- Every call has exactly one result before the next event which is not a result, and no result
is without its call. -/
inductive Answered : List (Event ι) → Prop
  | nil : Answered []
  | round {ids results : List ι} {later : List (Event ι)} (distinct : ids.Nodup)
      (matched : results.Perm ids) (rest : Answered later) :
      Answered (.calls ids :: (results.map .result ++ later))

variable [DecidableEq ι]

/-- The calls waiting after an event, unless the event is out of place. -/
def Event.settle (waiting : List ι) : Event ι → Option (List ι)
  | .calls ids => if waiting = [] ∧ ids.Nodup then some ids else none
  | .result id => if id ∈ waiting then some (waiting.erase id) else none

def settle (waiting : List ι) : List (Event ι) → Option (List ι)
  | [] => some waiting
  | event :: later => (event.settle waiting).bind fun left => settle left later

theorem settle_append (waiting : List ι) (first second : List (Event ι)) :
    settle waiting (first ++ second) =
      (settle waiting first).bind fun left => settle left second := by
  induction first generalizing waiting with
  | nil => rfl
  | cons event later induction =>
      simp only [List.cons_append, settle]
      cases event.settle waiting with
      | none => rfl
      | some left => exact induction left

theorem settle_concat {waiting left : List ι} {history : List (Event ι)} {event : Event ι}
    (settled : settle waiting history = some left) :
    settle waiting (history ++ [event]) = event.settle left := by
  rw [settle_append, settled]
  simp only [Option.bind_some, settle]
  cases event.settle left <;> rfl

theorem settle_calls_nil {ids : List ι} (distinct : ids.Nodup) :
    (Event.calls ids).settle [] = some ids := by
  simp [Event.settle, distinct]

theorem settle_result {waiting : List ι} {id : ι} (member : id ∈ waiting) :
    (Event.result id).settle waiting = some (waiting.erase id) := by
  simp [Event.settle, member]

theorem Event.settle_nodup {waiting left : List ι} {event : Event ι}
    (distinct : waiting.Nodup) (settled : event.settle waiting = some left) : left.Nodup := by
  cases event with
  | calls ids =>
      simp only [Event.settle, Option.ite_none_right_eq_some] at settled
      obtain ⟨⟨-, ids_distinct⟩, same⟩ := settled
      cases same
      exact ids_distinct
  | result id =>
      simp only [Event.settle, Option.ite_none_right_eq_some] at settled
      obtain ⟨-, same⟩ := settled
      cases same
      exact distinct.erase id

theorem settle_nodup {waiting left : List ι} {history : List (Event ι)}
    (distinct : waiting.Nodup) (settled : settle waiting history = some left) : left.Nodup := by
  induction history generalizing waiting with
  | nil =>
      cases settled
      exact distinct
  | cons event later induction =>
      obtain ⟨between, first, rest⟩ := Option.bind_eq_some_iff.mp settled
      exact induction (Event.settle_nodup distinct first) rest

theorem settled_before_calls {waiting left ids : List ι} {before after : List (Event ι)}
    (settled : settle waiting (before ++ .calls ids :: after) = some left) :
    settle waiting before = some [] := by
  rw [settle_append] at settled
  obtain ⟨between, first, rest⟩ := Option.bind_eq_some_iff.mp settled
  obtain ⟨opened, call, -⟩ := Option.bind_eq_some_iff.mp rest
  simp only [Event.settle, Option.ite_none_right_eq_some] at call
  rw [first, call.1.1]

theorem settle_results {waiting results : List ι} (matched : results.Perm waiting)
    (later : List (Event ι)) :
    settle waiting (results.map .result ++ later) = settle [] later := by
  induction results generalizing waiting with
  | nil =>
      cases matched.nil_eq
      rfl
  | cons id results induction =>
      have member : id ∈ waiting := matched.subset (List.mem_cons_self ..)
      simp only [List.map_cons, List.cons_append, settle, settle_result member, Option.bind_some]
      exact induction (List.cons_perm_iff_perm_erase.mp matched).2

/-- A history which settles begins with results of everything which waited. -/
theorem results_of_settle {waiting : List ι} {history : List (Event ι)}
    (settled : settle waiting history = some []) :
    ∃ (results : List ι) (later : List (Event ι)),
      history = results.map .result ++ later ∧ results.Perm waiting ∧
      settle [] later = some [] ∧ later.length ≤ history.length := by
  induction history generalizing waiting with
  | nil =>
      cases settled
      exact ⟨[], [], rfl, .refl _, rfl, Nat.le_refl _⟩
  | cons event later induction =>
      obtain ⟨left, first, rest⟩ := Option.bind_eq_some_iff.mp settled
      cases event with
      | calls ids =>
          simp only [Event.settle, Option.ite_none_right_eq_some] at first
          obtain ⟨⟨rfl, -⟩, -⟩ := first
          exact ⟨[], .calls ids :: later, rfl, .refl _, settled, Nat.le_refl _⟩
      | result id =>
          simp only [Event.settle, Option.ite_none_right_eq_some, Option.some.injEq] at first
          obtain ⟨member, rfl⟩ := first
          obtain ⟨results, remaining, same, matched, after, shorter⟩ := induction rest
          refine ⟨id :: results, remaining, by rw [same]; rfl, ?_, after, ?_⟩
          · exact (matched.cons id).trans (List.perm_cons_erase member).symm
          · exact Nat.le_succ_of_le shorter

/-- A history is answered exactly when nothing waits at its end. -/
theorem answered_iff_settle (history : List (Event ι)) :
    Answered history ↔ settle [] history = some [] := by
  constructor
  · intro answered
    induction answered with
    | nil => rfl
    | round distinct matched rest induction =>
        rw [settle, settle_calls_nil distinct, Option.bind_some, settle_results matched, induction]
  · intro settled
    -- Each round takes at least its calls off the history.
    induction size : history.length using Nat.strongRecOn generalizing history with
    | ind size shorter =>
        cases history with
        | nil => exact .nil
        | cons event later =>
            obtain ⟨left, first, rest⟩ := Option.bind_eq_some_iff.mp settled
            cases event with
            | result id => simp [Event.settle] at first
            | calls ids =>
                simp only [Event.settle, Option.ite_none_right_eq_some, Option.some.injEq] at first
                obtain ⟨⟨-, distinct⟩, rfl⟩ := first
                obtain ⟨results, remaining, same, matched, after, bound⟩ := results_of_settle rest
                subst size
                rw [same]
                exact .round distinct matched
                  (shorter remaining.length (Nat.lt_succ_of_le bound) remaining after rfl)

instance (history : List (Event ι)) : Decidable (Answered history) :=
  decidable_of_iff _ (answered_iff_settle history).symm

end Hermes.Answering
