import Mathlib.Data.List.Basic

/-!
# Linked histories

A history lists completed steps with the states before and after each.  It is linked when every
step starts where the one before it ended; steps which change nothing may be taken out.
-/

namespace Hermes

variable {ι ω σ : Type}

/-- A completed step: who took it, what it answered, and the states around it. -/
structure Entry (ι ω σ : Type) where
  actor : ι
  answer : ω
  before : σ
  after : σ

/-- Each entry starts in the state the previous one left. -/
def Linked : σ → List (Entry ι ω σ) → σ → Prop
  | first, [], last => first = last
  | first, entry :: later, last => entry.before = first ∧ Linked entry.after later last

namespace Linked

variable {first last : σ} {history : List (Entry ι ω σ)}

theorem snoc (linked : Linked first history last) {entry : Entry ι ω σ}
    (starts : entry.before = last) : Linked first (history ++ [entry]) entry.after := by
  induction history generalizing first with
  | nil =>
      have same : first = last := linked
      exact ⟨starts.trans same.symm, rfl⟩
  | cons head later induction => exact ⟨linked.1, induction linked.2⟩

theorem filter (linked : Linked first history last) {keep : Entry ι ω σ → Bool}
    (idle : ∀ entry ∈ history, keep entry = false → entry.after = entry.before) :
    Linked first (history.filter keep) last := by
  induction history generalizing first with
  | nil => exact linked
  | cons head later induction =>
      have rest := induction linked.2 fun entry present =>
        idle entry (List.mem_cons_of_mem _ present)
      cases kept : keep head with
      | true =>
          rw [List.filter_cons_of_pos kept]
          exact ⟨linked.1, rest⟩
      | false =>
          rw [List.filter_cons_of_neg (by simp [kept])]
          rw [idle head (by simp) kept, linked.1] at rest
          exact rest

end Linked
end Hermes
