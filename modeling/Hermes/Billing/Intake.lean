import Hermes.Billing.Subscription
import Hermes.Library.Jsonb
import Hermes.Library.Program

/-!
# What a webhook raises

The body of a webhook goes through the decoder, the field readers, the encoder and the parameters of
the statements, and each of these accepts a language of its own.  The decoder's `ValueError` is
answered; whatever else one of them raises ends the call.
-/

namespace Hermes.Billing

open Jsonb

/-- What the `handle` of a webhook service raises. -/
inductive Raised
  /-- `RecursionError`. -/
  | recursion
  /-- A parameter is not encoded, or rejected by the server. -/
  | parameter
  /-- `OverflowError`. -/
  | overflow
  /-- `TypeError` of a key without a hash. -/
  | unhashable
  /-- The wallet refuses the credit. -/
  | credit
  /-- The database or the provider cannot be reached. -/
  | unavailable
  /-- `CloudPaymentsWebhookMisconfiguredError`. -/
  | misconfigured
  deriving DecidableEq, Repr

def Raised.external : Raised → Bool
  | .unavailable | .misconfigured => true
  | _ => false

def Raised.ofRefusal : Refusal → Raised
  | .recursion => .recursion
  | .parameter => .parameter

/-- A step towards the database, whose refusal is raised. -/
def insist (step : Except Refusal Unit) : Except Raised Unit := step.mapError Raised.ofRefusal

/-- A parameter which may be `NULL`. -/
def sendOptional {α : Type} (send : α → Except Raised Unit) : Option α → Except Raised Unit
  | none => .ok ()
  | some value => send value

/-- A `TIMESTAMPTZ` parameter: the driver moves it to UTC, where it has to be a `datetime`. -/
def sendMoment (moment : Instant) : Except Raised Unit :=
  if firstInstant ≤ moment ∧ moment ≤ lastInstant then .ok () else .error .overflow

/-- A payload which cannot be decoded, or not be stored as it is. -/
def Unusable (host : Host) (raw : List UInt8) : Prop :=
  ∀ value, host.loads raw = .ok value → ¬ host.Persists value

theorem insist_ok_iff {step : Except Refusal Unit} : insist step = .ok () ↔ step = .ok () := by
  cases step with
  | error refusal => exact iff_of_false (fun ran => by cases ran) fun ran => by cases ran
  | ok answer => exact iff_of_true rfl rfl

theorem sendOptional_ok_iff {α : Type} {send : α → Except Raised Unit} {value : Option α} :
    sendOptional send value = .ok () ↔ ∀ given, value = some given → send given = .ok () := by
  cases value with
  | none => exact iff_of_true rfl fun given absent => by cases absent
  | some value =>
      constructor
      · rintro sent given same
        cases same
        exact sent
      · exact fun all => all value rfl

theorem sendMoment_ok_iff {moment : Instant} :
    sendMoment moment = .ok () ↔ firstInstant ≤ moment ∧ moment ≤ lastInstant := by
  rw [sendMoment]
  split
  next inside => exact iff_of_true rfl inside
  next outside => exact iff_of_false (fun sent => by cases sent) outside

/-- A composition succeeds where both of its computations do. -/
theorem except_seq_ok_iff {ε α : Type} {first : Except ε Unit} {rest : Except ε α} {result : α} :
    (first >>= fun _ => rest) = .ok result ↔ first = .ok () ∧ rest = .ok result := by
  cases first with
  | error failure => exact iff_of_false (fun ran => by cases ran) fun both => by cases both.1
  | ok answer => exact ⟨fun ran => ⟨rfl, ran⟩, And.right⟩

/-! ## Steps which raise for their input only -/

/-- What the step raises, it raises for its input. -/
def Internal {α : Type} (step : Except Raised α) : Prop :=
  ∀ raised, step = .error raised → raised.external = false

/-- What the step raises, it does not raise for its input. -/
def Answers {α : Type} (step : Except Raised α) : Prop :=
  ∀ raised, step = .error raised → raised.external = true

/-- A step which raises for its input only answers where it succeeds. -/
theorem Internal.answers_iff {α : Type} {step : Except Raised α} (internal : Internal step) :
    Answers step ↔ ∃ value, step = .ok value := by
  cases step with
  | ok value => exact iff_of_true (fun raised failed => by cases failed) ⟨value, rfl⟩
  | error raised =>
      refine iff_of_false (fun answers => ?_) fun succeeded => by cases succeeded.choose_spec
      cases (internal raised rfl).symm.trans (answers raised rfl)

theorem answers_ok {α : Type} (value : α) : Answers (.ok value) := by
  rintro raised ⟨⟩

/-- A composition answers where its first step does, and the second behind its success. -/
theorem answers_bind_iff {α β : Type} {first : Except Raised α} {rest : α → Except Raised β} :
    Answers (first >>= rest) ↔
      Answers first ∧ ∀ value, first = .ok value → Answers (rest value) := by
  cases first with
  | ok value =>
      constructor
      · intro answers
        refine ⟨answers_ok value, ?_⟩
        rintro other ⟨⟩
        exact answers
      · exact fun both => both.2 value rfl
  | error raised =>
      constructor
      · intro answers
        refine ⟨?_, fun value succeeded => by cases succeeded⟩
        rintro other ⟨⟩
        exact answers raised rfl
      · rintro ⟨answers, -⟩ other ⟨⟩
        exact answers raised rfl

theorem answers_map_iff {α β : Type} {step : Except Raised α} {change : α → β} :
    Answers (change <$> step) ↔ Answers step := by
  cases step with
  | ok value => exact iff_of_true (answers_ok _) (answers_ok _)
  | error raised => exact ⟨fun answers other failed => answers other (by cases failed; rfl),
      fun answers other failed => answers other (by cases failed; rfl)⟩

theorem Internal.ok {α : Type} (value : α) : Internal (.ok value) := by
  rintro raised ⟨⟩

theorem Internal.bind {α β : Type} {first : Except Raised α} {rest : α → Except Raised β}
    (first_internal : Internal first) (rest_internal : ∀ value, Internal (rest value)) :
    Internal (first >>= rest) := by
  intro raised failed
  rcases except_bind_eq_error failed with failed | ⟨value, -, failed⟩
  · exact first_internal raised failed
  · exact rest_internal value raised failed

theorem Internal.ite {α : Type} {condition : Prop} [Decidable condition] {yes no : Except Raised α}
    (yes_internal : Internal yes) (no_internal : Internal no) :
    Internal (if condition then yes else no) := by
  split
  · exact yes_internal
  · exact no_internal

theorem internal_insist (step : Except Refusal Unit) : Internal (insist step) := by
  intro raised failed
  cases step with
  | ok answer => cases failed
  | error refusal =>
      cases failed
      cases refusal <;> rfl

theorem internal_sendOptional {α : Type} {send : α → Except Raised Unit}
    (sends : ∀ value, Internal (send value)) (value : Option α) :
    Internal (sendOptional send value) := by
  cases value with
  | none => exact .ok ()
  | some value => exact sends value

theorem internal_sendMoment (moment : Instant) : Internal (sendMoment moment) := by
  rw [sendMoment]
  refine .ite (.ok ()) ?_
  rintro raised ⟨⟩
  rfl

end Hermes.Billing
