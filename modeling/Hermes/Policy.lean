import Mathlib.Data.Int.Notation

/-!
# The access policy

`evaluate` decides whether a user may generate, from what was read of the subscription, the trial,
the wallet and the key of the user.
-/

namespace Hermes.Policy

inductive Mode
  | credits
  | byok
  deriving DecidableEq, Repr

inductive SubscriptionStatus
  | active
  | expired
  | none
  deriving DecidableEq, Repr

inductive ByokState
  | missing
  | disabled
  | invalid
  | valid
  | validating
  | offline
  | expired
  deriving DecidableEq, Repr

inductive BlockReason
  | trialUsed
  | subscriptionRequired
  | subscriptionExpired
  | creditsEmpty
  | byokDisabled
  | byokInvalid
  | rateLimited
  | policyDenied
  | debtOutstanding
  | maxTokens
  deriving DecidableEq, Repr

structure PolicyState where
  subscriptionStatus : SubscriptionStatus
  trialUsed : Bool
  creditsBalance : ℤ
  byokEnabled : Bool
  byokStatus : ByokState
  deriving DecidableEq, Repr

/-- A decision: allowed, or blocked for a reason. -/
inductive Decision
  | allowed
  | blocked (reason : BlockReason)
  deriving DecidableEq, Repr

/-- `_byok_state`: a disabled key counts as disabled whatever its status. -/
def byokState (enabled : Bool) (status : ByokState) : ByokState :=
  if enabled then status else .disabled

/-- `evaluate`. -/
def evaluate (state : PolicyState) : Mode → Decision
  | .byok =>
      match state.subscriptionStatus with
      | .expired => .blocked .subscriptionExpired
      | .none => .blocked .subscriptionRequired
      | .active =>
          match byokState state.byokEnabled state.byokStatus with
          | .disabled => .blocked .byokDisabled
          | .valid => .allowed
          | _ => .blocked .byokInvalid
  | .credits =>
      match state.subscriptionStatus with
      | .active => if state.creditsBalance = 0 then .blocked .creditsEmpty else .allowed
      | .expired => .blocked .subscriptionExpired
      | .none => if state.trialUsed then .blocked .trialUsed else .allowed

end Hermes.Policy
