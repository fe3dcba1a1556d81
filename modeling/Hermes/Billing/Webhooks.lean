import Hermes.Billing.AdaptyIntake
import Hermes.Billing.CloudPayments.Answers

/-!
# When the payment webhooks answer

Both webhooks promise their senders an outcome for whatever is posted.  Neither of them keeps this
promise for every input, and for each it is said which inputs it is kept for.
-/

namespace Hermes.Billing

open JsonDecoder Encoding Jsonb
open CloudPayments (Store)

/-- Each webhook answers exactly where its input is harmless. -/
theorem webhooks_answer_iff (host : Host) (environment : Adapty.Environment) (db : Adapty.Db)
    (delivery : Adapty.Delivery) (callbacks : CloudPayments.Callback.Environment) (store : Store)
    (callback : CloudPayments.Callback.Delivery) :
    (Adapty.Answered host delivery.raw (Adapty.receive host environment db delivery) ↔
      Adapty.Harmless host environment db delivery) ∧
    (CloudPayments.Callback.Answered host callback.raw
        (CloudPayments.Callback.handle host callbacks store callback).1 ↔
      (callbacks.apiToken ≠ "" → CloudPayments.Callback.Harmless host callbacks store callback)) :=
  ⟨Adapty.receive_answered_iff, CloudPayments.Callback.handle_answered_iff⟩

/-! ## Two inputs which are not answered -/

namespace Sample

/-- A computation raises for its input. -/
def raises {α : Type} : Except Raised α → Bool
  | .ok _ => false
  | .error raised => !raised.external

def host : Host where
  decodeDepth := 1000
  encodeDepth := 1000
  castDepth := 1000
  roomy _ := true
  indexable _ := true

/-- A cancelled subscription with a `NaN` beside it. -/
def cancelledRaw : List UInt8 :=
  encode ("\x7b\"event_id\":\"first\",\"event_type\":\"subscription_cancelled\"," ++
    "\"customer_user_id\":\"" ++ Adapty.Sample.userText ++ "\",\"price\":NaN\x7d")

/-- A completed payment of the same user. -/
def completedRaw : List UInt8 :=
  encode ("\x7b\"Status\":\"Completed\",\"OperationType\":\"Payment\",\"AccountId\":\"" ++
    Adapty.Sample.userText ++ "\"\x7d")

/-- The provider lists a payment whose id is a list. -/
def listedRaw : List UInt8 := encode "\x7b\"data\":[\x7b\"payment_id\":[]\x7d]\x7d"

def callbacks : CloudPayments.Callback.Environment where
  apiToken := "token"
  str value :=
    match value with
    | .str text => some text
    | _ => some []
  lower text := text.map fun code => if 0x41 ≤ code ∧ code ≤ 0x5a then code + 0x20 else code
  uuid text := if text = codes Adapty.Sample.userText then some Adapty.Sample.user else none
  resolveUser user := some user
  fromisoformat _ := none
  paidStatuses := [codes "paid"]
  freshnessHours := 24
  tokenProducts := []
  productTokens := []
  subscriptionTokensGrant := 1000
  agentDebtReconcileEnabled := true

def store : Store where
  events := []
  accounts _ := {}
  writes := []
  audit := []

def completed : CloudPayments.Callback.Delivery where
  raw := completedRaw
  answers _ := .content listedRaw
  now := 0
  readings _ := ⟨0, ⟨1⟩, false⟩

theorem not_answered_of_raises {raw : List UInt8}
    {result : Except Raised (Adapty.WebhookOutcome × Adapty.Db)} (raised : raises result = true) :
    ¬ Adapty.Answered host raw result := by
  cases result with
  | ok answer => cases raised
  | error failure =>
      intro external
      rw [Adapty.Answered] at external
      rw [raises, external] at raised
      cases raised

theorem callback_not_answered_of_raises {raw : List UInt8}
    {result : Except Raised CloudPayments.WebhookOutcome} (raised : raises result = true) :
    ¬ CloudPayments.Callback.Answered host raw result := by
  cases result with
  | ok answer => cases raised
  | error failure =>
      intro external
      rw [CloudPayments.Callback.Answered] at external
      rw [raises, external] at raised
      cases raised

/-- An ordinary event is answered. -/
example : raises (Adapty.receive host Adapty.Sample.shop Adapty.Sample.empty
    Adapty.Sample.startedDelivery) = false := by decide +kernel

/-- The `NaN` is decoded and refused by the cast; the list has no hash. -/
theorem inputs_not_answered :
    ¬ Adapty.Answered host cancelledRaw
      (Adapty.receive host Adapty.Sample.shop Adapty.Sample.empty ⟨cancelledRaw, ⟨1⟩, false⟩) ∧
    ¬ CloudPayments.Callback.Answered host completedRaw
      (CloudPayments.Callback.handle host callbacks store completed).1 := by
  refine ⟨not_answered_of_raises ?_, callback_not_answered_of_raises ?_⟩
  · decide +kernel
  · decide +kernel

end Sample

end Hermes.Billing
