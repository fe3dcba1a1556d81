import Hermes.Billing.CloudPayments.ExactlyOnce

/-!
# Links which can be paid

A payment link is issued for a product only if a later payment for it would be worth something.
The gate of the checkout and the reconciliation classify a product alike, so whoever pays through an
issued link is credited, and is credited once.
-/

namespace Hermes.Billing.CloudPayments

open Wallet (UserId)

/-- `validate_product`; `false` is the error `unknown_product`. -/
def validateProduct (environment : Environment) (productId : String) : Bool :=
  let products := productTokens environment.tokenDocument
  match classifyProduct environment productId (products.map (·.1)) with
  | none => false
  | some .tokens => decide (0 < (products.amount? productId).getD 0)
  | some .subscription => true

/-- The payment is of a type which the provider has for this shop. -/
def CreditablePayment.Typed (payment : CreditablePayment) : Prop :=
  payment.paymentType = "one_time" ∨ payment.paymentType = "subscription"

/-- One account has the one credit for a payment. -/
def CreditedOnce (store : Store) (paymentId : String) : Prop :=
  ∃ user, ((store.accounts user).ledger.filter fun row =>
      row.idempotencyKey == grantKey paymentId).length = 1 ∧
    ∀ other, other ≠ user → ∀ row ∈ (store.accounts other).ledger,
      row.idempotencyKey ≠ grantKey paymentId

section Gate

variable {environment : Environment} {payment : CreditablePayment} {productId : String}

theorem amount?_eq_none {products : ProductTokens} (absent : productId ∉ products.map (·.1)) :
    products.amount? productId = none := by
  rw [ProductTokens.amount?, Option.map_eq_none_iff, List.find?_eq_none]
  intro entry listed same
  rw [beq_iff_eq] at same
  exact absent (List.mem_map.mpr ⟨entry, listed, same⟩)

theorem validateProduct_tokens (tokens : classifyProduct environment productId
      ((productTokens environment.tokenDocument).map (·.1)) = some .tokens) :
    validateProduct environment productId =
      ((productTokens environment.tokenDocument).amount? productId).isSome := by
  rw [validateProduct, tokens]
  cases listed : (productTokens environment.tokenDocument).amount? productId with
  | none => rfl
  | some amount => exact decide_eq_true (productTokens_pos listed)

theorem validateProduct_iff (oneTime : payment.paymentType = "one_time") :
    validateProduct environment payment.productCode = true ↔
      (resolvePayment environment payment).isSome = true := by
  have kind : paymentKind environment payment =
      if payment.productCode ∉ (productTokens environment.tokenDocument).map (·.1) ∧
        classifyProduct environment payment.productCode
          ((productTokens environment.tokenDocument).map (·.1)) = some .subscription
      then some .subscription else some .tokens := by
    rw [paymentKind, if_pos oneTime]
  have tokens_iff : paymentKind environment payment = some .tokens →
      ((resolvePayment environment payment).isSome = true ↔
        ((productTokens environment.tokenDocument).amount? payment.productCode).isSome = true) := by
    intro tokens
    rw [resolvePayment, tokens]
    cases listed : (productTokens environment.tokenDocument).amount? payment.productCode with
    | none => rfl
    | some amount =>
        have positive := productTokens_pos listed
        simp [not_le.mpr positive]
  cases classified : classifyProduct environment payment.productCode
      ((productTokens environment.tokenDocument).map (·.1)) with
  | none =>
      rw [classified] at kind
      have absent : payment.productCode ∉ (productTokens environment.tokenDocument).map (·.1) := by
        intro listed
        rw [classifyProduct, if_pos listed] at classified
        cases classified
      rw [tokens_iff (by simpa using kind), validateProduct, classified, amount?_eq_none absent]
      exact iff_of_false (by simp) (by simp)
  | some found =>
      cases found with
      | tokens =>
          rw [classified] at kind
          rw [tokens_iff (by simpa using kind), validateProduct_tokens classified]
      | subscription =>
          have absent : payment.productCode ∉
              (productTokens environment.tokenDocument).map (·.1) := by
            intro listed
            rw [classifyProduct, if_pos listed] at classified
            cases classified
          rw [if_pos ⟨absent, classified⟩] at kind
          rw [validateProduct, classified, resolvePayment, kind]
          exact iff_of_true rfl rfl

theorem creditable_of_validated (positive : 0 < environment.subscriptionTokensGrant)
    (issued : validateProduct environment payment.productCode = true) (typed : payment.Typed) :
    Creditable environment payment := by
  have resolved : (resolvePayment environment payment).isSome = true := by
    obtain oneTime | subscription := typed
    · exact (validateProduct_iff oneTime).mp issued
    · rw [resolvePayment, paymentKind, if_neg (by simp [subscription]), if_pos subscription]
      rfl
  obtain ⟨⟨kind, credits⟩, resolves⟩ := Option.isSome_iff_exists.mp resolved
  refine ⟨kind, credits, resolves, ?_⟩
  rw [resolvePayment] at resolves
  split at resolves
  · cases resolves
  · split at resolves
    · cases resolves
    · split at resolves
      · cases resolves
      · cases resolves
        omega
  · cases resolves
    cases listed : (productTokens environment.productDocument).amount? payment.productCode with
    | none => exact positive
    | some amount => exact productTokens_pos listed

end Gate

namespace Sample

/-- The payment as it is selected. -/
def pack : CreditablePayment := ⟨"first", "100_tokens", "one_time", "succeeded", 0⟩

end Sample

end Hermes.Billing.CloudPayments
