import Hermes.Billing.Products
import Hermes.Billing.Subscription
import Hermes.Library.Program
import Hermes.Library.Text

/-!
# Reconciling provider payments

The provider is asked for the payments under two identifiers.  The answers are merged by payment
id, the paid and fresh ones are selected, and each of these is resolved to a kind and an amount of
credits.
-/

namespace Hermes.Billing.CloudPayments

open Json (get?)

/-- The fields of one payment as the provider lists it. -/
abbrev Fields := List (String × Json)

/-- What the reconciliation uses besides the lists. -/
structure Environment where
  /-- `str` of a decoded value; `none` is a `RecursionError`. -/
  str : Json → Option String
  /-- `str.lower`. -/
  lower : String → String
  /-- `str.strip`. -/
  strip : String → String
  /-- `datetime.fromisoformat`, a moment without a zone taken as UTC. -/
  fromisoformat : String → Option Instant
  /-- `cloudpayments_paid_statuses`. -/
  paidStatuses : List String
  /-- `CLOUDPAYMENTS_PAYMENT_FRESHNESS_HOURS`. -/
  freshnessHours : Nat
  /-- The decoded `TOKEN_PRODUCTS`. -/
  tokenDocument : Option Json
  /-- The decoded `CLOUDPAYMENTS_PRODUCT_TOKENS`. -/
  productDocument : Option Json
  /-- `CLOUDPAYMENTS_SUBSCRIPTION_TOKENS_GRANT`. -/
  subscriptionTokensGrant : Int
  /-- `AGENT_DEBT_RECONCILE_ENABLED`. -/
  agentDebtReconcileEnabled : Bool
  /-- The database takes the text: it has no NUL and no lone surrogate.  A character which occurs
  nowhere else stands for a surrogate. -/
  storable : String → Bool
  /-- An entry of a unique index has room for the key. -/
  indexable : String → Bool

/-! ## Merging -/

/-- A payment id as a member of a set: equal numbers are one member whatever their type. -/
inductive Key
  | str (text : String)
  | number (value : ℚ)
  | infinite (negative : Bool)
  | nan
  deriving DecidableEq, Repr

/-- The key of a payment; `error` is the `TypeError` of a value which has no hash. -/
def paymentKey (item : Fields) : Except Unit (Option Key) :=
  match get? item "payment_id" with
  | none | some .null => .ok none
  | some (.str text) => .ok (some (.str text))
  | some (.bool value) => .ok (some (.number (if value then 1 else 0)))
  | some (.int value) => .ok (some (.number value))
  | some (.float (.finite value)) => .ok (some (.number value))
  | some (.float (.infinite negative)) => .ok (some (.infinite negative))
  | some (.float .nan) => .ok (some .nan)
  | some (.arr _) | some (.obj _) => .error ()

/-- `key in seen`: the decoder has a single `nan`, which is found by its identity. -/
def Key.isIn (key : Key) (seen : List Key) : Bool := seen.contains key

/-- The loop of `_list_payments_both` over the answers put together. -/
def mergePayments (seen : List Key) : List Fields → Except Unit (List Fields)
  | [] => .ok []
  | item :: later => do
      match ← paymentKey item with
      | none => return item :: (← mergePayments seen later)
      | some key =>
          if key.isIn seen then mergePayments seen later
          else return item :: (← mergePayments (key :: seen) later)

/-! ## Selecting -/

/-- `CreditablePayment`. -/
structure CreditablePayment where
  paymentId : String
  productCode : String
  paymentType : String
  status : String
  paidAt : Instant
  deriving DecidableEq, Repr

variable (environment : Environment)

def truthy : Json → Bool
  | .null => false
  | .bool value => value
  | .int value => value ≠ 0
  | .float value => value ≠ .finite 0
  | .str text => text ≠ ""
  | .arr items => !items.isEmpty
  | .obj fields => !fields.isEmpty

/-- `payment_statuses` does not raise. -/
def Legible (items : List Fields) : Prop :=
  ∀ item ∈ items, (get? item "status").all fun value => (environment.str value).isSome

instance (items : List Fields) : Decidable (Legible environment items) :=
  inferInstanceAs (Decidable (∀ item ∈ items, _))

/-- `str(item.get("status") or "").strip().lower()`, of a legible item. -/
def paymentStatus (item : Fields) : String :=
  let text := match get? item "status" with
    | some value => if truthy value then (environment.str value).getD "" else ""
    | none => ""
  environment.lower (environment.strip text)

def stripped : Option Json → Option String
  | some (.str text) =>
      if environment.strip text ≠ "" then some (environment.strip text) else none
  | _ => none

/-- A trailing `Z` or `z` written as an offset. -/
def normalizedZone (text : String) : String :=
  if text.toList.getLast? = some 'Z' ∨ text.toList.getLast? = some 'z' then
    String.ofList (text.toList.dropLast ++ "+00:00".toList)
  else text

/-- `_parse_paid_at`. -/
def parsePaidAt (value : Option Json) : Option Instant :=
  (stripped environment value).bind fun text => environment.fromisoformat (normalizedZone text)

def paymentProduct (item : Fields) : Option Fields :=
  match get? item "product" with
  | some (.obj product) => some product
  | _ => none

/-- `cutoff`; `datetime` raises an `OverflowError` when it lies before `firstInstant`. -/
def cutoff (now : Instant) : Instant := now - environment.freshnessHours * 3600000000

/-- One item of `select_creditable_payments`. -/
def selectPayment (now : Instant) (item : Fields) : Option CreditablePayment := do
  let status := paymentStatus environment item
  if status ∉ environment.paidStatuses then none
  let paidAt ← parsePaidAt environment (get? item "paid_at")
  if paidAt < cutoff environment now then none
  let paymentId ← stripped environment (get? item "payment_id")
  let product ← paymentProduct item
  let productCode ← stripped environment (get? product "code")
  let paymentType ← stripped environment (get? product "payment_type")
  some ⟨paymentId, productCode, environment.lower paymentType, status, paidAt⟩

/-- `select_creditable_payments`. -/
def selectCreditablePayments (now : Instant) (items : List Fields) : List CreditablePayment :=
  items.filterMap (selectPayment environment now)

/-! ## Resolving -/

inductive Kind
  | subscription
  | tokens
  deriving DecidableEq, Repr

/-- A character matches a lower-case letter when case is ignored. -/
def caselessMatch (letter char : Char) : Bool :=
  char == letter || char.toLower == letter ||
    (letter == 'k' && char.toNat == 0x212a) || (letter == 's' && char.toNat == 0x17f)

/-- `_TOKENS_NAME_RE.match`. -/
def tokensName (productId : String) : Bool :=
  let digits := productId.toList.takeWhile fun char => (Text.decimalValue char).isSome
  let rest := productId.toList.drop digits.length
  let suffix := "_tokens".toList
  !digits.isEmpty && decide (suffix.length ≤ rest.length) &&
    (suffix.zip rest).all fun pair => caselessMatch pair.1 pair.2

/-- `_looks_like_subscription`. -/
def looksLikeSubscription (productId : String) : Bool :=
  let lowered := environment.lower productId
  subKeywords.any (fun unit => mentions lowered unit.keyword) ||
    ["_nottrial", "_trial"].any fun ending => ending.toList.isSuffixOf lowered.toList

/-- `classify_product` without an interval unit; `none` is `unknown`. -/
def classifyProduct (productId : String) (tokenProductIds : List String) : Option Kind :=
  if productId ∈ tokenProductIds then some .tokens
  else if tokensName productId then some .tokens
  else if looksLikeSubscription environment productId then some .subscription
  else none

/-- The kind a payment is credited as; `none` is an unknown payment type. -/
def paymentKind (payment : CreditablePayment) : Option Kind :=
  let oneTimeIds := (productTokens environment.tokenDocument).map (·.1)
  if payment.paymentType = "one_time" then
    if payment.productCode ∉ oneTimeIds ∧
        classifyProduct environment payment.productCode oneTimeIds = some .subscription then
      some .subscription
    else some .tokens
  else if payment.paymentType = "subscription" then some .subscription
  else none

/-- The kind and the credits of a payment; `none` is one which is skipped. -/
def resolvePayment (payment : CreditablePayment) : Option (Kind × Int) :=
  match paymentKind environment payment with
  | none => none
  | some .tokens =>
      match (productTokens environment.tokenDocument).amount? payment.productCode with
      | none => none
      | some credits => if credits ≤ 0 then none else some (.tokens, credits)
  | some .subscription =>
      some (.subscription,
        ((productTokens environment.productDocument).amount? payment.productCode).getD
          environment.subscriptionTokensGrant)

def Creditable (payment : CreditablePayment) : Prop :=
  ∃ kind credits, resolvePayment environment payment = some (kind, credits) ∧ 0 < credits

/-! ## What merging keeps -/

/-- The payment ids of the items have hashes. -/
def Hashable (items : List Fields) : Prop := ∀ item ∈ items, paymentKey item ≠ .error ()

instance (items : List Fields) : Decidable (Hashable items) :=
  inferInstanceAs (Decidable (∀ item ∈ items, _))

/-- What is read off the product of a payment: its code and its type. -/
def productRead (item : Fields) : Option (Option String × Option String) :=
  (paymentProduct item).map fun product =>
    (stripped environment (get? product "code"), stripped environment (get? product "payment_type"))

/-- Items with the same payment id have the same product. -/
def SameProduct (items : List Fields) : Prop :=
  ∀ item ∈ items, ∀ other ∈ items, paymentKey item = paymentKey other →
    productRead environment item = productRead environment other

/-- A selected item is not behind one with the same payment id which is not selected. -/
def FirstSelected (now : Instant) (items : List Fields) : Prop :=
  ∀ item ∈ items, (selectPayment environment now item).isSome →
    (items.find? fun other => decide (paymentKey other = paymentKey item)).all
      fun other => (selectPayment environment now other).isSome

/-- The lists lose nothing when they are merged. -/
structure Consistent (now : Instant) (items : List Fields) : Prop where
  product : SameProduct environment items
  first : FirstSelected environment now items

instance (items : List Fields) : Decidable (SameProduct environment items) :=
  inferInstanceAs (Decidable (∀ item ∈ items, ∀ other ∈ items, _ → _))

instance (now : Instant) (items : List Fields) : Decidable (FirstSelected environment now items) :=
  inferInstanceAs (Decidable (∀ item ∈ items, _ → _))

instance (now : Instant) (items : List Fields) : Decidable (Consistent environment now items) :=
  decidable_of_iff (SameProduct environment items ∧ FirstSelected environment now items)
    ⟨fun both => ⟨both.1, both.2⟩, fun both => ⟨both.product, both.first⟩⟩

section Merge

variable {environment : Environment} {now : Instant} {seen : List Key} {items merged : List Fields}
  {item : Fields}

theorem mergePayments_ok (hashable : Hashable items) :
    ∃ merged, mergePayments seen items = .ok merged := by
  induction items generalizing seen with
  | nil => exact ⟨[], rfl⟩
  | cons head later induction =>
      have rest (seen : List Key) : ∃ merged, mergePayments seen later = .ok merged :=
        induction fun item present => hashable item (List.mem_cons_of_mem _ present)
      rw [mergePayments]
      cases keyed : paymentKey head with
      | error failure => exact absurd keyed (hashable head List.mem_cons_self)
      | ok found =>
          cases found with
          | none =>
              obtain ⟨merged, merges⟩ := rest seen
              exact ⟨head :: merged, by rw [merges]; rfl⟩
          | some key =>
              obtain ⟨skipping, skips⟩ := rest seen
              obtain ⟨adding, adds⟩ := rest (key :: seen)
              rcases Decidable.em (key.isIn seen = true) with old | new
              · exact ⟨skipping, (if_pos old).trans skips⟩
              · exact ⟨head :: adding, (if_neg new).trans (by rw [adds]; rfl)⟩

theorem mergePayments_subset (merges : mergePayments seen items = .ok merged) :
    merged ⊆ items := by
  induction items generalizing seen merged with
  | nil =>
      cases merges
      exact List.Subset.refl []
  | cons head later induction =>
      rw [mergePayments] at merges
      obtain ⟨found, -, merges⟩ := except_bind_eq_ok merges
      split at merges
      · obtain ⟨rest, rest_merges, merges⟩ := except_bind_eq_ok merges
        cases merges
        exact List.cons_subset_cons head (induction rest_merges)
      · split at merges
        · exact List.subset_cons_of_subset head (induction merges)
        · obtain ⟨rest, rest_merges, merges⟩ := except_bind_eq_ok merges
          cases merges
          exact List.cons_subset_cons head (induction rest_merges)

theorem mergePayments_first {key : Key} (merges : mergePayments seen items = .ok merged)
    (present : item ∈ items) (keyed : paymentKey item = .ok (some key)) (unseen : key ∉ seen) :
    ∃ first, (items.find? fun other => decide (paymentKey other = .ok (some key))) = some first ∧
      first ∈ merged := by
  induction items generalizing seen merged with
  | nil => cases present
  | cons head later induction =>
      rw [mergePayments] at merges
      obtain ⟨found, head_keyed, merges⟩ := except_bind_eq_ok merges
      rcases Decidable.em (paymentKey head = .ok (some key)) with same | other
      · refine ⟨head, by simp [same], ?_⟩
        obtain rfl : found = some key := by simpa [head_keyed] using same
        have new : key.isIn seen = false := by simp [Key.isIn, unseen]
        simp only [new, Bool.false_eq_true, if_false] at merges
        obtain ⟨rest, -, merges⟩ := except_bind_eq_ok merges
        cases merges
        exact List.mem_cons_self
      · have behind : item ∈ later := by
          rcases List.mem_cons.mp present with rfl | behind
          · exact absurd keyed other
          · exact behind
        have skips : (List.find? (fun other => decide (paymentKey other = .ok (some key)))
            (head :: later)) = later.find? fun other =>
              decide (paymentKey other = .ok (some key)) :=
          List.find?_cons_of_neg (by simpa using other)
        rw [skips]
        cases found with
        | none =>
            obtain ⟨rest, rest_merges, merges⟩ := except_bind_eq_ok merges
            cases merges
            obtain ⟨first, found, kept⟩ := induction rest_merges behind unseen
            exact ⟨first, found, List.mem_cons_of_mem _ kept⟩
        | some front =>
            simp only at merges
            split at merges
            · exact induction merges behind unseen
            · obtain ⟨rest, rest_merges, merges⟩ := except_bind_eq_ok merges
              cases merges
              have distinct : key ≠ front := by
                rintro rfl
                exact other head_keyed
              obtain ⟨first, found, kept⟩ :=
                induction rest_merges behind (by simp [distinct, unseen])
              exact ⟨first, found, List.mem_cons_of_mem _ kept⟩

theorem stripped_eq_some {value : Option Json} {text : String}
    (found : stripped environment value = some text) :
    ∃ raw, value = some (.str raw) ∧ text = environment.strip raw := by
  unfold stripped at found
  split at found
  next raw =>
    split at found
    · cases found
      exact ⟨raw, rfl, rfl⟩
    · cases found
  · cases found

/-- What a selected payment has read off its item. -/
structure Selected (environment : Environment) (item : Fields) (payment : CreditablePayment) :
    Prop where
  paymentId : ∃ raw, get? item "payment_id" = some (.str raw) ∧
    payment.paymentId = environment.strip raw
  product : ∃ type, productRead environment item = some (some payment.productCode, some type) ∧
    payment.paymentType = environment.lower type

theorem selected_of_selectPayment {payment : CreditablePayment}
    (selects : selectPayment environment now item = some payment) :
    Selected environment item payment := by
  simp only [selectPayment] at selects
  split at selects
  · cases selects
  · obtain ⟨paidAt, -, selects⟩ := Option.bind_eq_some_iff.mp selects
    split at selects
    · cases selects
    · obtain ⟨paymentId, id_read, selects⟩ := Option.bind_eq_some_iff.mp selects
      obtain ⟨product, product_read, selects⟩ := Option.bind_eq_some_iff.mp selects
      obtain ⟨productCode, code_read, selects⟩ := Option.bind_eq_some_iff.mp selects
      obtain ⟨paymentType, type_read, selects⟩ := Option.bind_eq_some_iff.mp selects
      cases selects
      refine ⟨stripped_eq_some id_read, paymentType, ?_, rfl⟩
      simp [productRead, product_read, code_read, type_read]

theorem resolvePayment_congr {first second : CreditablePayment}
    (code : first.productCode = second.productCode)
    (type : first.paymentType = second.paymentType) :
    resolvePayment environment first = resolvePayment environment second := by
  simp only [resolvePayment, paymentKind, code, type]

/-- Of consistent lists every creditable payment is credited, under its own item or an earlier one
with the same id. -/
theorem Consistent.represented (consistent : Consistent environment now items)
    (merges : mergePayments [] items = .ok merged) (present : item ∈ items)
    {payment : CreditablePayment} (selects : selectPayment environment now item = some payment)
    (creditable : Creditable environment payment) :
    ∃ kept ∈ selectCreditablePayments environment now merged,
      kept.paymentId = payment.paymentId ∧ Creditable environment kept := by
  have read := selected_of_selectPayment selects
  obtain ⟨raw, id_read, id_eq⟩ := read.paymentId
  have keyed : paymentKey item = .ok (some (.str raw)) := by simp [paymentKey, id_read]
  obtain ⟨first, found, kept⟩ :=
    mergePayments_first merges present keyed List.not_mem_nil
  rw [← keyed] at found
  have same_key := List.find?_some found
  rw [decide_eq_true_eq] at same_key
  have selected := consistent.first item present (by simp [selects])
  rw [found] at selected
  obtain ⟨chosen, first_selects⟩ := Option.isSome_iff_exists.mp selected
  have first_read := selected_of_selectPayment first_selects
  refine ⟨chosen, List.mem_filterMap.mpr ⟨first, kept, first_selects⟩, ?_, ?_⟩
  · obtain ⟨first_raw, first_id_read, first_id_eq⟩ := first_read.paymentId
    rw [keyed] at same_key
    simp only [paymentKey, first_id_read, Except.ok.injEq, Option.some.injEq, Key.str.injEq]
      at same_key
    rw [first_id_eq, id_eq, same_key]
  · have product := consistent.product first (List.mem_of_find?_eq_some found) item present same_key
    obtain ⟨type, product_read, type_eq⟩ := read.product
    obtain ⟨first_type, first_product_read, first_type_eq⟩ := first_read.product
    rw [first_product_read, product_read] at product
    simp only [Option.some.injEq, Prod.mk.injEq] at product
    obtain ⟨kind, credits, resolved, positive⟩ := creditable
    refine ⟨kind, credits, ?_, positive⟩
    rw [← resolved]
    exact resolvePayment_congr product.1 (by rw [first_type_eq, type_eq, product.2])

end Merge

end Hermes.Billing.CloudPayments
