import Mathlib.Data.Int.ConditionallyCompleteOrder
import Mathlib.Data.List.Infix
import Mathlib.Order.ConditionallyCompleteLattice.Indexed
import Hermes.Library.Transition

/-!
# The subscription row and its writers

One row per user holds the status, the plan and the expiry.  A CloudPayments payment, an Adapty
event, the CRM and an operator write it, each with an expiry of its own making.  A missing expiry
stands for a subscription without an end.
-/

namespace Hermes.Billing

abbrev Instant := Int

/-- `datetime.min`. -/
def firstInstant : Instant := -62135596800000000

/-- `datetime.max`. -/
def lastInstant : Instant := 253402300799999999

/-- `moment + timedelta(days=days)`; `none` is an `OverflowError`. -/
def addDays (moment : Instant) (days : Nat) : Option Instant :=
  let later := moment + days * 86400000000
  if later ≤ lastInstant then some later else none

/-- The `subscription_status` enumeration. -/
inductive Status
  | none
  | active
  | expired
  deriving DecidableEq, Repr

/-- A `subscriptions` row. -/
structure SubscriptionRow where
  status : Status
  plan : Option String
  expiresAt : Option Instant
  deriving DecidableEq, Repr

/-- `subscription_grant_events`: the grants an operator has made, by their key. -/
structure GrantEvent where
  idempotencyKey : String
  payloadHash : String
  plan : String
  expiresAt : Instant
  deriving DecidableEq, Repr

/-- What is stored about the subscription of one user. -/
structure Entitlement where
  row : Option SubscriptionRow := none
  grantEvents : List GrantEvent := []
  deriving DecidableEq, Repr

/-- What the writers read besides the tables. -/
structure Settings where
  /-- `str.lower`. -/
  lower : String → String
  /-- `_known_product_ids`. -/
  knownProductIds : List String
  /-- `_payload_hash`. -/
  payloadHash : String → Instant → Bool → String

/-! ## CloudPayments -/

inductive Interval
  | week
  | month
  | year
  | day
  deriving DecidableEq, Repr

def Interval.keyword : Interval → String
  | .week => "week"
  | .month => "month"
  | .year => "year"
  | .day => "day"

/-- `_SUB_KEYWORDS`. -/
def subKeywords : List Interval := [.week, .month, .year, .day]

/-- `keyword in text`. -/
def mentions (text keyword : String) : Bool := decide (keyword.toList <:+: text.toList)

/-- `infer_interval_unit_from_code`, with `str.lower` as an argument. -/
def inferIntervalUnitFromCode (lower : String → String) (productCode : String) : Option Interval :=
  subKeywords.find? fun unit => mentions (lower productCode) unit.keyword

/-- `_EXPIRY_DAYS` and `_DEFAULT_EXPIRY_DAYS`. -/
def expiryDays : Option Interval → Nat
  | some .day => 1
  | some .week => 7
  | some .month => 30
  | some .year => 365
  | none => 30

/-- `_compute_expiry`. -/
def computeExpiry (now : Instant) (unit : Option Interval) (count : Int) : Option Instant :=
  addDays now (expiryDays unit * (max count 1).toNat)

/-- `_upsert_subscription` of CloudPayments. -/
def upsertPaid (plan : String) (expiresAt : Instant) : SubscriptionRow :=
  ⟨.active, some plan, some expiresAt⟩

/-! ## Adapty -/

inductive AdaptyType
  | started
  | renewed
  | cancelled
  | expired
  deriving DecidableEq, Repr

/-- `GRANTING_EVENTS`. -/
def AdaptyType.granting : AdaptyType → Bool
  | .started | .renewed => true
  | .cancelled | .expired => false

/-- The part of a `ParsedEvent` which reaches the row. -/
structure AdaptyChange where
  type : AdaptyType
  vendorProductId : Option String
  expiresAt : Option Instant
  deriving DecidableEq, Repr

/-- `_upsert_subscription` of Adapty. -/
def upsertAdapty (row : Option SubscriptionRow) (change : AdaptyChange) : SubscriptionRow :=
  if change.type.granting then ⟨.active, change.vendorProductId, change.expiresAt⟩
  else
    match row with
    | none => ⟨.expired, none, none⟩
    | some row => { row with status := .expired }

/-! ## The operator and the CRM -/

/-- What a grant ends with instead of an answer. -/
inductive GrantError
  | conflict (message : String)
  | badRequest (message : String)
  | overflow
  deriving DecidableEq, Repr

/-- `AdminGrantResult`, without the credits. -/
structure AdminGrantResult where
  plan : String
  expiresAt : Instant
  idempotentReplay : Bool
  deriving DecidableEq, Repr

/-- `admin_grant`; `credited` is what the wallet makes of the credits of the period. -/
def adminGrant (settings : Settings) (entitlement : Entitlement) (plan : String)
    (expiresAt : Instant) (grantCredits : Bool) (key : String) (credited : Except GrantError Unit) :
    Except GrantError (AdminGrantResult × Entitlement) :=
  match entitlement.grantEvents.find? fun event => event.idempotencyKey == key with
  | some event =>
      if event.payloadHash ≠ settings.payloadHash plan expiresAt grantCredits then
        .error (.conflict "idempotency key reused with different payload")
      else .ok (⟨event.plan, event.expiresAt, true⟩, entitlement)
  | none => do
      if grantCredits then credited
      .ok (⟨plan, expiresAt, false⟩,
        { row := some ⟨.active, some plan, some expiresAt⟩
          grantEvents := entitlement.grantEvents ++
            [⟨key, settings.payloadHash plan expiresAt grantCredits, plan, expiresAt⟩] })

/-- `except ConflictError` in the CRM. -/
def crmFailure : GrantError → GrantError
  | .conflict _ => .badRequest "subscription grant conflict"
  | failure => failure

/-- The moment from which the CRM counts the days. -/
def crmBase (row : Option SubscriptionRow) (now : Instant) : Instant :=
  match row with
  | some ⟨.active, _, some expiry⟩ => if now < expiry then expiry else now
  | _ => now

def crmKey (grantId : String) : String := "crm-subscription:" ++ grantId

/-- `set_subscription`. -/
def setSubscription (settings : Settings) (entitlement : Entitlement) (now : Instant)
    (productId : String) (expiresInDays : Nat) (grantId : String) :
    Except GrantError (AdminGrantResult × Entitlement) :=
  if !settings.knownProductIds.isEmpty && !settings.knownProductIds.contains productId then
    .error (.badRequest "unknown product_id")
  else
    match entitlement.grantEvents.find? fun event => event.idempotencyKey == crmKey grantId with
    | some event =>
        (adminGrant settings entitlement event.plan event.expiresAt false (crmKey grantId)
          (.ok ())).mapError crmFailure
    | none =>
        match addDays (crmBase entitlement.row now) expiresInDays with
        | none => .error .overflow
        | some expiresAt =>
            (adminGrant settings entitlement productId expiresAt false (crmKey grantId)
              (.ok ())).mapError crmFailure

/-! ## Steps -/

inductive Step
  /-- A CloudPayments subscription payment is applied. -/
  | payment (now : Instant) (productCode : String)
  | adapty (change : AdaptyChange)
  | crm (now : Instant) (productId : String) (expiresInDays : Nat) (grantId : String)
  /-- An operator grants until a given moment. -/
  | operator (now : Instant) (plan : String) (expiresAt : Instant) (grantCredits : Bool)
      (key : String) (credited : Except GrantError Unit)

namespace Entitlement

variable (settings : Settings)

/-- What a grant of the CRM or an operator leaves. -/
def granted (entitlement : Entitlement) :
    Except GrantError (AdminGrantResult × Entitlement) → Entitlement
  | .error _ => entitlement
  | .ok (_, after) => after

/-- A step; one which raises leaves everything as it was, and `none` is refused before it starts. -/
def step (entitlement : Entitlement) : Step → Option Entitlement
  | .payment now productCode =>
      match computeExpiry now (inferIntervalUnitFromCode settings.lower productCode) 1 with
      | none => some entitlement
      | some expiresAt => some { entitlement with row := some (upsertPaid productCode expiresAt) }
  | .adapty change => some { entitlement with row := some (upsertAdapty entitlement.row change) }
  | .crm now productId expiresInDays grantId =>
      -- `expires_in_days: int = Field(gt=0, le=3650)`
      if 0 < expiresInDays ∧ expiresInDays ≤ 3650 then
        some (entitlement.granted
          (setSubscription settings entitlement now productId expiresInDays grantId))
      else none
  | .operator now plan expiresAt grantCredits key credited =>
      if now < expiresAt then
        some (entitlement.granted
          (adminGrant settings entitlement plan expiresAt grantCredits key credited))
      else none

/-- The entitlements reached from an empty table. -/
def Reached : Entitlement → Prop :=
  Reachable (step settings) (fun _ _ => True) {}

end Entitlement

/-! ## Paid time -/

/-- The end of a subscription, later than every moment when there is none. -/
def SubscriptionRow.ending (row : SubscriptionRow) : WithTop Instant :=
  match row.expiresAt with
  | none => ⊤
  | some expiry => (expiry : WithTop Instant)

/-- A payment, a starting or renewing event, or a CRM grant. -/
def Step.granting : Step → Prop
  | .payment _ _ => True
  | .adapty change => change.type.granting = true
  | .crm _ _ expiresInDays _ => 0 < expiresInDays
  | .operator _ _ _ _ _ _ => False

/-- What an active row becomes: still active, for no shorter time, and an event without an expiry
leaves the stored one. -/
def Lasts (row : SubscriptionRow) (step : Step) (after : Entitlement) : Prop :=
  ∃ next, after.row = some next ∧ next.status = .active ∧ row.ending ≤ next.ending ∧
    ∀ change, step = .adapty change → change.expiresAt = none → next.expiresAt = row.expiresAt

def dayLength : Int := 86400000000

/-- The row and the step go together without a loss. -/
def Step.Spares (settings : Settings) (entitlement : Entitlement) (row : SubscriptionRow) :
    Step → Prop
  | .payment now productCode =>
      let paid :=
        now + expiryDays (inferIntervalUnitFromCode settings.lower productCode) * dayLength
      lastInstant < paid ∨ ∃ stored, row.expiresAt = some stored ∧ stored ≤ paid
  | .adapty change =>
      match change.expiresAt with
      | none => row.expiresAt = none
      | some expiry => ∃ stored, row.expiresAt = some stored ∧ stored ≤ expiry
  | .crm now productId expiresInDays grantId =>
      row.expiresAt ≠ none ∨ lastInstant < now + expiresInDays * dayLength ∨
        (settings.knownProductIds ≠ [] ∧ productId ∉ settings.knownProductIds) ∨
        ∃ event ∈ entitlement.grantEvents, event.idempotencyKey = crmKey grantId
  | .operator _ _ _ _ _ _ => True

/-! ## The exact condition -/

section Spared

variable {settings : Settings} {entitlement : Entitlement} {row : SubscriptionRow}

theorem ending_le_iff {next : SubscriptionRow} {expiry : Instant}
    (written : next.expiresAt = some expiry) :
    row.ending ≤ next.ending ↔ ∃ stored, row.expiresAt = some stored ∧ stored ≤ expiry := by
  cases stored : row.expiresAt with
  | none => simp [SubscriptionRow.ending, stored, written]
  | some moment => simp [SubscriptionRow.ending, stored, written]

theorem lasts_of_unchanged {step : Step} (stored : entitlement.row = some row)
    (active : row.status = .active) : Lasts row step entitlement :=
  ⟨row, stored, active, le_rfl, fun _ _ _ => rfl⟩

theorem lasts_iff_of_written {step : Step} {after : Entitlement} {plan : String}
    {expiry : Instant} (written : after.row = some ⟨.active, some plan, some expiry⟩)
    (silent : ∀ change, step ≠ .adapty change) :
    Lasts row step after ↔ ∃ stored, row.expiresAt = some stored ∧ stored ≤ expiry := by
  constructor
  · rintro ⟨next, stored, -, longer, -⟩
    rw [written] at stored
    cases stored
    exact (ending_le_iff rfl).mp longer
  · intro earlier
    exact ⟨_, written, rfl, (ending_le_iff rfl).mpr earlier,
      fun change same => absurd same (silent change)⟩

theorem addDays_eq_some {moment later : Instant} {days : Nat}
    (added : addDays moment days = some later) :
    later = moment + days * dayLength ∧ later ≤ lastInstant := by
  simp only [addDays] at added
  split at added
  next fits => cases added; exact ⟨rfl, fits⟩
  · cases added

theorem addDays_eq_none {moment : Instant} {days : Nat} :
    addDays moment days = none ↔ lastInstant < moment + days * dayLength := by
  simp only [addDays, dayLength]
  split
  next fits => simpa using fits
  next overflows => simpa using overflows

theorem computeExpiry_one (now : Instant) (unit : Option Interval) :
    computeExpiry now unit 1 = addDays now (expiryDays unit) := by
  simp [computeExpiry]

theorem payment_lasts_iff {after : Entitlement} {now : Instant} {productCode : String}
    (stored : entitlement.row = some row) (active : row.status = .active)
    (stepped : entitlement.step settings (.payment now productCode) = some after) :
    Lasts row (.payment now productCode) after ↔
      (Step.payment now productCode).Spares settings entitlement row := by
  simp only [Entitlement.step, computeExpiry_one] at stepped
  simp only [Step.Spares]
  cases added : addDays now (expiryDays (inferIntervalUnitFromCode settings.lower productCode)) with
  | none =>
      rw [added] at stepped
      cases stepped
      exact ⟨fun _ => .inl (addDays_eq_none.mp added), fun _ => lasts_of_unchanged stored active⟩
  | some expiry =>
      rw [added] at stepped
      cases stepped
      obtain ⟨same, fits⟩ := addDays_eq_some added
      rw [lasts_iff_of_written rfl (by simp), ← same]
      constructor
      · exact .inr
      · rintro (overflows | earlier)
        · exact absurd fits (not_le.mpr overflows)
        · exact earlier

theorem adapty_lasts_iff {after : Entitlement} {change : AdaptyChange}
    (grants : change.type.granting = true)
    (stepped : entitlement.step settings (.adapty change) = some after) :
    Lasts row (.adapty change) after ↔
      (Step.adapty change).Spares settings entitlement row := by
  simp only [Entitlement.step, upsertAdapty, grants, if_true, Option.some.injEq] at stepped
  subst stepped
  simp only [Step.Spares]
  cases carried : change.expiresAt with
  | none =>
      constructor
      · rintro ⟨next, written, -, -, left⟩
        cases written
        exact (left change rfl carried).symm
      · intro endless
        refine ⟨_, rfl, rfl, ?_, ?_⟩
        · simp [SubscriptionRow.ending]
        · intro other _ _
          exact endless.symm
  | some expiry =>
      constructor
      · rintro ⟨next, written, -, longer, -⟩
        cases written
        exact (ending_le_iff rfl).mp longer
      · intro earlier
        refine ⟨_, rfl, rfl, (ending_le_iff rfl).mpr earlier, ?_⟩
        rintro other ⟨⟩ missing
        rw [carried] at missing
        cases missing

inductive CrmLeaves (settings : Settings) (entitlement : Entitlement) (now : Instant)
    (productId : String) (expiresInDays : Nat) (grantId : String) : Entitlement → Prop
  | refused (known : settings.knownProductIds ≠ [])
      (unknown : productId ∉ settings.knownProductIds) :
      CrmLeaves settings entitlement now productId expiresInDays grantId entitlement
  | used (event : GrantEvent) (present : event ∈ entitlement.grantEvents)
      (same : event.idempotencyKey = crmKey grantId) :
      CrmLeaves settings entitlement now productId expiresInDays grantId entitlement
  | overflowed (added : addDays (crmBase entitlement.row now) expiresInDays = none) :
      CrmLeaves settings entitlement now productId expiresInDays grantId entitlement
  | written (accepted : settings.knownProductIds = [] ∨ productId ∈ settings.knownProductIds)
      (fresh : ∀ event ∈ entitlement.grantEvents, event.idempotencyKey ≠ crmKey grantId)
      (expiresAt : Instant)
      (added : addDays (crmBase entitlement.row now) expiresInDays = some expiresAt)
      (after : Entitlement) (row : after.row = some ⟨.active, some productId, some expiresAt⟩) :
      CrmLeaves settings entitlement now productId expiresInDays grantId after

theorem crmLeaves (settings : Settings) (entitlement : Entitlement) (now : Instant)
    (productId : String) (expiresInDays : Nat) (grantId : String) :
    CrmLeaves settings entitlement now productId expiresInDays grantId
      (entitlement.granted
        (setSubscription settings entitlement now productId expiresInDays grantId)) := by
  unfold setSubscription
  split
  next refused =>
    simp only [Bool.and_eq_true, Bool.not_eq_true', List.isEmpty_eq_false_iff,
      List.contains_eq_mem, decide_eq_false_iff_not] at refused
    exact .refused refused.1 refused.2
  next accepted =>
    cases found : entitlement.grantEvents.find?
        fun event => event.idempotencyKey == crmKey grantId with
    | some event =>
        have same := List.find?_some found
        simp only [beq_iff_eq] at same
        have present := List.mem_of_find?_eq_some found
        simp only [adminGrant, found]
        split
        · exact .used event present same
        · exact .used event present same
    | none =>
        have fresh : ∀ event ∈ entitlement.grantEvents,
            event.idempotencyKey ≠ crmKey grantId := by
          intro event present
          simpa using List.find?_eq_none.mp found event present
        cases added : addDays (crmBase entitlement.row now) expiresInDays with
        | none => exact .overflowed added
        | some expiresAt =>
            simp only [adminGrant, found]
            refine .written ?_ fresh expiresAt added _ rfl
            by_contra neither
            simp_all

theorem le_crmBase {stored : Instant} (now : Instant) (active : row.status = .active)
    (expires : row.expiresAt = some stored) : stored ≤ crmBase (some row) now := by
  obtain ⟨status, plan, expiresAt⟩ := row
  cases active
  cases expires
  simp only [crmBase]
  split
  · exact le_rfl
  next passed => exact not_lt.mp passed

theorem crmBase_of_endless (now : Instant) (endless : row.expiresAt = none) :
    crmBase (some row) now = now := by
  obtain ⟨status, plan, expiresAt⟩ := row
  cases endless
  cases status <;> rfl

theorem crm_lasts_iff {after : Entitlement} {now : Instant} {productId grantId : String}
    {expiresInDays : Nat} (stored : entitlement.row = some row) (active : row.status = .active)
    (stepped : entitlement.step settings (.crm now productId expiresInDays grantId) = some after) :
    Lasts row (.crm now productId expiresInDays grantId) after ↔
      (Step.crm now productId expiresInDays grantId).Spares settings entitlement row := by
  simp only [Entitlement.step] at stepped
  split at stepped
  next =>
    cases stepped
    have leaves := crmLeaves settings entitlement now productId expiresInDays grantId
    generalize entitlement.granted
      (setSubscription settings entitlement now productId expiresInDays grantId) = after at leaves ⊢
    cases leaves with
    | refused known unknown =>
        exact ⟨fun _ => .inr (.inr (.inl ⟨known, unknown⟩)),
          fun _ => lasts_of_unchanged stored active⟩
    | used event present same =>
        exact ⟨fun _ => .inr (.inr (.inr ⟨event, present, same⟩)),
          fun _ => lasts_of_unchanged stored active⟩
    | overflowed added =>
        refine ⟨fun _ => ?_, fun _ => lasts_of_unchanged stored active⟩
        rcases Decidable.em (row.expiresAt = none) with endless | expires
        · rw [stored, crmBase_of_endless now endless] at added
          exact .inr (.inl (addDays_eq_none.mp added))
        · exact .inl expires
    | written accepted fresh expiresAt added after written =>
        obtain ⟨same, fits⟩ := addDays_eq_some added
        rw [stored] at same
        rw [lasts_iff_of_written written (by simp)]
        constructor
        · rintro ⟨moment, expires, -⟩
          exact .inl (by simp [expires])
        · intro spared
          cases expires : row.expiresAt with
          | some moment =>
              have counted := le_crmBase now active expires
              have positive : (0 : Int) ≤ expiresInDays * dayLength := by
                simp only [dayLength]
                omega
              refine ⟨moment, rfl, counted.trans ?_⟩
              rw [same]
              exact Int.le_add_of_nonneg_right positive
          | none =>
              rw [crmBase_of_endless now expires] at same
              rcases spared with bounded | overflows | ⟨known, unknown⟩ | ⟨event, present, used⟩
              · exact absurd expires bounded
              · exact absurd (same ▸ fits) (not_le.mpr overflows)
              · rcases accepted with empty | listed
                · exact absurd empty known
                · exact absurd listed unknown
              · exact absurd used (fresh event present)
  · cases stepped

end Spared

/-- A granting step on an active row, reachable or not, takes no paid time away exactly when the row
and the step go together. -/
theorem paid_time_kept_iff (settings : Settings) (entitlement after : Entitlement)
    (row : SubscriptionRow) (step : Step) (stored : entitlement.row = some row)
    (active : row.status = .active) (grants : step.granting)
    (stepped : entitlement.step settings step = some after) :
    Lasts row step after ↔ step.Spares settings entitlement row := by
  cases step with
  | payment now productCode => exact payment_lasts_iff stored active stepped
  | adapty change => exact adapty_lasts_iff grants stepped
  | crm now productId expiresInDays grantId => exact crm_lasts_iff stored active stepped
  | operator => exact grants.elim

/-- Settings whose product codes are lower case already. -/
def plainSettings : Settings where
  lower := id
  knownProductIds := []
  payloadHash plan _ _ := plan

/-- The entitlement of a user who has paid for a year. -/
def paidYear : Entitlement where
  row := some ⟨.active, some "pro.year", some (365 * dayLength)⟩

theorem paidYear_reached : paidYear.Reached plainSettings :=
  .next .start trivial (show Entitlement.step plainSettings {} (.payment 0 "pro.year") = _ by
    decide)

/-- A renewal a day later which runs two years on takes nothing away. -/
theorem paid_time_kept_two_years :
    Lasts ⟨.active, some "pro.year", some (365 * dayLength)⟩
      (.adapty ⟨.renewed, some "pro.year", some (730 * dayLength)⟩)
      { row := some ⟨.active, some "pro.year", some (730 * dayLength)⟩ } :=
  (paid_time_kept_iff plainSettings paidYear _ ⟨.active, some "pro.year", some (365 * dayLength)⟩
    (.adapty ⟨.renewed, some "pro.year", some (730 * dayLength)⟩) rfl rfl rfl
    rfl).mpr ⟨365 * dayLength, rfl, by decide⟩

/-- A week bought on top of a year leaves a week. -/
theorem week_replaces_year :
    ∃ (entitlement after : Entitlement) (row : SubscriptionRow) (step : Step),
      entitlement.Reached plainSettings ∧ entitlement.row = some row ∧ row.status = .active ∧
      step.granting ∧ entitlement.step plainSettings step = some after ∧
      ¬ Lasts row step after := by
  refine ⟨paidYear, { row := some ⟨.active, some "pro.week", some (7 * dayLength)⟩ }, _,
    .payment 0 "pro.week", paidYear_reached, rfl, rfl, trivial, by decide, ?_⟩
  rintro ⟨next, written, -, longer, -⟩
  cases written
  exact absurd longer (by decide)

end Hermes.Billing
