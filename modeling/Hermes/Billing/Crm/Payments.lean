import Hermes.Billing.Adapty
import Hermes.Billing.AdminGrant
import Hermes.Billing.CloudPayments.Delivery
import Hermes.Billing.TokenPurchase
import Hermes.Library.Binary64
import Hermes.Library.Like
import Hermes.Library.Offset
import Hermes.Library.Uuid

/-!
# Payments as the CRM counts them

The CRM recognises a payment by what the path which granted the credit wrote into its ledger row: a
`source`, an `adaptyEventId` or a prefix of the key.  Payments of CloudPayments write none of these,
and an operator may choose a key with the prefix.  All figures are right exactly for the ledgers
without either in which no two payments of a user were made at one moment.
-/

namespace Hermes.Billing.CrmPayments

open Wallet (UserId LedgerTxType)

/-! ## What is written into the ledger -/

/-- The fields of a `meta` object; nested values are not read by any query and left out. -/
abbrev Meta := List (String × Option String)

/-- A `ledger_transactions` row. -/
structure LedgerRow where
  userId : UserId
  type : LedgerTxType
  amount : Int
  metadata : Meta
  idempotencyKey : String
  createdAt : Instant
  deriving DecidableEq, Repr

def eventTypeText : AdaptyType → String
  | .started => "subscription_started"
  | .renewed => "subscription_renewed"
  | .cancelled => "subscription_cancelled"
  | .expired => "subscription_expired"

def kindText : CloudPayments.Kind → String
  | .subscription => "subscription"
  | .tokens => "tokens"

inductive Origin
  /-- `TokenPurchaseService.purchase`. -/
  | tokenPurchase (productId transactionId : String)
  /-- `_grant` of Adapty. -/
  | adapty (eventId : String) (eventType : AdaptyType) (vendorProductId : Option String)
  /-- `_apply_payment` of CloudPayments. -/
  | cloudPayments (paymentId productCode : String) (kind : CloudPayments.Kind)
  /-- `AdminService.grant`, also behind `adjust_tokens` of the CRM. -/
  | adminGrant (idempotencyKey reason : String)
  /-- `admin_grant` of a subscription with credits. -/
  | adminSubscriptionGrant (idempotencyKey reason : String)
  /-- `WalletService.consume` for a chat, an agent run or an operator. -/
  | debit (idempotencyKey : String) (metadata : Meta)
  deriving DecidableEq, Repr

namespace Origin

def type : Origin → LedgerTxType
  | .debit .. => .debit
  | _ => .credit

def idempotencyKey : Origin → String
  | .tokenPurchase _ transactionId => TokenPurchase.purchaseKey transactionId
  | .adapty eventId _ _ => Adapty.grantKey eventId
  | .cloudPayments paymentId _ _ => CloudPayments.grantKey paymentId
  | .adminGrant idempotencyKey _ => idempotencyKey
  | .adminSubscriptionGrant idempotencyKey _ => AdminGrant.creditKey idempotencyKey
  | .debit idempotencyKey _ => idempotencyKey

def metadata : Origin → Meta
  | .tokenPurchase productId transactionId =>
      [("source", some "token_purchase"), ("productId", some productId),
        ("transactionId", some transactionId)]
  | .adapty eventId eventType vendorProductId =>
      [("adaptyEventId", some eventId), ("eventType", some (eventTypeText eventType)),
        ("vendorProductId", vendorProductId)]
  | .cloudPayments paymentId productCode kind =>
      [("paymentId", some paymentId), ("productCode", some productCode),
        ("kind", some (kindText kind))]
  | .adminGrant _ reason => [("source", some "admin"), ("reason", some reason)]
  | .adminSubscriptionGrant _ reason =>
      [("source", some "admin_subscription_grant"), ("reason", some reason)]
  | .debit _ metadata => metadata

/-- Only events of a granting type reach the wallet. -/
def reachesWallet : Origin → Bool
  | .adapty _ eventType _ => eventType.granting
  | _ => true

/-- The credit was bought through one of the three providers. -/
def isPurchase : Origin → Bool
  | .tokenPurchase .. | .adapty .. | .cloudPayments .. => true
  | _ => false

end Origin

structure Movement where
  userId : UserId
  origin : Origin
  amount : Int
  createdAt : Instant
  deriving DecidableEq, Repr

def Movement.row (movement : Movement) : LedgerRow where
  userId := movement.userId
  type := movement.origin.type
  amount := movement.amount
  metadata := movement.origin.metadata
  idempotencyKey := movement.origin.idempotencyKey
  createdAt := movement.createdAt

/-- The insert is accepted: the amount is positive, and the key of the user is free. -/
def accepts (posted : List Movement) (movement : Movement) : Bool :=
  movement.origin.reachesWallet && decide (0 < movement.amount) &&
    !posted.any fun other =>
      other.userId == movement.userId &&
        other.origin.idempotencyKey == movement.origin.idempotencyKey

/-- `ON CONFLICT (user_id, idempotency_key) DO NOTHING`. -/
def post (posted : List Movement) (movement : Movement) : List Movement :=
  if accepts posted movement then posted ++ [movement] else posted

/-- The movements of a sequence which left a row. -/
def postAll (movements : List Movement) : List Movement := movements.foldl post []

def ledger (posted : List Movement) : List LedgerRow := posted.map Movement.row

/-! ## What the CRM reads -/

/-- `meta.get(field)`, where a `null` is like a missing field. -/
def field (metadata : Meta) (name : String) : Option String :=
  ((metadata.find? fun entry => entry.1 == name).map (·.2)).join

/-- `meta ? name`. -/
def hasField (metadata : Meta) (name : String) : Bool := metadata.any fun entry => entry.1 == name

/-- `_PAYMENT_CREDIT_FILTER`. -/
def paymentCreditFilter (row : LedgerRow) : Bool :=
  field row.metadata "source" == some "token_purchase" || hasField row.metadata "adaptyEventId" ||
    Like.like '\\' "adapty-event:%".toList row.idempotencyKey.toList

/-- The rows of a user which pass `lt.type = 'credit'` and the filter. -/
def paymentRows (table : List LedgerRow) (userId : UserId) : List LedgerRow :=
  table.filter fun row => row.userId == userId && (row.type == .credit && paymentCreditFilter row)

/-- `EXISTS (SELECT 1 …)`. -/
def existsPayment (table : List LedgerRow) (userId : UserId) : Bool :=
  table.any fun row => row.userId == userId && (row.type == .credit && paymentCreditFilter row)

/-- `count_payments`. -/
def countPayments (table : List LedgerRow) (userId : UserId) : Nat :=
  (paymentRows table userId).length

/-- `last_payment_at`. -/
def lastPaymentAt (table : List LedgerRow) (userId : UserId) : Option Instant :=
  ((paymentRows table userId).map (·.createdAt)).max?

/-- `CrmPaymentRow`. -/
structure CrmPaymentRow where
  title : String
  description : Option String
  amount : PyFloat
  currency : String
  status : String
  occurredAt : Instant
  deriving DecidableEq, Repr

/-- A value which is not empty, for `or`. -/
def truthy (value : Option String) : Option String := value.filter (· ≠ "")

/-- A row as `list_payments` describes it. -/
def crmPaymentRow (row : LedgerRow) : CrmPaymentRow :=
  let source := field row.metadata "source"
  let productId := (truthy (field row.metadata "productId")).or
    (truthy (field row.metadata "vendorProductId"))
  let eventType := field row.metadata "eventType"
  let text : String × Option String :=
    if source = some "token_purchase" then
      ("Покупка токенов (" ++ productId.getD "pack" ++ ")", some "App Store consumable")
    else if (truthy (field row.metadata "adaptyEventId")).isSome ||
        "adapty-event:".toList.isPrefixOf row.idempotencyKey.toList then
      ("Подписка (" ++ productId.getD "plan" ++ ")", some (eventType.getD "Adapty"))
    else ("Начисление кредитов", source)
  { title := text.1, description := text.2, amount := PyFloat.nearest row.amount,
    currency := "CREDITS", status := "success", occurredAt := row.createdAt }

/-- `list_payments`, with the arrangement of the rows this query gets. -/
def listPayments (arrange : List LedgerRow → List LedgerRow) (table : List LedgerRow)
    (userId : UserId) (limit offset : Nat) : List CrmPaymentRow :=
  (Offset.page limit offset (arrange (paymentRows table userId))).map crmPaymentRow

/-- The ledger rows shown by all pages of `list_payments`. -/
def listedRows (arrange : Nat → List LedgerRow → List LedgerRow) (table : List LedgerRow)
    (userId : UserId) (limit : Nat) : List LedgerRow :=
  Offset.pages arrange limit (paymentRows table userId)

/-- A `users` row. -/
structure UserRow where
  id : UserId
  createdAt : Instant
  deriving DecidableEq, Repr

/-- The tables the CRM reads besides the ledger. -/
structure Registry where
  users : List UserRow
  /-- `wallets.balance`. -/
  balance : UserId → Option Int
  subscription : UserId → Option SubscriptionRow
  /-- The user and the type of each row of `adapty_webhook_events`. -/
  adaptyEvents : List (UserId × AdaptyType)

/-- `CrmUserRow`. -/
structure CrmUserRow where
  userId : UserId
  registeredAt : Instant
  balance : Int
  subscriptionStatus : Option Status
  planId : Option String
  subscriptionExpiresAt : Option Instant
  isPaid : Bool
  paymentsCount : Nat
  renewalsCount : Nat
  deriving DecidableEq, Repr

/-- The optional filters of the list of users. -/
structure UserFilters where
  search : Option String := none
  dateFrom : Option Instant := none
  dateTo : Option Instant := none
  deriving DecidableEq, Repr

/-- `_SEARCH_CLAUSE`. -/
def searchClause (search : String) (id : UserId) : Bool :=
  Like.like '\\' (Uuid.lower ('%' :: search.toList ++ ['%'])) (Uuid.lower (Uuid.toText id.value)) ||
    Uuid.toText id.value == search.toList

/-- The clauses of `count_users` and `list_users` before the one for `is_paid`. -/
def UserFilters.admits (filters : UserFilters) (user : UserRow) : Bool :=
  (match truthy filters.search with
    | some search => searchClause search user.id
    | none => true) &&
  (filters.dateFrom.all fun dateFrom => decide (dateFrom ≤ user.createdAt)) &&
  filters.dateTo.all fun dateTo => decide (user.createdAt ≤ dateTo)

variable (registry : Registry) (table : List LedgerRow)

/-- The clause for `is_paid`. -/
def paidClause (isPaid : Option Bool) (user : UserRow) : Bool :=
  match isPaid with
  | none => true
  | some true => existsPayment table user.id
  | some false => !existsPayment table user.id

def selectedUsers (filters : UserFilters) (isPaid : Option Bool) : List UserRow :=
  registry.users.filter fun user => filters.admits user && paidClause table isPaid user

/-- `count_users`. -/
def countUsers (filters : UserFilters) (isPaid : Option Bool) : Nat :=
  (selectedUsers registry table filters isPaid).length

/-- The columns of `list_users`. -/
def crmUserRow (user : UserRow) : CrmUserRow where
  userId := user.id
  registeredAt := user.createdAt
  balance := (registry.balance user.id).getD 0
  subscriptionStatus := (registry.subscription user.id).map (·.status)
  planId := (registry.subscription user.id).bind (·.plan)
  subscriptionExpiresAt := (registry.subscription user.id).bind (·.expiresAt)
  isPaid := existsPayment table user.id
  paymentsCount := (paymentRows table user.id).length
  renewalsCount := registry.adaptyEvents.countP fun event =>
    event.1 == user.id && event.2 == .renewed

/-- `list_users`, with the arrangement of the rows this query gets. -/
def listUsers (arrange : List UserRow → List UserRow) (limit offset : Nat) (filters : UserFilters)
    (isPaid : Option Bool) : List CrmUserRow :=
  (Offset.page limit offset (arrange (selectedUsers registry table filters isPaid))).map
    (crmUserRow registry table)

/-- `get_user_row`. -/
def getUserRow (arrange : List UserRow → List UserRow) (userId : UserId) : Option CrmUserRow :=
  let found := listUsers registry table arrange 1 0
    { search := some (String.ofList (Uuid.toText userId.value)) } none
  (found.find? fun row => row.userId == userId).or
    ((registry.users.find? fun user => user.id == userId).map (crmUserRow registry table))

/-- `stats`: all users registered in a period, and those who have paid. -/
def stats (dateFrom dateTo : Option Instant) : Nat × Nat :=
  let users := registry.users.filter
    (UserFilters.admits { dateFrom := dateFrom, dateTo := dateTo })
  (users.length, users.countP fun user => existsPayment table user.id)

/-! ## The figures -/

/-- The rows of the credits a user bought through the three providers. -/
def purchases (posted : List Movement) (userId : UserId) : List LedgerRow :=
  (posted.filter fun movement =>
    movement.userId == userId && movement.origin.isPurchase).map Movement.row

/-- Every figure about payments is the one of the purchases. -/
structure Figures (posted : List Movement) : Prop where
  counted : ∀ userId, countPayments (ledger posted) userId = (purchases posted userId).length
  /-- Each row of the list of users. -/
  rows : ∀ arrange, Offset.Arranges UserRow.createdAt arrange → ∀ limit offset filters isPaid,
    ∀ row ∈ listUsers registry (ledger posted) arrange limit offset filters isPaid,
      row.paymentsCount = (purchases posted row.userId).length ∧
        (row.isPaid = true ↔ 0 < (purchases posted row.userId).length)
  fetched : ∀ arrange, Offset.Arranges UserRow.createdAt arrange → ∀ userId row,
    getUserRow registry (ledger posted) arrange userId = some row →
      row.paymentsCount = (purchases posted userId).length ∧
        (row.isPaid = true ↔ 0 < (purchases posted userId).length)
  /-- All pages together, whatever the limit and however the queries arrange their rows. -/
  listed : ∀ userId limit, 1 ≤ limit → ∀ arrange : Nat → List LedgerRow → List LedgerRow,
    (∀ index, Offset.Arranges LedgerRow.createdAt (arrange index)) →
      (listedRows arrange (ledger posted) userId limit).Perm (purchases posted userId)
  split : ∀ filters,
    countUsers registry (ledger posted) filters (some true) +
        countUsers registry (ledger posted) filters (some false) =
      countUsers registry (ledger posted) filters none

/-- The filter takes the credit for what it is not. -/
def Origin.mislabelled : Origin → Bool
  | .cloudPayments .. => true
  | .adminGrant idempotencyKey _ => "adapty-event:".toList.isPrefixOf idempotencyKey.toList
  | _ => false

/-- No credit is mislabelled, and no two purchases of a user were made at one moment. -/
structure Plain (posted : List Movement) : Prop where
  labelled : ∀ movement ∈ posted, movement.origin.mislabelled = false
  untied : ∀ first ∈ posted, ∀ second ∈ posted, first.origin.isPurchase = true →
    second.origin.isPurchase = true → first.userId = second.userId →
      first.createdAt = second.createdAt → first = second

/-! ## What the filter takes for a payment -/

theorem like_adapty (key : List Char) :
    Like.like '\\' "adapty-event:%".toList key = "adapty-event:".toList.isPrefixOf key :=
  Like.like_quote_anyText "adapty-event:".toList key (by decide)

/-- A row counts exactly if it is a purchase or mislabelled, but not both. -/
theorem counts_row (movement : Movement) :
    (movement.row.type == .credit && paymentCreditFilter movement.row) =
      (movement.origin.isPurchase != movement.origin.mislabelled) := by
  obtain ⟨userId, origin, amount, createdAt⟩ := movement
  simp only [paymentCreditFilter, like_adapty, Movement.row]
  cases origin with
  | tokenPurchase productId transactionId => rfl
  | adapty eventId eventType vendorProductId => rfl
  | cloudPayments paymentId productCode kind =>
      have prefixed : "adapty-event:".toList.isPrefixOf (CloudPayments.grantKey paymentId).toList =
          false := by
        rw [CloudPayments.grantKey, String.toList_append]
        rfl
      simp only [Origin.idempotencyKey, prefixed]
      rfl
  | adminGrant idempotencyKey reason =>
      change ("adapty-event:".toList.isPrefixOf idempotencyKey.toList) = (false != _)
      rw [Bool.false_bne]
      rfl
  | adminSubscriptionGrant idempotencyKey reason =>
      have prefixed : "adapty-event:".toList.isPrefixOf
          (AdminGrant.creditKey idempotencyKey).toList = false := by
        change "adapty-event:".toList.isPrefixOf ("admin-sub-grant:" ++ idempotencyKey).toList =
          false
        rw [String.toList_append]
        rfl
      simp only [Origin.idempotencyKey, prefixed]
      rfl
  | debit idempotencyKey metadata => rfl

section Posted

variable {posted : List Movement} {movement first second : Movement} {userId : UserId}

/-- The columns of `ux_ledger_idempotency`. -/
def Movement.key (movement : Movement) : UserId × String :=
  (movement.userId, movement.origin.idempotencyKey)

def Keyed (posted : List Movement) : Prop := (posted.map Movement.key).Nodup

theorem keyed_post (keyed : Keyed posted) (movement : Movement) :
    Keyed (post posted movement) := by
  unfold post
  split
  next accepted =>
    simp only [accepts, Bool.and_eq_true, Bool.not_eq_true', List.any_eq_false, beq_iff_eq,
      not_and] at accepted
    rw [Keyed, List.map_append, List.map_singleton, List.nodup_append]
    refine ⟨keyed, List.nodup_singleton _, ?_⟩
    intro key keyIn other otherIn same
    rw [List.mem_singleton] at otherIn
    subst otherIn
    obtain ⟨earlier, earlierIn, rfl⟩ := List.mem_map.mp keyIn
    exact accepted.2 earlier earlierIn (congrArg Prod.fst same) (congrArg Prod.snd same)
  next => exact keyed

theorem keyed_foldl (keyed : Keyed posted) (movements : List Movement) :
    Keyed (movements.foldl post posted) := by
  induction movements generalizing posted with
  | nil => exact keyed
  | cons movement movements induction => exact induction (keyed_post keyed movement)

theorem keyed_postAll (movements : List Movement) : Keyed (postAll movements) :=
  @keyed_foldl [] List.nodup_nil movements

theorem Keyed.row_injective (keyed : Keyed posted) (firstIn : first ∈ posted)
    (secondIn : second ∈ posted) (same : first.row = second.row) : first = second := by
  have key : first.key = second.key :=
    Prod.ext (congrArg LedgerRow.userId same) (congrArg LedgerRow.idempotencyKey same)
  exact List.inj_on_of_nodup_map keyed firstIn secondIn key

theorem Keyed.ledger_nodup (keyed : Keyed posted) : (ledger posted).Nodup := by
  apply List.Nodup.map_on _ keyed.of_map
  intro first firstIn second secondIn same
  exact keyed.row_injective firstIn secondIn same

theorem paymentRows_ledger :
    paymentRows (ledger posted) userId = (posted.filter fun movement =>
      movement.userId == userId &&
        (movement.origin.isPurchase != movement.origin.mislabelled)).map Movement.row := by
  rw [paymentRows, ledger, List.filter_map]
  congr 1
  apply List.filter_congr
  intro movement _
  exact congrArg (movement.userId == userId && ·) (counts_row movement)

theorem paymentRows_eq_purchases (labelled : ∀ movement ∈ posted,
    movement.origin.mislabelled = false) :
    paymentRows (ledger posted) userId = purchases posted userId := by
  rw [paymentRows_ledger, purchases]
  congr 1
  apply List.filter_congr
  intro movement movementIn
  rw [labelled movement movementIn, Bool.bne_false]

theorem paymentRows_nodup (keyed : Keyed posted) : (paymentRows (ledger posted) userId).Nodup :=
  keyed.ledger_nodup.filter _

/-- Where no credit is mislabelled, ties between payments are ties between purchases. -/
theorem Plain.injOn (plain : Plain posted) :
    Set.InjOn LedgerRow.createdAt {row | row ∈ paymentRows (ledger posted) userId} := by
  intro first firstIn second secondIn tied
  rw [Set.mem_ofPred_eq, paymentRows_eq_purchases plain.labelled, purchases, List.mem_map]
    at firstIn secondIn
  obtain ⟨former, formerIn, rfl⟩ := firstIn
  obtain ⟨latter, latterIn, rfl⟩ := secondIn
  simp only [List.mem_filter, Bool.and_eq_true, beq_iff_eq] at formerIn latterIn
  exact congrArg Movement.row (plain.untied former formerIn.1 latter latterIn.1 formerIn.2.2
    latterIn.2.2 (formerIn.2.1.trans latterIn.2.1.symm) tied)

end Posted

section Queries

variable {registry : Registry} {table : List LedgerRow} {userId : UserId}

theorem existsPayment_iff :
    existsPayment table userId = true ↔ 0 < (paymentRows table userId).length := by
  rw [existsPayment, List.any_eq_true, List.length_pos_iff_exists_mem]
  simp only [paymentRows, List.mem_filter]

theorem countUsers_split (filters : UserFilters) :
    countUsers registry table filters (some true) + countUsers registry table filters (some false) =
      countUsers registry table filters none := by
  have whole := List.length_eq_length_filter_add (fun user => existsPayment table user.id)
    (l := registry.users.filter filters.admits)
  simp only [List.filter_filter] at whole
  simp only [countUsers, selectedUsers, paidClause, Bool.and_true]
  rw [whole]
  congr 2 <;>
  · apply List.filter_congr
    intro user _
    exact Bool.and_comm _ _

theorem stats_eq (dateFrom dateTo : Option Instant) :
    stats registry table dateFrom dateTo =
      (countUsers registry table { dateFrom := dateFrom, dateTo := dateTo } none,
        countUsers registry table { dateFrom := dateFrom, dateTo := dateTo } (some true)) := by
  simp only [stats, countUsers, selectedUsers, paidClause, Bool.and_true,
    List.countP_eq_length_filter, List.filter_filter]
  congr 2
  apply List.filter_congr
  intro user _
  exact Bool.and_comm _ _

theorem exists_of_mem_listUsers {arrange : List UserRow → List UserRow} {limit offset : Nat}
    {filters : UserFilters} {isPaid : Option Bool} {row : CrmUserRow}
    (listed : row ∈ listUsers registry table arrange limit offset filters isPaid) :
    ∃ user, crmUserRow registry table user = row := by
  obtain ⟨user, -, columns⟩ := List.mem_map.mp listed
  exact ⟨user, columns⟩

theorem exists_of_getUserRow {arrange : List UserRow → List UserRow} {row : CrmUserRow}
    (fetched : getUserRow registry table arrange userId = some row) :
    ∃ user, user.id = userId ∧ crmUserRow registry table user = row := by
  rcases Option.or_eq_some_iff.mp fetched with found | ⟨-, direct⟩
  · obtain ⟨user, columns⟩ := exists_of_mem_listUsers (List.mem_of_find?_eq_some found)
    have same := List.find?_some found
    rw [← columns, beq_iff_eq] at same
    exact ⟨user, same, columns⟩
  · obtain ⟨user, found, columns⟩ := Option.map_eq_some_iff.mp direct
    have same := List.find?_some found
    exact ⟨user, beq_iff_eq.mp same, columns⟩

end Queries

/-! ## When the figures are right -/

section Right

variable {registry : Registry} {posted : List Movement}

theorem crmUserRow_figures (plain : Plain posted) (user : UserRow) :
    (crmUserRow registry (ledger posted) user).paymentsCount =
        (purchases posted user.id).length ∧
      ((crmUserRow registry (ledger posted) user).isPaid = true ↔
        0 < (purchases posted user.id).length) := by
  rw [← paymentRows_eq_purchases plain.labelled]
  exact ⟨rfl, existsPayment_iff⟩

theorem Plain.figures (plain : Plain posted) : Figures registry posted where
  counted userId := by rw [countPayments, paymentRows_eq_purchases plain.labelled]
  rows arrange _ limit offset filters isPaid row listed := by
    obtain ⟨user, rfl⟩ := exists_of_mem_listUsers listed
    exact crmUserRow_figures plain user
  fetched arrange _ userId row fetched := by
    obtain ⟨user, rfl, rfl⟩ := exists_of_getUserRow fetched
    exact crmUserRow_figures plain user
  listed userId limit positive arrange arranges := by
    rw [← paymentRows_eq_purchases plain.labelled]
    exact Offset.pages_perm positive arranges plain.injOn
  split := countUsers_split

/-- If the pages list the purchases, the rows which count are the purchases. -/
theorem Figures.paymentRows_perm (figures : Figures registry posted) (userId : UserId) :
    (paymentRows (ledger posted) userId).Perm (purchases posted userId) :=
  (Offset.pages_const_perm le_rfl Offset.byKey_arranges).symm.trans
    (figures.listed userId 1 le_rfl (fun _ => Offset.byKey LedgerRow.createdAt)
      fun _ => Offset.byKey_arranges)

theorem Figures.labelled (figures : Figures registry posted) (keyed : Keyed posted) :
    ∀ movement ∈ posted, movement.origin.mislabelled = false := by
  intro movement movementIn
  by_contra mislabelled
  rw [Bool.not_eq_false] at mislabelled
  have perm := figures.paymentRows_perm movement.userId
  rw [paymentRows_ledger] at perm
  cases bought : movement.origin.isPurchase with
  | true =>
      -- A purchase which is not counted: another row of the ledger would have to be its row.
      have listed : movement.row ∈ purchases posted movement.userId :=
        List.mem_map_of_mem (List.mem_filter.mpr ⟨movementIn, by simp [bought]⟩)
      obtain ⟨counted, countedIn, same⟩ := List.mem_map.mp (perm.mem_iff.mpr listed)
      rw [List.mem_filter, Bool.and_eq_true] at countedIn
      have itself := keyed.row_injective countedIn.1 movementIn same
      rw [itself, bought, mislabelled] at countedIn
      exact Bool.false_ne_true countedIn.2.2
  | false =>
      -- A row which is counted without a purchase.
      have listed := perm.mem_iff.mp (List.mem_map_of_mem (f := Movement.row)
        (List.mem_filter.mpr ⟨movementIn, by simp [bought, mislabelled]⟩))
      obtain ⟨purchase, purchaseIn, same⟩ := List.mem_map.mp listed
      rw [List.mem_filter, Bool.and_eq_true] at purchaseIn
      have itself := keyed.row_injective purchaseIn.1 movementIn same
      rw [itself, bought] at purchaseIn
      exact Bool.false_ne_true purchaseIn.2.2

theorem Figures.untied (figures : Figures registry posted) (keyed : Keyed posted)
    {first second : Movement} (firstIn : first ∈ posted) (secondIn : second ∈ posted)
    (firstBought : first.origin.isPurchase = true) (secondBought : second.origin.isPurchase = true)
    (user : first.userId = second.userId) (tied : first.createdAt = second.createdAt) :
    first = second := by
  have counts := @paymentRows_eq_purchases _ second.userId (figures.labelled keyed)
  have injOn := (Offset.pages_perm_iff (@paymentRows_nodup _ second.userId keyed)).mp
    fun limit positive arrange arranges => (figures.listed second.userId limit positive arrange
      arranges).trans (figures.paymentRows_perm second.userId).symm
  have listed : ∀ movement ∈ posted, movement.origin.isPurchase = true →
      movement.userId = second.userId →
        movement.row ∈ paymentRows (ledger posted) second.userId := by
    intro movement movementIn bought same
    rw [counts]
    exact List.mem_map_of_mem (List.mem_filter.mpr ⟨movementIn, by simp [bought, same]⟩)
  exact keyed.row_injective firstIn secondIn (injOn (listed first firstIn firstBought user)
    (listed second secondIn secondBought rfl) tied)

end Right

/-- The figures about payments are right exactly for the ledgers in which no credit of
CloudPayments and no credit of an operator under a key of Adapty stands, and no two purchases of a
user were made at one moment. -/
theorem figures_iff (registry : Registry) (movements : List Movement) :
    Figures registry (postAll movements) ↔ Plain (postAll movements) := by
  have keyed := keyed_postAll movements
  constructor
  · intro figures
    exact ⟨figures.labelled keyed, fun _ firstIn _ secondIn firstBought secondBought user tied =>
      figures.untied keyed firstIn secondIn firstBought secondBought user tied⟩
  · exact Plain.figures

/-- Whoever paid through CloudPayments alone has paid nothing in the eyes of the CRM. -/
theorem cloud_payment_not_counted :
    ¬ Figures ⟨[⟨⟨7⟩, 0⟩], fun _ => some 100, fun _ => none, []⟩
      (postAll [⟨⟨7⟩, .cloudPayments "501" "tokens_100" .tokens, 100, 86400000000⟩]) := by
  intro figures
  exact absurd (figures.counted ⟨7⟩) (by decide)

end Hermes.Billing.CrmPayments
