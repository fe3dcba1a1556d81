import Mathlib.Algebra.BigOperators.Group.Finset.Piecewise
import Mathlib.Algebra.Order.BigOperators.Group.Finset
import Hermes.Billing.Products
import Hermes.Billing.Subscription
import Hermes.Library.Transition
import Hermes.Wallet.Amid

/-!
# Token purchases

A signed StoreKit transaction is verified and credited under a key made of its id.  The ledger
keeps the key unique for one user; the verifier also reports whether Apple has revoked the
transaction and for which environment it was signed.
-/

namespace Hermes.Billing.TokenPurchase

open Wallet (UserId Account Call GrantRequest GrantResult LedgerTransaction TxId System Action
  Ending)
open Json (get?)

abbrev Fields := List (String × Json)

/-- What a purchase ends with instead of an answer. -/
inductive PurchaseError
  | subscriptionRequired (message : String)
  | validationFailed (message : String)
  /-- Any other exception. -/
  | internal
  deriving DecidableEq, Repr

/-- `VerifiedTransaction`. -/
structure VerifiedTransaction where
  transactionId : String
  originalTransactionId : String
  productId : String
  expiresAt : Option Instant
  revoked : Bool
  environment : String
  deriving DecidableEq, Repr

/-- What the verifier and the service use besides the tables. -/
structure Settings where
  /-- `APPSTORE_BUNDLE_ID`. -/
  bundleId : String
  /-- `APPSTORE_ENVIRONMENT`. -/
  environment : String
  /-- The test mode is switched on and has a secret. -/
  testMode : Bool
  /-- `_jws_header`. -/
  jwsHeader : String → Except PurchaseError Fields
  /-- The payload behind an `x5c` chain which ends in an Apple root and signs it. -/
  realPayload : String → Except PurchaseError Fields
  /-- The payload signed with the test secret. -/
  testPayload : String → Except PurchaseError Fields
  /-- `str` of a decoded value. -/
  str : Json → String
  /-- `str.lower`. -/
  lower : String → String
  /-- `datetime.fromtimestamp(int(value) / 1000)`. -/
  fromMillis : Json → Except PurchaseError Instant
  /-- The decoded `TOKEN_PRODUCTS`. -/
  productDocument : Option Json
  /-- `AGENT_DEBT_RECONCILE_ENABLED`. -/
  agentDebtReconcileEnabled : Bool

/-! ## The verifier -/

section Verifier

variable (settings : Settings)

/-- The `bundleId` of a payload is the configured one. -/
def bundleMatches (payload : Fields) : Bool :=
  match get? payload "bundleId" with
  | some (.str bundle) => bundle == settings.bundleId
  | _ => false

def strField (payload : Fields) (key default : String) : String :=
  match get? payload key with
  | some value => settings.str value
  | none => default

/-- A date of the payload which may be missing or null. -/
def dateField (payload : Fields) (key : String) : Option Json :=
  match get? payload key with
  | some .null | none => none
  | some value => some value

/-- `_normalize_payload`. -/
def normalizePayload (payload : Fields) : Except PurchaseError VerifiedTransaction :=
  if settings.bundleId ≠ "" ∧ bundleMatches settings payload = false then
    .error (.validationFailed "StoreKit transaction bundleId mismatch")
  else do
    let expiresAt ← match dateField payload "expiresDate" with
      | none => .ok none
      | some millis => some <$> settings.fromMillis millis
    match get? payload "transactionId" with
    | none => .error (.validationFailed "StoreKit transaction missing transactionId")
    | some transactionId =>
        .ok
          { transactionId := settings.str transactionId
            originalTransactionId :=
              strField settings payload "originalTransactionId" (settings.str transactionId)
            productId := strField settings payload "productId" ""
            expiresAt := expiresAt
            revoked := (dateField payload "revocationDate").isSome
            environment :=
              settings.lower (strField settings payload "environment" settings.environment) }

/-- `StoreKitVerifier.verify`. -/
def verify (signedTransaction : String) : Except PurchaseError VerifiedTransaction :=
  if signedTransaction.toList.count '.' ≠ 2 then
    .error (.validationFailed "StoreKit transaction must be a compact JWS string")
  else do
    let header ← settings.jwsHeader signedTransaction
    let payload ←
      if strField settings header "alg" "" = "HS256" then
        if settings.testMode then settings.testPayload signedTransaction
        else .error (.validationFailed "StoreKit JWS signature invalid")
      else settings.realPayload signedTransaction
    normalizePayload settings payload

/-- `_credits_for_product`. -/
def creditsForProduct (productId : String) : Except PurchaseError Int :=
  match (productTokens settings.productDocument).amount? productId with
  | none => .error (.validationFailed "unknown token product")
  | some credits => .ok credits

/-- `_require_active_subscription`; `active` is what the policy state says. -/
def requireActiveSubscription (active : Bool) : Except PurchaseError Unit :=
  if active then .ok ()
  else .error (.subscriptionRequired "an active subscription is required to buy tokens")

/-- The part of `purchase` before the wallet is called. -/
def prepare (active : Bool) (signedTransaction : String) :
    Except PurchaseError (VerifiedTransaction × Int) := do
  requireActiveSubscription active
  let verified ← verify settings signedTransaction
  let credits ← creditsForProduct settings verified.productId
  .ok (verified, credits)

/-- The key under which a transaction is credited. -/
def purchaseKey (transactionId : String) : String := "token-purchase:" ++ transactionId

end Verifier

/-! ## Purchases of several users -/

/-- A purchase which gets as far as the wallet.  One which is refused before writes nothing. -/
structure Purchase (settings : Settings) where
  userId : UserId
  active : Bool
  signedTransaction : String
  verified : VerifiedTransaction
  credits : Int
  prepared : prepare settings active signedTransaction = .ok (verified, credits)
  newId : TxId
  /-- The session commits when the request succeeds, and rolls back otherwise. -/
  ending : Ending

namespace Purchase

variable {settings : Settings} (purchase : Purchase settings)

def request : GrantRequest where
  amount := purchase.credits
  idempotencyKey := purchaseKey purchase.verified.transactionId
  metadata := { source := some "token_purchase" }
  reason := "token_purchase"
  newId := purchase.newId

def call : Call where
  context := ⟨purchase.userId, fun _ => none, settings.agentDebtReconcileEnabled⟩
  operation := .grant purchase.request
  ending := purchase.ending

/-- Not revoked, and signed for the configured environment. -/
def Genuine : Prop :=
  purchase.verified.revoked = false ∧
    purchase.verified.environment = settings.lower settings.environment

instance : Decidable purchase.Genuine := inferInstanceAs (Decidable (_ ∧ _))

end Purchase

/-- The accounts of all users, each with the transactions around it. -/
abbrev Market (n : Nat) := UserId → System n

variable {settings : Settings} {n : Nat}

/-- Every purchase is about to issue its first statement, in the account of its buyer. -/
def initial (purchases : Fin n → Purchase settings) (accounts : UserId → Account) : Market n :=
  fun user =>
    { committed := accounts user
      progress := fun thread =>
        if (purchases thread).userId = user then .running (purchases thread).call.program {} none
        else .aborted }

def step (purchases : Fin n → Purchase settings) (market : Market n) (move : UserId × Action n) :
    Option (Market n) :=
  ((market move.1).step (fun thread => (purchases thread).call) move.2).map
    (Function.update market move.1)

/-- The credits of an account for a transaction. -/
def creditRows (account : Account) (transactionId : String) : List LedgerTransaction :=
  account.ledger.filter fun row =>
    row.type == .credit && row.idempotencyKey == purchaseKey transactionId

/-- What was credited to an account for a transaction. -/
def credited (account : Account) (transactionId : String) : Int :=
  ((creditRows account transactionId).map (·.amount)).sum

open scoped BigOperators

/-- Each transaction is credited at most once over all users, with the amount of the product which
it names, and only when it is genuine. -/
structure CreditedOnce (purchases : Fin n → Purchase settings) (market : Market n) : Prop where
  once : ∀ transactionId (users : Finset UserId),
    ∑ user ∈ users, (creditRows (market user).committed transactionId).length ≤ 1
  worth : ∀ transactionId (users : Finset UserId),
    ∑ user ∈ users, credited (market user).committed transactionId = 0 ∨
      ∃ thread, (purchases thread).verified.transactionId = transactionId ∧
        (productTokens settings.productDocument).amount? (purchases thread).verified.productId =
          some (purchases thread).credits ∧
        ∑ user ∈ users, credited (market user).committed transactionId =
          (purchases thread).credits
  genuine : ∀ user transactionId, ∀ row ∈ (market user).committed.ledger,
    row.idempotencyKey = purchaseKey transactionId →
      ∃ thread, (purchases thread).userId = user ∧ row = (purchases thread).request.row ∧
        (purchases thread).verified.transactionId = transactionId ∧ (purchases thread).Genuine

/-- A commit with a new row is one of a genuine transaction which no other buyer holds. -/
def Unclaimed (purchases : Fin n → Purchase settings) (market : Market n) :
    UserId × Action n → Prop
  | (user, .finish thread) =>
      (purchases thread).ending = .commit →
        ((market user).progress thread).work.rows.isEmpty = false →
        (purchases thread).Genuine ∧
        ∀ other, (purchases other).userId ≠ user →
          ((market (purchases other).userId).committed.existing
            (purchaseKey (purchases thread).verified.transactionId)).isNone
  | _ => True

instance (purchases : Fin n → Purchase settings) (market : Market n) (move : UserId × Action n) :
    Decidable (Unclaimed purchases market move) :=
  match move with
  | (_, .finish _) => inferInstanceAs (Decidable (_ → _ → _ ∧ _))
  | (_, .arrive _) => isTrue trivial
  | (_, .execute _) => isTrue trivial
  | (_, .abort _) => isTrue trivial

/-! ## What one step keeps -/

structure Opening (accounts : UserId → Account) : Prop where
  stored : ∀ user, (accounts user).Stored
  unsold : ∀ user transactionId, (accounts user).existing (purchaseKey transactionId) = none

/-- What holds of the market between two steps. -/
structure Sound (purchases : Fin n → Purchase settings) (market : Market n) : Prop where
  apart : ∀ user, (market user).Apart
  following : ∀ user, (market user).Following fun thread => (purchases thread).call
  owned : ∀ user thread program tx snapshot,
    (market user).progress thread = .running program tx snapshot →
      (purchases thread).userId = user
  origin : ∀ user transactionId, ∀ row ∈ (market user).committed.ledger,
    row.idempotencyKey = purchaseKey transactionId →
      ∃ thread, (purchases thread).userId = user ∧ row = (purchases thread).request.row ∧
        (purchases thread).verified.transactionId = transactionId ∧ (purchases thread).Genuine
  single : ∀ user transactionId, ((market user).committed.ledger.filter fun row =>
    row.idempotencyKey == purchaseKey transactionId).length ≤ 1
  exclusive : ∀ user other transactionId, user ≠ other →
    (market user).committed.existing (purchaseKey transactionId) ≠ none →
      (market other).committed.existing (purchaseKey transactionId) = none

theorem purchaseKey_injective : Function.Injective purchaseKey :=
  fun _ _ same => (String.append_right_inj _).mp same

section Steps

variable {purchases : Fin n → Purchase settings} {market after : Market n}

theorem sound_initial {accounts : UserId → Account} (opening : Opening accounts) :
    Sound purchases (initial purchases accounts) where
  apart user := by
    refine ⟨opening.stored user, ?_, ?_, ?_, ?_⟩
    · intro thread program tx snapshot stood
      simp only [initial] at stood
      split at stood
      · cases stood
        exact ⟨by simp [Wallet.Tx.Nested], by simp [Wallet.Tx.Stored]⟩
      · cases stood
    all_goals simp only [initial]
    · intro thread other _ locked
      split at locked <;> cases locked
    · intro thread other _ row present
      split at present <;> cases present
    · intro thread row present
      split at present <;> cases present
  following user := by
    intro thread program tx snapshot stood
    simp only [initial] at stood
    split at stood
    · cases stood
      exact .refl _ _
    · cases stood
  owned user := by
    intro thread program tx snapshot stood
    simp only [initial] at stood
    split at stood
    next own => exact own
    · cases stood
  origin user transactionId row present same := by
    have free := List.find?_eq_none.mp (opening.unsold user transactionId) row present
    simp [same] at free
  single user transactionId := by
    have free := List.find?_eq_none.mp (opening.unsold user transactionId)
    simp only [initial]
    rw [List.filter_eq_nil_iff.mpr free]
    exact Nat.zero_le 1
  exclusive user other transactionId _ _ := opening.unsold other transactionId

/-- What is committed changes in one account at most, by the one row of a purchase. -/
inductive Commits (purchases : Fin n → Purchase settings) (market after : Market n) : Prop
  | nothing (same : ∀ user, (after user).committed.ledger = (market user).committed.ledger)
  | row (thread : Fin n)
      (fresh : (market (purchases thread).userId).committed.existing
        (purchaseKey (purchases thread).verified.transactionId) = none)
      (grown : (after (purchases thread).userId).committed.ledger =
        (market (purchases thread).userId).committed.ledger ++ [(purchases thread).request.row])
      (others : ∀ user, user ≠ (purchases thread).userId →
        (after user).committed.ledger = (market user).committed.ledger)
      (genuine : (purchases thread).Genuine)
      (unclaimed : ∀ user, user ≠ (purchases thread).userId →
        (market user).committed.existing
          (purchaseKey (purchases thread).verified.transactionId) = none)

theorem existing_of_ledger {first second : Account} {key : String}
    (same : first.ledger = second.ledger) : first.existing key = second.existing key := by
  rw [Account.existing, Account.existing, same]

theorem Sound.buyer (sound : Sound purchases market) {user : UserId} {transactionId : String}
    (held : (market user).committed.existing (purchaseKey transactionId) ≠ none) :
    ∃ thread, (purchases thread).userId = user := by
  obtain ⟨row, found⟩ := Option.ne_none_iff_exists'.mp held
  have same := List.find?_some found
  rw [beq_iff_eq] at same
  obtain ⟨thread, own, -⟩ :=
    sound.origin user transactionId row (List.mem_of_find?_eq_some found) same
  exact ⟨thread, own⟩

theorem commits_of_step {move : UserId × Action n} (sound : Sound purchases market)
    (unclaimed : Unclaimed purchases market move)
    (stepped : step purchases market move = some after) : Commits purchases market after := by
  obtain ⟨user, action⟩ := move
  obtain ⟨system, moved, rfl⟩ := Option.map_eq_some_iff.mp stepped
  have others (other : UserId) (distinct : other ≠ user) :
      (Function.update market user system other).committed.ledger =
        (market other).committed.ledger := by
    rw [Function.update_of_ne distinct]
  obtain same | ⟨thread, outcome, tx, snapshot, rfl, stood, commits, committed⟩ :=
    (System.step_took moved).committed
  · refine .nothing fun other => ?_
    rcases Decidable.em (other = user) with rfl | distinct
    · simp [same]
    · exact others other distinct
  · obtain rfl : (purchases thread).userId = user := sound.owned user thread _ _ _ stood
    have work : ((market (purchases thread).userId).progress thread).work = tx.work := by
      rw [stood]
      rfl
    have ledger : system.committed.ledger =
        (market (purchases thread).userId).committed.ledger ++ tx.work.rows := by
      rw [committed]
      rfl
    obtain none_added | added :=
      (sound.following (purchases thread).userId).grant_rows rfl stood
    · refine .nothing fun other => ?_
      rcases Decidable.em (other = (purchases thread).userId) with rfl | distinct
      · simp [ledger, none_added]
      · exact others other distinct
    · obtain ⟨genuine, free⟩ := unclaimed commits (by simp [work, added])
      have fresh := (sound.apart (purchases thread).userId).fresh thread
        (purchases thread).request.row (by simp [work, added])
      refine .row thread fresh ?_ others genuine ?_
      · simp [ledger, added]
      · intro user distinct
        by_contra held
        obtain ⟨other, rfl⟩ := sound.buyer held
        exact held (by simpa using free other distinct)

theorem existing_concat {before after : Account} {row : LedgerTransaction} {key : String}
    (grown : after.ledger = before.ledger ++ [row]) (other : row.idempotencyKey ≠ key) :
    after.existing key = before.existing key := by
  simp [Account.existing, grown, List.find?_append, other]

theorem filter_concat {before after : Account} {row : LedgerTransaction} {key : String}
    (grown : after.ledger = before.ledger ++ [row]) (other : row.idempotencyKey ≠ key) :
    after.ledger.filter (fun held => held.idempotencyKey == key) =
      before.ledger.filter fun held => held.idempotencyKey == key := by
  simp [grown, List.filter_append, other]

theorem filter_concat_self {before after : Account} {row : LedgerTransaction}
    (grown : after.ledger = before.ledger ++ [row])
    (fresh : before.existing row.idempotencyKey = none) :
    after.ledger.filter (fun held => held.idempotencyKey == row.idempotencyKey) = [row] := by
  have none_held := List.filter_eq_nil_iff.mpr (List.find?_eq_none.mp fresh)
  rw [grown, List.filter_append, none_held]
  simp

theorem Commits.origin (commits : Commits purchases market after)
    (sound : Sound purchases market) : ∀ user transactionId, ∀ row ∈ (after user).committed.ledger,
      row.idempotencyKey = purchaseKey transactionId →
        ∃ thread, (purchases thread).userId = user ∧ row = (purchases thread).request.row ∧
          (purchases thread).verified.transactionId = transactionId ∧
          (purchases thread).Genuine := by
  intro user transactionId row present same
  cases commits with
  | nothing unchanged => exact sound.origin user transactionId row (unchanged user ▸ present) same
  | row thread fresh grown others genuine unclaimed =>
      rcases Decidable.em (user = (purchases thread).userId) with rfl | distinct
      · rw [grown] at present
        rcases List.mem_append.mp present with old | new
        · exact sound.origin _ transactionId row old same
        · obtain rfl := List.mem_singleton.mp new
          exact ⟨thread, rfl, rfl, purchaseKey_injective same, genuine⟩
      · exact sound.origin user transactionId row (others user distinct ▸ present) same

theorem Commits.single (commits : Commits purchases market after)
    (sound : Sound purchases market) (user : UserId) (transactionId : String) :
    ((after user).committed.ledger.filter fun row =>
      row.idempotencyKey == purchaseKey transactionId).length ≤ 1 := by
  cases commits with
  | nothing unchanged =>
      rw [unchanged user]
      exact sound.single user transactionId
  | row thread fresh grown others genuine unclaimed =>
      rcases Decidable.em (user = (purchases thread).userId) with rfl | distinct
      · rcases Decidable.em ((purchases thread).verified.transactionId = transactionId) with
          rfl | other
        · have one := filter_concat_self grown fresh
          exact (congrArg List.length one).le
        · rw [filter_concat grown fun same => other (purchaseKey_injective same)]
          exact sound.single _ transactionId
      · rw [others user distinct]
        exact sound.single user transactionId

theorem Commits.exclusive (commits : Commits purchases market after)
    (sound : Sound purchases market) (user other : UserId) (transactionId : String)
    (distinct : user ≠ other)
    (held : (after user).committed.existing (purchaseKey transactionId) ≠ none) :
    (after other).committed.existing (purchaseKey transactionId) = none := by
  cases commits with
  | nothing unchanged =>
      rw [existing_of_ledger (unchanged user)] at held
      rw [existing_of_ledger (unchanged other)]
      exact sound.exclusive user other transactionId distinct held
  | row thread fresh grown others genuine unclaimed =>
      rcases Decidable.em ((purchases thread).verified.transactionId = transactionId) with
        rfl | different
      · rcases Decidable.em (other = (purchases thread).userId) with rfl | third
        · rw [existing_of_ledger (others user distinct)] at held
          exact absurd (unclaimed user distinct) held
        · rw [existing_of_ledger (others other third)]
          exact unclaimed other third
      · have unmoved (owner : UserId) :
            (after owner).committed.existing (purchaseKey transactionId) =
              (market owner).committed.existing (purchaseKey transactionId) := by
          rcases Decidable.em (owner = (purchases thread).userId) with rfl | elsewhere
          · exact existing_concat grown fun same => different (purchaseKey_injective same)
          · exact existing_of_ledger (others owner elsewhere)
        rw [unmoved] at held ⊢
        exact sound.exclusive user other transactionId distinct held

theorem sound_step {move : UserId × Action n} (sound : Sound purchases market)
    (unclaimed : Unclaimed purchases market move)
    (stepped : step purchases market move = some after) : Sound purchases after := by
  have commits := commits_of_step sound unclaimed stepped
  obtain ⟨user, action⟩ := move
  obtain ⟨system, moved, rfl⟩ := Option.map_eq_some_iff.mp stepped
  have took := System.step_took moved
  have other_of (holds : UserId → System n → Prop) (own : holds user system)
      (old : ∀ other, holds other (market other)) (other : UserId) :
      holds other (Function.update market user system other) := by
    rcases Decidable.em (other = user) with rfl | distinct
    · rw [Function.update_self]
      exact own
    · rw [Function.update_of_ne distinct]
      exact old other
  refine ⟨?_, ?_, ?_, commits.origin sound, commits.single sound, commits.exclusive sound⟩
  · exact other_of (fun _ system => system.Apart) ((sound.apart user).took took) sound.apart
  · exact other_of (fun _ system => system.Following _) ((sound.following user).took took)
      sound.following
  · refine other_of (fun owner system => ∀ thread program tx snapshot,
      system.progress thread = .running program tx snapshot →
        (purchases thread).userId = owner) ?_ sound.owned
    intro thread program tx snapshot stands
    obtain ⟨_, _, _, stood⟩ := took.running stands
    exact sound.owned user thread _ _ _ stood

end Steps

/-! ## Every interleaving -/

section Runs

variable {purchases : Fin n → Purchase settings} {market : Market n}

theorem credits_listed (purchase : Purchase settings) :
    (productTokens settings.productDocument).amount? purchase.verified.productId =
      some purchase.credits := by
  have prepared := purchase.prepared
  simp only [prepare] at prepared
  obtain ⟨_, -, prepared⟩ := except_bind_eq_ok prepared
  obtain ⟨verified, -, prepared⟩ := except_bind_eq_ok prepared
  obtain ⟨credits, resolved, prepared⟩ := except_bind_eq_ok prepared
  cases prepared
  simp only [creditsForProduct] at resolved
  split at resolved
  · cases resolved
  next listed =>
    cases resolved
    exact listed

theorem creditRows_of_free {account : Account} {transactionId : String}
    (free : account.existing (purchaseKey transactionId) = none) :
    creditRows account transactionId = [] := by
  rw [creditRows, List.filter_eq_nil_iff]
  intro row present both
  have other := List.find?_eq_none.mp free row present
  exact other (Bool.and_eq_true_iff.mp both).2

/-- A user with a row under the key has the credit of one purchase. -/
theorem Sound.creditRows_eq (sound : Sound purchases market) {user : UserId}
    {transactionId : String}
    (held : (market user).committed.existing (purchaseKey transactionId) ≠ none) :
    ∃ thread, (purchases thread).verified.transactionId = transactionId ∧
      creditRows (market user).committed transactionId = [(purchases thread).request.row] := by
  obtain ⟨row, found⟩ := Option.ne_none_iff_exists'.mp held
  have present := List.mem_of_find?_eq_some found
  have same := List.find?_some found
  obtain ⟨thread, -, rfl, is_transaction, -⟩ :=
    sound.origin user transactionId row present (beq_iff_eq.mp same)
  refine ⟨thread, is_transaction, ?_⟩
  have one : (market user).committed.ledger.filter (fun row =>
      row.idempotencyKey == purchaseKey transactionId) = [(purchases thread).request.row] := by
    have inside : (purchases thread).request.row ∈ (market user).committed.ledger.filter
        fun row => row.idempotencyKey == purchaseKey transactionId :=
      List.mem_filter.mpr ⟨present, same⟩
    obtain ⟨only, lone⟩ := List.length_eq_one_iff.mp
      (le_antisymm (sound.single user transactionId) (List.length_pos_of_mem inside))
    rw [lone] at inside ⊢
    rw [List.mem_singleton.mp inside]
  rw [creditRows, ← List.filter_filter, one]
  rfl

/-- At most one user has credits for a transaction, and those are of one purchase. -/
theorem Sound.holder (sound : Sound purchases market) (transactionId : String) :
    (∀ user, creditRows (market user).committed transactionId = []) ∨
      ∃ user thread, (purchases thread).verified.transactionId = transactionId ∧
        creditRows (market user).committed transactionId = [(purchases thread).request.row] ∧
        ∀ other, other ≠ user → creditRows (market other).committed transactionId = [] := by
  rcases Classical.em (∃ user,
      (market user).committed.existing (purchaseKey transactionId) ≠ none) with ⟨user, held⟩ | free
  · obtain ⟨thread, is_transaction, rows⟩ := sound.creditRows_eq held
    refine .inr ⟨user, thread, is_transaction, rows, fun other distinct => ?_⟩
    exact creditRows_of_free (sound.exclusive user other transactionId distinct.symm held)
  · refine .inl fun user => creditRows_of_free ?_
    by_contra held
    exact free ⟨user, held⟩

theorem Sound.creditedOnce (sound : Sound purchases market) : CreditedOnce purchases market where
  once transactionId users := by
    rcases sound.holder transactionId with none_held | ⟨user, thread, -, rows, others⟩
    · simp [none_held]
    · calc ∑ other ∈ users, (creditRows (market other).committed transactionId).length
        _ ≤ ∑ other ∈ users, if other = user then 1 else 0 := by
            refine Finset.sum_le_sum fun other _ => ?_
            split
            next same => simp [same, rows]
            next distinct => simp [others other distinct]
        _ ≤ 1 := by
            rw [Finset.sum_ite_eq']
            split <;> omega
  worth transactionId users := by
    rcases sound.holder transactionId with none_held | ⟨user, thread, is_transaction, rows, others⟩
    · exact .inl (by simp [credited, none_held])
    · have nothing_else (other : UserId) (distinct : other ≠ user) :
          credited (market other).committed transactionId = 0 := by
        simp [credited, others other distinct]
      rcases Decidable.em (user ∈ users) with present | absent
      · refine .inr ⟨thread, is_transaction, credits_listed (purchases thread), ?_⟩
        rw [Finset.sum_eq_single_of_mem user present fun other _ => nothing_else other, credited,
          rows]
        simp [GrantRequest.row, Purchase.request]
      · refine .inl (Finset.sum_eq_zero fun other present => nothing_else other ?_)
        rintro rfl
        exact absent present
  genuine := sound.origin

/-- In every interleaving of purchases by any users in which each commit is of a genuine
transaction that no other buyer holds, each transaction is credited at most once. -/
theorem credited_once (purchases : Fin n → Purchase settings) (accounts : UserId → Account)
    (opening : Opening accounts) (market : Market n)
    (reached : Reachable (step purchases) (Unclaimed purchases) (initial purchases accounts)
      market) :
    CreditedOnce purchases market := by
  refine (reached.invariant (Sound purchases) (sound_initial opening) ?_).creditedOnce
  intro before move after sound unclaimed stepped
  exact sound_step sound unclaimed stepped

end Runs

/-! ## One transaction and two buyers -/

namespace Sample

def signed : String := "header.payload.signature"

def payload : Fields :=
  [("transactionId", .str "2000"), ("productId", .str "100_tokens"),
    ("environment", .str "Sandbox")]

def shop : Settings where
  bundleId := ""
  environment := "sandbox"
  testMode := false
  jwsHeader _ := .ok [("alg", .str "ES256")]
  realPayload text := if text = signed then .ok payload else .error .internal
  testPayload _ := .error .internal
  str value := match value with
    | .str text => text
    | _ => ""
  lower text := if text = "Sandbox" then "sandbox" else text
  fromMillis _ := .error .internal
  productDocument := some (.obj [("100_tokens", .int 100)])
  agentDebtReconcileEnabled := true

def transaction : VerifiedTransaction where
  transactionId := "2000"
  originalTransactionId := "2000"
  productId := "100_tokens"
  expiresAt := none
  revoked := false
  environment := "sandbox"

theorem prepare_signed : prepare shop true signed = .ok (transaction, 100) := by
  rfl

/-- A purchase with the one transaction. -/
def purchase (user : UserId) (newId : TxId) : Purchase shop where
  userId := user
  active := true
  signedTransaction := signed
  verified := transaction
  credits := 100
  prepared := prepare_signed
  newId := newId
  ending := .commit

/-- Two users who send the same transaction. -/
def purchases : Fin 2 → Purchase shop
  | 0 => purchase ⟨1⟩ ⟨1⟩
  | 1 => purchase ⟨2⟩ ⟨2⟩

/-- One purchase from its first statement to its commit. -/
def moves (user : UserId) (thread : Fin 2) : List (UserId × Action 2) :=
  ((List.replicate 4 [Action.arrive thread, .execute thread]).flatten ++ [Action.finish thread]).map
    fun action => (user, action)

theorem opening : Opening fun _ => ({} : Account) where
  stored _ _ stored := by cases stored
  unsold _ _ := rfl

/-- The first buyer alone is credited. -/
theorem credited_once_first_buyer :
    ∃ market, CreditedOnce purchases market ∧ credited (market ⟨1⟩).committed "2000" = 100 := by
  obtain ⟨market, reached, credits⟩ := reachable_of_any (step purchases) (Unclaimed purchases)
    (initial purchases fun _ => {})
    (fun market => credited (market ⟨1⟩).committed "2000" == 100) (moves ⟨1⟩ 0)
    (by decide)
  exact ⟨market, credited_once purchases _ opening market reached, beq_iff_eq.mp credits⟩

/-- Both buyers are credited. -/
theorem both_buyers_credited :
    ∃ market, Reachable (step purchases) (fun _ _ => True) (initial purchases fun _ => {}) market ∧
      ¬ CreditedOnce purchases market := by
  obtain ⟨market, reached, credits⟩ := reachable_of_any (step purchases) (fun _ _ => True)
    (initial purchases fun _ => {})
    (fun market => credited (market ⟨1⟩).committed "2000" == 100 &&
      credited (market ⟨2⟩).committed "2000" == 100)
    (moves ⟨1⟩ 0 ++ moves ⟨2⟩ 1) (by decide)
  refine ⟨market, reached, fun once => ?_⟩
  simp only [Bool.and_eq_true, beq_iff_eq] at credits
  have total : ∑ user ∈ ({⟨1⟩, ⟨2⟩} : Finset UserId), credited (market user).committed "2000" =
      200 := by
    rw [Finset.sum_pair (by decide), credits.1, credits.2]
    rfl
  rcases once.worth "2000" {⟨1⟩, ⟨2⟩} with nothing | ⟨thread, -, -, worth⟩
  · omega
  · have whole : (purchases thread).credits = 100 :=
      match thread with
      | 0 | 1 => rfl
    omega

end Sample

end Hermes.Billing.TokenPurchase
