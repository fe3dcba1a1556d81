import Hermes.Billing.Subscription
import Hermes.Library.Positions
import Mathlib.Data.List.Nodup

/-!
# CRM grants side by side

`set_subscription` reads the row, looks for the grant, computes the expiry and hands it to
`admin_grant`, which inserts the grant and writes the row in the same transaction.  Each statement
is a step here; an insert waits for whoever holds the key, and a write for whoever holds the row.
-/

namespace Hermes.Billing

/-- The arguments of `set_subscription`. -/
structure Grant where
  productId : String
  expiresInDays : Nat
  grantId : String
  deriving DecidableEq, Repr

/-- What a call has found out and computed before it hands over to `admin_grant`. -/
structure Draft where
  now : Instant
  balance : Int
  /-- The row as `get_user_row` returned it. -/
  row : Option SubscriptionRow
  plan : String
  expiresAt : Instant
  /-- The grant was recorded already when the call looked for it. -/
  found : Bool
  deriving DecidableEq, Repr

/-- `CrmSubscriptionOutcome`. -/
structure CrmSubscriptionOutcome where
  tokens : Int
  subscriptionActive : Bool
  subscriptionExpiresAt : Instant
  applied : Bool
  deriving DecidableEq, Repr

inductive CrmEnding
  | answered (outcome : CrmSubscriptionOutcome)
  | failed (failure : GrantError)
  /-- The insert of the row breaks its primary key. -/
  | violated
  /-- The connection is lost, and everything rolled back. -/
  | lost
  deriving DecidableEq, Repr

inductive CrmPhase
  /-- `get_user_row` is next. -/
  | begun
  /-- `get_subscription_grant_event` is next. -/
  | read (now : Instant) (balance : Int) (row : Option SubscriptionRow)
  /-- The insert into `subscription_grant_events` is next. -/
  | granting (draft : Draft)
  /-- The grant is inserted; `SELECT user_id FROM subscriptions` is next. -/
  | anchored (draft : Draft)
  /-- The write of the row is next: an update if it was there, else an insert. -/
  | selected (draft : Draft) (present : Bool)
  /-- The row is written; the commit is next. -/
  | written (draft : Draft) (present : Bool)
  /-- The grant was there with the same payload; the commit is next. -/
  | echoing (draft : Draft)
  | finished (ending : CrmEnding)
  deriving DecidableEq, Repr

structure CrmCall where
  grant : Grant
  phase : CrmPhase
  deriving DecidableEq, Repr

/-- A grant which was committed, with the call which committed it. -/
structure Applied where
  call : Nat
  grant : Grant
  draft : Draft
  deriving DecidableEq, Repr

/-- What is committed for one user, the calls so far and the grants they committed, in order. -/
structure Desk where
  entitlement : Entitlement := {}
  calls : List CrmCall := []
  applied : List Applied := []

/-- What happens to the subscription of a user. -/
inductive CrmEvent
  | begin (grant : Grant)
  /-- `get_user_row`, at a time and with a balance. -/
  | read (index : Nat) (now : Instant) (balance : Int)
  /-- The next statement of a call. -/
  | advance (index : Nat)
  /-- The last `get_user_row`, with the balance if there is a row, and the commit. -/
  | commit (index : Nat) (balance : Option Int)
  | lose (index : Nat)
  deriving DecidableEq, Repr

/-- `if known and product_id not in known`. -/
def Settings.unknownProduct (settings : Settings) (productId : String) : Bool :=
  !settings.knownProductIds.isEmpty && !settings.knownProductIds.contains productId

namespace CrmPhase

/-- The draft of a call which has inserted its grant and not yet committed. -/
def holding : CrmPhase → Option Draft
  | anchored draft | selected draft _ | written draft _ => some draft
  | _ => none

/-- The call has written the row and not yet committed. -/
def isWritten : CrmPhase → Bool
  | written _ _ => true
  | _ => false

end CrmPhase

def Draft.event (settings : Settings) (draft : Draft) (grantId : String) : GrantEvent where
  idempotencyKey := crmKey grantId
  payloadHash := settings.payloadHash draft.plan draft.expiresAt false
  plan := draft.plan
  expiresAt := draft.expiresAt

/-- The answer of a call; `replayed` is `idempotent_replay`. -/
def Draft.outcome (draft : Draft) (balance : Option Int) (replayed : Bool) :
    CrmSubscriptionOutcome where
  tokens := balance.getD draft.balance
  -- `_subscription_active("active", result.expires_at, now)`
  subscriptionActive := draft.now < draft.expiresAt
  subscriptionExpiresAt := draft.expiresAt
  applied := !draft.found && !replayed

/-- The row after the write: an update of a row which is not there writes nothing. -/
def Draft.upsert (draft : Draft) (present : Bool) (row : Option SubscriptionRow) :
    Option SubscriptionRow :=
  match present, row with
  | true, none => none
  | _, _ => some ⟨.active, some draft.plan, some draft.expiresAt⟩

namespace Desk

variable (settings : Settings)

def become (desk : Desk) (index : Nat) (phase : CrmPhase) : Desk :=
  { desk with calls := desk.calls.modify index fun call => { call with phase } }

def recorded (desk : Desk) (grantId : String) : Option GrantEvent :=
  desk.entitlement.grantEvents.find? fun event => event.idempotencyKey == crmKey grantId

/-- Another transaction has inserted the key and not yet committed. -/
def keyHeld (desk : Desk) (grantId : String) : Bool :=
  desk.calls.any fun call =>
    call.phase.holding.isSome && crmKey call.grant.grantId == crmKey grantId

/-- Another transaction has written the row and not yet committed. -/
def rowHeld (desk : Desk) : Bool :=
  desk.calls.any fun call => call.phase.isWritten

/-- `get_subscription_grant_event`, and the expiry for a new grant. -/
def look (desk : Desk) (index : Nat) (grant : Grant) (now : Instant) (balance : Int)
    (row : Option SubscriptionRow) : Desk :=
  match desk.recorded grant.grantId with
  | some event =>
      desk.become index (.granting ⟨now, balance, row, event.plan, event.expiresAt, true⟩)
  | none =>
      match addDays (crmBase row now) grant.expiresInDays with
      | none => desk.become index (.finished (.failed .overflow))
      | some expiresAt =>
          desk.become index (.granting ⟨now, balance, row, grant.productId, expiresAt, false⟩)

/-- The insert of the grant, and `_handle_existing_grant_event` when it is there. -/
def insert (desk : Desk) (index : Nat) (grant : Grant) (draft : Draft) : Option Desk :=
  if desk.keyHeld grant.grantId then none
  else
    match desk.recorded grant.grantId with
    | some event =>
        if event.payloadHash ≠ settings.payloadHash draft.plan draft.expiresAt false then
          some (desk.become index (.finished (.failed (crmFailure
            (.conflict "idempotency key reused with different payload")))))
        else
          some (desk.become index
            (.echoing { draft with plan := event.plan, expiresAt := event.expiresAt }))
    | none => some (desk.become index (.anchored draft))

def write (desk : Desk) (index : Nat) (draft : Draft) (present : Bool) : Option Desk :=
  if desk.rowHeld then none
  else if !present && desk.entitlement.row.isSome then
    some (desk.become index (.finished .violated))
  else some (desk.become index (.written draft present))

/-- The next statement of a call between its first reading and its commit. -/
def advance (desk : Desk) (index : Nat) (call : CrmCall) : Option Desk :=
  match call.phase with
  | .read now balance row => some (desk.look index call.grant now balance row)
  | .granting draft => desk.insert settings index call.grant draft
  | .anchored draft =>
      some (desk.become index (.selected draft desk.entitlement.row.isSome))
  | .selected draft present => desk.write index draft present
  | _ => none

def commit (desk : Desk) (index : Nat) (call : CrmCall) (balance : Option Int) : Option Desk :=
  match call.phase with
  | .written draft present =>
      some { desk.become index (.finished (.answered (draft.outcome balance false))) with
        entitlement :=
          { row := draft.upsert present desk.entitlement.row
            grantEvents := desk.entitlement.grantEvents ++
              [draft.event settings call.grant.grantId] }
        applied := desk.applied ++ [⟨index, call.grant, draft⟩] }
  | .echoing draft => some (desk.become index (.finished (.answered (draft.outcome balance true))))
  | _ => none

def step (desk : Desk) : CrmEvent → Option Desk
  | .begin grant =>
      let phase := if settings.unknownProduct grant.productId then
        .finished (.failed (.badRequest "unknown product_id")) else .begun
      some { desk with calls := desk.calls ++ [⟨grant, phase⟩] }
  | .read index now balance =>
      match desk.calls[index]? with
      | some ⟨_, .begun⟩ => some (desk.become index (.read now balance desk.entitlement.row))
      | _ => none
  | .advance index => (desk.calls[index]?).bind (desk.advance settings index)
  | .commit index balance =>
      (desk.calls[index]?).bind fun call => desk.commit settings index call balance
  | .lose index =>
      match desk.calls[index]? with
      | none | some ⟨_, .finished _⟩ => none
      | some _ => some (desk.become index (.finished .lost))

end Desk

/-! ## Recorded grants -/

/-- The draft of a grant which was not recorded when its call looked for it. -/
structure Draft.Computed (draft : Draft) (grant : Grant) : Prop where
  plan : draft.plan = grant.productId
  expiresAt : addDays (crmBase draft.row draft.now) grant.expiresInDays = some draft.expiresAt

/-- The keys of the recorded grants differ, and what has a key of the CRM was recorded by it. -/
structure Entitlement.Kept (settings : Settings) (entitlement : Entitlement) : Prop where
  distinct : (entitlement.grantEvents.map GrantEvent.idempotencyKey).Nodup
  hashed : ∀ event ∈ entitlement.grantEvents, ∀ grantId, event.idempotencyKey = crmKey grantId →
    event.payloadHash = settings.payloadHash event.plan event.expiresAt false

/-- What a grant which was committed is recorded as. -/
def Applied.event (settings : Settings) (applied : Applied) : GrantEvent :=
  applied.draft.event settings applied.grant.grantId

/-- No grant is applied twice or again, every grant which is applied is recorded, and a call which
succeeds returns what is recorded and says whether it was the one to apply it. -/
structure Desk.Recorded (settings : Settings) (desk start : Desk) : Prop where
  events : desk.entitlement.grantEvents =
    start.entitlement.grantEvents ++ desk.applied.map (Applied.event settings)
  once : (desk.applied.map fun applied => applied.grant.grantId).Nodup
  fresh : ∀ applied ∈ desk.applied, ∀ event ∈ start.entitlement.grantEvents,
    event.idempotencyKey ≠ crmKey applied.grant.grantId
  answers : ∀ (index : Nat) (call : CrmCall) (outcome : CrmSubscriptionOutcome),
    desk.calls[index]? = some call → call.phase = .finished (.answered outcome) →
      (∃ event ∈ desk.entitlement.grantEvents, event.idempotencyKey = crmKey call.grant.grantId ∧
        event.expiresAt = outcome.subscriptionExpiresAt) ∧
      (outcome.applied = true ↔
        ∃ applied ∈ desk.applied, applied.call = index ∧ applied.grant = call.grant)

namespace Desk

variable {settings : Settings} {start desk : Desk}

/-- The grant of a call is recorded with the expiry. -/
def Holds (desk : Desk) (grant : Grant) (expiresAt : Instant) : Prop :=
  ∃ event ∈ desk.entitlement.grantEvents, event.idempotencyKey = crmKey grant.grantId ∧
    event.expiresAt = expiresAt

/-- What is known of a call in each of its phases. -/
def Fits (settings : Settings) (desk : Desk) (index : Nat) (grant : Grant) : CrmPhase → Prop
  | .begun | .read _ _ _ => settings.unknownProduct grant.productId = false
  | .granting draft =>
      settings.unknownProduct grant.productId = false ∧
        (draft.found = true → ∃ event ∈ desk.entitlement.grantEvents,
          event.idempotencyKey = crmKey grant.grantId ∧ event.plan = draft.plan ∧
            event.expiresAt = draft.expiresAt) ∧
        (draft.found = false → draft.Computed grant)
  | .anchored draft | .selected draft _ | .written draft _ =>
      settings.unknownProduct grant.productId = false ∧ draft.found = false ∧
        draft.Computed grant ∧
        ∀ event ∈ desk.entitlement.grantEvents, event.idempotencyKey ≠ crmKey grant.grantId
  | .echoing draft => desk.Holds grant draft.expiresAt
  | .finished (.answered outcome) =>
      desk.Holds grant outcome.subscriptionExpiresAt ∧
        (outcome.applied = true ↔
          ∃ applied ∈ desk.applied, applied.call = index ∧ applied.grant = grant)
  | .finished _ => True

/-- Every call fits what is committed, a grant which is recorded has one key, calls which hold
a key hold different ones, and what was applied was answered. -/
structure Anchored (settings : Settings) (desk start : Desk) : Prop where
  events : desk.entitlement.grantEvents =
    start.entitlement.grantEvents ++ desk.applied.map (Applied.event settings)
  kept : desk.entitlement.Kept settings
  fits : ∀ (index : Nat) (call : CrmCall), desk.calls[index]? = some call →
    desk.Fits settings index call.grant call.phase
  apart : ∀ (index other : Nat) (call rival : CrmCall), index ≠ other →
    desk.calls[index]? = some call → desk.calls[other]? = some rival →
    call.phase.holding.isSome → rival.phase.holding.isSome →
    crmKey call.grant.grantId ≠ crmKey rival.grant.grantId
  answered : ∀ applied ∈ desk.applied, ∃ (call : CrmCall) (outcome : CrmSubscriptionOutcome),
    desk.calls[applied.call]? = some call ∧ call.phase = .finished (.answered outcome)

@[simp] theorem become_entitlement (desk : Desk) (index : Nat) (phase : CrmPhase) :
    (desk.become index phase).entitlement = desk.entitlement := rfl

@[simp] theorem become_applied (desk : Desk) (index : Nat) (phase : CrmPhase) :
    (desk.become index phase).applied = desk.applied := rfl

theorem calls_of_become {index other : Nat} {phase : CrmPhase} {call after : CrmCall}
    (called : desk.calls[index]? = some call)
    (found : (desk.become index phase).calls[other]? = some after) :
    other = index ∧ after = { call with phase } ∨
      other ≠ index ∧ desk.calls[other]? = some after :=
  getElem?_modify_cases called found

theorem called_become {index other : Nat} {phase : CrmPhase} {call : CrmCall}
    (differ : other ≠ index) (called : desk.calls[other]? = some call) :
    (desk.become index phase).calls[other]? = some call :=
  (getElem?_modify_of_ne differ).trans called

theorem called_become_self {index : Nat} {phase : CrmPhase} {call : CrmCall}
    (called : desk.calls[index]? = some call) :
    (desk.become index phase).calls[index]? = some { call with phase } := by
  simp [become, called]

/-- What fits depends on the recorded grants and on who applied one. -/
theorem Fits.congr {after : Desk} {index : Nat} {grant : Grant} {phase : CrmPhase}
    (entitled : after.entitlement.grantEvents = desk.entitlement.grantEvents)
    (applied : after.applied = desk.applied) (fits : desk.Fits settings index grant phase) :
    after.Fits settings index grant phase := by
  unfold Fits Holds at *
  rw [entitled, applied]
  exact fits

theorem not_keyHeld {grantId : String} (free : desk.keyHeld grantId = false) {other : Nat}
    {rival : CrmCall} (called : desk.calls[other]? = some rival)
    (holding : rival.phase.holding.isSome) : crmKey rival.grant.grantId ≠ crmKey grantId := by
  have tested := List.any_eq_false.mp free rival (List.mem_of_getElem? called)
  simpa [holding] using tested

theorem recorded_eq_some {grantId : String} {event : GrantEvent}
    (found : desk.recorded grantId = some event) :
    event ∈ desk.entitlement.grantEvents ∧ event.idempotencyKey = crmKey grantId :=
  ⟨List.mem_of_find?_eq_some found, by simpa using List.find?_some found⟩

theorem recorded_eq_none {grantId : String} (missing : desk.recorded grantId = none) :
    ∀ event ∈ desk.entitlement.grantEvents, event.idempotencyKey ≠ crmKey grantId := by
  intro event present
  simpa using List.find?_eq_none.mp missing event present

namespace Anchored

variable {after : Desk}

theorem unapplied (anchored : desk.Anchored settings start) {index : Nat} {call : CrmCall}
    (called : desk.calls[index]? = some call) (live : ∀ ending, call.phase ≠ .finished ending) :
    ∀ applied ∈ desk.applied, applied.call ≠ index := by
  rintro applied present rfl
  obtain ⟨same, outcome, found, finished⟩ := anchored.answered applied present
  cases called.symm.trans found
  exact live _ finished

/-- A call comes to a phase which fits; if it holds a key then, no other call holds it. -/
theorem become (anchored : desk.Anchored settings start) {index : Nat} {call : CrmCall}
    {phase : CrmPhase} (called : desk.calls[index]? = some call)
    (live : ∀ ending, call.phase ≠ .finished ending)
    (fits : desk.Fits settings index call.grant phase)
    (free : phase.holding.isSome → ∀ (other : Nat) (rival : CrmCall), other ≠ index →
      desk.calls[other]? = some rival → rival.phase.holding.isSome →
      crmKey rival.grant.grantId ≠ crmKey call.grant.grantId) :
    (desk.become index phase).Anchored settings start where
  events := anchored.events
  kept := anchored.kept
  fits := by
    intro other one found
    obtain ⟨rfl, rfl⟩ | ⟨-, found⟩ := calls_of_become called found
    · exact fits.congr rfl rfl
    · exact (anchored.fits other one found).congr rfl rfl
  apart := by
    intro first second one two differ foundOne foundTwo holdsOne holdsTwo
    obtain ⟨rfl, rfl⟩ | ⟨otherOne, before⟩ := calls_of_become called foundOne
    · obtain ⟨rfl, rfl⟩ | ⟨otherTwo, before⟩ := calls_of_become called foundTwo
      · exact absurd rfl differ
      · exact (free holdsOne second two otherTwo before holdsTwo).symm
    · obtain ⟨rfl, rfl⟩ | ⟨otherTwo, beforeTwo⟩ := calls_of_become called foundTwo
      · exact free holdsTwo first one otherOne before holdsOne
      · exact anchored.apart first second one two differ before beforeTwo holdsOne holdsTwo
  answered := by
    intro applied present
    obtain ⟨one, outcome, found, finished⟩ := anchored.answered applied present
    have other := anchored.unapplied called live applied present
    exact ⟨one, outcome, called_become other found, finished⟩

/-- A call which holds its key comes to a phase in which it still does. -/
theorem keep (anchored : desk.Anchored settings start) {index : Nat} {call : CrmCall}
    {phase : CrmPhase} (called : desk.calls[index]? = some call)
    (holding : call.phase.holding.isSome) (fits : desk.Fits settings index call.grant phase) :
    (desk.become index phase).Anchored settings start := by
  apply anchored.become called
  · intro ending finished
    rw [finished] at holding
    cases holding
  · exact fits
  · intro _ other rival differ found holds
    exact anchored.apart other index rival call differ found called holds holding

theorem begin (anchored : desk.Anchored settings start) (grant : Grant) {phase : CrmPhase}
    (fits : ∀ index, desk.Fits settings index grant phase) (idle : phase.holding = none) :
    Anchored settings { desk with calls := desk.calls ++ [⟨grant, phase⟩] } start where
  events := anchored.events
  kept := anchored.kept
  fits := by
    intro index call found
    obtain found | ⟨-, rfl⟩ := getElem?_snoc found
    · exact (anchored.fits index call found).congr rfl rfl
    · exact (fits index).congr rfl rfl
  apart := by
    intro first second one two differ foundOne foundTwo holdsOne holdsTwo
    obtain foundOne | ⟨-, rfl⟩ := getElem?_snoc foundOne
    · obtain foundTwo | ⟨-, rfl⟩ := getElem?_snoc foundTwo
      · exact anchored.apart first second one two differ foundOne foundTwo holdsOne holdsTwo
      · simp [idle] at holdsTwo
    · simp [idle] at holdsOne
  answered := by
    intro applied present
    obtain ⟨one, outcome, found, finished⟩ := anchored.answered applied present
    exact ⟨one, outcome, getElem?_append_of_some _ found, finished⟩

theorem look (anchored : desk.Anchored settings start) {index : Nat} {grant : Grant}
    {now : Instant} {balance : Int} {row : Option SubscriptionRow}
    (called : desk.calls[index]? = some ⟨grant, .read now balance row⟩) :
    (desk.look index grant now balance row).Anchored settings start := by
  have known : settings.unknownProduct grant.productId = false := anchored.fits index _ called
  unfold Desk.look
  cases found : desk.recorded grant.grantId with
  | some event =>
      obtain ⟨present, same⟩ := recorded_eq_some found
      apply anchored.become called nofun
      · exact ⟨known, fun _ => ⟨event, present, same, rfl, rfl⟩, nofun⟩
      · nofun
  | none =>
      cases added : addDays (crmBase row now) grant.expiresInDays with
      | none =>
          apply anchored.become called nofun
          · trivial
          · nofun
      | some expiresAt =>
          apply anchored.become called nofun
          · exact ⟨known, nofun, fun _ => ⟨rfl, added⟩⟩
          · nofun

theorem insert (anchored : desk.Anchored settings start) {index : Nat} {grant : Grant}
    {draft : Draft} (called : desk.calls[index]? = some ⟨grant, .granting draft⟩)
    (stepped : desk.insert settings index grant draft = some after) :
    after.Anchored settings start := by
  obtain ⟨known, found, computed⟩ := anchored.fits index _ called
  unfold Desk.insert at stepped
  split at stepped
  · cases stepped
  next free =>
    simp only [Bool.not_eq_true] at free
    cases there : desk.recorded grant.grantId with
    | some event =>
        obtain ⟨present, same⟩ := recorded_eq_some there
        simp only [there] at stepped
        split at stepped
        · cases stepped
          apply anchored.become called nofun
          · trivial
          · nofun
        · cases stepped
          apply anchored.become called nofun
          · exact ⟨event, present, same, rfl⟩
          · nofun
    | none =>
        simp only [there, Option.some.injEq] at stepped
        subst stepped
        have absent := recorded_eq_none there
        have unfound : draft.found = false := by
          rw [Bool.eq_false_iff]
          intro before
          obtain ⟨event, present, same, -⟩ := found before
          exact absent event present same
        apply anchored.become called nofun
        · exact ⟨known, unfound, computed unfound, absent⟩
        · intro _ other rival _ calledRival holding
          exact not_keyHeld free calledRival holding

theorem advance (anchored : desk.Anchored settings start) {index : Nat} {call : CrmCall}
    (called : desk.calls[index]? = some call)
    (stepped : desk.advance settings index call = some after) :
    after.Anchored settings start := by
  obtain ⟨grant, phase⟩ := call
  have fits := anchored.fits index _ called
  cases phase with
  | begun => cases stepped
  | read now balance row =>
      cases stepped
      exact anchored.look called
  | granting draft => exact anchored.insert called stepped
  | anchored draft =>
      cases stepped
      exact anchored.keep called rfl fits
  | selected draft present =>
      simp only [Desk.advance, Desk.write] at stepped
      split at stepped
      · cases stepped
      · split at stepped
        · cases stepped
          apply anchored.become called nofun
          · trivial
          · nofun
        · cases stepped
          exact anchored.keep called rfl fits
  | written draft present => cases stepped
  | echoing draft => cases stepped
  | finished ending => cases stepped

/-- What fits a call still does when another one has committed a grant under another key. -/
theorem fits_of_commit {index other : Nat} {grant rival : Grant} {draft : Draft}
    {phase : CrmPhase} (differ : other ≠ index)
    (events : after.entitlement.grantEvents =
      desk.entitlement.grantEvents ++ [draft.event settings grant.grantId])
    (applied : after.applied = desk.applied ++ [⟨index, grant, draft⟩])
    (free : phase.holding.isSome → crmKey rival.grantId ≠ crmKey grant.grantId)
    (fits : desk.Fits settings other rival phase) : after.Fits settings other rival phase := by
  have held {expiresAt : Instant} (holds : desk.Holds rival expiresAt) :
      after.Holds rival expiresAt := by
    obtain ⟨event, present, same⟩ := holds
    exact ⟨event, by rw [events]; exact List.mem_append_left _ present, same⟩
  have absent (holding : phase.holding.isSome)
      (before : ∀ event ∈ desk.entitlement.grantEvents,
        event.idempotencyKey ≠ crmKey rival.grantId) :
      ∀ event ∈ after.entitlement.grantEvents, event.idempotencyKey ≠ crmKey rival.grantId := by
    intro event present
    rw [events, List.mem_append, List.mem_singleton] at present
    obtain present | rfl := present
    · exact before event present
    · exact (free holding).symm
  cases phase with
  | begun | read => exact fits
  | granting rivalDraft =>
      obtain ⟨known, found, computed⟩ := fits
      refine ⟨known, ?_, computed⟩
      intro before
      obtain ⟨event, present, same⟩ := found before
      exact ⟨event, by rw [events]; exact List.mem_append_left _ present, same⟩
  | anchored | selected | written =>
      obtain ⟨known, unfound, computed, before⟩ := fits
      exact ⟨known, unfound, computed, absent rfl before⟩
  | echoing => exact held fits
  | finished ending =>
      cases ending with
      | answered outcome =>
          refine ⟨held fits.1, ?_⟩
          rw [fits.2, applied]
          simp [differ.symm]
      | failed | violated | lost => trivial

theorem commit_written (anchored : desk.Anchored settings start) {index : Nat} {grant : Grant}
    {draft : Draft} {present : Bool} (balance : Option Int)
    (called : desk.calls[index]? = some ⟨grant, .written draft present⟩)
    (stepped : desk.commit settings index ⟨grant, .written draft present⟩ balance = some after) :
    after.Anchored settings start := by
  obtain ⟨known, unfound, computed, absent⟩ := anchored.fits index _ called
  cases stepped
  have own : ∀ (other : Nat) (rival : CrmCall), other ≠ index →
      desk.calls[other]? = some rival → rival.phase.holding.isSome →
      crmKey rival.grant.grantId ≠ crmKey grant.grantId := by
    intro other rival differ found holding
    exact anchored.apart other index rival _ differ found called holding rfl
  constructor
  case events =>
    simp [anchored.events, Applied.event]
  case kept =>
    constructor
    · rw [List.map_append, List.nodup_append]
      refine ⟨anchored.kept.distinct, by simp, ?_⟩
      intro key before last here same
      obtain ⟨event, present, rfl⟩ := List.mem_map.mp before
      simp only [List.map_cons, List.map_nil, List.mem_singleton] at here
      subst here
      exact absent event present same
    · intro event present grantId same
      rw [List.mem_append, List.mem_singleton] at present
      obtain present | rfl := present
      · exact anchored.kept.hashed event present grantId same
      · rfl
  case fits =>
    intro other call found
    obtain ⟨rfl, rfl⟩ | ⟨differ, before⟩ := calls_of_become called found
    · refine ⟨⟨draft.event settings grant.grantId, by simp, rfl, rfl⟩, ?_⟩
      simp only [Draft.outcome, unfound, Bool.not_false, Bool.and_self, true_iff]
      exact ⟨_, List.mem_append_right _ (List.mem_singleton.mpr rfl), rfl, rfl⟩
    · exact fits_of_commit differ rfl rfl (own other call differ before)
        (anchored.fits other call before)
  case apart =>
    intro first second one two differ foundOne foundTwo holdsOne holdsTwo
    obtain ⟨rfl, rfl⟩ | ⟨otherOne, before⟩ := calls_of_become called foundOne
    · cases holdsOne
    · obtain ⟨rfl, rfl⟩ | ⟨otherTwo, beforeTwo⟩ := calls_of_become called foundTwo
      · cases holdsTwo
      · exact anchored.apart first second one two differ before beforeTwo holdsOne holdsTwo
  case answered =>
    intro applied present
    rw [List.mem_append, List.mem_singleton] at present
    obtain present | rfl := present
    · obtain ⟨one, outcome, found, finished⟩ := anchored.answered applied present
      exact ⟨one, outcome, called_become (anchored.unapplied called nofun applied present) found,
        finished⟩
    · exact ⟨_, _, called_become_self called, rfl⟩

theorem commit (anchored : desk.Anchored settings start) {index : Nat} {call : CrmCall}
    {balance : Option Int} (called : desk.calls[index]? = some call)
    (stepped : desk.commit settings index call balance = some after) :
    after.Anchored settings start := by
  obtain ⟨grant, phase⟩ := call
  cases phase with
  | written draft present => exact anchored.commit_written balance called stepped
  | echoing draft =>
      have fits := anchored.fits index _ called
      cases stepped
      apply anchored.become called nofun
      · refine ⟨fits, ?_⟩
        simp only [Draft.outcome, Bool.not_true, Bool.and_false, Bool.false_eq_true, false_iff]
        rintro ⟨applied, present, same, -⟩
        exact anchored.unapplied called nofun applied present same
      · nofun
  | begun | read | granting | anchored | selected | finished => cases stepped

theorem step (anchored : desk.Anchored settings start) {event : CrmEvent}
    (stepped : desk.step settings event = some after) : after.Anchored settings start := by
  cases event with
  | begin grant =>
      cases stepped
      apply anchored.begin
      · intro index
        split
        · trivial
        next known => exact Bool.eq_false_iff.mpr known
      · split <;> rfl
  | read index now balance =>
      simp only [Desk.step] at stepped
      split at stepped
      next grant called =>
        cases stepped
        apply anchored.become called nofun
        · exact anchored.fits index _ called
        · nofun
      · cases stepped
  | advance index =>
      obtain ⟨call, called, advanced⟩ := Option.bind_eq_some_iff.mp stepped
      exact anchored.advance called advanced
  | commit index balance =>
      obtain ⟨call, called, committed⟩ := Option.bind_eq_some_iff.mp stepped
      exact anchored.commit called committed
  | lose index =>
      simp only [Desk.step] at stepped
      split at stepped
      · cases stepped
      · cases stepped
      next call live called =>
        cases stepped
        apply anchored.become called
        · intro ending finished
          exact live call.grant ending (by rw [← finished])
        · trivial
        · nofun

theorem recorded (anchored : desk.Anchored settings start) : desk.Recorded settings start where
  events := anchored.events
  once := by
    have distinct := anchored.kept.distinct
    rw [anchored.events, List.map_append, List.nodup_append, List.map_map] at distinct
    apply List.Nodup.of_map crmKey
    rw [List.map_map]
    exact distinct.2.1
  fresh := by
    have distinct := anchored.kept.distinct
    rw [anchored.events, List.map_append, List.nodup_append] at distinct
    intro applied present event before same
    refine distinct.2.2 _ (List.mem_map_of_mem before) (crmKey applied.grant.grantId) ?_ same
    rw [List.map_map]
    exact List.mem_map.mpr ⟨applied, present, rfl⟩
  answers := by
    intro index call outcome found finished
    have fits := anchored.fits index call found
    rw [finished] at fits
    exact fits

end Anchored

end Desk

end Hermes.Billing
