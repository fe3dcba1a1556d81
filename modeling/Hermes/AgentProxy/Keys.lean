import Mathlib
import Hermes.AgentProxy.Orphan
import Hermes.Library.Like

/-!
# Which run a key belongs to

Steps are billed under the run id, a colon and the step index; completions and orphans under the
run id alone.  `charged_for_run` finds its rows by the id and by an escaped prefix pattern.  The
escaping is right for every id; what the keys cannot tell apart is a run from another whose id
continues the first id after a colon.
-/

namespace Hermes.AgentProxy

open Wallet

/-- `text.replace(old, new)` for a single character. -/
def replaceChar (old : Char) (new text : List Char) : List Char :=
  text.flatMap fun char => if char = old then new else [char]

/-- The `escaped` run id of `charged_for_run`. -/
def escapedRunId (runId : String) : List Char :=
  replaceChar '_' ['\\', '_']
    (replaceChar '%' ['\\', '%'] (replaceChar '\\' ['\\', '\\'] runId.toList))

/-- The parameter `:prefix` of `charged_for_run`. -/
def prefixPattern (runId : String) : List Char := escapedRunId runId ++ [':', '%']

/-- The `SELECT` of `charged_for_run`. -/
def selectCharged (account : Account) (runId : String) : Int :=
  ((account.ledger.filter fun row =>
    row.type == .debit &&
      (row.idempotencyKey == runId ||
        Like.like '\\' (prefixPattern runId) row.idempotencyKey.toList)).map (·.amount)).sum

theorem escapedRunId_eq (runId : String) : escapedRunId runId = Like.quote '\\' runId.toList := by
  unfold escapedRunId
  generalize runId.toList = text
  induction text with
  | nil => rfl
  | cons char text induction =>
      have cons_eq (old : Char) (new rest : List Char) :
          replaceChar old new (char :: rest) =
            (if char = old then new else [char]) ++ replaceChar old new rest := rfl
      have append_eq (old : Char) (new first rest : List Char) :
          replaceChar old new (first ++ rest) =
            replaceChar old new first ++ replaceChar old new rest := List.flatMap_append
      rw [cons_eq, append_eq, append_eq, induction, Like.quote_cons]
      congr 1
      by_cases backslash : char = '\\'
      · subst backslash
        rfl
      · by_cases percent : char = '%'
        · subst percent
          rfl
        · by_cases underscore : char = '_'
          · subst underscore
            rfl
          · simp [replaceChar, Like.special, backslash, percent, underscore]

theorem prefixPattern_eq (runId : String) :
    prefixPattern runId = Like.quote '\\' (runId ++ ":").toList ++ ['%'] := by
  have colon : Like.quote '\\' (runId ++ ":").toList =
      Like.quote '\\' runId.toList ++ [':'] := by
    rw [String.toList_append, Like.quote, List.flatMap_append]
    rfl
  rw [prefixPattern, escapedRunId_eq, colon, List.append_assoc]
  rfl

theorem selectCharged_eq (account : Account) (runId : String) :
    selectCharged account runId = account.chargedForRun runId := by
  unfold selectCharged Account.chargedForRun
  simp only [prefixPattern_eq, Like.like_quote_anyText _ _ (by decide : '\\' ≠ '%')]

def keysOf (runId : String) : Set String :=
  {key | key = runId ∨ ∃ stepIndex : Int, key = stepKey runId stepIndex}

def Separate (runs : Set String) : Prop :=
  ∀ runId ∈ runs, ∀ other ∈ runs, ¬(runId ++ ":").toList <+: other.toList

section Separate

variable {runs : Set String} {runId other key : String}

theorem billsUnder_iff :
    billsUnder runId key = true ↔ key = runId ∨ (runId ++ ":").toList <+: key.toList := by
  simp [billsUnder]

theorem billsUnder_of_mem_keysOf (billed : key ∈ keysOf runId) : billsUnder runId key = true := by
  obtain rfl | ⟨stepIndex, rfl⟩ := billed
  · exact billsUnder_self key
  · exact billsUnder_stepKey runId stepIndex

/-- Two ids before a colon at the start of one text are the same, or one continues the other. -/
theorem eq_or_continues {text : List Char} (first : (runId ++ ":").toList <+: text)
    (second : (other ++ ":").toList <+: text) :
    runId = other ∨ (runId ++ ":").toList <+: other.toList ∨
      (other ++ ":").toList <+: runId.toList := by
  have split (left right : String) : (left ++ ":").toList <+: (right ++ ":").toList →
      left = right ∨ (left ++ ":").toList <+: right.toList := by
    intro shorter
    have colon (text : String) : (text ++ ":").toList = text.toList ++ [':'] := by
      rw [String.toList_append]
      rfl
    rw [colon right] at shorter
    rw [List.prefix_concat_iff] at shorter
    rcases shorter with same | inside
    · rw [colon] at same
      exact .inl (String.toList_inj.mp (List.append_cancel_right same))
    · exact .inr inside
  rcases List.prefix_or_prefix_of_prefix first second with shorter | longer
  · rcases split runId other shorter with same | inside
    · exact .inl same
    · exact .inr (.inl inside)
  · rcases split other runId longer with same | inside
    · exact .inl same.symm
    · exact .inr (.inr inside)

theorem Separate.billsUnder_unique (separate : Separate runs) (mine : runId ∈ runs)
    (others : other ∈ runs) (first : billsUnder runId key = true)
    (second : billsUnder other key = true) : runId = other := by
  rw [billsUnder_iff] at first second
  rcases first with rfl | first
  · rcases second with same | second
    · exact same
    · exact absurd second (separate other others key mine)
  · rcases second with rfl | second
    · exact absurd first (separate runId mine key others)
    · rcases eq_or_continues first second with same | inside | inside
      · exact same
      · exact absurd inside (separate runId mine other others)
      · exact absurd inside (separate other others runId mine)

end Separate

namespace LedgerAction

/-- If it bills the user, then for one of the runs; what fills the wallet is a grant. -/
def Among (user : UserId) (runs : Set String) (_ : AgentDb) : LedgerAction → Prop
  | .process _ _ run _ => run.userId = user → run.runId ∈ runs
  | .finalize _ _ candidate => candidate.userId = user → candidate.runId ∈ runs
  | .wallet invocation => (operationMeta invocation.operation).runId = none ∧
      (invocation.context.userId = user → ∃ request, invocation.operation = .grant request)
  | .lifecycle _ => True

/-- The databases which the billing of these runs can produce. -/
def Produces (user : UserId) (runs : Set String) (db : AgentDb) : Prop :=
  Reachable step (Among user runs) {} db

theorem Among.unowned {user : UserId} {runs : Set String} {db : AgentDb} {action : LedgerAction}
    (among : action.Among user runs db) : action.Unowned db := by
  cases action with
  | process settings conditions run event => trivial
  | finalize settings conditions candidate => trivial
  | wallet invocation => exact among.1
  | lifecycle runs => trivial

theorem Among.mono {user : UserId} {runs more : Set String} {db : AgentDb} {action : LedgerAction}
    (fewer : runs ⊆ more) (among : action.Among user runs db) : action.Among user more db := by
  cases action with
  | process settings conditions run event => exact fun mine => fewer (among mine)
  | finalize settings conditions candidate => exact fun mine => fewer (among mine)
  | wallet invocation => exact among
  | lifecycle runs => trivial

theorem Produces.produced {user : UserId} {runs : Set String} {db : AgentDb}
    (produces : Produces user runs db) : Produced db := by
  apply produces.invariant Produced .start
  intro before action after produced among stepped
  exact produced.next among.unowned stepped

theorem Produces.mono {user : UserId} {runs more : Set String} {db : AgentDb}
    (fewer : runs ⊆ more) (produces : Produces user runs db) : Produces user more db := by
  apply produces.invariant (Produces user more) .start
  intro before action after produced among stepped
  exact produced.next (among.mono fewer) stepped

end LedgerAction

/-- Every debit of the ledger was made for one of the runs, under one of its keys. -/
def BilledFor (runs : Set String) (account : Account) : Prop :=
  ∀ row ∈ account.ledger, row.type = .debit →
    ∃ runId ∈ runs, row.metadata.runId = some runId ∧ billsUnder runId row.idempotencyKey = true

section Billed

variable {user : UserId} {runs : Set String} {before after : AgentDb} {userId : UserId}
  {runId key : String} {amount : Int}

theorem Charges.billedFor (charges : Charges before after userId runId key amount)
    (mine : userId = user → runId ∈ runs) (under : billsUnder runId key = true)
    (billed : BilledFor runs (before.accounts user)) : BilledFor runs (after.accounts user) := by
  by_cases same : user = userId
  · subst same
    intro row listed debit
    rcases charges.posted row listed with present | ⟨-, named, keyed⟩
    · exact billed row present debit
    · exact ⟨runId, mine rfl, named, keyed ▸ under⟩
  · rw [charges.others user same]
    exact billed

theorem billsUnder_billItem {settings : Settings} {run : RunProcessing} {event : SseEvent}
    {bill : BillItem} (item : billItem settings run event = some bill) :
    billsUnder run.runId bill.key = true := by
  unfold billItem at item
  split at item
  · split at item
    · cases item
      exact billsUnder_stepKey run.runId _
    · cases item
  · split at item
    · cases item
    · cases item
      exact billsUnder_self run.runId
  · cases item

theorem Call.billedFor_grant {context : Context} {request : GrantRequest} {ending : Ending}
    {account : Account} (billed : BilledFor runs account) :
    BilledFor runs (Call.run ⟨context, .grant request, ending⟩ account).2 := by
  rcases Call.run_grant context request ending account with same | ⟨-, result, credit⟩
  · rw [same]
    exact billed
  · generalize (Call.run ⟨context, .grant request, ending⟩ account).2 = final at credit
    cases credit with
    | mismatched | replayed => exact billed
    | credited =>
        intro row listed debit
        rw [Account.ledger_record] at listed
        rcases List.mem_append.mp listed with present | new
        · exact billed row present debit
        · rw [List.mem_singleton.mp new] at debit
          cases debit

theorem LedgerAction.billedFor_step {action : LedgerAction}
    (billed : BilledFor runs (before.accounts user)) (among : action.Among user runs before)
    (stepped : LedgerAction.step before action = some after) :
    BilledFor runs (after.accounts user) := by
  rcases LedgerAction.step_cases stepped with same | ⟨invocation, rfl, called⟩ |
    ⟨settings, conditions, run, event, bill, rfl, item, charges⟩ |
    ⟨settings, conditions, candidate, rfl, charges⟩
  · rw [same]
    exact billed
  · rw [called]
    rcases LedgerAction.accounts_wallet before.accounts invocation user with same | ⟨mine, ran⟩
    · rw [same]
      exact billed
    · rw [ran]
      obtain ⟨context, operation, ending⟩ := invocation
      obtain ⟨request, rfl⟩ := among.2 mine
      exact Call.billedFor_grant billed
  · exact charges.billedFor among (billsUnder_billItem item) billed
  · exact charges.billedFor among (billsUnder_self candidate.runId) billed

theorem LedgerAction.Produces.billedFor {db : AgentDb}
    (produces : LedgerAction.Produces user runs db) : BilledFor runs (db.accounts user) := by
  apply produces.invariant fun db => BilledFor runs (db.accounts user)
  · intro row listed
    cases listed
  · intro before action after billed among stepped
    exact LedgerAction.billedFor_step billed among stepped

/-- Where every key bills one run, `charged_for_run` finds the debits of the run and no others. -/
theorem selectCharged_of_billedFor {account : Account} (separate : Separate runs)
    (billed : BilledFor runs account) (mine : runId ∈ runs) :
    selectCharged account runId = debitsOf account runId := by
  rw [selectCharged_eq, Account.chargedForRun, debitsOf]
  congr 2
  apply List.filter_congr
  intro row listed
  cases debit : row.type with
  | credit => rfl
  | debit =>
      obtain ⟨other, others, named, under⟩ := billed row listed debit
      change billsUnder runId row.idempotencyKey = (row.metadata.runId == some runId)
      rw [named]
      by_cases same : other = runId
      · subst same
        simp [under]
      · have elsewhere : billsUnder runId row.idempotencyKey = false := by
          rw [Bool.eq_false_iff]
          intro first
          exact same (separate.billsUnder_unique mine others first under).symm
        simp [elsewhere, same]

end Billed

section Shadowed

variable {user : UserId} {runId other : String}

theorem billsUnder_of_shadows {key : String} (shadows : (runId ++ ":").toList <+: other.toList)
    (under : billsUnder other key = true) : billsUnder runId key = true := by
  rw [billsUnder_iff] at under ⊢
  rcases under with rfl | longer
  · exact .inr shadows
  · apply Or.inr
    apply shadows.trans
    apply List.IsPrefix.trans _ longer
    rw [String.toList_append]
    exact List.prefix_append _ _

/-- The debits of a shadowed run are counted as charges of the run which shadows it. -/
theorem selectCharged_of_shadows {account : Account} (billed : BilledFor {other} account)
    (shadows : (runId ++ ":").toList <+: other.toList) :
    selectCharged account runId = debitsOf account other := by
  rw [selectCharged_eq, Account.chargedForRun, debitsOf]
  congr 2
  apply List.filter_congr
  intro row listed
  cases debit : row.type with
  | credit => rfl
  | debit =>
      obtain ⟨owner, rfl, named, under⟩ := billed row listed debit
      change billsUnder runId row.idempotencyKey = (row.metadata.runId == some owner)
      rw [billsUnder_of_shadows shadows under, named]
      simp

theorem debitsOf_of_other {account : Account} (billed : BilledFor {other} account)
    (differs : runId ≠ other) : debitsOf account runId = 0 := by
  rw [debitsOf]
  have none_found : account.ledger.filter (fun row =>
      row.type == .debit && row.metadata.runId == some runId) = [] := by
    rw [List.filter_eq_nil_iff]
    intro row listed found
    rw [Bool.and_eq_true, beq_iff_eq, beq_iff_eq] at found
    obtain ⟨owner, rfl, named, -⟩ := billed row listed found.1
    rw [named] at found
    exact differs (Option.some.inj found.2).symm
  rw [none_found]
  rfl

/-- Settings under which any usage costs one credit. -/
def unitSettings : Settings where
  rates := .floats (.finite 0) (.finite 0)
  agentIncrementalBillingEnabled := false
  agentDebtReconcileEnabled := false
  agentStateFlushIntervalSeconds := 0
  agentStateResultTextMaxChars := 0

def oneCredit (user : UserId) (key : String) : Call :=
  ⟨unitSettings.context user, .grant ⟨1, key, {}, "purchase", ⟨1⟩⟩, .commit⟩

/-- A run of which the sweep has seen one token. -/
def oneToken (user : UserId) (runId : String) : OrphanCandidate := ⟨runId, user, true, 0, 1, 0⟩

def credited (user : UserId) (key : String) : AgentDb :=
  { accounts := Accounts.empty.step (oneCredit user key) }

theorem credited_account (user : UserId) (key : String) :
    (credited user key).accounts user =
      { wallet := some ⟨1, 0⟩
        ledger := [⟨⟨1⟩, .credit, 1, {}, key⟩]
        audit := [.billingCredit ⟨1⟩ 1 1 "purchase"] } := by
  rw [credited, Accounts.step]
  exact Function.update_self _ _ _

theorem oneToken_priced : usageToCredits unitSettings.rates 1 0 = .ok 1 := by decide +kernel

theorem orphanOwed_credited (user : UserId) (key runId : String) :
    orphanOwed unitSettings (oneToken user runId) (credited user key) = 1 := by
  change max (unitSettings.rates.price 1 0 -
    ((credited user key).accounts user).chargedForRun runId) 0 = 1
  rw [credited_account, price_of_ok oneToken_priced]
  rfl

theorem exists_debit (user : UserId) (differs : runId ≠ other) :
    ∃ db, LedgerAction.Produces user {other} db ∧ debitsOf (db.accounts user) other = 1 := by
  have granted : LedgerAction.Produces user {other} (credited user runId) := by
    have among : (LedgerAction.wallet (oneCredit user runId)).Among user {other} {} :=
      ⟨rfl, fun _ => ⟨_, rfl⟩⟩
    exact Reachable.start.next among rfl
  have stored := (granted.produced.kept user).stored
  have account_eq := credited_account user runId
  have owed_eq := orphanOwed_credited user runId other
  have free : ((credited user runId).accounts user).existing other = none := by
    rw [account_eq]
    simp [Account.existing, differs]
  have payable : Payable unitSettings other
      (orphanOwed unitSettings (oneToken user other) (credited user runId))
      ((credited user runId).accounts user) := by
    intro _
    rw [free, owed_eq, account_eq]
    exact .inl le_rfl
  obtain ⟨charged, left, ran⟩ :
      ∃ charged, OrphanCharged unitSettings (oneToken user other)
        (orphanOwed unitSettings (oneToken user other) (credited user runId))
        (credited user runId) charged ∧ _ :=
    finalizeOrphanRun_payable { newId := ⟨2⟩ } stored rfl ⟨1, oneToken_priced⟩ payable
  have among : (LedgerAction.finalize unitSettings { newId := ⟨2⟩ } (oneToken user other)).Among
      user {other} (credited user runId) := fun _ => rfl
  refine ⟨_, granted.next among rfl, ?_⟩
  rw [ran]
  have debits := left.leaves.debits
  rw [owed_eq] at debits
  change debitsOf (charged.accounts user) other = 1
  change debitsOf (charged.accounts user) other =
    debitsOf ((credited user runId).accounts user) other +
      orphanTake unitSettings other 1 ((credited user runId).accounts user) at debits
  rw [debits, orphanTake, free, account_eq]
  rfl

end Shadowed

/-- Whatever strings the upstream gives its runs: `charged_for_run` finds exactly the debits of its
run in everything their billing can produce, and no key bills two runs, if and only if no run id is
another one, a colon, and more. -/
theorem charges_attributed_iff (user : UserId) (runs : Set String) :
    ((∀ db, LedgerAction.Produces user runs db → ∀ runId ∈ runs,
        selectCharged (db.accounts user) runId = debitsOf (db.accounts user) runId) ∧
      ∀ runId ∈ runs, ∀ other ∈ runs, runId ≠ other → Disjoint (keysOf runId) (keysOf other)) ↔
      Separate runs := by
  constructor
  · rintro ⟨attributed, -⟩ runId mine other others shadows
    have differs : runId ≠ other := by
      rintro rfl
      have longer := shadows.length_le
      rw [String.toList_append, List.length_append] at longer
      change runId.toList.length + 1 ≤ runId.toList.length at longer
      omega
    obtain ⟨db, produces, debited⟩ := exists_debit user differs
    have billed := produces.billedFor
    have charged := attributed db (produces.mono (Set.singleton_subset_iff.mpr others)) runId mine
    rw [selectCharged_of_shadows billed shadows, debited, debitsOf_of_other billed differs]
      at charged
    cases charged
  · intro separate
    constructor
    · intro db produces runId mine
      exact selectCharged_of_billedFor separate produces.billedFor mine
    · intro runId mine other others differs
      rw [Set.disjoint_left]
      intro key first second
      exact differs (separate.billsUnder_unique mine others (billsUnder_of_mem_keysOf first)
        (billsUnder_of_mem_keysOf second))

/-- The step keys of `a:1` are found among the charges of `a`. -/
theorem shadowed_run_charged :
    ∃ db, LedgerAction.Produces ⟨1⟩ {"a", "a:1"} db ∧
      selectCharged (db.accounts ⟨1⟩) "a" ≠ debitsOf (db.accounts ⟨1⟩) "a" ∧
      "a:1" ∈ keysOf "a" ∧ "a:1" ∈ keysOf "a:1" := by
  have differs : "a" ≠ "a:1" := by decide
  obtain ⟨db, produces, debited⟩ := exists_debit ⟨1⟩ differs
  have billed := produces.billedFor
  refine ⟨db, produces.mono (by simp), ?_, .inr ⟨1, by decide⟩, .inl rfl⟩
  rw [selectCharged_of_shadows billed (by decide), debited, debitsOf_of_other billed differs]
  decide

end Hermes.AgentProxy
