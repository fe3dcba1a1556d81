import Hermes.Wallet.Lockstep

/-!
# Executing a statement among others

Position by position: a statement which no concurrent commit has overtaken leaves its transaction
in step with the call run alone, or ends it the way the call run alone ends.
-/

namespace Hermes.Wallet

variable {β : Type} {invocation : Call} {committed : Account} {tx after : Tx}
  {context : Context} {request : ConsumeRequest} {ending : Ending}

/-- How a statement ends for the rest of its transaction: in step, or failed like the call. -/
def Settled (invocation : Call) (committed : Account) (next : β → Program Sql Outcome) :
    Except DbError (β × Tx) → Prop
  | .error failure => invocation.run committed = (.failed failure, committed)
  | .ok (answer, after) => Settles invocation committed (next answer) after

theorem Call.InStep.settled {stmt : Sql β} {next : β → Program Sql Outcome} {view : Account}
    (inStep : invocation.InStep (.issue stmt next) tx committed)
    (same : Sql.exec view committed _ stmt tx = Sql.exec committed committed _ stmt tx)
    (goes : ∀ answer after, Sql.exec committed committed _ stmt tx = .ok (answer, after) →
      invocation.InStep (next answer) after committed →
        Settles invocation committed (next answer) after) :
    Settled invocation committed next (Sql.exec view committed _ stmt tx) := by
  rw [same]
  cases executed : Sql.exec committed committed _ stmt tx with
  | error failure => exact inStep.failed executed
  | ok step => exact goes step.1 step.2 executed (inStep.issue executed)

theorem Relies.empty {key : String} {mark : Option LedgerTransaction} {account : Account}
    (relies : Relies key mark tx account) (clean : after.work = {}) :
    Relies key mark after account := by
  refine ⟨relies.present, relies.taken, ?_⟩
  rw [clean]
  simp

theorem Relies.pending {key : String} {row : LedgerTransaction} {account : Account}
    (relies : Relies key none tx account) (inserted : after.work.rows = [row])
    (fresh : account.existing row.idempotencyKey = none) : Relies key none after account := by
  refine ⟨relies.present, relies.taken, ?_⟩
  rw [inserted]
  simpa using fresh

theorem Relies.unmarked {key : String} {mark : Option LedgerTransaction} {account : Account}
    (relies : Relies key mark tx account) : Relies key none tx account :=
  ⟨relies.present, by simp, relies.fresh⟩

theorem Relies.mark {key : String} {mark : Option LedgerTransaction}
    {holder : LedgerTransaction} {account : Account} (relies : Relies key mark tx account)
    (taken : account.existing key = some holder) : Relies key (some holder) tx account :=
  ⟨relies.present, by simpa using taken, relies.fresh⟩

/-- A replay whose balance is still to be read settles, if it is in step on all later data. -/
theorem settles_reading {next : Option WalletRow → Program Sql Outcome}
    {holder : LedgerTransaction} (answer : Int → Outcome)
    (relies : Relies invocation.key (some holder) tx committed) (clean : tx.work = {})
    (closes : ∀ wallet : Option WalletRow,
      Idle none (next wallet) tx (answer ((wallet.map (·.balance)).getD 0)))
    (follows : ∀ account, Relies invocation.key (some holder) tx account →
      invocation.InStep (.issue .selectWallet next) tx account) :
    Settles invocation committed (.issue .selectWallet next) tx := by
  refine .inl (.reading answer relies clean closes ?_)
  intro account relies_account
  have read : Sql.exec account account _ .selectWallet tx = .ok (account.wallet, tx) := by
    simp [Sql.exec, clean, Work.empty_onto]
  exact ((follows account relies_account).issue read).idle (closes account.wallet) (by simp)

theorem settles_done {outcome : Outcome} (clean : tx.work = {})
    (inStep : invocation.InStep (.done outcome) tx committed) :
    Settles invocation committed (.done outcome) tx := by
  have closes : Idle none (.done outcome) tx outcome := .done outcome clean
  exact .inr ⟨outcome, closes, inStep.idle closes (by simp)⟩

section Debit

abbrev debitCall (context : Context) (request : ConsumeRequest) (ending : Ending) : Call :=
  ⟨context, .consume request, ending⟩

variable {view : Account}

theorem clampLook_settled (admitted : Admitted context request)
    (incremental : request.metadata.incremental = true)
    (relies : Relies request.idempotencyKey none {} committed)
    (follows : ∀ account, Relies request.idempotencyKey none {} account → True →
      (debitCall context request ending).InStep (reportConsume
        (.issue (.selectLedger request.idempotencyKey) (clampFound request))) {} account) :
    Settled (debitCall context request ending) committed
      (fun found => reportConsume (clampFound request found))
      (Sql.exec view committed _ (.selectLedger request.idempotencyKey) {}) := by
  rw [exec_selectLedger view committed _ rfl]
  cases taken : committed.existing request.idempotencyKey with
  | some holder =>
      refine settles_reading (fun balance => .consumed ⟨balance, holder.id, true, 0⟩)
        (relies.mark taken) rfl (fun wallet => .done _ rfl) ?_
      intro account relies_account
      have looked : Sql.exec account account _ (.selectLedger request.idempotencyKey) {} =
          .ok (some holder, {}) := exec_select_taken rfl (relies_account.taken holder rfl)
      exact (follows account relies_account.unmarked trivial).issue looked
  | none =>
      by_cases fits : fitsBigint request.amount = true
      · exact .inl (.debiting rfl admitted (.clamp fits) relies fun account relies_account _ =>
          follows_clamp admitted incremental fits account relies_account.present)
      · have refused (view account : Account) : Sql.exec view account _
            (.clampDebit (request.row request.amount)) {} = .error .outOfRange := by
          simp [Sql.exec, ConsumeRequest.row, fits]
        have unfound : Sql.exec committed committed _
            (.selectLedger request.idempotencyKey) {} = .ok (none, {}) := by
          rw [exec_selectLedger committed committed _ rfl, taken]
        exact .inr ⟨_, .fails rfl refused,
          ((follows committed relies trivial).issue unfound).failed (refused committed committed)⟩

theorem clamp_settled (relies : Relies request.idempotencyKey none {} committed)
    (follows : ∀ account, Relies request.idempotencyKey none {} account → True →
      (debitCall context request ending).InStep (reportConsume
        (.issue (.clampDebit (request.row request.amount)) (clampAnswered request))) {} account) :
    Settled (debitCall context request ending) committed
      (fun answer => reportConsume (clampAnswered request answer))
      (Sql.exec view committed _ (.clampDebit (request.row request.amount)) {}) := by
  refine (follows committed relies trivial).settled rfl ?_
  intro answer after executed inStep
  obtain ⟨wallet, found⟩ := Option.isSome_iff_exists.mp relies.present
  have locked : after.work.wallet.isSome := by
    obtain ⟨-, -, rfl⟩ | ⟨-, -, -, -, rfl⟩ :=
      clampDebit_ok (by rw [view_empty]; exact found) executed
    · rfl
    · rfl
  refine .inl (.holding ⟨locked, .inr ?_⟩ inStep)
  unfold clampAnswered
  split
  · exact .issue rfl fun _ => .done _
  · exact .issue rfl fun _ => .done _

theorem reconciles_iff (plain : request.metadata.incremental = false) :
    (debitCall context request ending).reconciles =
      agentReconcileApplies context request.metadata := by
  simp [Call.reconciles, plain]

theorem fullInsert_settled (admitted : Admitted context request)
    (plain : request.metadata.incremental = false)
    (relies : Relies request.idempotencyKey none .opened committed)
    (follows : ∀ account, Relies request.idempotencyKey none .opened account →
      CalmFull context request account →
      (debitCall context request ending).InStep (reportConsume
        (.issue (.insertLedger (request.row request.amount)) (fullInserted request)))
        .opened account)
    (undisturbed : (debitCall context request ending).Undisturbed view committed .opened
      (.insertLedger (request.row request.amount))) :
    Settled (debitCall context request ending) committed
      (fun inserted => reportConsume (fullInserted request inserted))
      (Sql.exec view committed _ (.insertLedger (request.row request.amount)) .opened) := by
  have clear (agent : agentReconcileApplies context request.metadata = true) :
      (∀ holder, committed.existing request.idempotencyKey = some holder →
        request.Matches holder) ∧
      (fitsBigint request.amount = false → committed.balance ≤ 0) := by
    have kept := undisturbed (by rw [reconciles_iff plain]; exact agent) rfl
    simpa [Tx.opened, Work.empty_onto, ConsumeRequest.Matches, ConsumeRequest.row] using kept
  by_cases fits : fitsBigint request.amount = true
  · cases taken : committed.existing request.idempotencyKey with
    | some holder =>
        have executed : Sql.exec view committed _ (.insertLedger (request.row request.amount))
            .opened = .ok (none, .opened) := exec_insert_taken rfl fits taken
        rw [executed]
        have same (agent : agentReconcileApplies context request.metadata = true) :
            request.Matches holder := (clear agent).1 holder taken
        refine .inl (.debiting rfl admitted (.fullRelease same) (relies.mark taken) ?_)
        intro account relies_account _
        refine (follows account relies_account.unmarked ?_).issue
          (exec_insert_taken rfl fits (relies_account.taken holder rfl))
        intro agent
        rw [relies_account.taken holder rfl]
        exact ⟨by simp, by rintro _ ⟨⟩; exact same agent⟩
    | none =>
        have executed : Sql.exec view committed _ (.insertLedger (request.row request.amount))
            .opened = .ok (some request.newId, .pending (request.row request.amount)) :=
          exec_insert_fresh rfl fits admitted.positive taken
        rw [executed]
        have fresh : Relies request.idempotencyKey none
            (.pending (request.row request.amount)) committed :=
          relies.pending rfl taken
        refine .inl (.debiting rfl admitted (.fullDebit plain (by simp)) fresh ?_)
        intro account relies_account calm
        have fresh_account : account.existing request.idempotencyKey = none :=
          relies_account.fresh (request.row request.amount) (by simp [Tx.pending])
        exact (follows account (relies_account.empty rfl) calm).issue
          (exec_insert_fresh rfl fits admitted.positive fresh_account)
  · have refused (view : Account) : Sql.exec view committed _
        (.insertLedger (request.row request.amount)) .opened = .error .outOfRange := by
      simp [Sql.exec, ConsumeRequest.row, fits]
    rw [refused]
    refine (follows committed relies ?_).failed (refused committed)
    intro agent
    obtain ⟨matched, empty⟩ := clear agent
    exact ⟨fun _ => .inr (empty (by simpa using fits)), matched⟩

/-- A conditional debit whose snapshot holds the balance looks only at the latest row. -/
theorem exec_debitBalance_current {amount : Int} (unlocked : tx.work.wallet = none)
    (positive : 0 < amount) (enough : amount ≤ view.balance) :
    Sql.exec view committed _ (.debitBalance amount) tx =
      Sql.exec committed committed _ (.debitBalance amount) tx := by
  cases found : view.wallet with
  | none =>
      simp only [Account.balance, found, Option.map_none, Option.getD_none] at enough
      omega
  | some old =>
      simp only [Account.balance, found, Option.map_some, Option.getD_some] at enough
      cases current : committed.wallet <;>
        simp [Sql.exec, Work.onto, unlocked, found, current, enough]

theorem fullDebit_settled (admitted : Admitted context request)
    (plain : request.metadata.incremental = false)
    (enough : request.amount ≤ view.balance ∨
      agentReconcileApplies context request.metadata = true ∧ 0 < view.balance)
    (relies : Relies request.idempotencyKey none (.pending (request.row request.amount))
      committed)
    (follows : ∀ account,
      Relies request.idempotencyKey none (.pending (request.row request.amount)) account →
      CalmFull context request account →
      (debitCall context request ending).InStep (reportConsume
        (.issue (.debitBalance request.amount) (fullUpdated request request.newId)))
        (.pending (request.row request.amount)) account)
    (undisturbed : (debitCall context request ending).Undisturbed view committed
      (.pending (request.row request.amount)) (.debitBalance request.amount)) :
    Settled (debitCall context request ending) committed
      (fun updated => reportConsume (fullUpdated request request.newId updated))
      (Sql.exec view committed _ (.debitBalance request.amount)
        (.pending (request.row request.amount))) := by
  have fresh : committed.existing request.idempotencyKey = none :=
    relies.fresh (request.row request.amount) (by simp [Tx.pending])
  have seen_balance (account : Account) :
      ((Tx.pending (request.row request.amount)).work.onto account).balance = account.balance := rfl
  have clear (agent : agentReconcileApplies context request.metadata = true) :
      if request.amount ≤ view.balance then
        request.amount ≤ committed.balance ∨ committed.balance ≤ 0
      else view.balance ≤ 0 := by
    have kept := undisturbed (by rw [reconciles_iff plain]; exact agent)
    simpa only [seen_balance] using kept
  have enough : request.amount ≤ view.balance := by
    rcases enough with enough | ⟨agent, positive⟩
    · exact enough
    · by_contra short
      have empty := clear agent
      rw [if_neg short] at empty
      omega
  have calm : CalmFull context request committed := by
    intro agent
    have open_balance := clear agent
    rw [if_pos enough] at open_balance
    exact ⟨fun _ => open_balance, by simp [fresh]⟩
  refine (follows committed relies calm).settled
    (exec_debitBalance_current rfl admitted.positive enough) ?_
  intro answer after executed inStep
  obtain ⟨wallet, found⟩ := Option.isSome_iff_exists.mp relies.present
  have present : ((Tx.pending (request.row request.amount)).view committed).wallet =
      some wallet := found
  obtain ⟨-, rfl, rfl⟩ | ⟨-, -, rfl, rfl⟩ := debitBalance_ok present executed
  · have closes : Idle none (reportConsume (fullUpdated request request.newId none))
        (.pending (request.row request.amount)) (.raised .insufficientCredits) :=
      .rollback rfl (.done _ rfl)
    exact .inr ⟨_, closes, inStep.idle closes (by simp)⟩
  · refine .inl (.holding ⟨rfl, .inr ?_⟩ inStep)
    exact .issue rfl fun _ => .issue rfl fun _ => .done _

theorem fullLook_settled {holder : LedgerTransaction}
    (relies : Relies request.idempotencyKey (some holder) {} committed)
    (follows : ∀ account, Relies request.idempotencyKey (some holder) {} account → True →
      (debitCall context request ending).InStep (reportConsume
        (.issue (.selectLedger request.idempotencyKey) (fullFound request))) {} account) :
    Settled (debitCall context request ending) committed
      (fun found => reportConsume (fullFound request found))
      (Sql.exec view committed _ (.selectLedger request.idempotencyKey) {}) := by
  have looked (account : Account)
      (relies_account : Relies request.idempotencyKey (some holder) {} account) :
      (debitCall context request ending).InStep
        (reportConsume (fullFound request (some holder))) {} account := by
    exact (follows account relies_account trivial).issue
      (exec_select_taken rfl (relies_account.taken holder rfl))
  rw [exec_selectLedger view committed _ rfl, relies.taken holder rfl]
  change Settles _ _ (reportConsume (fullFound request (some holder))) {}
  have inStep := looked committed relies
  simp only [fullFound] at looked inStep ⊢
  split at looked
  next differs =>
    rw [if_pos differs] at inStep ⊢
    exact settles_done rfl inStep
  next same =>
    rw [if_neg same]
    exact settles_reading (fun balance => .consumed ⟨balance, holder.id, true, 0⟩) relies rfl
      (fun wallet => .done _ rfl) looked

theorem agentLook_settled (admitted : Admitted context request)
    (agent : AgentMode context request)
    (relies : Relies request.idempotencyKey none {} committed)
    (follows : ∀ account, Relies request.idempotencyKey none {} account → True →
      (debitCall context request ending).InStep (reportConsume
        (.issue (.selectLedger request.idempotencyKey) (agentFound request))) {} account) :
    Settled (debitCall context request ending) committed
      (fun found => reportConsume (agentFound request found))
      (Sql.exec view committed _ (.selectLedger request.idempotencyKey) {}) := by
  rw [exec_selectLedger view committed _ rfl]
  cases taken : committed.existing request.idempotencyKey with
  | some holder =>
      refine settles_reading (fun balance => .consumed ⟨balance, holder.id, true, 0⟩)
        (relies.mark taken) rfl (fun wallet => .done _ rfl) ?_
      intro account relies_account
      have looked : Sql.exec account account _ (.selectLedger request.idempotencyKey) {} =
          .ok (some holder, {}) := exec_select_taken rfl (relies_account.taken holder rfl)
      exact (follows account relies_account.unmarked trivial).issue looked
  | none =>
      exact .inl (.debiting rfl admitted (.agentBalance agent) relies fun _ _ => False.elim)

/-- The full debit of the agent path starts in step wherever it is calm. -/
theorem settles_full (admitted : Admitted context request)
    (plain : request.metadata.incremental = false)
    (relies : Relies request.idempotencyKey none {} committed) :
    Settles (debitCall context request ending) committed (reportConsume (consumeInFull request))
      {} := by
  have follows (account : Account) (relies_account : Relies request.idempotencyKey none {} account)
      (calm : CalmFull context request account) : (debitCall context request ending).InStep
        (reportConsume (consumeInFull request)) {} account :=
    follows_full admitted plain account relies_account.present calm
  rw [consumeInFull_eq] at follows ⊢
  exact .inl (.debiting rfl admitted (.fullOpen plain) relies follows)

theorem agentBalance_settled (admitted : Admitted context request)
    (agent : AgentMode context request)
    (relies : Relies request.idempotencyKey none {} committed)
    (stored : ∀ wallet, committed.wallet = some wallet → wallet.Stored) :
    Settled (debitCall context request ending) committed
      (fun wallet => reportConsume (agentRead request ((wallet.map (·.balance)).getD 0)))
      (Sql.exec view committed _ .selectWallet {}) := by
  obtain ⟨wallet, found⟩ := Option.isSome_iff_exists.mp relies.present
  have read : Sql.exec view committed _ .selectWallet {} = .ok (some wallet, {}) := by
    simp [Sql.exec, Work.empty_onto, found]
  rw [read]
  change Settles _ _ (reportConsume (agentRead request wallet.balance)) {}
  unfold agentRead
  split
  · exact settles_full admitted agent.plain relies
  next short =>
    split
    · exact settles_full admitted agent.plain relies
    next positive =>
      have part : request.Part wallet.balance :=
        ⟨by omega, by omega, (stored wallet found).balance_fits⟩
      exact .inl (.debiting rfl admitted (.partOpen agent part) relies
        fun account relies_account calm =>
          follows_part admitted agent part account relies_account.present calm)

theorem partInsert_settled {balance : Int} (admitted : Admitted context request)
    (agent : AgentMode context request) (part : request.Part balance)
    (relies : Relies request.idempotencyKey none .opened committed)
    (follows : ∀ account, Relies request.idempotencyKey none .opened account →
      CalmPart request balance account →
      (debitCall context request ending).InStep (reportConsume
        (.issue (.insertLedger (request.row balance)) (partInserted request balance)))
        .opened account) :
    Settled (debitCall context request ending) committed
      (fun inserted => reportConsume (partInserted request balance inserted))
      (Sql.exec view committed _ (.insertLedger (request.row balance)) .opened) := by
  cases taken : committed.existing request.idempotencyKey with
  | some holder =>
      have executed : Sql.exec view committed _ (.insertLedger (request.row balance)) .opened =
          .ok (none, .opened) := exec_insert_taken rfl part.fits taken
      rw [executed]
      refine .inl (.debiting rfl admitted .partLook (relies.mark taken) ?_)
      intro account relies_account _
      have found : account.existing request.idempotencyKey = some holder :=
        relies_account.taken holder rfl
      refine (follows account relies_account.unmarked ?_).issue
        (exec_insert_taken rfl part.fits found)
      intro fresh
      rw [found] at fresh
      cases fresh
  | none =>
      have executed : Sql.exec view committed _ (.insertLedger (request.row balance)) .opened =
          .ok (some request.newId, .pending (request.row balance)) :=
        exec_insert_fresh rfl part.fits part.positive taken
      rw [executed]
      refine .inl (.debiting rfl admitted (.partUpdate agent part) (relies.pending rfl taken) ?_)
      intro account relies_account calm
      have fresh : account.existing request.idempotencyKey = none :=
        relies_account.fresh (request.row balance) (by simp [Tx.pending])
      exact (follows account (relies_account.empty rfl) calm).issue
        (exec_insert_fresh rfl part.fits part.positive fresh)

theorem partUpdate_settled {balance : Int} (admitted : Admitted context request)
    (agent : AgentMode context request) (part : request.Part balance)
    (relies : Relies request.idempotencyKey none (.pending (request.row balance)) committed)
    (follows : ∀ account,
      Relies request.idempotencyKey none (.pending (request.row balance)) account →
      CalmPart request balance account →
      (debitCall context request ending).InStep (reportConsume
        (.issue (.debitAccruingDebt balance (request.amount - balance))
          (partUpdated request balance request.newId)))
        (.pending (request.row balance)) account)
    (undisturbed : (debitCall context request ending).Undisturbed view committed
      (.pending (request.row balance)) (.debitAccruingDebt balance (request.amount - balance))) :
    Settled (debitCall context request ending) committed
      (fun updated => reportConsume (partUpdated request balance request.newId updated))
      (Sql.exec view committed _ (.debitAccruingDebt balance (request.amount - balance))
        (.pending (request.row balance))) := by
  have seen_balance (account : Account) :
      ((Tx.pending (request.row balance)).work.onto account).balance = account.balance := rfl
  have positive := part.positive
  obtain ⟨overflow_calm, match_calm⟩ := undisturbed
  rw [seen_balance, seen_balance] at match_calm
  rw [seen_balance] at overflow_calm
  by_cases fits : fitsBigint (request.amount - balance) = true
  · by_cases matched : balance ≤ view.balance ∧ balance ≤ committed.balance
    · have same_balance := match_calm matched.1 matched.2
      have same : Sql.exec view committed _
          (.debitAccruingDebt balance (request.amount - balance))
          (.pending (request.row balance)) =
          Sql.exec committed committed _
          (.debitAccruingDebt balance (request.amount - balance))
          (.pending (request.row balance)) := by
        obtain ⟨old, old_found⟩ : ∃ old, view.wallet = some old := by
          cases found : view.wallet with
          | none =>
              simp only [Account.balance, found, Option.map_none, Option.getD_none] at matched
              omega
          | some old => exact ⟨old, rfl⟩
        obtain ⟨wallet, found⟩ := Option.isSome_iff_exists.mp relies.present
        have enough : balance ≤ old.balance := by simpa [Account.balance, old_found] using matched.1
        simp [Sql.exec, Work.onto, Tx.pending, old_found, found, enough]
      refine (follows committed relies fun _ => .inl same_balance).settled same ?_
      intro answer after executed inStep
      obtain ⟨wallet, found⟩ := Option.isSome_iff_exists.mp relies.present
      have present : ((Tx.pending (request.row balance)).view committed).wallet =
          some wallet := found
      have covered : balance ≤ wallet.balance := by
        simpa [Account.balance, found] using matched.2
      obtain ⟨-, rfl, rfl⟩ := debitAccruingDebt_ok present covered executed
      refine .inl (.holding ⟨rfl, .inr ?_⟩ inStep)
      exact .issue rfl fun _ => .issue rfl fun _ => .done _
    · have missed : Sql.exec view committed _
          (.debitAccruingDebt balance (request.amount - balance))
          (.pending (request.row balance)) = .ok (none, .pending (request.row balance)) := by
        cases old_found : view.wallet with
        | none => simp [Sql.exec, Work.onto, Tx.pending, fits, old_found]
        | some old =>
            cases found : committed.wallet with
            | none => simp [Sql.exec, Work.onto, Tx.pending, fits, old_found, found]
            | some wallet =>
                have short : ¬(balance ≤ old.balance ∧ balance ≤ wallet.balance) := by
                  simpa [Account.balance, old_found, found] using matched
                simp [Sql.exec, Work.onto, Tx.pending, fits, old_found, found]
                intro first second
                exact absurd ⟨first, second⟩ short
      rw [missed]
      exact .inl (.debiting rfl admitted (.partReturn agent) relies fun _ _ => False.elim)
  · have refused (view : Account) : Sql.exec view committed _
        (.debitAccruingDebt balance (request.amount - balance))
        (.pending (request.row balance)) = .error .outOfRange := by
      simp [Sql.exec, fits]
    rw [Bool.not_eq_true] at fits
    rw [refused]
    refine (follows committed relies fun _ => ?_).failed (refused committed)
    rcases overflow_calm fits with same | empty
    · exact .inl same
    · exact .inr ⟨empty, fits⟩

theorem partLook_settled {holder : LedgerTransaction}
    (relies : Relies request.idempotencyKey (some holder) .opened committed)
    (follows : ∀ account, Relies request.idempotencyKey (some holder) .opened account → True →
      (debitCall context request ending).InStep (reportConsume
        (.issue (.selectLedger request.idempotencyKey) partFound)) .opened account) :
    Settled (debitCall context request ending) committed
      (fun found => reportConsume (partFound found))
      (Sql.exec view committed _ (.selectLedger request.idempotencyKey) .opened) := by
  rw [exec_selectLedger view committed _ rfl, relies.taken holder rfl]
  refine settles_reading (fun balance => .consumed ⟨balance, holder.id, true, 0⟩) relies rfl
    (fun wallet => .release (.done _ rfl)) ?_
  intro account relies_account
  have looked : Sql.exec account account _ (.selectLedger request.idempotencyKey) .opened =
      .ok (some holder, .opened) := exec_select_taken rfl (relies_account.taken holder rfl)
  exact (follows account relies_account trivial).issue looked

/-- Every statement a debit executes before it holds the wallet row settles. -/
theorem Debiting.settled {snapshot : Option Account}
    {program : Program Sql (Except WalletError ConsumeResult)}
    {mark : Option LedgerTransaction} {calm : Account → Prop} {stmt : Sql β}
    {next : β → Program Sql Outcome}
    (position : Debiting context request snapshot program tx mark calm)
    (admitted : Admitted context request)
    (relies : Relies request.idempotencyKey mark tx committed)
    (follows : ∀ account, Relies request.idempotencyKey mark tx account → calm account →
      (debitCall context request ending).InStep (reportConsume program) tx account)
    (stored : ∀ wallet, committed.wallet = some wallet → wallet.Stored)
    (arrived : snapshot = some view) (issues : reportConsume program = .issue stmt next)
    (undisturbed : (debitCall context request ending).Undisturbed view committed tx stmt) :
    Settled (debitCall context request ending) committed next
      (Sql.exec view committed _ stmt tx) := by
  cases position with
  | clampLook incremental =>
      cases issues
      exact clampLook_settled admitted incremental relies follows
  | clamp fits =>
      cases issues
      exact clamp_settled relies follows
  | fullOpen plain =>
      cases issues
      refine .inl (.debiting rfl admitted (.fullInsert plain) (relies.empty rfl) ?_)
      intro account relies_account calm
      exact (follows account (relies_account.empty rfl) calm).issue rfl
  | fullInsert plain =>
      cases issues
      exact fullInsert_settled admitted plain relies follows undisturbed
  | fullDebit plain enough =>
      cases issues
      exact fullDebit_settled admitted plain (enough view arrived) relies follows undisturbed
  | fullRelease same =>
      cases issues
      refine .inl (.debiting rfl admitted .fullLook (relies.empty rfl) ?_)
      intro account relies_account calm
      exact (follows account (relies_account.empty rfl) calm).issue rfl
  | fullLook =>
      cases issues
      exact fullLook_settled relies follows
  | agentLook agent =>
      cases issues
      exact agentLook_settled admitted agent relies follows
  | agentBalance agent =>
      cases issues
      exact agentBalance_settled admitted agent relies stored
  | partOpen agent part =>
      cases issues
      refine .inl (.debiting rfl admitted (.partInsert agent part) (relies.empty rfl) ?_)
      intro account relies_account calm
      exact (follows account (relies_account.empty rfl) calm).issue rfl
  | partInsert agent part =>
      cases issues
      exact partInsert_settled admitted agent part relies follows
  | partUpdate agent part =>
      cases issues
      exact partUpdate_settled admitted agent part relies follows undisturbed
  | partReturn agent =>
      cases issues
      exact settles_full admitted agent.plain (relies.empty rfl)
  | partLook =>
      cases issues
      exact partLook_settled relies follows

end Debit

section Grant

abbrev grantCall (context : Context) (request : GrantRequest) (ending : Ending) : Call :=
  ⟨context, .grant request, ending⟩

variable {request : GrantRequest} {view : Account}

theorem grantInsert_settled (positive : 0 < request.amount)
    (relies : Relies request.idempotencyKey none {} committed)
    (follows : ∀ account, Relies request.idempotencyKey none {} account →
      (grantCall context request ending).InStep (reportGrant
        (.issue (.insertLedger request.row) (grantInserted context request))) {} account) :
    Settled (grantCall context request ending) committed
      (fun inserted => reportGrant (grantInserted context request inserted))
      (Sql.exec view committed _ (.insertLedger request.row) {}) := by
  by_cases fits : fitsBigint request.row.amount = true
  · cases taken : committed.existing request.idempotencyKey with
    | some holder =>
        have executed : Sql.exec view committed _ (.insertLedger request.row) {} =
            .ok (none, {}) := exec_insert_taken rfl fits taken
        rw [executed]
        refine .inl (.granting rfl positive .look (relies.mark taken) ?_)
        intro account relies_account
        exact (follows account relies_account.unmarked).issue
          (exec_insert_taken rfl fits (relies_account.taken holder rfl))
    | none =>
        have executed : Sql.exec view committed _ (.insertLedger request.row) {} =
            .ok (some request.newId, ⟨{ rows := [request.row] }, []⟩) :=
          exec_insert_fresh rfl fits positive taken
        rw [executed]
        refine .inl (.granting rfl positive (.credit (by simp)) (relies.pending rfl taken) ?_)
        intro account relies_account
        have fresh : account.existing request.row.idempotencyKey = none :=
          relies_account.fresh request.row (by simp)
        exact (follows account (relies_account.empty rfl)).issue
          (exec_insert_fresh rfl fits positive fresh)
  · have refused (view : Account) : Sql.exec view committed _ (.insertLedger request.row) {} =
        .error .outOfRange := by
      simp [Sql.exec, fits]
    rw [refused]
    exact (follows committed relies).failed (refused committed)

theorem grantLook_settled {holder : LedgerTransaction}
    (relies : Relies request.idempotencyKey (some holder) {} committed)
    (follows : ∀ account, Relies request.idempotencyKey (some holder) {} account →
      (grantCall context request ending).InStep (reportGrant
        (.issue (.selectLedger request.idempotencyKey) (grantFound request))) {} account) :
    Settled (grantCall context request ending) committed
      (fun found => reportGrant (grantFound request found))
      (Sql.exec view committed _ (.selectLedger request.idempotencyKey) {}) := by
  have looked (account : Account)
      (relies_account : Relies request.idempotencyKey (some holder) {} account) :
      (grantCall context request ending).InStep
        (reportGrant (grantFound request (some holder))) {} account :=
    (follows account relies_account).issue
      (exec_select_taken rfl (relies_account.taken holder rfl))
  rw [exec_selectLedger view committed _ rfl, relies.taken holder rfl]
  change Settles _ _ (reportGrant (grantFound request (some holder))) {}
  have inStep := looked committed relies
  simp only [grantFound] at looked inStep ⊢
  split at looked
  next differs =>
    rw [if_pos differs] at inStep ⊢
    exact settles_done rfl inStep
  next same =>
    rw [if_neg same]
    exact settles_reading (fun balance => .granted ⟨balance, holder.id, true⟩) relies rfl
      (fun wallet => .done _ rfl) looked

theorem forward_grantCredited (credited : Int × Int × Int) :
    Forward (reportGrant (grantCredited context request request.newId credited)) := by
  refine .issue rfl fun _ => ?_
  split
  · exact .issue rfl fun _ => .done _
  · exact .done _

theorem grantCredit_settled {stmt : Sql β} {next : β → Program Sql Outcome}
    (present : view.wallet.isSome)
    (relies : Relies request.idempotencyKey none ⟨{ rows := [request.row] }, []⟩ committed)
    (follows : ∀ account,
      Relies request.idempotencyKey none ⟨{ rows := [request.row] }, []⟩ account →
      (grantCall context request ending).InStep
        (reportGrant (grantCredit context request request.newId))
        ⟨{ rows := [request.row] }, []⟩ account)
    (issues : reportGrant (grantCredit context request request.newId) = .issue stmt next)
    (undisturbed : (grantCall context request ending).Undisturbed view committed
      ⟨{ rows := [request.row] }, []⟩ stmt) :
    Settled (grantCall context request ending) committed next
      (Sql.exec view committed _ stmt ⟨{ rows := [request.row] }, []⟩) := by
  obtain ⟨old, old_found⟩ := Option.isSome_iff_exists.mp present
  obtain ⟨wallet, found⟩ := Option.isSome_iff_exists.mp relies.present
  have seen : (Tx.view ⟨{ rows := [request.row] }, []⟩ committed).wallet = some wallet := found
  have inStep := follows committed relies
  unfold grantCredit at issues inStep
  split at issues
  next enabled =>
    rw [if_pos enabled] at inStep
    cases issues
    refine inStep.settled ?_ ?_
    · have settles_same : min request.amount old.debt = min request.amount wallet.debt := by
        simpa [Call.Undisturbed, Work.onto, Account.debt, old_found, found] using undisturbed
      simp [Sql.exec, Work.onto, old_found, found, settles_same]
    · intro answer after executed inStep
      obtain ⟨-, -, rfl, rfl⟩ := creditSettlingDebt_ok seen executed
      exact .inl (.holding ⟨rfl, .inr (forward_grantCredited _)⟩ inStep)
  next disabled =>
    rw [if_neg disabled] at inStep
    cases issues
    refine inStep.settled rfl ?_
    intro answer after executed inStep
    obtain ⟨-, -, rfl, rfl⟩ := creditBalance_ok seen executed
    exact .inl (.holding ⟨rfl, .inr (forward_grantCredited _)⟩ inStep)

/-- Every statement a grant executes before it holds the wallet row settles. -/
theorem Granting.settled {snapshot : Option Account}
    {program : Program Sql (Except WalletError GrantResult)}
    {mark : Option LedgerTransaction} {stmt : Sql β} {next : β → Program Sql Outcome}
    (position : Granting context request snapshot program tx mark)
    (positive : 0 < request.amount)
    (relies : Relies request.idempotencyKey mark tx committed)
    (follows : ∀ account, Relies request.idempotencyKey mark tx account →
      (grantCall context request ending).InStep (reportGrant program) tx account)
    (arrived : snapshot = some view) (issues : reportGrant program = .issue stmt next)
    (undisturbed : (grantCall context request ending).Undisturbed view committed tx stmt) :
    Settled (grantCall context request ending) committed next
      (Sql.exec view committed _ stmt tx) := by
  cases position with
  | insert =>
      cases issues
      exact grantInsert_settled positive relies follows
  | look =>
      cases issues
      exact grantLook_settled relies follows
  | credit present =>
      exact grantCredit_settled (present view arrived) relies follows issues undisturbed

end Grant

section Start

variable {view : Account}

theorem consume_raises_or_admitted (context : Context) (request : ConsumeRequest) :
    (∃ raised, consume context request = .done (.error raised)) ∨ Admitted context request := by
  by_cases positive : request.amount ≤ 0
  · exact .inl ⟨_, by rw [consume, if_pos positive]; rfl⟩
  · rw [Int.not_le] at positive
    cases session : request.sessionId with
    | none => exact .inr ⟨positive, by simp [consume, Int.not_le.mpr positive, session]⟩
    | some sessionId =>
        cases valid : validateSession context sessionId with
        | error raised =>
            exact .inl ⟨raised, by simp [consume, Int.not_le.mpr positive, session, valid]⟩
        | ok =>
            exact .inr ⟨positive, by simp [consume, Int.not_le.mpr positive, session, valid]⟩

theorem exec_ensureWallet_present {account : Account} (present : account.wallet.isSome) :
    Sql.exec view account _ .ensureWallet {} = .ok ((), {}) := by
  obtain ⟨wallet, found⟩ := Option.isSome_iff_exists.mp present
  simp [Sql.exec, Work.onto, found]

theorem ensureWallet_settled {next : Unit → Program Sql Outcome}
    (inStep : invocation.InStep (.issue .ensureWallet next) {} committed)
    (goes : committed.wallet.isSome → Settles invocation committed (next ()) {}) :
    Settled invocation committed next (Sql.exec view committed _ .ensureWallet {}) := by
  cases found : committed.wallet with
  | some wallet =>
      rw [exec_ensureWallet_present (by rw [found]; rfl)]
      exact goes (by rw [found]; rfl)
  | none =>
      have provisioned : Sql.exec view committed _ .ensureWallet {} =
          .ok ((), Tx.putWallet {} ⟨0, 0⟩) := by
        simp [Sql.exec, Work.onto, found]
      have alone : Sql.exec committed committed _ .ensureWallet {} =
          .ok ((), Tx.putWallet {} ⟨0, 0⟩) := by
        simp [Sql.exec, Work.onto, found]
      rw [provisioned]
      have locked : (Tx.putWallet {} ⟨0, 0⟩).AllLocked := by
        simp [Tx.AllLocked, Tx.putWallet]
      exact .inl (.holding ⟨rfl, .inl locked⟩ (inStep.issue alone))

theorem settles_body (admitted : Admitted context request)
    (relies : Relies request.idempotencyKey none {} committed) :
    Settles (debitCall context request ending) committed
      (reportConsume (consumeBody context request)) {} := by
  have follows (account : Account)
      (relies_account : Relies request.idempotencyKey none {} account) :
      (debitCall context request ending).InStep (reportConsume (consumeBody context request)) {}
        account := (run_admitted admitted relies_account.present).symm
  unfold consumeBody at follows ⊢
  split at follows
  next incremental =>
    rw [if_pos incremental]
    rw [consumeIncrementalClamp_eq] at follows ⊢
    exact .inl (.debiting rfl admitted (.clampLook incremental) relies
      fun account relies_account _ => follows account relies_account)
  next plain =>
    have plain' : request.metadata.incremental = false := by simpa using plain
    rw [if_neg plain]
    split at follows
    next reconciles =>
      rw [if_pos reconciles]
      rw [agentBody_eq] at follows ⊢
      exact .inl (.debiting rfl admitted (.agentLook ⟨plain', reconciles⟩) relies
        fun account relies_account _ => follows account relies_account)
    next legacy =>
      rw [if_neg legacy]
      rw [consumeInFull_eq] at follows ⊢
      exact .inl (.debiting rfl admitted (.fullOpen plain') relies
        fun account relies_account _ => follows account relies_account)

theorem start_settled {stmt : Sql β} {next : β → Program Sql Outcome}
    (issues : invocation.program = .issue stmt next) :
    Settled invocation committed next (Sql.exec view committed _ stmt {}) := by
  have inStep := invocation.inStep_start committed
  obtain ⟨context, operation, ending⟩ := invocation
  cases operation with
  | consume request =>
      rcases consume_raises_or_admitted context request with ⟨raised, raises⟩ | admitted
      · simp only [Call.program, Operation.program, raises] at issues
        cases issues
      · simp only [Call.program, Operation.program, admitted.checked, consumeChecked_eq]
          at issues inStep
        cases issues
        exact ensureWallet_settled inStep fun present =>
          settles_body admitted ⟨present, by simp, by simp⟩
  | grant request =>
      by_cases positive : 0 < request.amount
      · simp only [Call.program, Operation.program, grant_eq context request positive]
          at issues inStep
        cases issues
        refine ensureWallet_settled inStep fun present => ?_
        have follows (account : Account)
            (relies_account : Relies request.idempotencyKey none {} account) :
            (grantCall context request ending).InStep (reportGrant
              (.issue (.insertLedger request.row) (grantInserted context request))) {}
              account := by
          have started := (grantCall context request ending).inStep_start account
          simp only [Call.program, Operation.program, grant_eq context request positive]
            at started
          exact started.issue (exec_ensureWallet_present relies_account.present)
        exact .inl (.granting rfl positive .insert ⟨present, by simp, by simp⟩ follows)
      · simp only [Call.program, Operation.program, grant, Int.not_lt.mp positive, if_true]
          at issues
        cases issues

end Start

section Standing

variable {view : Account}

/-- Whatever statement a standing transaction executes undisturbed, it settles. -/
theorem Standing.settled {snapshot : Option Account} {program : Program Sql Outcome}
    {stmt : Sql β} {next : β → Program Sql Outcome}
    (standing : Standing invocation committed snapshot program tx)
    (stored : ∀ wallet, committed.wallet = some wallet → wallet.Stored) (nested : tx.Nested)
    (arrived : snapshot = some view) (issues : program = .issue stmt next)
    (undisturbed : invocation.Undisturbed view committed tx stmt) :
    Settled invocation committed next (Sql.exec view committed _ stmt tx) := by
  cases standing with
  | start => exact start_settled issues
  | reading answer relies clean closes replays =>
      cases issues
      have read : Sql.exec view committed _ .selectWallet tx = .ok (committed.wallet, tx) := by
        simp [Sql.exec, clean, Work.empty_onto]
      rw [read]
      exact .inr ⟨_, closes committed.wallet, replays committed relies⟩
  | debiting called admitted position relies follows =>
      subst called
      exact position.settled admitted relies follows stored arrived issues undisturbed
  | granting called positive position relies follows =>
      subst called
      exact position.settled positive relies follows arrived issues undisturbed
  | holding holds inStep =>
      subst issues
      refine inStep.settled (exec_locked stmt holds.1) ?_
      intro answer after executed inStep_after
      exact .inl (.holding (holds.issue nested executed) inStep_after)

end Standing

section Standing

variable {program : Program Sql Outcome} {outcome : Outcome}

/-- The snapshot is taken, or it already shows how the transaction ends. -/
def Arrives (invocation : Call) (committed : Account) (program : Program Sql Outcome) (tx : Tx) :
    Prop :=
  Standing invocation committed (some committed) program tx ∨
    ∃ outcome, Idle (some committed) program tx outcome ∧
      invocation.run committed = (outcome, committed)

theorem Debiting.arrive {program : Program Sql (Except WalletError ConsumeResult)}
    {mark : Option LedgerTransaction} {calm : Account → Prop}
    (position : Debiting context request none program tx mark calm)
    (admitted : Admitted context request)
    (relies : Relies request.idempotencyKey mark tx committed)
    (follows : ∀ account, Relies request.idempotencyKey mark tx account → calm account →
      (debitCall context request ending).InStep (reportConsume program) tx account) :
    Arrives (debitCall context request ending) committed (reportConsume program) tx := by
  have stay (arrived : Debiting context request (some committed) program tx mark calm) :
      Arrives (debitCall context request ending) committed (reportConsume program) tx :=
    .inl (.debiting rfl admitted arrived relies follows)
  cases position with
  | clampLook incremental => exact stay (.clampLook incremental)
  | clamp fits => exact stay (.clamp fits)
  | fullOpen plain => exact stay (.fullOpen plain)
  | fullInsert plain => exact stay (.fullInsert plain)
  | fullRelease same => exact stay (.fullRelease same)
  | fullLook => exact stay .fullLook
  | agentLook agent => exact stay (.agentLook agent)
  | agentBalance agent => exact stay (.agentBalance agent)
  | partOpen agent part => exact stay (.partOpen agent part)
  | partInsert agent part => exact stay (.partInsert agent part)
  | partUpdate agent part => exact stay (.partUpdate agent part)
  | partReturn agent => exact stay (.partReturn agent)
  | partLook => exact stay .partLook
  | fullDebit plain enough =>
      by_cases covered : request.amount ≤ committed.balance
      · refine stay (.fullDebit plain ?_)
        rintro view ⟨⟩
        exact .inl covered
      · by_cases waits : agentReconcileApplies context request.metadata = true ∧
            0 < committed.balance
        · refine stay (.fullDebit plain ?_)
          rintro view ⟨⟩
          exact .inr waits
        · have fresh : committed.existing request.idempotencyKey = none :=
            relies.fresh (request.row request.amount) (by simp [Tx.pending])
          have calm : CalmFull context request committed := by
            intro agent
            exact ⟨fun _ => .inr (by by_contra positive; exact waits ⟨agent, by omega⟩),
              by simp [fresh]⟩
          have closes : Idle (some committed) (reportConsume
              (.issue (.debitBalance request.amount) (fullUpdated request request.newId)))
              (.pending (request.row request.amount)) (.raised .insufficientCredits) :=
            .stale rfl (by omega) (.rollback rfl (.done _ rfl))
          exact .inr ⟨_, closes, (follows committed relies calm).idle closes (by simp)⟩

theorem Standing.arrive (standing : Standing invocation committed none program tx) :
    Arrives invocation committed program tx := by
  cases standing with
  | start => exact .inl .start
  | reading answer relies clean closes replays =>
      exact .inl (.reading answer relies clean closes replays)
  | debiting called admitted position relies follows =>
      subst called
      exact position.arrive admitted relies follows
  | granting called positive position relies follows =>
      cases position with
      | insert => exact .inl (.granting called positive .insert relies follows)
      | look => exact .inl (.granting called positive .look relies follows)
      | credit present =>
          refine .inl (.granting called positive (.credit ?_) relies follows)
          rintro view ⟨⟩
          exact relies.present
  | holding holds inStep => exact .inl (.holding holds inStep)

theorem Relies.later {key : String} {mark : Option LedgerTransaction} {account later : Account}
    (relies : Relies key mark tx account) (grows : account.Grows later)
    (fresh : ∀ row ∈ tx.work.rows, later.existing row.idempotencyKey = none) :
    Relies key mark tx later :=
  ⟨grows.wallet relies.present,
    fun holder marked => grows.existing key holder (relies.taken holder marked), fresh⟩

/-- A transaction without the wallet row stands where it stood after another one commits. -/
theorem Standing.later {snapshot : Option Account} {later : Account}
    (standing : Standing invocation committed snapshot program tx)
    (grows : committed.Grows later)
    (fresh : ∀ row ∈ tx.work.rows, later.existing row.idempotencyKey = none)
    (free : tx.work.wallet.isSome → later = committed) :
    Standing invocation later snapshot program tx := by
  cases standing with
  | start => exact .start
  | reading answer relies clean closes replays =>
      exact .reading answer (relies.later grows fresh) clean closes replays
  | debiting called admitted position relies follows =>
      exact .debiting called admitted position (relies.later grows fresh) follows
  | granting called positive position relies follows =>
      exact .granting called positive position (relies.later grows fresh) follows
  | holding holds inStep =>
      obtain rfl := free holds.1
      exact .holding holds inStep

/-- A standing transaction which is done holds the wallet row or has no work at all, and ends like
the call run alone. -/
theorem Standing.finish {snapshot : Option Account}
    (standing : Standing invocation committed snapshot program tx)
    (finished : program = .done outcome) :
    (tx.work.wallet.isSome ∨ tx.work = {}) ∧
      invocation.conclude committed (.ok (outcome, tx)) = invocation.run committed := by
  cases standing with
  | start =>
      have inStep := invocation.inStep_start committed
      rw [finished] at inStep
      exact ⟨.inr rfl, inStep⟩
  | reading => cases finished
  | debiting called admitted position => cases position <;> cases finished
  | granting called positive position =>
      cases position with
      | insert => cases finished
      | look => cases finished
      | credit =>
          unfold grantCredit at finished
          split at finished <;> cases finished
  | holding holds inStep =>
      subst finished
      exact ⟨.inl holds.1, inStep⟩

end Standing

section Idle

variable {snapshot : Option Account} {program : Program Sql Outcome} {outcome : Outcome}

theorem Idle.unlocked (idle : Idle snapshot program tx outcome) : tx.work.wallet = none := by
  induction idle with
  | done outcome clean => rw [clean]
  | release later induction => exact induction
  | rollback unlocked => exact unlocked
  | fails unlocked => exact unlocked
  | stale unlocked => exact unlocked

theorem Idle.arrive (idle : Idle none program tx outcome) (view : Account) :
    Idle (some view) program tx outcome := by
  cases idle with
  | done outcome clean => exact .done outcome clean
  | release later => exact .release later
  | rollback unlocked later => exact .rollback unlocked later
  | fails unlocked fails => exact .fails unlocked fails

/-- What an idle transaction executes is beyond the reach of the others. -/
theorem Idle.execute {view : Account} {stmt : Sql β} {next : β → Program Sql Outcome}
    (idle : Idle (some view) program tx outcome) (issues : program = .issue stmt next)
    (committed : Account) :
    (∃ failure, Sql.exec view committed _ stmt tx = .error failure ∧
      outcome = .failed failure) ∨
    ∃ answer after, Sql.exec view committed _ stmt tx = .ok (answer, after) ∧
      Idle none (next answer) after outcome := by
  cases idle with
  | done => cases issues
  | release later =>
      cases issues
      exact .inr ⟨(), _, rfl, later⟩
  | rollback unlocked later =>
      cases issues
      exact .inr ⟨(), _, rfl, later⟩
  | fails unlocked fails =>
      cases issues
      exact .inl ⟨_, fails view committed, rfl⟩
  | stale unlocked short later =>
      cases issues
      exact .inr ⟨none, tx, debitBalance_short unlocked short, later⟩

theorem Idle.finish {value : Outcome} (idle : Idle snapshot program tx outcome)
    (finished : program = .done value) (invocation : Call) (committed : Account) :
    invocation.conclude committed (.ok (value, tx)) = (outcome, committed) := by
  cases idle with
  | done outcome clean =>
      cases finished
      exact Call.conclude_empty outcome clean
  | release => cases finished
  | rollback => cases finished
  | fails => cases finished
  | stale => cases finished

end Idle

end Hermes.Wallet
