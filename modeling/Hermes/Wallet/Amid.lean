import Hermes.Wallet.Isolation

/-!
# A grant amid other transactions

Every statement of a grant may find other data committed.  Whatever it finds, the transaction ends
with no row of its own or with the one row it asked for.
-/

namespace Hermes.Wallet

open Program (RunsAmid)

/-- What a statement meets: the data committed when it begins and when it gets hold of the row. -/
structure World where
  snapshot : Account
  committed : Account

def World.exec (world : World) : Program.Semantics Sql DbError Tx :=
  Sql.exec world.snapshot world.committed

section Statements

variable {allowed : World → Prop} {world : World} {tx after : Tx}

theorem ensureWallet_rows {answer : Unit}
    (ran : world.exec _ .ensureWallet tx = .ok (answer, after)) :
    after.work.rows = tx.work.rows := by
  simp only [World.exec, Sql.exec] at ran
  split at ran <;> cases ran <;> rfl

theorem insertLedger_rows {row : LedgerTransaction} {answer : Option TxId}
    (ran : world.exec _ (.insertLedger row) tx = .ok (answer, after)) :
    (∃ holder, (tx.work.onto world.committed).existing row.idempotencyKey = some holder) ∧
        answer = none ∧ after = tx ∨
      answer = some row.id ∧ after = tx.addRow row := by
  simp only [World.exec, Sql.exec] at ran
  split at ran
  · cases ran
  · split at ran
    next taken =>
      cases ran
      exact .inl ⟨Option.isSome_iff_exists.mp taken, rfl, rfl⟩
    · split at ran
      · cases ran
      · cases ran
        exact .inr ⟨rfl, rfl⟩

theorem storeWallet_rows {γ : Type} {row : WalletRow} {answer : WalletRow → γ} {result : γ}
    (ran : (do
      let stored ← storeWallet row
      .ok (answer stored, tx.putWallet stored) : Except DbError (γ × Tx)) = .ok (result, after)) :
    after.work.rows = tx.work.rows := by
  obtain ⟨stored, -, ended⟩ := except_bind_eq_ok ran
  cases ended
  rfl

theorem creditSettlingDebt_rows {amount : Int} {answer : Option SettledRow}
    (ran : world.exec _ (.creditSettlingDebt amount) tx = .ok (answer, after)) :
    after.work.rows = tx.work.rows := by
  simp only [World.exec, Sql.exec] at ran
  split at ran
  · exact storeWallet_rows ran
  · cases ran
    rfl

theorem creditBalance_rows {amount : Int} {answer : Option Int}
    (ran : world.exec _ (.creditBalance amount) tx = .ok (answer, after)) :
    after.work.rows = tx.work.rows := by
  simp only [World.exec, Sql.exec] at ran
  split at ran
  · exact storeWallet_rows ran
  · cases ran
    rfl

theorem insertAudit_rows {event : AuditEvent} {answer : Unit}
    (ran : world.exec _ (.insertAudit event) tx = .ok (answer, after)) :
    after.work.rows = tx.work.rows := by
  cases ran
  rfl

end Statements

section Grant

variable {allowed : World → Prop} {context : Context} {request : GrantRequest} {tx after : Tx}

theorem creditWallet_rows {amount : Int} {answer : Int × Int × Int}
    (runs : RunsAmid World.exec allowed (creditWallet context amount) tx answer after) :
    after.work.rows = tx.work.rows := by
  unfold creditWallet at runs
  split at runs
  · obtain ⟨world, settled, between, -, ran, later⟩ := runs.of_issue
    have same := creditSettlingDebt_rows ran
    cases settled <;> obtain ⟨-, rfl⟩ := later.of_done <;> exact same
  · obtain ⟨world, settled, between, -, ran, later⟩ := runs.of_issue
    have same := creditBalance_rows ran
    cases settled <;> obtain ⟨-, rfl⟩ := later.of_done <;> exact same

/-- How a grant ends amid others: it raises, finds the key taken, or adds its row. -/
inductive GrantEnds (allowed : World → Prop) (request : GrantRequest) (tx after : Tx) :
    Except WalletError GrantResult → Prop
  | rejected (message : String) (same : after.work.rows = tx.work.rows)
      (why : request.amount ≤ 0 ∨ ∃ world, allowed world ∧
        ∃ holder, (tx.work.onto world.committed).existing request.idempotencyKey = some holder) :
      GrantEnds allowed request tx after (.error (.conflict message))
  | replayed (balance : Int) (holder : LedgerTransaction) (same : after.work.rows = tx.work.rows)
      (taken : ∃ world, allowed world ∧
        (tx.work.onto world.committed).existing request.idempotencyKey = some holder)
      (credit : holder.type = .credit) (amount : holder.amount = request.amount) :
      GrantEnds allowed request tx after (.ok ⟨balance, holder.id, true⟩)
  | added (balance : Int) (positive : 0 < request.amount)
      (rows : after.work.rows = tx.work.rows ++ [request.row]) :
      GrantEnds allowed request tx after (.ok ⟨balance, request.newId, false⟩)

/-- The ledger a transaction sees depends on its own rows only. -/
theorem existing_over_of_rows {first second : Work} {account : Account} {key : String}
    (same : first.rows = second.rows) :
    (first.onto account).existing key = (second.onto account).existing key := by
  simp [Account.existing, Work.onto, same]

theorem grant_runsAmid {result : Except WalletError GrantResult}
    (runs : RunsAmid World.exec allowed (grant context request) tx result after) :
    GrantEnds allowed request tx after result := by
  unfold grant at runs
  split at runs
  next worthless =>
    obtain ⟨rfl, rfl⟩ := runs.of_done
    exact .rejected _ rfl (.inl worthless)
  next positive =>
    simp only [Program.call_bind] at runs
    obtain ⟨_, _, ensured, -, ensure_ran, ensured_runs⟩ := runs.of_issue
    have ensured_rows := ensureWallet_rows ensure_ran
    obtain ⟨world, inserted, filled, permitted, insert_ran, inserted_runs⟩ := ensured_runs.of_issue
    obtain ⟨⟨holder, taken⟩, rfl, rfl⟩ | ⟨rfl, rfl⟩ := insertLedger_rows insert_ran
    · rw [existing_over_of_rows ensured_rows] at taken
      obtain ⟨reading, found, read, read_permitted, read_ran, read_runs⟩ := inserted_runs.of_issue
      cases read_ran
      cases existing : (filled.work.onto reading.committed).existing request.idempotencyKey with
      | none =>
          rw [existing] at read_runs
          obtain ⟨rfl, rfl⟩ := read_runs.of_done
          exact .rejected _ ensured_rows (.inr ⟨world, permitted, holder, taken⟩)
      | some held =>
          rw [existing] at read_runs
          rw [existing_over_of_rows ensured_rows] at existing
          simp only at read_runs
          split at read_runs
          · obtain ⟨rfl, rfl⟩ := read_runs.of_done
            exact .rejected _ ensured_rows (.inr ⟨world, permitted, holder, taken⟩)
          next matched =>
            simp only [ne_eq, not_or, not_not] at matched
            obtain ⟨_, wallet, last, -, wallet_ran, wallet_runs⟩ := read_runs.of_issue
            cases wallet_ran
            obtain ⟨rfl, rfl⟩ := wallet_runs.of_done
            exact .replayed _ held ensured_rows ⟨reading, read_permitted, existing⟩ matched.1
              matched.2
    · obtain ⟨⟨balance, remaining, repaid⟩, credited, credit_runs, credited_runs⟩ :=
        inserted_runs.of_bind
      have credited_rows := creditWallet_rows credit_runs
      obtain ⟨_, _, noted, -, audit_ran, noted_runs⟩ := credited_runs.of_issue
      have noted_rows := insertAudit_rows audit_ran
      have rows : noted.work.rows = tx.work.rows ++ [request.row] := by
        rw [noted_rows, credited_rows, ← ensured_rows]
        rfl
      simp only at noted_runs
      split at noted_runs
      · obtain ⟨_, _, settled, -, settled_ran, settled_runs⟩ := noted_runs.of_issue
        obtain ⟨rfl, rfl⟩ := settled_runs.of_done
        exact .added _ (by omega) ((insertAudit_rows settled_ran).trans rows)
      · obtain ⟨rfl, rfl⟩ := noted_runs.of_done
        exact .added _ (by omega) rows

end Grant

namespace System

variable {n : Nat} {calls : Fin n → Call} {system after : System n} {action : Action n}

/-- Every running transaction is on its way through the program of its call. -/
def Following (calls : Fin n → Call) (system : System n) : Prop :=
  ∀ thread program tx snapshot, system.progress thread = .running program tx snapshot →
    Program.RestOf World.exec (fun _ => True) (calls thread).program {} program tx

theorem Following.set (following : system.Following calls) {thread : Fin n} {progress : Progress}
    (kept : ∀ program tx snapshot, progress = .running program tx snapshot →
      Program.RestOf World.exec (fun _ => True) (calls thread).program {} program tx) :
    (system.set thread progress).Following calls := by
  intro other program tx snapshot stood
  rcases Decidable.em (other = thread) with rfl | distinct
  · rw [progress_set_self] at stood
    exact kept program tx snapshot stood
  · rw [progress_set_of_ne _ _ distinct] at stood
    exact following other program tx snapshot stood

theorem Following.took (following : system.Following calls)
    (took : system.Took calls action after) :
    after.Following calls := by
  cases took with
  | arrive stood =>
      refine following.set ?_
      rintro program tx snapshot ⟨⟩
      exact following _ _ _ _ stood
  | @answer _ thread stmt next tx after snapshot answer stood free executed =>
      refine following.set ?_
      rintro program moved view ⟨⟩
      have ran : World.exec ⟨snapshot, system.committed⟩ _ stmt tx = .ok (answer, after) := executed
      exact (following _ _ _ _ stood).issue trivial ran
  | fail stood executed =>
      refine following.set ?_
      rintro program tx snapshot ⟨⟩
  | @finish thread outcome tx snapshot stood =>
      have stopped : (system.set thread (.finished outcome)).Following calls := by
        refine following.set ?_
        rintro program tx snapshot ⟨⟩
      exact stopped
  | abort stood =>
      refine following.set ?_
      rintro program tx snapshot ⟨⟩

/-- A grant which is done has added its row or none. -/
theorem Following.grant_rows (following : system.Following calls) {thread : Fin n}
    {request : GrantRequest} {outcome : Outcome} {tx : Tx} {snapshot : Option Account}
    (grants : (calls thread).operation = .grant request)
    (stood : system.progress thread = .running (.done outcome) tx snapshot) :
    tx.work.rows = [] ∨ tx.work.rows = [request.row] := by
  have runs := (following thread _ _ _ stood).done
  simp only [Call.program, Operation.program, grants] at runs
  obtain ⟨result, between, granted, later⟩ := runs.of_bind
  obtain ⟨-, rfl⟩ := later.of_done
  cases grant_runsAmid granted with
  | rejected message same why => exact .inl same
  | replayed balance holder same taken credit amount => exact .inl same
  | added balance positive rows => exact .inr rows

/-- An action commits nothing, or the work of a transaction which is done. -/
theorem Took.committed (took : system.Took calls action after) :
    after.committed = system.committed ∨
      ∃ thread outcome tx snapshot, action = .finish thread ∧
        system.progress thread = .running (.done outcome) tx snapshot ∧
        (calls thread).ending = .commit ∧
        after.committed = tx.work.onto system.committed := by
  cases took with
  | arrive stood => exact .inl rfl
  | answer stood free executed => exact .inl rfl
  | fail stood executed => exact .inl rfl
  | abort stood => exact .inl rfl
  | @finish thread outcome tx snapshot stood =>
      cases ends : (calls thread).ending with
      | commit =>
          refine .inr ⟨thread, outcome, tx, snapshot, rfl, stood, ends, ?_⟩
          simp [Call.conclude, ends]
      | rollback =>
          refine .inl ?_
          simp [Call.conclude, ends]

theorem Took.running (took : system.Took calls action after) {thread : Fin n}
    {program : Program Sql Outcome} {tx : Tx} {snapshot : Option Account}
    (stands : after.progress thread = .running program tx snapshot) :
    ∃ program tx snapshot, system.progress thread = .running program tx snapshot := by
  have other_of {actor : Fin n} {progress : Progress}
      (stands : (system.set actor progress).progress thread = .running program tx snapshot)
      (stood : ∃ program tx snapshot, system.progress actor = .running program tx snapshot) :
      ∃ program tx snapshot, system.progress thread = .running program tx snapshot := by
    rcases Decidable.em (thread = actor) with rfl | distinct
    · exact stood
    · rw [progress_set_of_ne _ _ distinct] at stands
      exact ⟨_, _, _, stands⟩
  cases took with
  | arrive stood => exact other_of stands ⟨_, _, _, stood⟩
  | answer stood free executed => exact other_of stands ⟨_, _, _, stood⟩
  | fail stood executed => exact other_of stands ⟨_, _, _, stood⟩
  | finish stood => exact other_of stands ⟨_, _, _, stood⟩
  | abort stood => exact other_of stands ⟨_, _, _, stood⟩

end System

end Hermes.Wallet
