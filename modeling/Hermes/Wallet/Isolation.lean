import Hermes.Wallet.Concurrent
import Hermes.Wallet.Effect

/-!
# What transactions keep apart

Whatever the programs do, the waits leave at most one transaction with the wallet row, no two with
the same pending idempotency key, and no pending key among the committed ones.
-/

namespace Hermes.Wallet

variable {β : Type} {snapshot committed : Account} {tx after : Tx} {stmt : Sql β} {answer : β}

/-- Later work of a transaction keeps the locks and the rows of its earlier work. -/
structure Work.Extends (later earlier : Work) : Prop where
  wallet : earlier.wallet.isSome → later.wallet.isSome
  rows : ∀ row ∈ earlier.rows, row ∈ later.rows

theorem Work.Extends.refl (work : Work) : work.Extends work := ⟨id, fun _ => id⟩

theorem Work.Extends.trans {first second third : Work} (later : first.Extends second)
    (earlier : second.Extends third) : first.Extends third :=
  ⟨later.wallet ∘ earlier.wallet, fun row present => later.rows row (earlier.rows row present)⟩

/-- Each open savepoint of a transaction saved a part of what it has done since. -/
def Tx.Nested (tx : Tx) : Prop :=
  (tx.work :: tx.saved).Pairwise Work.Extends

theorem Tx.Nested.grow (nested : tx.Nested) {work : Work} (grown : work.Extends tx.work) :
    Tx.Nested ⟨work, tx.saved⟩ := by
  obtain ⟨above, rest⟩ := List.pairwise_cons.mp nested
  exact List.pairwise_cons.mpr ⟨fun saved present => grown.trans (above saved present), rest⟩

theorem Tx.Nested.savepoint (nested : tx.Nested) :
    Tx.Nested { tx with saved := tx.work :: tx.saved } := by
  obtain ⟨above, rest⟩ := List.pairwise_cons.mp nested
  refine List.pairwise_cons.mpr ⟨?_, nested⟩
  intro saved present
  rcases List.mem_cons.mp present with rfl | present
  · exact .refl _
  · exact above saved present

theorem Tx.Nested.release (nested : tx.Nested) :
    Tx.Nested { tx with saved := tx.saved.tail } := by
  obtain ⟨above, rest⟩ := List.pairwise_cons.mp nested
  exact List.pairwise_cons.mpr
    ⟨fun saved present => above saved (List.mem_of_mem_tail present), rest.tail⟩

theorem Tx.Nested.rollback (nested : tx.Nested) :
    Tx.Nested { work := tx.saved.headD tx.work, saved := tx.saved.tail } ∧
      tx.work.Extends (tx.saved.headD tx.work) := by
  cases saved : tx.saved with
  | nil => exact ⟨by simp [Tx.Nested], .refl _⟩
  | cons head tail =>
      rw [Tx.Nested, saved] at nested
      obtain ⟨above, rest⟩ := List.pairwise_cons.mp nested
      exact ⟨rest, above head (by simp)⟩

/-- Every version of the wallet row the transaction can return to is its own. -/
def Tx.AllLocked (tx : Tx) : Prop :=
  ∀ work ∈ tx.work :: tx.saved, work.wallet.isSome

/-- How a statement moves the work of its transaction and the open savepoints. -/
inductive Moves (tx : Tx) : Tx → Prop
  | grow (work : Work) (grown : work.Extends tx.work) : Moves tx ⟨work, tx.saved⟩
  | savepoint : Moves tx { tx with saved := tx.work :: tx.saved }
  | release : Moves tx { tx with saved := tx.saved.tail }
  | rollback : Moves tx { work := tx.saved.headD tx.work, saved := tx.saved.tail }

theorem Moves.nested (moves : Moves tx after) (nested : tx.Nested) : after.Nested := by
  cases moves with
  | grow work grown => exact nested.grow grown
  | savepoint => exact nested.savepoint
  | release => exact nested.release
  | rollback => exact nested.rollback.1

theorem Moves.allLocked (moves : Moves tx after) (locked : tx.AllLocked) : after.AllLocked := by
  have own : tx.work.wallet.isSome := locked _ (by simp)
  cases moves with
  | grow work grown =>
      intro saved present
      rcases List.mem_cons.mp present with rfl | present
      · exact grown.wallet own
      · exact locked saved (List.mem_cons_of_mem _ present)
  | savepoint =>
      intro saved present
      rcases List.mem_cons.mp present with rfl | present
      · exact own
      · exact locked saved present
  | release =>
      intro saved present
      rcases List.mem_cons.mp present with rfl | present
      · exact own
      · exact locked saved (List.mem_cons_of_mem _ (List.mem_of_mem_tail present))
  | rollback =>
      intro saved present
      cases depth : tx.saved with
      | nil =>
          rw [depth] at present
          simp only [List.headD_nil, List.tail_nil, List.mem_singleton] at present
          rw [present]
          exact own
      | cons head tail =>
          rw [depth] at present
          exact locked saved (by rw [depth]; exact List.mem_cons_of_mem _ present)

theorem Moves.saved (moves : Moves tx after) :
    ∀ work ∈ after.saved, work ∈ tx.work :: tx.saved := by
  intro work present
  cases moves with
  | grow => exact List.mem_cons_of_mem _ present
  | savepoint => exact present
  | release => exact List.mem_cons_of_mem _ (List.mem_of_mem_tail present)
  | rollback => exact List.mem_cons_of_mem _ (List.mem_of_mem_tail present)

def Sql.returns {γ : Type} : Sql γ → Bool
  | .rollbackToSavepoint => true
  | _ => false

/-- What a single statement does to its transaction. -/
structure Executed (snapshot committed : Account) (stmt : Sql β) (tx after : Tx) : Prop where
  moves : Moves tx after
  onward : stmt.returns = false → after.work.Extends tx.work
  wallet : after.work.wallet.isSome →
    tx.work.wallet.isSome ∨ stmt.locksWallet snapshot committed tx = true
  stored : ∀ row, after.work.wallet = some row →
    row.Stored ∨ committed.wallet = some row ∨
      ∃ work ∈ tx.work :: tx.saved, work.wallet = some row
  rows : ∀ row ∈ after.work.rows, row ∈ tx.work.rows ∨
    stmt.locksKey committed tx = some row.idempotencyKey ∧
      (tx.work.onto committed).existing row.idempotencyKey = none

theorem Executed.same (moves : Moves tx after) (same : after.work = tx.work) :
    Executed snapshot committed stmt tx after := by
  refine ⟨moves, ?_, ?_, ?_, ?_⟩
  · rw [same]
    exact fun _ => .refl _
  · rw [same]
    exact .inl
  · rw [same]
    exact fun row own => .inr (.inr ⟨tx.work, by simp, own⟩)
  · rw [same]
    exact fun _ => .inl

theorem Executed.unmoved : Executed snapshot committed stmt tx tx :=
  .same (.grow tx.work (.refl _)) rfl

theorem Executed.putWallet {row : WalletRow}
    (locks : stmt.locksWallet snapshot committed tx = true)
    (stored : row.Stored ∨ (tx.work.onto committed).wallet = some row) :
    Executed snapshot committed stmt tx (tx.putWallet row) := by
  refine ⟨.grow _ ⟨fun _ => rfl, fun _ => id⟩, fun _ => ⟨fun _ => rfl, fun _ => id⟩,
    fun _ => .inr locks, ?_, fun _ => .inl⟩
  rintro written own
  cases own
  rcases stored with stored | seen
  · exact .inl stored
  · rcases Option.or_eq_some_iff.mp seen with own | ⟨-, shared⟩
    · exact .inr (.inr ⟨tx.work, by simp, own⟩)
    · exact .inr (.inl shared)

theorem Executed.putStored {row stored : WalletRow}
    (locks : stmt.locksWallet snapshot committed tx = true)
    (written : storeWallet row = .ok stored) :
    Executed snapshot committed stmt tx (tx.putWallet stored) :=
  .putWallet locks (.inl ((storeWallet_ok written).1 ▸ (storeWallet_ok written).2))

/-- A row is added under a key which is free and locked. -/
theorem Executed.addRow {row : LedgerTransaction}
    (executed : Executed snapshot committed stmt tx after)
    (locks : stmt.locksKey committed tx = some row.idempotencyKey)
    (fresh : (tx.work.onto committed).existing row.idempotencyKey = none)
    (same : after.saved = tx.saved) (grown : after.work.Extends tx.work) :
    Executed snapshot committed stmt tx (after.addRow row) := by
  have more : (after.addRow row).work.Extends tx.work :=
    ⟨grown.wallet, fun kept present => List.mem_append_left _ (grown.rows kept present)⟩
  refine ⟨?_, fun _ => more, executed.wallet, executed.stored, ?_⟩
  · have moves : Moves tx { tx with work := _ } := .grow _ more
    rwa [← same] at moves
  · intro added present
    rcases List.mem_append.mp present with present | present
    · exact executed.rows added present
    · rw [List.mem_singleton.mp present]
      exact .inr ⟨locks, fresh⟩

theorem exec_insertLedger_ok {row : LedgerTransaction} {answer : Option TxId}
    (ran : Sql.exec snapshot committed _ (.insertLedger row) tx = .ok (answer, after)) :
    Executed snapshot committed (.insertLedger row) tx after := by
  simp only [Sql.exec] at ran
  split at ran
  · cases ran
  · split at ran
    · cases ran
      exact .unmoved
    next fresh =>
      split at ran
      · cases ran
      · cases ran
        exact Executed.unmoved.addRow rfl (by simpa using fresh) rfl (.refl _)

theorem exec_clampDebit_ok {row : LedgerTransaction} {answer : ClampRow}
    (ran : Sql.exec snapshot committed _ (.clampDebit row) tx = .ok (answer, after)) :
    Executed snapshot committed (.clampDebit row) tx after := by
  simp only [Sql.exec] at ran
  split at ran
  · cases ran
  · split at ran
    · cases ran
      exact .unmoved
    next locked present =>
      split at ran
      · cases ran
        exact .putWallet rfl (.inr present)
      next due =>
        obtain ⟨stored, written, ran⟩ := except_bind_eq_ok ran
        cases ran
        rw [not_or] at due
        have funded : 0 < (tx.work.onto committed).balance := by
          simp only [Account.balance, present]
          simpa using due.1
        exact (Executed.putStored rfl written).addRow (by simp [Sql.locksKey, funded])
          (by simpa using due.2) rfl ⟨fun _ => rfl, fun _ => id⟩

theorem exec_ok (nested : tx.Nested)
    (ran : Sql.exec snapshot committed _ stmt tx = .ok (answer, after)) :
    Executed snapshot committed stmt tx after := by
  cases stmt with
  | ensureWallet =>
      simp only [Sql.exec] at ran
      split at ran
      · cases ran
        exact .unmoved
      next absent =>
        cases ran
        exact .putWallet (by simp [Sql.locksWallet, absent])
          (.inl ⟨by decide, by decide, by decide, by decide⟩)
  | selectLedger key =>
      cases ran
      exact .unmoved
  | selectWallet =>
      cases ran
      exact .unmoved
  | savepoint =>
      cases ran
      exact .same .savepoint rfl
  | releaseSavepoint =>
      cases ran
      exact .same .release rfl
  | rollbackToSavepoint =>
      cases ran
      have shrunk := nested.rollback.2
      refine ⟨.rollback, by simp [Sql.returns], fun locked => .inl (shrunk.wallet locked), ?_,
        fun row present => .inl (shrunk.rows row present)⟩
      intro row own
      refine .inr (.inr ⟨tx.saved.headD tx.work, ?_, own⟩)
      cases tx.saved <;> simp
  | insertLedger row => exact exec_insertLedger_ok ran
  | debitBalance amount =>
      simp only [Sql.exec] at ran
      split at ran
      next old row began seen =>
        split at ran
        next covered =>
          obtain ⟨stored, written, ran⟩ := except_bind_eq_ok ran
          cases ran
          exact .putStored (by simp [Sql.locksWallet, began, covered.1]) written
        · cases ran
          exact .unmoved
      · cases ran
        exact .unmoved
  | debitAccruingDebt part delta =>
      simp only [Sql.exec] at ran
      split at ran
      · cases ran
      · split at ran
        next old row began seen =>
          split at ran
          next covered =>
            obtain ⟨stored, written, ran⟩ := except_bind_eq_ok ran
            cases ran
            exact .putStored (by simp [Sql.locksWallet, began, covered.1]) written
          · cases ran
            exact .unmoved
        · cases ran
          exact .unmoved
  | clampDebit row => exact exec_clampDebit_ok ran
  | creditSettlingDebt amount =>
      simp only [Sql.exec] at ran
      split at ran
      · obtain ⟨stored, written, ran⟩ := except_bind_eq_ok ran
        cases ran
        exact .putStored rfl written
      · cases ran
        exact .unmoved
  | creditBalance amount =>
      simp only [Sql.exec] at ran
      split at ran
      · obtain ⟨stored, written, ran⟩ := except_bind_eq_ok ran
        cases ran
        exact .putStored rfl written
      · cases ran
        exact .unmoved
  | insertAudit event =>
      cases ran
      have grown : (tx.addAudit event).work.Extends tx.work := ⟨id, fun _ => id⟩
      exact ⟨.grow _ grown, fun _ => grown, .inl,
        fun row own => .inr (.inr ⟨tx.work, by simp, own⟩), fun _ => .inl⟩

structure Account.Grows (before after : Account) : Prop where
  wallet : before.wallet.isSome → after.wallet.isSome
  existing : ∀ key holder, before.existing key = some holder → after.existing key = some holder

/-- The versions of the wallet row a transaction can commit satisfy the table. -/
def Tx.Stored (tx : Tx) : Prop :=
  ∀ work ∈ tx.work :: tx.saved, ∀ row, work.wallet = some row → row.Stored

/-- The row of the account satisfies the table. -/
def Account.Stored (account : Account) : Prop :=
  ∀ row, account.wallet = some row → row.Stored

theorem Account.existing_onto {work : Work} {account : Account} {key : String} :
    (work.onto account).existing key =
      (account.existing key).or (work.rows.find? fun row => row.idempotencyKey == key) := by
  simp [Account.existing, Work.onto, List.find?_append]

theorem Account.grows_onto (work : Work) (account : Account) :
    account.Grows (work.onto account) where
  wallet present := by
    cases own : work.wallet <;> simp [Work.onto, own, present]
  existing key holder taken := by
    rw [Account.existing_onto, taken]
    rfl

theorem Account.Stored.onto {work : Work} {account : Account} (stored : account.Stored)
    (own : ∀ row, work.wallet = some row → row.Stored) : (work.onto account).Stored := by
  intro row present
  rcases Option.or_eq_some_iff.mp present with mine | ⟨-, shared⟩
  · exact own row mine
  · exact stored row shared

/-- A call which runs alone leaves a row the table admits. -/
theorem Account.Stored.run {account : Account} (stored : account.Stored) (invocation : Call) :
    (invocation.run account).2.Stored := by
  cases executed : invocation.program.run (Sql.exec account account) {} with
  | error failure => simpa [Call.run, Call.conclude, executed] using stored
  | ok step =>
      have kept : step.2.Nested ∧ step.2.Stored := by
        apply Program.run_invariant (fun tx : Tx => tx.Nested ∧ tx.Stored) _ _ executed
        · intro β stmt tx answer after holds ran
          obtain ⟨nested, own⟩ := holds
          have done := exec_ok nested ran
          refine ⟨done.moves.nested nested, ?_⟩
          intro work present row found
          rcases List.mem_cons.mp present with rfl | saved
          · rcases done.stored row found with admitted | shared | ⟨earlier, listed, same⟩
            · exact admitted
            · exact stored row shared
            · exact own earlier listed row same
          · exact own work (done.moves.saved work saved) row found
        · exact ⟨by simp [Tx.Nested], by simp [Tx.Stored]⟩
      have committed : (step.2.work.onto account).Stored := stored.onto (kept.2 _ (by simp))
      cases ending : invocation.ending with
      | commit => simpa [Call.run, Call.conclude, executed, ending] using committed
      | rollback => simpa [Call.run, Call.conclude, executed, ending] using stored

/-- The row as it is provisioned is one the table admits. -/
theorem Account.Stored.row {account : Account} (stored : account.Stored) :
    account.row.Stored := by
  cases found : account.wallet with
  | none => simpa [Account.row, found] using ⟨le_rfl, le_rfl, rfl, rfl⟩
  | some wallet => simpa [Account.row, found] using stored wallet found

structure System.Apart {n : Nat} (system : System n) : Prop where
  stored : system.committed.Stored
  nested : ∀ thread program tx snapshot,
    system.progress thread = .running program tx snapshot → tx.Nested ∧ tx.Stored
  wallet : ∀ thread other, thread ≠ other →
    (system.progress thread).work.wallet.isSome → (system.progress other).work.wallet = none
  keys : ∀ thread other, thread ≠ other → ∀ row ∈ (system.progress thread).work.rows,
    ∀ held ∈ (system.progress other).work.rows, row.idempotencyKey ≠ held.idempotencyKey
  fresh : ∀ thread, ∀ row ∈ (system.progress thread).work.rows,
    system.committed.existing row.idempotencyKey = none

section Apart

variable {n : Nat} {calls : Fin n → Call} {system after : System n} {action : Action n}

/-- Replacing one transaction by one with no more locks keeps the others apart from it. -/
theorem System.Apart.set (apart : system.Apart) {thread : Fin n} {progress : Progress}
    (running : ∀ program tx snapshot, progress = .running program tx snapshot →
      tx.Nested ∧ tx.Stored)
    (wallet : progress.work.wallet.isSome → ∀ other, other ≠ thread →
      (system.progress other).work.wallet = none)
    (rows : ∀ row ∈ progress.work.rows, system.committed.existing row.idempotencyKey = none ∧
      ∀ other, other ≠ thread → ∀ held ∈ (system.progress other).work.rows,
        row.idempotencyKey ≠ held.idempotencyKey) :
    (system.set thread progress).Apart where
  stored := apart.stored
  nested other program tx snapshot stood := by
    by_cases same : other = thread
    · subst same
      rw [System.progress_set_self] at stood
      exact running program tx snapshot stood
    · rw [System.progress_set_of_ne system progress same] at stood
      exact apart.nested other program tx snapshot stood
  wallet first second distinct locked := by
    by_cases mine : first = thread
    · subst mine
      rw [System.progress_set_self] at locked
      rw [System.progress_set_of_ne system progress distinct.symm]
      exact wallet locked second distinct.symm
    · rw [System.progress_set_of_ne system progress mine] at locked
      by_cases yours : second = thread
      · subst yours
        rw [System.progress_set_self]
        by_contra held
        have free := wallet (Option.isSome_iff_ne_none.mpr held) first mine
        rw [free] at locked
        cases locked
      · rw [System.progress_set_of_ne system progress yours]
        exact apart.wallet first second distinct locked
  keys first second distinct := by
    intro row present held holds
    by_cases mine : first = thread
    · subst mine
      rw [System.progress_set_self] at present
      rw [System.progress_set_of_ne system progress distinct.symm] at holds
      exact (rows row present).2 second distinct.symm held holds
    · rw [System.progress_set_of_ne system progress mine] at present
      by_cases yours : second = thread
      · subst yours
        rw [System.progress_set_self] at holds
        exact ((rows held holds).2 first mine row present).symm
      · rw [System.progress_set_of_ne system progress yours] at holds
        exact apart.keys first second distinct row present held holds
  fresh other row present := by
    by_cases same : other = thread
    · subst same
      rw [System.progress_set_self] at present
      exact (rows row present).1
    · rw [System.progress_set_of_ne system progress same] at present
      exact apart.fresh other row present

theorem System.Apart.drop (apart : system.Apart) (thread : Fin n) {progress : Progress}
    (stopped : progress.stopped = true) : (system.set thread progress).Apart := by
  have empty : progress.work = {} := by
    cases progress with
    | running => cases stopped
    | finished => rfl
    | aborted => rfl
  refine apart.set ?_ ?_ ?_
  · rintro program tx snapshot rfl
    cases stopped
  · rw [empty]
    rintro ⟨⟩
  · rw [empty]
    simp

/-- Committing the work of one transaction keeps the others fresh. -/
theorem System.Apart.commit (apart : system.Apart) {thread : Fin n}
    {program : Program Sql Outcome} {tx : Tx} {snapshot : Option Account} {outcome : Outcome}
    {committed : Account}
    (stood : system.progress thread = .running program tx snapshot)
    (ends : committed = tx.work.onto system.committed ∨ committed = system.committed) :
    System.Apart { (system.set thread (.finished outcome)) with committed := committed } := by
  have dropped : (system.set thread (.finished outcome)).Apart := apart.drop thread rfl
  have own : (system.progress thread).work = tx.work := by rw [stood]; rfl
  refine ⟨?_, dropped.nested, dropped.wallet, dropped.keys, ?_⟩
  · rcases ends with rfl | rfl
    · exact apart.stored.onto
        ((apart.nested thread program tx snapshot stood).2 tx.work (by simp))
    · exact apart.stored
  · intro other row present
    have kept := dropped.fresh other row present
    rcases ends with rfl | rfl
    · change (tx.work.onto system.committed).existing row.idempotencyKey = none
      rw [System.committed_set] at kept
      rw [Account.existing_onto, kept, Option.none_or, List.find?_eq_none]
      intro held holds
      by_cases same : other = thread
      · subst same
        rw [System.progress_set_self] at present
        cases present
      · rw [System.progress_set_of_ne system _ same] at present
        rw [← own] at holds
        have apart_keys := apart.keys other thread same row present held holds
        simpa using apart_keys.symm
    · exact kept

theorem System.Apart.took (apart : system.Apart) (took : system.Took calls action after) :
    after.Apart := by
  cases took with
  | @arrive _ thread stmt next tx stood =>
      have own : (system.progress thread).work = tx.work := by rw [stood]; rfl
      refine apart.set ?_ ?_ ?_
      · rintro program tx snapshot ⟨⟩
        exact apart.nested thread _ _ _ stood
      · intro locked other distinct
        exact apart.wallet thread other distinct.symm (by rw [own]; exact locked)
      · intro row present
        rw [Progress.work, ← own] at present
        exact ⟨apart.fresh thread row present, fun other distinct =>
          apart.keys thread other distinct.symm row present⟩
  | @answer _ thread stmt next tx after snapshot answer stood free executed =>
      have own : (system.progress thread).work = tx.work := by rw [stood]; rfl
      obtain ⟨nested, stored⟩ := apart.nested thread _ _ _ stood
      have done := exec_ok nested executed
      refine apart.set ?_ ?_ ?_
      · rintro program tx snapshot ⟨⟩
        refine ⟨done.moves.nested nested, ?_⟩
        intro work present row found
        rcases List.mem_cons.mp present with rfl | present
        · rcases done.stored row found with fine | shared | ⟨saved, member, same⟩
          · exact fine
          · exact apart.stored row shared
          · exact stored saved member row same
        · exact stored work (done.moves.saved work present) row found
      · intro locked other distinct
        rcases done.wallet locked with already | takes
        · exact apart.wallet thread other distinct.symm (by rw [own]; exact already)
        · exact (System.blocked_eq_false free distinct).1 takes
      · intro row present
        rcases done.rows row present with already | ⟨takes, unseen⟩
        · rw [← own] at already
          exact ⟨apart.fresh thread row already, fun other distinct =>
            apart.keys thread other distinct.symm row already⟩
        · rw [Account.existing_onto, Option.or_eq_none_iff] at unseen
          refine ⟨unseen.1, fun other distinct held holds same => ?_⟩
          exact (System.blocked_eq_false free distinct).2 held holds (by rw [takes, same])
  | fail stood executed => exact apart.drop _ rfl
  | @finish thread outcome tx snapshot stood =>
      refine apart.commit stood ?_
      cases ending : (calls thread).ending with
      | commit => exact .inl (by simp [Call.conclude, ending])
      | rollback => exact .inr (by simp [Call.conclude, ending])
  | abort stood => exact apart.drop _ rfl

end Apart

end Hermes.Wallet
