import Hermes.Library.Transition
import Hermes.Wallet.Service
import Mathlib.Data.Fin.Basic

/-!
# Concurrent wallet transactions

Several calls of one user run in transactions of their own, one statement at a time, under
`READ COMMITTED`.  A statement first takes its snapshot and is executed later, once no other
transaction holds what it waits for: the wallet row another transaction has written, or an
idempotency key another transaction has inserted.
-/

namespace Hermes.Wallet

/-- Where one transaction stands; `snapshot` is present once its next statement has begun. -/
inductive Progress : Type 1
  | running (program : Program Sql Outcome) (tx : Tx) (snapshot : Option Account)
  | finished (outcome : Outcome)
  /-- Rolled back before its end: a deadlock victim or a lost connection. -/
  | aborted

def Progress.work : Progress → Work
  | .running _ tx _ => tx.work
  | _ => {}

def Progress.stopped : Progress → Bool
  | .running .. => false
  | _ => true

/-- The committed account and the transactions around it. -/
structure System (n : Nat) : Type 1 where
  committed : Account
  progress : Fin n → Progress

inductive Action (n : Nat)
  | arrive (thread : Fin n)
  | execute (thread : Fin n)
  | finish (thread : Fin n)
  | abort (thread : Fin n)
  deriving DecidableEq, Repr

/-- The statement locks the wallet row.  An `UPDATE` passes over a row whose snapshot fails its
predicate. -/
def Sql.locksWallet {β : Type} (snapshot committed : Account) (tx : Tx) : Sql β → Bool
  | .ensureWallet => (tx.work.onto committed).wallet.isNone
  | .debitBalance amount =>
      (tx.work.onto snapshot).wallet.any fun old => decide (amount ≤ old.balance)
  | .debitAccruingDebt part _ =>
      (tx.work.onto snapshot).wallet.any fun old => decide (part ≤ old.balance)
  | .clampDebit _ | .creditSettlingDebt _ | .creditBalance _ => true
  | _ => false

/-- The idempotency key the statement inserts. -/
def Sql.locksKey {β : Type} (committed : Account) (tx : Tx) : Sql β → Option String
  | .insertLedger row => some row.idempotencyKey
  | .clampDebit row =>
      if 0 < (tx.work.onto committed).balance then some row.idempotencyKey else none
  | _ => none

namespace System

variable {n : Nat}

/-- Every call is about to issue its first statement. -/
def initial (calls : Fin n → Call) (account : Account) : System n where
  committed := account
  progress thread := .running (calls thread).program {} none

def set (system : System n) (thread : Fin n) (progress : Progress) : System n :=
  { system with progress := Function.update system.progress thread progress }

/-- Another transaction holds what the statement waits for. -/
def blocked {β : Type} (system : System n) (thread : Fin n) (snapshot : Account) (tx : Tx)
    (stmt : Sql β) : Bool :=
  (List.finRange n).any fun other =>
    other ≠ thread &&
      (stmt.locksWallet snapshot system.committed tx &&
          (system.progress other).work.wallet.isSome ||
        (system.progress other).work.rows.any fun row =>
          stmt.locksKey system.committed tx == some row.idempotencyKey)

def step (calls : Fin n → Call) (system : System n) : Action n → Option (System n)
  | .arrive thread =>
      match system.progress thread with
      | .running (.issue stmt next) tx none =>
          some (system.set thread (.running (.issue stmt next) tx (some system.committed)))
      | _ => none
  | .execute thread =>
      match system.progress thread with
      | .running (.issue stmt next) tx (some snapshot) =>
          if system.blocked thread snapshot tx stmt then none
          else
            match Sql.exec snapshot system.committed _ stmt tx with
            | .error failure => some (system.set thread (.finished (.failed failure)))
            | .ok (answer, after) => some (system.set thread (.running (next answer) after none))
      | _ => none
  | .finish thread =>
      match system.progress thread with
      | .running (.done outcome) tx _ =>
          let ended := (calls thread).conclude system.committed (.ok (outcome, tx))
          some { (system.set thread (.finished ended.1)) with committed := ended.2 }
      | _ => none
  | .abort thread =>
      match system.progress thread with
      | .running .. => some (system.set thread .aborted)
      | _ => none

/-- The things a single action can do, with everything it needs. -/
inductive Took (calls : Fin n → Call) (system : System n) : Action n → System n → Prop
  | arrive {β : Type} {thread : Fin n} {stmt : Sql β} {next : β → Program Sql Outcome} {tx : Tx}
      (stood : system.progress thread = .running (.issue stmt next) tx none) :
      Took calls system (.arrive thread)
        (system.set thread (.running (.issue stmt next) tx (some system.committed)))
  | answer {β : Type} {thread : Fin n} {stmt : Sql β} {next : β → Program Sql Outcome}
      {tx after : Tx} {snapshot : Account} {answer : β}
      (stood : system.progress thread = .running (.issue stmt next) tx (some snapshot))
      (free : system.blocked thread snapshot tx stmt = false)
      (executed : Sql.exec snapshot system.committed _ stmt tx = .ok (answer, after)) :
      Took calls system (.execute thread)
        (system.set thread (.running (next answer) after none))
  | fail {β : Type} {thread : Fin n} {stmt : Sql β} {next : β → Program Sql Outcome}
      {tx : Tx} {snapshot : Account} {failure : DbError}
      (stood : system.progress thread = .running (.issue stmt next) tx (some snapshot))
      (executed : Sql.exec snapshot system.committed _ stmt tx = .error failure) :
      Took calls system (.execute thread) (system.set thread (.finished (.failed failure)))
  | finish {thread : Fin n} {outcome : Outcome} {tx : Tx} {snapshot : Option Account}
      (stood : system.progress thread = .running (.done outcome) tx snapshot) :
      Took calls system (.finish thread)
        { (system.set thread (.finished outcome)) with
          committed := ((calls thread).conclude system.committed (.ok (outcome, tx))).2 }
  | abort {thread : Fin n} {program : Program Sql Outcome} {tx : Tx} {snapshot : Option Account}
      (stood : system.progress thread = .running program tx snapshot) :
      Took calls system (.abort thread) (system.set thread .aborted)

theorem step_took {calls : Fin n → Call} {system after : System n} {action : Action n}
    (stepped : system.step calls action = some after) : Took calls system action after := by
  cases action with
  | arrive thread =>
      simp only [step] at stepped
      split at stepped
      next stood =>
        cases stepped
        exact .arrive stood
      · cases stepped
  | execute thread =>
      simp only [step] at stepped
      split at stepped
      next stood =>
        split at stepped
        · cases stepped
        next free =>
          split at stepped
          next executed =>
            cases stepped
            exact .fail stood executed
          next executed =>
            cases stepped
            exact .answer stood (by simpa using free) executed
      · cases stepped
  | finish thread =>
      simp only [step] at stepped
      split at stepped
      next stood =>
        cases stepped
        exact .finish stood
      · cases stepped
  | abort thread =>
      simp only [step] at stepped
      split at stepped
      next stood =>
        cases stepped
        exact .abort stood
      · cases stepped

@[simp] theorem committed_set (system : System n) (thread : Fin n) (progress : Progress) :
    (system.set thread progress).committed = system.committed := rfl

@[simp] theorem progress_set_self (system : System n) (thread : Fin n) (progress : Progress) :
    (system.set thread progress).progress thread = progress := by
  simp [set]

theorem progress_set_of_ne (system : System n) {thread other : Fin n} (progress : Progress)
    (distinct : other ≠ thread) :
    (system.set thread progress).progress other = system.progress other := by
  simp [set, distinct]

/-- A statement which need not wait finds no other transaction with the row or the key it takes. -/
theorem blocked_eq_false {β : Type} {system : System n} {thread : Fin n} {snapshot : Account}
    {tx : Tx} {stmt : Sql β} (free : system.blocked thread snapshot tx stmt = false)
    {other : Fin n} (distinct : other ≠ thread) :
    (stmt.locksWallet snapshot system.committed tx = true →
      (system.progress other).work.wallet = none) ∧
    ∀ row ∈ (system.progress other).work.rows,
      stmt.locksKey system.committed tx ≠ some row.idempotencyKey := by
  have free_of := List.any_eq_false.mp free other (List.mem_finRange other)
  simp only [distinct, ne_eq, not_false_eq_true, decide_true, Bool.true_and, Bool.or_eq_true,
    Bool.and_eq_true, not_or, not_and, Bool.not_eq_true, List.any_eq_true, beq_iff_eq,
    not_exists] at free_of
  refine ⟨fun locks => ?_, fun row present equal => free_of.2 row present equal⟩
  simpa using free_of.1 locks

end System

def serial {n : Nat} (calls : Fin n → Call) : List (Fin n) → Account → List Outcome × Account
  | [], account => ([], account)
  | thread :: later, account =>
      let ended := (calls thread).run account
      let rest := serial calls later ended.2
      (ended.1 :: rest.1, rest.2)

end Hermes.Wallet
