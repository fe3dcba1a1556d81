import Hermes.AgentProxy.Overcharge

/-!
# Everything that writes to the ledgers of runs

Relays and consumers process events, sweeps finalize orphans, other services use the same wallets,
and the rest of the service rewrites `agent_runs`.  Nothing is assumed of what a relay has counted
or of what a sweep has read: the ledgers below are all that any interleaving of whole calls can
produce.
-/

namespace Hermes.AgentProxy

open Wallet

inductive LedgerAction
  /-- `process_event` of any relay or consumer, whatever it has counted so far. -/
  | process (settings : Settings) (conditions : Conditions) (run : RunProcessing)
      (event : SseEvent)
  /-- `finalize_orphan_run` of any candidate. -/
  | finalize (settings : Settings) (conditions : Conditions) (candidate : OrphanCandidate)
  /-- A wallet call of another service. -/
  | wallet (invocation : Call)
  /-- Any other statements on `agent_runs`. -/
  | lifecycle (runs : Runs)

namespace LedgerAction

def step (db : AgentDb) : LedgerAction → Option AgentDb
  | .process settings conditions run event =>
      some (processEvent settings conditions run event db).2.2
  | .finalize settings conditions candidate =>
      some (finalizeOrphanRun settings conditions candidate db).2
  | .wallet invocation => some { db with accounts := db.accounts.step invocation }
  | .lifecycle runs => some { db with runs := runs }

/-- Wallet calls of other services name no run. -/
def Unowned (_ : AgentDb) : LedgerAction → Prop
  | .wallet invocation => (operationMeta invocation.operation).runId = none
  | _ => True

/-- What all the writers together can produce. -/
def Produced (db : AgentDb) : Prop := Reachable step Unowned {} db

/-- One action is a wallet call, or charges one run under one key, or charges nothing. -/
theorem step_cases {before after : AgentDb} {action : LedgerAction}
    (stepped : step before action = some after) :
    after.accounts = before.accounts ∨
    (∃ invocation, action = .wallet invocation ∧
      after.accounts = before.accounts.step invocation) ∨
    (∃ settings conditions run event bill, action = .process settings conditions run event ∧
      billItem settings run event = some bill ∧
      Charges before after run.userId run.runId bill.key bill.amount) ∨
    ∃ settings conditions candidate, action = .finalize settings conditions candidate ∧
      Charges before after candidate.userId candidate.runId candidate.runId
        (orphanOwed settings candidate before) := by
  cases action with
  | process settings conditions run event =>
      cases stepped
      rcases processEvent_charges settings conditions run event before with
        same | ⟨bill, item, -, charges⟩
      · exact .inl same
      · exact .inr (.inr (.inl ⟨settings, conditions, run, event, bill, rfl, item, charges⟩))
  | finalize settings conditions candidate =>
      cases stepped
      rcases finalizeOrphanRun_charges settings conditions candidate before with same | charges
      · exact .inl same
      · exact .inr (.inr (.inr ⟨settings, conditions, candidate, rfl, charges⟩))
  | wallet invocation =>
      cases stepped
      exact .inr (.inl ⟨invocation, rfl, rfl⟩)
  | lifecycle runs =>
      cases stepped
      exact .inl rfl

end LedgerAction

structure Kept (account : Account) : Prop where
  attributed : Attributed account
  stored : account.Stored

theorem kept_empty : Kept {} where
  attributed := attributed_empty
  stored row present := by cases present

theorem Charges.kept {before after : AgentDb} {userId : UserId} {runId key : String} {amount : Int}
    (charges : Charges before after userId runId key amount) {user : UserId}
    (kept : Kept (before.accounts user)) : Kept (after.accounts user) := by
  by_cases mine : user = userId
  · subst mine
    exact ⟨charges.attributed kept.attributed, charges.stored kept.stored⟩
  · rw [charges.others user mine]
    exact kept

namespace LedgerAction

variable {before after : AgentDb} {action : LedgerAction} {user : UserId}

theorem accounts_wallet (accounts : Accounts) (invocation : Call) (user : UserId) :
    accounts.step invocation user = accounts user ∨
      invocation.context.userId = user ∧
        accounts.step invocation user = (invocation.run (accounts user)).2 := by
  by_cases mine : user = invocation.context.userId
  · subst mine
    exact .inr ⟨rfl, by simp [Accounts.step]⟩
  · exact .inl (by simp [Accounts.step, Function.update_of_ne mine])

theorem kept_step (kept : Kept (before.accounts user)) (unowned : action.Unowned before)
    (stepped : step before action = some after) : Kept (after.accounts user) := by
  rcases step_cases stepped with same | ⟨invocation, rfl, called⟩ |
    ⟨settings, conditions, run, event, bill, rfl, item, charges⟩ |
    ⟨settings, conditions, candidate, rfl, charges⟩
  · rw [same]
    exact kept
  · rw [called]
    rcases accounts_wallet before.accounts invocation user with same | ⟨-, ran⟩
    · rw [same]
      exact kept
    · rw [ran]
      exact ⟨(BillingSystem.call_charges_none unowned kept.attributed).1,
        kept.stored.run invocation⟩
  · exact charges.kept kept
  · exact charges.kept kept

theorem Produced.kept {db : AgentDb} (produced : Produced db) (user : UserId) :
    Kept (db.accounts user) := by
  apply produced.invariant fun db => Kept (db.accounts user)
  · exact kept_empty
  · intro before action after kept unowned stepped
    exact kept_step kept unowned stepped

end LedgerAction

end Hermes.AgentProxy
