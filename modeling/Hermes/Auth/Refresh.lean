import Hermes.Library.Transition
import Mathlib.Data.List.Nodup

/-!
# Refresh tokens

A refresh call reads the row of its token, marks it as used and inserts the next token, in
statements of one transaction; a used token makes it revoke the chain of its device instead.
Statements see what is committed when they begin, and only an update locks a row.
-/

namespace Hermes.Auth

structure Chain where
  userId : Nat
  deviceId : String
  deriving DecidableEq, Repr

/-- A row of `auth_refresh_tokens`; the token stands for its hash, and times are in
microseconds. -/
structure TokenRow where
  token : Nat
  chain : Chain
  expiresAt : Nat
  usedAt : Option Nat := none
  revokedAt : Option Nat := none
  deriving DecidableEq, Repr

/-- What `refresh` makes of a row. -/
inductive Verdict
  | reuse
  | refuse
  | exchange
  deriving DecidableEq, Repr

namespace TokenRow

/-- The checks of `refresh`, in their order. -/
def verdict (row : TokenRow) (now : Nat) : Verdict :=
  if row.usedAt.isSome then .reuse
  else if row.revokedAt.isSome then .refuse
  else if row.expiresAt ≤ now then .refuse
  else .exchange

/-- The rows `cleanup_refresh_tokens` deletes in a transaction which began at some time. -/
def isStale (row : TokenRow) (graceSeconds : Int) (began : Nat) : Bool :=
  decide (row.expiresAt < began) ||
    (row.usedAt.or row.revokedAt).any fun retired =>
      decide ((retired : Int) < began - max graceSeconds 0 * 1000000)

end TokenRow

/-- How far a call of `refresh` has come. -/
inductive Rotation
  /-- Before the row of its token is read. -/
  | begun (token : Nat)
  /-- The row passed the checks in a transaction which began at the time. -/
  | passed (token : Nat) (chain : Chain) (began : Nat)
  /-- The row is marked as used, not yet committed. -/
  | marked (token : Nat) (chain : Chain) (began : Nat)
  /-- The row was used already. -/
  | reused (chain : Chain) (began : Nat)
  /-- `_revoke_chain` has found the rows to be revoked. -/
  | revoking (chain : Chain) (candidates : List Nat) (began : Nat)
  /-- The rows are revoked, not yet committed. -/
  | revoked (chain : Chain) (candidates : List Nat) (began : Nat)
  /-- The call has returned a new token, or raised. -/
  | finished (token : Option Nat)
  deriving DecidableEq, Repr

inductive Record
  /-- A token was exchanged for a new pair. -/
  | exchanged (token : Nat) (chain : Chain)
  /-- A used token was presented again and its chain was revoked. -/
  | contained (chain : Chain)
  deriving DecidableEq, Repr

/-- The committed rows, the calls made so far, the number of tokens ever made, and the record of
what was committed. -/
structure Vault where
  rows : List TokenRow
  calls : List Rotation := []
  minted : Nat
  now : Nat
  log : List Record := []

namespace Rotation

/-- Whether the transaction of a call has locked the row of a token. -/
def locks (call : Rotation) (token : Nat) : Bool :=
  match call with
  | marked other _ _ => other == token
  | revoked _ candidates _ => candidates.contains token
  | _ => false

def exchanges : Rotation → Option (Nat × Chain)
  | passed token chain _ | marked token chain _ => some (token, chain)
  | _ => none

def revokes : Rotation → Option Chain
  | reused chain _ | revoking chain _ _ | revoked chain _ _ => some chain
  | _ => none

end Rotation

inductive RefreshEvent
  /-- Time passes. -/
  | pass (microseconds : Nat)
  /-- `refresh` is called with a token. -/
  | present (token : Nat)
  /-- The row of the token is read and checked. -/
  | select (index : Nat)
  /-- The row is marked as used. -/
  | mark (index : Nat)
  /-- `_issue_pair`, and the commit. -/
  | issue (index : Nat)
  /-- `_revoke_chain` finds its rows. -/
  | revoke (index : Nat)
  /-- `_revoke_chain` has locked and changed them all. -/
  | seize (index : Nat)
  /-- The revocation is committed. -/
  | contain (index : Nat)
  /-- A call fails and is rolled back. -/
  | die (index : Nat)
  /-- `cleanup_refresh_tokens`, in a transaction which began at the time. -/
  | cleanup (began : Nat)
  deriving DecidableEq, Repr

structure RefreshSettings where
  refreshTtlSeconds : Nat
  cleanupGraceSeconds : Int

namespace Vault

def find (vault : Vault) (token : Nat) : Option TokenRow :=
  vault.rows.find? fun row => row.token == token

def become (vault : Vault) (index : Nat) (call : Rotation) : Vault :=
  { vault with calls := vault.calls.set index call }

/-- Whether another transaction has locked the row of a token; a row which is gone cannot be
locked. -/
def isLocked (vault : Vault) (index token : Nat) : Bool :=
  (vault.find token).isSome && vault.calls.zipIdx.any fun (call, other) =>
    other != index && call.locks token

/-- The first statement of `refresh` and its checks. -/
def select (vault : Vault) (index token : Nat) : Vault :=
  match vault.find token with
  | none => vault.become index (.finished none)
  | some row =>
      match row.verdict vault.now with
      | .reuse => vault.become index (.reused row.chain vault.now)
      | .refuse => vault.become index (.finished none)
      | .exchange => vault.become index (.passed token row.chain vault.now)

def spend (vault : Vault) (token began : Nat) : Vault :=
  { vault with
    rows := vault.rows.map fun row =>
      if row.token = token then { row with usedAt := some began } else row }

def grant (vault : Vault) (settings : RefreshSettings) (chain : Chain) : Vault :=
  { vault with
    rows := vault.rows ++
      [{ token := vault.minted, chain
         expiresAt := vault.now + settings.refreshTtlSeconds * 1000000 }]
    minted := vault.minted + 1 }

def candidates (vault : Vault) (chain : Chain) : List Nat :=
  (vault.rows.filter fun row => row.chain == chain && row.revokedAt.isNone).map TokenRow.token

/-- The rows of a chain are revoked, as far as `_revoke_chain` has found them. -/
def revokeChain (vault : Vault) (chain : Chain) (candidates : List Nat) (began : Nat) : Vault :=
  { vault with
    rows := vault.rows.map fun row =>
      if row.chain = chain ∧ row.token ∈ candidates ∧ row.revokedAt = none then
        { row with revokedAt := some began }
      else row }

def record (vault : Vault) (entry : Record) : Vault :=
  { vault with log := vault.log ++ [entry] }

def advance (vault : Vault) (settings : RefreshSettings) (index : Nat) :
    Rotation → RefreshEvent → Option Vault
  | .begun token, .select _ => some (vault.select index token)
  | .passed token chain began, .mark _ =>
      if vault.isLocked index token then none
      else some (vault.become index (.marked token chain began))
  | .marked token chain began, .issue _ =>
      some ((((vault.spend token began).grant settings chain).record
        (.exchanged token chain)).become index (.finished (some vault.minted)))
  | .reused chain began, .revoke _ =>
      some (vault.become index (.revoking chain (vault.candidates chain) began))
  | .revoking chain candidates began, .seize _ =>
      if candidates.any (vault.isLocked index) then none
      else some (vault.become index (.revoked chain candidates began))
  | .revoked chain candidates began, .contain _ =>
      some (((vault.revokeChain chain candidates began).record (.contained chain)).become index
        (.finished none))
  | .finished _, .die _ => none
  | _, .die _ => some (vault.become index (.finished none))
  | _, _ => none

def step (settings : RefreshSettings) (vault : Vault) (event : RefreshEvent) : Option Vault :=
  match event with
  | .pass microseconds => some { vault with now := vault.now + microseconds }
  | .present token => some { vault with calls := vault.calls ++ [.begun token] }
  | .cleanup began =>
      if began ≤ vault.now ∧ ∀ row ∈ vault.rows, row.isStale settings.cleanupGraceSeconds began →
          ∀ call ∈ vault.calls, call.locks row.token = false then
        some { vault with
          rows := vault.rows.filter fun row => !row.isStale settings.cleanupGraceSeconds began }
      else none
  | .select index | .mark index | .issue index | .revoke index | .seize index | .contain index
  | .die index =>
      (vault.calls[index]?).bind fun call => vault.advance settings index call event

end Vault

end Hermes.Auth
