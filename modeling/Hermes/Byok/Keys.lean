import Hermes.Library.Transition
import Mathlib.Data.List.Basic

/-!
# The key a user brings

`set_key`, `toggle`, `delete_key` and `mark_expired` read the row, change the object and flush the
columns in which it differs from what was read.  What is written about a key was found out earlier,
by a call to the provider which holds no transaction.
-/

namespace Hermes.Byok

inductive KeyStatus
  | valid
  | invalid
  | missing
  | validating
  | offline
  | expired
  deriving DecidableEq, Repr

/-- A row of `byok_keys`, with the key it encrypts. -/
structure Row where
  key : String
  keyStatus : KeyStatus
  enabled : Bool
  deriving DecidableEq, Repr

/-- What `validate_key` answers. -/
inductive KeyValidation
  | valid
  | invalid
  | offline
  deriving DecidableEq, Repr

/-- The status `set_key` stores for an answer. -/
def KeyValidation.keyStatus : KeyValidation → KeyStatus
  | valid => .valid
  | invalid => .invalid
  | offline => .offline

/-- How far an operation has come; a number orders what was found out about keys. -/
inductive Phase
  /-- `set_key` asks the provider about the key. -/
  | setting (key : String)
  /-- `set_key` knows the status of the key and reads the row next. -/
  | validated (key : String) (keyStatus : KeyStatus) (number : Nat)
  /-- `set_key` flushes over what it has read. -/
  | storing (key : String) (keyStatus : KeyStatus) (number : Nat) (read : Option Row)
  /-- `toggle` reads the row next. -/
  | toggling (enabled : Bool)
  /-- `toggle` flushes over what it has read. -/
  | switching (enabled : Bool) (read : Row)
  /-- `delete_key`. -/
  | deleting
  /-- A generation decrypts the key next. -/
  | generating
  /-- A generation uses the key it has decrypted. -/
  | trying (key : String)
  /-- The provider has refused the key of a generation: `mark_expired` reads the row next. -/
  | refused (key : String) (number : Nat)
  /-- `mark_expired` flushes over what it has read. -/
  | expiring (key : String) (number : Nat) (read : Row)
  /-- The operation has ended. -/
  | finished
  deriving DecidableEq, Repr

/-- Something found out about a key by an operation which has committed. -/
structure Finding where
  key : String
  keyStatus : KeyStatus
  number : Nat
  deriving DecidableEq, Repr

/-- The committed row of a user, the operations so far, the findings committed, and the number of
the next one. -/
structure Store where
  row : Option Row := none
  operations : List Phase := []
  findings : List Finding := []
  next : Nat := 0

inductive Event
  /-- An operation begins. -/
  | begin (operation : Phase)
  /-- The provider answers `validate_key`. -/
  | validate (index : Nat) (answer : KeyValidation)
  /-- `get_plaintext_key`. -/
  | decrypt (index : Nat)
  /-- The provider refuses the key of a generation. -/
  | refuse (index : Nat)
  /-- An operation reads the row. -/
  | load (index : Nat)
  /-- An operation flushes and commits. -/
  | flush (index : Nat)
  /-- An operation ends without a write. -/
  | leave (index : Nat)
  deriving DecidableEq, Repr

def Phase.isStart : Phase → Bool
  | setting _ | toggling _ | deleting | generating => true
  | _ => false

namespace Row

/-- The object `set_key` makes of a row it has read. -/
def setKey (row : Row) (key : String) (keyStatus : KeyStatus) : Row :=
  { key, keyStatus, enabled := if keyStatus = .valid then row.enabled else false }

/-- The object `toggle` makes of a row it has read. -/
def toggle (row : Row) (enabled : Bool) : Row :=
  { row with enabled }

/-- The object `mark_expired` makes of a row it has read. -/
def markExpired (row : Row) : Row :=
  { row with keyStatus := .expired, enabled := false }

/-- A flush writes the columns in which an object differs from what was read. -/
def flush (row read changed : Row) : Row where
  key := if changed.key = read.key then row.key else changed.key
  keyStatus := if changed.keyStatus = read.keyStatus then row.keyStatus else changed.keyStatus
  enabled := if changed.enabled = read.enabled then row.enabled else changed.enabled

end Row

namespace Store

def become (store : Store) (index : Nat) (phase : Phase) : Store :=
  { store with operations := store.operations.set index phase }

def record (store : Store) (key : String) (keyStatus : KeyStatus) (number : Nat) : Store :=
  { store with findings := store.findings ++ [⟨key, keyStatus, number⟩] }

/-- What an operation goes on with once it has read the row. -/
def load (store : Store) (index : Nat) : Phase → Option Store
  | .validated key keyStatus number =>
      some (store.become index (.storing key keyStatus number store.row))
  | .toggling enabled =>
      match store.row with
      | none => some (store.become index .finished)
      | some row =>
          if enabled = true ∧ row.keyStatus ≠ .valid then some (store.become index .finished)
          else some (store.become index (.switching enabled row))
  | .refused key number =>
      match store.row with
      | none => some (store.become index .finished)
      | some row => some (store.become index (.expiring key number row))
  | _ => none

/-- An operation flushes and commits.  A row which is there already cannot be inserted, and one
which is gone cannot be updated: the operation fails. -/
def flush (store : Store) (index : Nat) : Phase → Option Store
  | .storing key keyStatus number none =>
      match store.row with
      | none =>
          some (({ store with row := some ⟨key, keyStatus, false⟩ }.record key keyStatus
            number).become index .finished)
      | some _ => some (store.become index .finished)
  | .storing key keyStatus number (some read) =>
      match store.row with
      | none => some (store.become index .finished)
      | some row =>
          -- The encrypted columns always differ: they carry a new nonce.
          some (({ store with
            row := some { row.flush read (read.setKey key keyStatus) with key } }.record key
              keyStatus number).become index .finished)
  | .switching enabled read =>
      match store.row with
      | none => some (store.become index .finished)
      | some row =>
          some ({ store with row := some (row.flush read (read.toggle enabled)) }.become index
            .finished)
  | .deleting => some ({ store with row := none }.become index .finished)
  | .expiring key number read =>
      match store.row with
      | none => some (store.become index .finished)
      | some row =>
          some (({ store with row := some (row.flush read read.markExpired) }.record key .expired
            number).become index .finished)
  | _ => none

def step (store : Store) : Event → Option Store
  | .begin operation =>
      if operation.isStart then some { store with operations := store.operations ++ [operation] }
      else none
  | .validate index answer =>
      match store.operations[index]? with
      | some (.setting key) =>
          some { store.become index (.validated key answer.keyStatus store.next) with
            next := store.next + 1 }
      | _ => none
  | .decrypt index =>
      match store.operations[index]?, store.row with
      | some .generating, some row => some (store.become index (.trying row.key))
      | _, _ => none
  | .refuse index =>
      match store.operations[index]? with
      | some (.trying key) =>
          some { store.become index (.refused key store.next) with next := store.next + 1 }
      | _ => none
  | .load index => (store.operations[index]?).bind (store.load index)
  | .flush index => (store.operations[index]?).bind (store.flush index)
  | .leave index => (store.operations[index]?).map fun _ => store.become index .finished

end Store

/-! ### The row and its key -/

namespace Store

/-- Enabling implies a valid key, and the status is what was found out last about the very key in
the row. -/
def Truthful (store : Store) : Prop :=
  ∀ row, store.row = some row →
    (row.enabled = true → row.keyStatus = .valid) ∧
      ∃ number, ⟨row.key, row.keyStatus, number⟩ ∈ store.findings ∧
        ∀ finding ∈ store.findings, finding.key = row.key → finding.number ≤ number

/-- Nothing newer has been committed about a key. -/
def isLatest (store : Store) (key : String) (number : Nat) : Bool :=
  store.findings.all fun finding => !(finding.key == key) || decide (finding.number < number)

/-- A flush finds the row as its operation read it, and what it writes about a key is about the key
in the row and newer than what was committed about it. -/
def current (store : Store) : Event → Bool
  | .flush index =>
      match store.operations[index]? with
      | some (.storing key _ number none) => store.row.isSome || store.isLatest key number
      | some (.storing key _ number (some read)) =>
          store.row.all (· == read) && store.isLatest key number
      | some (.switching _ read) => store.row.all (· == read)
      | some (.expiring key number read) =>
          store.row.all (fun row => row == read && row.key == key) && store.isLatest key number
      | _ => true
  | _ => true

/-- No operation is under way and the row is truthful. -/
structure Settled (store : Store) : Prop where
  operations : store.operations = []
  truthful : store.Truthful

/-- The row is truthful, and who is about to enable has read a valid key. -/
structure Sound (store : Store) : Prop where
  truthful : store.Truthful
  entitled : ∀ read, .switching true read ∈ store.operations → read.keyStatus = .valid

end Store

theorem Row.flush_self (row changed : Row) : row.flush row changed = changed := by
  have written {α : Type} [DecidableEq α] (old new : α) :
      (if new = old then old else new) = new := by
    split
    next same => exact same.symm
    · rfl
  simp only [Row.flush, written]

namespace Store.Sound

variable {store after : Store}

theorem become (sound : store.Sound) {index : Nat} {phase : Phase}
    (row : after.row = store.row) (findings : after.findings = store.findings)
    (operations : after.operations = store.operations.set index phase)
    (entitled : ∀ read, phase = .switching true read → read.keyStatus = .valid) : after.Sound := by
  constructor
  case truthful =>
      unfold Truthful
      rw [row, findings]
      exact sound.truthful
  case entitled =>
      intro read member
      rcases List.mem_or_eq_of_mem_set (operations ▸ member) with old | same
      · exact sound.entitled read old
      · exact entitled read same.symm

theorem commit (sound : store.Sound) {index : Nat} (truthful : after.Truthful)
    (operations : after.operations = store.operations.set index .finished) : after.Sound := by
  refine ⟨truthful, fun read member => ?_⟩
  rcases List.mem_or_eq_of_mem_set (operations ▸ member) with old | same
  · exact sound.entitled read old
  · cases same

theorem truthful_record {row : Row} {number : Nat} (enabled : row.enabled = true →
      row.keyStatus = .valid) (latest : store.isLatest row.key number = true)
    (written : after.row = some row)
    (findings : after.findings = store.findings ++ [⟨row.key, row.keyStatus, number⟩]) :
    after.Truthful := by
  intro found present
  cases written.symm.trans present
  refine ⟨enabled, number, by rw [findings]; simp, fun finding member same => ?_⟩
  rw [findings] at member
  rcases List.mem_append.mp member with old | new
  · have older := List.all_eq_true.mp latest finding old
    simp only [same, beq_self_eq_true, Bool.not_true, Bool.false_or, decide_eq_true_eq] at older
    exact Nat.le_of_lt older
  · cases List.mem_singleton.mp new
    exact Nat.le_refl _

theorem load (sound : store.Sound) {index : Nat} {phase : Phase}
    (loaded : store.load index phase = some after) : after.Sound := by
  cases phase with
  | validated key keyStatus number =>
      cases loaded
      exact sound.become rfl rfl rfl nofun
  | toggling enabled =>
      simp only [Store.load] at loaded
      split at loaded
      · cases loaded
        exact sound.become rfl rfl rfl nofun
      · split at loaded <;> cases loaded
        · exact sound.become rfl rfl rfl nofun
        next allowed =>
          refine sound.become rfl rfl rfl fun read same => ?_
          cases same
          simpa using allowed
  | refused key number =>
      simp only [Store.load] at loaded
      split at loaded <;> cases loaded <;> exact sound.become rfl rfl rfl nofun
  | setting | storing | switching | deleting | generating | trying | expiring | finished =>
      cases loaded

theorem flush (sound : store.Sound) {index : Nat} {phase : Phase}
    (present : store.operations[index]? = some phase)
    (current : store.current (.flush index) = true)
    (flushed : store.flush index phase = some after) : after.Sound := by
  have member := List.mem_of_getElem? present
  simp only [Store.current, present] at current
  cases phase with
  | storing key keyStatus number read =>
      cases read with
      | none =>
          simp only [Store.flush] at flushed
          split at flushed <;> cases flushed
          next absent =>
            have latest : store.isLatest key number = true := by
              simpa [absent] using current
            have disabled : (Row.mk key keyStatus false).enabled = true →
                (Row.mk key keyStatus false).keyStatus = .valid := nofun
            apply sound.commit _ rfl
            exact truthful_record disabled latest rfl rfl
          · exact sound.become rfl rfl rfl nofun
      | some read =>
          simp only [Store.flush] at flushed
          split at flushed <;> cases flushed
          · exact sound.become rfl rfl rfl nofun
          next row at_row =>
            simp only [at_row, Option.all_some, Bool.and_eq_true, beq_iff_eq] at current
            obtain ⟨rfl, latest⟩ := current
            have written : ({ row.flush row (row.setKey key keyStatus) with key } : Row) =
                row.setKey key keyStatus := by
              rw [Row.flush_self]
              rfl
            have enabled : (row.setKey key keyStatus).enabled = true →
                (row.setKey key keyStatus).keyStatus = .valid := by
              intro enabled
              simp only [Row.setKey] at enabled
              split at enabled
              next valid => exact valid
              · cases enabled
            apply sound.commit _ rfl
            exact truthful_record enabled latest (congrArg some written) rfl
  | switching enabled read =>
      simp only [Store.flush] at flushed
      split at flushed <;> cases flushed
      · exact sound.become rfl rfl rfl nofun
      next row at_row =>
        simp only [at_row, Option.all_some, beq_iff_eq] at current
        subst current
        apply sound.commit _ rfl
        intro found present
        obtain ⟨number, recorded, latest⟩ := (sound.truthful row at_row).2
        have same : found = row.toggle enabled := by
          rw [← Row.flush_self row (row.toggle enabled)]
          exact (Option.some.inj present).symm
        subst same
        refine ⟨fun on => ?_, number, recorded, latest⟩
        have on : enabled = true := on
        subst on
        exact sound.entitled row member
  | deleting =>
      cases flushed
      exact sound.commit nofun rfl
  | expiring key number read =>
      simp only [Store.flush] at flushed
      split at flushed <;> cases flushed
      · exact sound.become rfl rfl rfl nofun
      next row at_row =>
        simp only [at_row, Option.all_some, Bool.and_eq_true, beq_iff_eq] at current
        obtain ⟨⟨rfl, rfl⟩, latest⟩ := current
        have disabled : row.markExpired.enabled = true →
            row.markExpired.keyStatus = .valid := nofun
        apply sound.commit _ rfl
        exact truthful_record disabled latest (congrArg some (row.flush_self row.markExpired)) rfl
  | setting | validated | toggling | generating | trying | refused | finished => cases flushed

theorem step (sound : store.Sound) {event : Event} (current : store.current event = true)
    (stepped : store.step event = some after) : after.Sound := by
  cases event with
  | begin operation =>
      simp only [Store.step] at stepped
      split at stepped <;> cases stepped
      next start =>
        refine ⟨sound.truthful, fun read member => ?_⟩
        rcases List.mem_append.mp member with old | new
        · exact sound.entitled read old
        · rw [List.mem_singleton] at new
          rw [← new] at start
          cases start
  | validate index answer =>
      simp only [Store.step] at stepped
      split at stepped <;> cases stepped
      exact sound.become rfl rfl rfl nofun
  | decrypt index =>
      simp only [Store.step] at stepped
      split at stepped <;> cases stepped
      exact sound.become rfl rfl rfl nofun
  | refuse index =>
      simp only [Store.step] at stepped
      split at stepped <;> cases stepped
      exact sound.become rfl rfl rfl nofun
  | load index =>
      obtain ⟨phase, -, loaded⟩ := Option.bind_eq_some_iff.mp stepped
      exact sound.load loaded
  | flush index =>
      obtain ⟨phase, present, flushed⟩ := Option.bind_eq_some_iff.mp stepped
      exact sound.flush present current flushed
  | leave index =>
      obtain ⟨phase, -, rfl⟩ := Option.map_eq_some_iff.mp stepped
      exact sound.become rfl rfl rfl nofun

end Store.Sound

/-- While every flush finds the row as its operation read it, and writes about the key in the row
what is newer than anything committed about it, an enabled key is valid and the status of a key is
the one found out last about that key. -/
theorem key_state_matches_key (start store : Store) (settled : start.Settled)
    (reached : Reachable Store.step (fun store event => store.current event = true) start store) :
    store.Truthful := by
  have sound : store.Sound := by
    apply reached.invariant Store.Sound
    · exact ⟨settled.truthful, by simp [settled.operations]⟩
    · intro before event after sound current stepped
      exact sound.step current stepped
  exact sound.truthful

namespace Sample

theorem empty_settled : Store.Settled {} := ⟨rfl, nofun⟩

/-- A key is stored, enabled, used and refused, and another one stored in its place. -/
def replaced : List Event :=
  [.begin (.setting "sk-old"), .validate 0 .valid, .load 0, .flush 0, .begin (.toggling true),
    .load 1, .flush 1, .begin .generating, .decrypt 2, .refuse 2, .load 2, .flush 2,
    .begin (.setting "sk-new"), .validate 3 .valid, .load 3, .flush 3]

/-- Through all of it the row is truthful. -/
theorem replaced_key_truthful :
    ∃ store, Reachable Store.step (fun store event => store.current event = true) {} store ∧
      (store.row == some ⟨"sk-new", .valid, false⟩) = true ∧ store.Truthful := by
  obtain ⟨store, reached, tested⟩ := reachable_of_any Store.step
    (fun store event => store.current event = true) {}
    (fun store => store.row == some ⟨"sk-new", .valid, false⟩) replaced (by decide)
  exact ⟨store, reached, tested, key_state_matches_key {} store empty_settled reached⟩

/-- A generation decrypts a key; while it runs, another one is stored and found valid; the refusal
of the first is then written over the second. -/
def outdated : List Event :=
  [.begin (.setting "sk-old"), .validate 0 .valid, .load 0, .flush 0, .begin .generating,
    .decrypt 1, .begin (.setting "sk-new"), .validate 2 .valid, .load 2, .flush 2, .refuse 1,
    .load 1, .flush 1]

/-- The new key is marked as expired though it was only ever found valid. -/
theorem outdated_refusal_written :
    ¬ ∀ (start store : Store), start.Settled →
      Reachable Store.step (fun _ _ => True) start store → store.Truthful := by
  intro always
  obtain ⟨store, reached, tested⟩ := reachable_of_any Store.step (fun _ _ => True) {}
    (fun store => store.row == some ⟨"sk-new", .expired, false⟩ &&
      store.findings.all fun finding => !(finding.key == "sk-new" && finding.keyStatus == .expired))
    outdated (by decide)
  rw [Bool.and_eq_true, beq_iff_eq] at tested
  obtain ⟨-, number, recorded, -⟩ := always {} store empty_settled reached _ tested.1
  have unrecorded := List.all_eq_true.mp tested.2 _ recorded
  simp at unrecorded

end Sample

end Hermes.Byok
