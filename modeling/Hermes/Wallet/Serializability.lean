import Hermes.Library.History
import Hermes.Wallet.Conservation
import Hermes.Wallet.Settle
import Mathlib.Data.Fin.VecNotation
import Mathlib.Data.List.Nodup
import Mathlib.Data.List.Permutation

/-!
# Serializability of concurrent wallet calls

While no statement is overtaken by a concurrent commit, every interleaving of calls ends as if the
calls had run one after another: a call which writes takes its place when it commits, a call which
only reads takes it at its decisive read.  Overtaken statements do occur, and then no serial order
explains what the calls leave and report.
-/

namespace Hermes.Wallet

variable {n : Nat}

/-- The next statement has not been overtaken by a concurrent commit. -/
def Progress.Undisturbed (invocation : Call) (committed : Account) : Progress → Prop
  | .running (.issue stmt _) tx (some snapshot) =>
      invocation.Undisturbed snapshot committed tx stmt
  | _ => True

/-- The action executes no statement that a concurrent commit has overtaken. -/
def System.Undisturbed (calls : Fin n → Call) (system : System n) : Action n → Prop
  | .execute thread => (system.progress thread).Undisturbed (calls thread) system.committed
  | _ => True

instance (invocation : Call) (committed : Account) (progress : Progress) :
    Decidable (progress.Undisturbed invocation committed) :=
  match progress with
  | .running (.issue stmt _) tx (some snapshot) =>
      inferInstanceAs (Decidable (invocation.Undisturbed snapshot committed tx stmt))
  | .running (.issue _ _) _ none | .running (.done _) _ _ | .finished _ | .aborted =>
      .isTrue trivial

instance (calls : Fin n → Call) (system : System n) (action : Action n) :
    Decidable (system.Undisturbed calls action) :=
  match action with
  | .execute thread =>
      inferInstanceAs
        (Decidable ((system.progress thread).Undisturbed (calls thread) system.committed))
  | .arrive _ | .finish _ | .abort _ => .isTrue trivial

/-- A transaction is still open, is idle after the entry which explains it, has ended with the
answer of its entry, or was aborted and has no entry. -/
def Accounted (calls : Fin n → Call) (history : List (Entry (Fin n) Outcome Account))
    (committed : Account) (thread : Fin n) : Progress → Prop
  | .running program tx snapshot =>
      (thread ∉ history.map (·.actor) ∧
        Standing (calls thread) committed snapshot program tx) ∨
      ∃ entry ∈ history, entry.actor = thread ∧ entry.after = entry.before ∧
        Idle snapshot program tx entry.answer
  | .finished outcome => ∃ entry ∈ history, entry.actor = thread ∧ entry.answer = outcome
  | .aborted => thread ∉ history.map (·.actor)

/-- The history runs the calls one after another up to the committed account. -/
structure Explains (calls : Fin n → Call) (start : Account)
    (history : List (Entry (Fin n) Outcome Account)) (system : System n) : Prop where
  linked : Linked start history system.committed
  ran : ∀ entry ∈ history, (calls entry.actor).run entry.before = (entry.answer, entry.after)
  once : (history.map (·.actor)).Nodup
  accounted : ∀ thread, Accounted calls history system.committed thread (system.progress thread)

section Explains

variable {calls : Fin n → Call} {start : Account} {system after : System n}
  {history : List (Entry (Fin n) Outcome Account)} {thread : Fin n}

theorem Accounted.snoc {committed later : Account} {progress : Progress}
    {entry : Entry (Fin n) Outcome Account}
    (accounted : Accounted calls history committed thread progress)
    (distinct : thread ≠ entry.actor)
    (stands : ∀ program tx snapshot, progress = .running program tx snapshot →
      Standing (calls thread) committed snapshot program tx →
      Standing (calls thread) later snapshot program tx) :
    Accounted calls (history ++ [entry]) later thread progress := by
  have absent_of (absent : thread ∉ history.map (·.actor)) :
      thread ∉ (history ++ [entry]).map (·.actor) := by
    simpa [distinct] using absent
  cases progress with
  | running program tx snapshot =>
      rcases accounted with ⟨absent, standing⟩ | ⟨earlier, present, rest⟩
      · exact .inl ⟨absent_of absent, stands program tx snapshot rfl standing⟩
      · exact .inr ⟨earlier, List.mem_append_left _ present, rest⟩
  | finished outcome =>
      obtain ⟨earlier, present, rest⟩ := accounted
      exact ⟨earlier, List.mem_append_left _ present, rest⟩
  | aborted => exact absent_of accounted

theorem Explains.keep (explains : Explains calls start history system) {progress : Progress}
    (accounted : Accounted calls history system.committed thread progress) :
    Explains calls start history (system.set thread progress) where
  linked := explains.linked
  ran := explains.ran
  once := explains.once
  accounted other := by
    by_cases same : other = thread
    · subst same
      rw [System.progress_set_self]
      exact accounted
    · rw [System.progress_set_of_ne system progress same]
      exact explains.accounted other

theorem Explains.place (explains : Explains calls start history system) {progress : Progress}
    {outcome : Outcome} {committed : Account}
    (absent : thread ∉ history.map (·.actor))
    (ran : (calls thread).run system.committed = (outcome, committed))
    (accounted : Accounted calls
      (history ++ [⟨thread, outcome, system.committed, committed⟩]) committed thread progress)
    (stands : ∀ other, other ≠ thread → ∀ program tx snapshot,
      system.progress other = .running program tx snapshot →
      Standing (calls other) system.committed snapshot program tx →
      Standing (calls other) committed snapshot program tx) :
    Explains calls start (history ++ [⟨thread, outcome, system.committed, committed⟩])
      { (system.set thread progress) with committed := committed } where
  linked := explains.linked.snoc rfl
  ran entry present := by
    rcases List.mem_append.mp present with earlier | last
    · exact explains.ran entry earlier
    · rw [List.mem_singleton.mp last]
      exact ran
  once := by
    rw [List.map_append, List.nodup_append]
    refine ⟨explains.once, by simp, ?_⟩
    rintro actor present other single rfl
    simp only [List.map_cons, List.map_nil, List.mem_singleton] at single
    exact absent (single ▸ present)
  accounted other := by
    by_cases same : other = thread
    · subst same
      change Accounted calls _ committed other ((system.set other progress).progress other)
      rw [System.progress_set_self]
      exact accounted
    · change Accounted calls _ committed other ((system.set thread progress).progress other)
      rw [System.progress_set_of_ne system progress same]
      exact (explains.accounted other).snoc same (stands other same)

theorem Explains.settle (explains : Explains calls start history system) {progress : Progress}
    {outcome : Outcome} (absent : thread ∉ history.map (·.actor))
    (ran : (calls thread).run system.committed = (outcome, system.committed))
    (accounted : Accounted calls
      (history ++ [⟨thread, outcome, system.committed, system.committed⟩])
      system.committed thread progress) :
    ∃ longer, Explains calls start longer (system.set thread progress) :=
  ⟨_, explains.place absent ran accounted fun _ _ _ _ _ _ => id⟩

theorem Explains.abort (explains : Explains calls start history system)
    {program : Program Sql Outcome} {tx : Tx} {snapshot : Option Account}
    (stood : system.progress thread = .running program tx snapshot) :
    ∃ shorter, Explains calls start shorter (system.set thread .aborted) := by
  have accounted := explains.accounted thread
  rw [stood] at accounted
  rcases accounted with ⟨absent, -⟩ | ⟨own, present, own_actor, unchanged, -⟩
  · exact ⟨history, explains.keep absent⟩
  · let keep : Entry (Fin n) Outcome Account → Bool := fun entry => entry.actor ≠ thread
    have unique (entry) (member : entry ∈ history) (mine : entry.actor = thread) : entry = own :=
      List.inj_on_of_nodup_map explains.once member present (mine.trans own_actor.symm)
    have stays {other : Fin n} (distinct : other ≠ thread) {entry}
        (member : entry ∈ history) (theirs : entry.actor = other) :
        entry ∈ history.filter keep := by
      refine List.mem_filter.mpr ⟨member, ?_⟩
      simp [keep, theirs, distinct]
    have shrinks {other : Fin n} (absent : other ∉ history.map (·.actor)) :
        other ∉ (history.filter keep).map (·.actor) := by
      intro found
      obtain ⟨entry, member, theirs⟩ := List.mem_map.mp found
      exact absent (List.mem_map.mpr ⟨entry, (List.mem_filter.mp member).1, theirs⟩)
    refine ⟨history.filter keep, ?_, ?_, ?_, ?_⟩
    · refine explains.linked.filter ?_
      intro entry member dropped
      have mine : entry.actor = thread := by simpa [keep] using dropped
      rw [unique entry member mine]
      exact unchanged
    · intro entry member
      exact explains.ran entry (List.mem_filter.mp member).1
    · exact explains.once.sublist (List.filter_sublist.map _)
    · intro other
      by_cases same : other = thread
      · subst same
        rw [System.progress_set_self]
        intro found
        obtain ⟨entry, member, theirs⟩ := List.mem_map.mp found
        have kept := (List.mem_filter.mp member).2
        simp [keep, theirs] at kept
      · rw [System.progress_set_of_ne system _ same, System.committed_set]
        have accounted := explains.accounted other
        cases progress : system.progress other with
        | running program tx snapshot =>
            rw [progress] at accounted
            rcases accounted with ⟨absent, standing⟩ | ⟨entry, member, theirs, rest⟩
            · exact .inl ⟨shrinks absent, standing⟩
            · exact .inr ⟨entry, stays same member theirs, theirs, rest⟩
        | finished outcome =>
            rw [progress] at accounted
            obtain ⟨entry, member, theirs, rest⟩ := accounted
            exact ⟨entry, stays same member theirs, theirs, rest⟩
        | aborted =>
            rw [progress] at accounted
            exact shrinks accounted

/-- A transaction which ends runs after the history, unless it has its place there already. -/
theorem Explains.finish (explains : Explains calls start history system) (apart : system.Apart)
    {outcome : Outcome} {tx : Tx} {snapshot : Option Account}
    (stood : system.progress thread = .running (.done outcome) tx snapshot) :
    ∃ longer, Explains calls start longer
      { (system.set thread (.finished outcome)) with
        committed := ((calls thread).conclude system.committed (.ok (outcome, tx))).2 } := by
  have accounted := explains.accounted thread
  rw [stood] at accounted
  have next_apart := apart.took (.finish stood : system.Took calls (.finish thread) _)
  rcases accounted with ⟨absent, standing⟩ | ⟨entry, present, mine, unchanged, idle⟩
  · obtain ⟨work, ran⟩ := standing.finish rfl
    refine ⟨_, explains.place absent ?_
      ⟨_, List.mem_concat_self, rfl, rfl⟩ ?_⟩
    · rw [← ran]
      rfl
    · intro other distinct program held view open_other stands
      have other_work : (system.progress other).work = held.work := by
        rw [open_other]
        rfl
      have own_work : (system.progress thread).work = tx.work := by
        rw [stood]
        rfl
      refine stands.later ?_ ?_ ?_
      · cases ending : (calls thread).ending with
        | commit =>
            simp only [Call.conclude, ending]
            exact Account.grows_onto tx.work system.committed
        | rollback =>
            simp only [Call.conclude, ending]
            exact ⟨id, fun _ _ => id⟩
      · intro row member
        refine next_apart.fresh other row ?_
        change row ∈ ((system.set thread _).progress other).work.rows
        rw [System.progress_set_of_ne system _ distinct, other_work]
        exact member
      · intro locked
        have released : tx.work.wallet = none := by
          rw [← own_work]
          exact apart.wallet other thread distinct (by rw [other_work]; exact locked)
        have clean : tx.work = {} := by
          rcases work with holds | clean
          · rw [released] at holds
            cases holds
          · exact clean
        rw [Call.conclude_empty outcome clean]
  · have closed := idle.finish rfl (calls thread) system.committed
    have same_outcome : outcome = entry.answer := congrArg Prod.fst closed
    have same_account :
        ((calls thread).conclude system.committed (.ok (outcome, tx))).2 =
          system.committed := congrArg Prod.snd closed
    rw [same_account, same_outcome]
    exact ⟨history, explains.keep ⟨entry, present, mine, rfl⟩⟩

/-- Every undisturbed action keeps the committed account explained by a serial history. -/
theorem Explains.took {action : Action n} (explains : Explains calls start history system)
    (apart : system.Apart) (took : system.Took calls action after)
    (undisturbed : system.Undisturbed calls action) :
    ∃ history, Explains calls start history after := by
  cases took with
  | @arrive _ thread stmt next tx stood =>
      have accounted := explains.accounted thread
      rw [stood] at accounted
      rcases accounted with ⟨absent, standing⟩ | ⟨entry, present, mine, unchanged, idle⟩
      · rcases standing.arrive with stands | ⟨outcome, idle, ran⟩
        · exact ⟨history, explains.keep (.inl ⟨absent, stands⟩)⟩
        · exact explains.settle absent ran
            (.inr ⟨_, List.mem_concat_self, rfl, rfl, idle⟩)
      · exact ⟨history, explains.keep
          (.inr ⟨entry, present, mine, unchanged, idle.arrive system.committed⟩)⟩
  | @answer _ thread stmt next tx after snapshot answer stood free executed =>
      have accounted := explains.accounted thread
      rw [stood] at accounted
      rcases accounted with ⟨absent, standing⟩ | ⟨entry, present, mine, unchanged, idle⟩
      · simp only [System.Undisturbed, stood, Progress.Undisturbed] at undisturbed
        have settled := standing.settled apart.stored (apart.nested thread _ _ _ stood).1 rfl rfl
          undisturbed
        rw [executed] at settled
        rcases settled with stands | ⟨outcome, idle, ran⟩
        · exact ⟨history, explains.keep (.inl ⟨absent, stands⟩)⟩
        · exact explains.settle absent ran
            (.inr ⟨_, List.mem_concat_self, rfl, rfl, idle⟩)
      · rcases idle.execute rfl system.committed with
          ⟨failure, failed, -⟩ | ⟨same_answer, same_after, answered, later⟩
        · rw [failed] at executed
          cases executed
        · rw [answered] at executed
          cases executed
          exact ⟨history, explains.keep (.inr ⟨entry, present, mine, unchanged, later⟩)⟩
  | @fail _ thread stmt next tx snapshot failure stood executed =>
      have accounted := explains.accounted thread
      rw [stood] at accounted
      rcases accounted with ⟨absent, standing⟩ | ⟨entry, present, mine, unchanged, idle⟩
      · simp only [System.Undisturbed, stood, Progress.Undisturbed] at undisturbed
        have settled := standing.settled apart.stored (apart.nested thread _ _ _ stood).1 rfl rfl
          undisturbed
        rw [executed] at settled
        exact explains.settle absent settled ⟨_, List.mem_concat_self, rfl, rfl⟩
      · rcases idle.execute rfl system.committed with
          ⟨same, failed, answers⟩ | ⟨same_answer, same_after, answered, later⟩
        · rw [failed] at executed
          cases executed
          exact ⟨history, explains.keep ⟨entry, present, mine, answers⟩⟩
        · rw [answered] at executed
          cases executed
  | finish stood => exact explains.finish apart stood
  | abort stood => exact explains.abort stood

end Explains

/-- What every step of a serial order does to the wallet: nothing becomes negative, no more debt
is repaid than there is, and debt is added only once the balance is used up. -/
def Call.StepsSafely (invocation : Call) (before : Account) : Prop :=
  let after := (invocation.run before).2
  0 ≤ after.balance ∧ 0 ≤ after.debt ∧ before.debt - after.debt ≤ before.debt ∧
    (before.debt < after.debt → after.balance = 0)

/-- The calls which have ended are explained by one serial order of them: it leaves the committed
account and gives each of them its answer, and each step of it is safe. -/
def System.Serializable (calls : Fin n → Call) (start : Account) (system : System n) : Prop :=
  ∃ order : List (Fin n), order.Nodup ∧
    (∀ thread, thread ∈ order ↔ ∃ outcome, system.progress thread = .finished outcome) ∧
    (serial calls order start).2 = system.committed ∧
    order.map system.progress = (serial calls order start).1.map .finished ∧
    ∀ earlier thread later, order = earlier ++ thread :: later →
      (calls thread).StepsSafely (serial calls earlier start).2

section Serial

variable {calls : Fin n → Call} {start last : Account} {system : System n}
  {history : List (Entry (Fin n) Outcome Account)}

theorem serial_of_linked (linked : Linked start history last)
    (ran : ∀ entry ∈ history, (calls entry.actor).run entry.before = (entry.answer, entry.after)) :
    serial calls (history.map (·.actor)) start = (history.map (·.answer), last) := by
  induction history generalizing start with
  | nil =>
      have same : start = last := linked
      simp [serial, same]
  | cons entry later induction =>
      obtain ⟨starts, rest⟩ := linked
      have first := ran entry (by simp)
      rw [starts] at first
      have remaining := induction rest fun other present =>
        ran other (List.mem_cons_of_mem _ present)
      simp [serial, first, remaining]

theorem serial_sound (sound : start.Sound) (order : List (Fin n)) :
    (serial calls order start).2.Sound := by
  induction order generalizing start with
  | nil => exact sound
  | cons thread later induction =>
      exact induction (Call.step_balances (calls thread) start sound).1

theorem Call.debt_uses_balance (invocation : Call) (account : Account) (sound : account.Sound)
    (accrues : account.debt < (invocation.run account).2.debt) :
    (invocation.run account).2.balance = 0 := by
  obtain ⟨context, operation, ending⟩ := invocation
  cases operation with
  | consume request =>
      rcases Call.run_consume context request ending account with same | ⟨result, debit⟩
      · rw [same] at accrues
        exact absurd accrues (lt_irrefl _)
      · rw [← Account.debt_provisioned] at accrues
        generalize (Call.run ⟨context, .consume request, ending⟩ account).2 = after
          at debit accrues
        cases debit with
        | insufficient | mismatched | replayed | drained => exact absurd accrues (lt_irrefl _)
        | charged => exact absurd accrues (lt_irrefl _)
        | accrued => rfl
  | grant request =>
      rcases Call.run_grant context request ending account with same | ⟨positive, result, credit⟩
      · rw [same] at accrues
        exact absurd accrues (lt_irrefl _)
      · have repaid := credit.debt_le positive (by simpa using sound.debt_nonneg)
        rw [Account.debt_provisioned] at repaid
        exact absurd accrues (not_lt.mpr repaid)

theorem Call.steps_safely (invocation : Call) {account : Account} (sound : account.Sound) :
    invocation.StepsSafely account := by
  have kept := (Call.step_balances invocation account sound).1
  have debt_nonneg := kept.debt_nonneg
  exact ⟨kept.balance_nonneg, debt_nonneg, by omega,
    invocation.debt_uses_balance account sound⟩

/-- The transactions which have ended are explained by the history without the idle ones. -/
theorem Explains.serializable (explains : Explains calls start history system)
    (sound : start.Sound) : system.Serializable calls start := by
  let ended : Entry (Fin n) Outcome Account → Bool := fun entry =>
    match system.progress entry.actor with
    | .finished _ => true
    | _ => false
  have unique {first second : Entry (Fin n) Outcome Account} (one : first ∈ history)
      (other : second ∈ history) (same : first.actor = second.actor) : first = second :=
    List.inj_on_of_nodup_map explains.once one other same
  have answers {entry} (present : entry ∈ history) (kept : ended entry = true) :
      system.progress entry.actor = .finished entry.answer := by
    have accounted := explains.accounted entry.actor
    cases progress : system.progress entry.actor with
    | finished outcome =>
        rw [progress] at accounted
        obtain ⟨own, member, same, answer⟩ := accounted
        rw [unique present member same.symm, answer]
    | running program tx snapshot => simp [ended, progress] at kept
    | aborted => simp [ended, progress] at kept
  have linked : Linked start (history.filter ended) system.committed := by
    refine explains.linked.filter ?_
    intro entry present dropped
    have accounted := explains.accounted entry.actor
    have recorded : entry.actor ∈ history.map (·.actor) := List.mem_map.mpr ⟨entry, present, rfl⟩
    cases progress : system.progress entry.actor with
    | finished outcome => simp [ended, progress] at dropped
    | running program tx snapshot =>
        rw [progress] at accounted
        rcases accounted with ⟨absent, -⟩ | ⟨own, member, same, unchanged, -⟩
        · exact absurd recorded absent
        · rw [unique present member same.symm]
          exact unchanged
    | aborted =>
        rw [progress] at accounted
        exact absurd recorded accounted
  have ran : ∀ entry ∈ history.filter ended,
      (calls entry.actor).run entry.before = (entry.answer, entry.after) := by
    intro entry present
    exact explains.ran entry (List.mem_filter.mp present).1
  have run_eq := serial_of_linked linked ran
  refine ⟨(history.filter ended).map (·.actor),
    explains.once.sublist (List.filter_sublist.map _), ?_, ?_, ?_, ?_⟩
  · intro thread
    constructor
    · intro found
      obtain ⟨entry, member, rfl⟩ := List.mem_map.mp found
      obtain ⟨present, kept⟩ := List.mem_filter.mp member
      exact ⟨entry.answer, answers present kept⟩
    · rintro ⟨outcome, finished⟩
      have accounted := explains.accounted thread
      rw [finished] at accounted
      obtain ⟨entry, present, rfl, -⟩ := accounted
      exact List.mem_map.mpr ⟨entry, List.mem_filter.mpr ⟨present, by simp [ended, finished]⟩, rfl⟩
  · rw [run_eq]
  · rw [run_eq, List.map_map, List.map_map]
    refine List.map_congr_left ?_
    intro entry member
    obtain ⟨present, kept⟩ := List.mem_filter.mp member
    exact answers present kept
  · intro earlier thread later _
    exact (calls thread).steps_safely (serial_sound sound earlier)

theorem System.apart_initial (stored : start.Stored) : (System.initial calls start).Apart where
  stored := stored
  nested thread program tx snapshot stood := by
    cases stood
    exact ⟨by simp [Tx.Nested], by simp [Tx.Stored]⟩
  wallet thread other distinct locked := by cases locked
  keys thread other distinct row present := by cases present
  fresh thread row present := by cases present

theorem explains_initial : Explains calls start [] (System.initial calls start) where
  linked := rfl
  ran entry present := by cases present
  once := List.nodup_nil
  accounted thread := .inl ⟨by simp, .start⟩

/-- In every state reached without an overtaken statement, one serial order of the calls which
have ended explains the committed account and all their answers. -/
theorem undisturbed_calls_serializable (sound : start.Sound) (stored : start.Stored)
    (reached : Reachable (System.step calls) (System.Undisturbed calls)
      (System.initial calls start) system) : system.Serializable calls start := by
  have kept : system.Apart ∧ ∃ history, Explains calls start history system := by
    refine reached.invariant (fun system =>
      system.Apart ∧ ∃ history, Explains calls start history system)
      ⟨System.apart_initial stored, [], explains_initial⟩ ?_
    rintro before action after ⟨apart, history, explains⟩ undisturbed stepped
    have took := System.step_took stepped
    exact ⟨apart.took took, explains.took apart took undisturbed⟩
  obtain ⟨-, history, explains⟩ := kept
  exact explains.serializable sound

end Serial

section Overlap

/-- An agent run is charged 20 credits while the balance is 10. -/
def agentCharge : Call where
  context := ⟨⟨1⟩, fun _ => none, true⟩
  operation := .consume
    { amount := 20, idempotencyKey := "run", newId := ⟨1⟩
      metadata := { source := some agentRunSource } }
  ending := .commit

/-- A subscription period grants 100 credits. -/
def periodGrant : Call where
  context := ⟨⟨1⟩, fun _ => none, true⟩
  operation := .grant
    { amount := 100, idempotencyKey := "period", metadata := {}, reason := "renewal", newId := ⟨2⟩ }
  ending := .commit

def overlapping : Fin 2 → Call := ![agentCharge, periodGrant]

def tenCredits : Account := { wallet := some ⟨10, 0⟩ }

/-- Issue the next `count` statements of one transaction. -/
def statements (thread : Fin 2) (count : Nat) : List (Action 2) :=
  (List.replicate count [.arrive thread, .execute thread]).flatten

/-- The grant is committed between the balance read of the charge and its `UPDATE`. -/
def overtaking : List (Action 2) :=
  statements 0 5 ++ statements 1 4 ++ [.finish 1] ++ statements 0 3 ++ [.finish 0]

/-- The grant starts first, but its `UPDATE` waits until the charge is committed. -/
def waiting : List (Action 2) :=
  statements 1 2 ++ statements 0 8 ++ [.finish 0] ++ statements 1 3 ++ [.finish 1]

theorem tenCredits_sound : tenCredits.Sound := ⟨by decide, by decide, by decide⟩

theorem tenCredits_stored : tenCredits.Stored := by
  rintro row ⟨⟩
  exact ⟨by decide, by decide, by decide, by decide⟩

theorem undisturbed_calls_serializable_waiting :
    ∃ system, runActions (System.step overlapping) (System.Undisturbed overlapping) waiting
        (System.initial overlapping tenCredits) = some system ∧
      (∀ thread, (system.progress thread).stopped = true) ∧
      system.Serializable overlapping tenCredits := by
  have runs : ∃ system, runActions (System.step overlapping) (System.Undisturbed overlapping)
      waiting (System.initial overlapping tenCredits) = some system ∧
        (system.progress 0).stopped = true ∧ (system.progress 1).stopped = true :=
    ⟨_, rfl, rfl, rfl⟩
  obtain ⟨system, ran, first, second⟩ := runs
  exact ⟨system, ran, Fin.forall_fin_two.mpr ⟨first, second⟩,
    undisturbed_calls_serializable tenCredits_sound tenCredits_stored
      (reachable_of_runActions waiting .start ran)⟩

/-- The debit accrues debt although the grant has refilled the balance, which no serial order of
the two calls does. -/
theorem overtaken_calls_not_serializable :
    ¬∀ (n : Nat) (calls : Fin n → Call) (start : Account) (system : System n),
      start.Sound → start.Stored →
      Reachable (System.step calls) (fun _ _ => True) (System.initial calls start) system →
      (∀ thread, (system.progress thread).stopped = true) →
      system.Serializable calls start := by
  intro always
  have runs : ∃ system, runActions (System.step overlapping) (fun _ _ => True) overtaking
      (System.initial overlapping tenCredits) = some system ∧
        (∃ outcome, system.progress 0 = .finished outcome) ∧
        (∃ outcome, system.progress 1 = .finished outcome) ∧
        system.committed.wallet = some ⟨100, 10⟩ :=
    ⟨_, rfl, ⟨_, rfl⟩, ⟨_, rfl⟩, rfl⟩
  obtain ⟨system, ran, ⟨charged, first⟩, ⟨granted, second⟩, left⟩ := runs
  have stopped : ∀ thread, (system.progress thread).stopped = true :=
    Fin.forall_fin_two.mpr ⟨by rw [first]; rfl, by rw [second]; rfl⟩
  obtain ⟨order, once, ended, account_eq, -, -⟩ := always 2 overlapping tenCredits system
    tenCredits_sound tenCredits_stored (reachable_of_runActions overtaking .start ran) stopped
  have both : order.Perm [0, 1] := by
    refine (List.perm_ext_iff_of_nodup once (by decide)).mpr fun thread => ?_
    rw [ended thread]
    revert thread
    exact Fin.forall_fin_two.mpr
      ⟨⟨by simp, fun _ => ⟨charged, first⟩⟩, ⟨by simp, fun _ => ⟨granted, second⟩⟩⟩
  have orders : order ∈ [[0, 1], [1, 0]] := by
    have permuted := List.mem_permutations'.mpr both
    simpa using permuted
  have wallet_eq : (serial overlapping order tenCredits).2.wallet = some ⟨90, 0⟩ := by
    rcases List.mem_cons.mp orders with rfl | rest
    · rfl
    · rw [List.mem_singleton.mp rest]
      rfl
  rw [account_eq, left] at wallet_eq
  cases wallet_eq

end Overlap

end Hermes.Wallet
