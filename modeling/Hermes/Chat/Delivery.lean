import Hermes.Chat.Barrier
import Hermes.Library.Positions
import Hermes.Library.Transition
import Hermes.Wallet.Idempotency

/-!
# A debit for each answer

The policy a request reads decides whether its answer is charged, and the transaction which stores
the answer makes the charge.  An observer notes what each request has read and which turns have been
answered with an assistant message; the notes say which debits the ledger has to hold.  A batch
whose results are there already is answered from a saved step, as an assistant message and without
a debit, which is right for a turn which has been answered before.
-/

namespace Hermes.Chat

def turnRows (account : Wallet.Account) (turn : Nat) : List Wallet.LedgerTransaction :=
  account.ledger.filter fun row => row.idempotencyKey == toString turn

/-- Credits mode with an active subscription. -/
def chargeable (near : Surroundings) (chat : Session) : Bool :=
  chat.mode == .credits && near.subscriptionStatus == .active

namespace Phase

def readsPolicy : Phase → Bool
  | .admitting .. | .gating .. => true
  | _ => false

def plan : Phase → Option BillingPlan
  | .claiming _ _ plan | .opening _ _ plan _ _ | .asking _ plan _ _ _ _ _ => some plan
  | _ => none

end Phase

/-- A reply which is neither cut off nor a round of tools. -/
def LLMResult.isFinal (result : LLMResult) : Bool :=
  result.stopReason != .maxTokens && !(result.stopReason == .toolUse && !result.toolUses.isEmpty)

def isConsumed : Wallet.Outcome → Bool
  | .consumed _ => true
  | _ => false

/-! ## The observer -/

namespace ChatSystem

variable (settings : Nat → Settings) (near : Surroundings) (state : ChatSystem)

/-- The turn which the next reply of the provider ends in an assistant message. -/
def finished (chat : Nat) : Phase → Option Nat
  | .asking turn plan _ _ _ calls serverTools =>
      match createMessage (settings chat).loads (near.reply calls) with
      | .error _ => none
      | .ok result =>
          match absorb (settings chat) near plan turn result serverTools (state.world chat) with
          | .answered _ out => if out.status = .assistantMessage then some turn else none
          | _ => none
  | _ => none

/-- The turn which is answered from a saved step next, as an assistant message. -/
def rendered (chat : Nat) : Phase → Option Nat
  | .closed turn resolved draft =>
      if resolved.head?.any fun first =>
          (replayedStep (draft.view (state.chats chat)) turn first.2.id resolved).isSome then
        some turn
      else none
  | _ => none

/-- The next reply of the provider is a final one, and the wallet refuses the debit for it. -/
def refuses : RequestAction → Bool
  | .advance id near =>
      match state.requests[id]? with
      | some ⟨chat, .asking turn plan _ _ _ calls _⟩ =>
          match createMessage (settings chat).loads (near.reply calls) with
          | .error _ => false
          | .ok result =>
              result.isFinal && plan.debitCredits &&
                !isConsumed (debit (settings chat) near turn result.usage state.account).1
      | _ => false
  | _ => false

end ChatSystem

/-- The requests of a user with what is noted about them. -/
structure Watch where
  state : ChatSystem
  /-- Whether a request has found credits mode with an active subscription. -/
  subscribed : Nat → Bool := fun _ => false
  /-- The turns which have ended in an assistant message, and whether a credit was due. -/
  answers : List (Nat × Bool) := []

namespace Watch

variable (settings : Nat → Settings) (watch : Watch)

/-- A turn has ended in an assistant message. -/
def answered (turn : Nat) : Bool := watch.answers.any fun answer => answer.1 == turn

/-- What is known of the subscription once a request has gone on. -/
def subscribe (id : Nat) (near : Surroundings) (request : Request) : Nat → Bool :=
  if request.phase.readsPolicy then
    Function.update watch.subscribed id (chargeable near (watch.state.chats request.chat))
  else watch.subscribed

/-- The turns which end with the next step of a request.  A turn ends once: what is sent again from
a saved step afterwards repeats its answer. -/
def ends (id : Nat) (near : Surroundings) (request : Request) : List (Nat × Bool) :=
  match watch.state.finished settings near request.chat request.phase with
  | some turn => [(turn, watch.subscribed id)]
  | none =>
      match watch.state.rendered request.chat request.phase with
      | some turn =>
          if watch.answered turn then []
          else [(turn, chargeable near (watch.state.chats request.chat))]
      | none => []

/-- One step of the user's requests under observation. -/
def step (watch : Watch) (action : RequestAction) : Option Watch :=
  (watch.state.step settings action).map fun after =>
    match action with
    | .advance id near =>
        match watch.state.requests[id]? with
        | some request =>
            { state := after
              subscribed := watch.subscribe id near request
              answers := watch.answers ++ watch.ends settings id near request }
        | none => { watch with state := after }
    | _ => { watch with state := after }

/-- What is answered from a saved step, where a credit would be due, repeats an answer. -/
def repeats : RequestAction → Bool
  | .advance id near =>
      watch.state.requests[id]?.all fun request =>
        (watch.state.rendered request.chat request.phase).all fun turn =>
          watch.answered turn || !chargeable near (watch.state.chats request.chat)
  | _ => true

end Watch

/-- A wallet call of another service comes under a key of its own: those of the turns are fresh
identifiers. -/
def RequestAction.foreign : RequestAction → Prop
  | .wallet invocation => ∀ turn : Nat, invocation.operation.key ≠ toString turn
  | _ => True

/-- The wallet is debited one credit for each turn which has ended in an assistant message in
credits mode with an active subscription, and nothing for any other turn. -/
structure Debited (watch : Watch) : Prop where
  once : ∀ turn, (turn, true) ∈ watch.answers →
    ∃ row, turnRows watch.state.account turn = [row] ∧ row.type = .debit ∧ row.amount = 1
  never : ∀ turn, (turn, true) ∉ watch.answers → turnRows watch.state.account turn = []

/-- What one step shows and charges: a refused debit leaves no step behind and answers nothing, and
the requests of the user write nothing to the ledger but the debits of answered turns. -/
structure Charges (settings : Nat → Settings) (before : Watch) (action : RequestAction)
    (after : Watch) : Prop where
  unseen : before.state.refuses settings action = true →
    (∀ chat, (after.state.chats chat).steps = (before.state.chats chat).steps) ∧
      after.answers = before.answers
  own : (∀ invocation, action ≠ .wallet invocation) → ∀ row ∈ after.state.account.ledger,
    row ∈ before.state.account.ledger ∨
      ∃ turn, (turn, true) ∈ after.answers ∧ row.idempotencyKey = toString turn

/-! ## The wallet -/

section Wallet

variable {settings : Settings} {near : Surroundings} {turn : Nat} {usage : Usage}
  {account after : Wallet.Account} {row : Wallet.LedgerTransaction}

theorem turnRows_eq_nil :
    turnRows account turn = [] ↔ account.existing (toString turn) = none := by
  rw [turnRows, List.filter_eq_nil_iff, Wallet.Account.existing, List.find?_eq_none]

theorem turnRows_of_ledger (same : after.ledger = account.ledger) :
    turnRows after turn = turnRows account turn := by
  rw [turnRows, same, turnRows]

theorem turnRows_concat (grown : after.ledger = account.ledger ++ [row])
    (other : row.idempotencyKey ≠ toString turn) : turnRows after turn = turnRows account turn := by
  rw [turnRows, grown, List.filter_append, turnRows, List.append_right_eq_self,
    List.filter_singleton, beq_false_of_ne other]
  rfl

theorem turnRows_concat_self (grown : after.ledger = account.ledger ++ [row])
    (key : row.idempotencyKey = toString turn) (free : turnRows account turn = []) :
    turnRows after turn = [row] := by
  rw [turnRows] at free
  rw [turnRows, grown, List.filter_append, free, List.nil_append, List.filter_singleton, key,
    beq_self_eq_true, cond_true]

theorem turnKey_injective {first second : Nat} (same : toString first = toString second) :
    first = second := by
  have digits := congrArg String.toList same
  rw [Nat.toString_eq_repr, Nat.toString_eq_repr, Nat.toList_repr, Nat.toList_repr] at digits
  have values := congrArg (Nat.ofDigitChars 10 · 0) digits
  rw [Nat.ofDigitChars_ten_toDigits, Nat.ofDigitChars_ten_toDigits] at values
  exact values

/-- A debit which goes through finds a row under the key of the turn, or writes one of one
credit. -/
theorem debit_consumed {charged : Wallet.ConsumeResult}
    (consumed : debit settings near turn usage account = (.consumed charged, after)) :
    (turnRows account turn ≠ [] ∧ after.ledger = account.ledger) ∨
      (turnRows account turn = [] ∧ ∃ row, after.ledger = account.ledger ++ [row] ∧
        row.idempotencyKey = toString turn ∧ row.type = .debit ∧ row.amount = 1) := by
  obtain ⟨failure, ran⟩ | ⟨raised, -, ran⟩ | ⟨result, written, -, -, effect, ran⟩ :=
    Wallet.Call.consume_cases settings.wallet
      ⟨1, toString turn, { usage := some usage.toDict, model := some usage.model },
        some settings.sessionId, near.newTxId⟩ .commit account
  · rw [debit, ran] at consumed
    cases consumed
  · rw [debit, ran] at consumed
    cases consumed
  · rw [debit, ran] at consumed
    obtain ⟨answer, kept⟩ := Prod.mk.inj consumed
    obtain rfl : written = after := kept
    cases effect with
    | insufficient | mismatched => cases answer
    | drained incremental => cases incremental
    | accrued plain reconciles => cases reconciles
    | replayed holder taken =>
        refine .inl ⟨fun none_held => ?_, rfl⟩
        rw [Wallet.Account.existing_provisioned, turnRows_eq_nil.mp none_held] at taken
        cases taken
    | charged charged event fresh positive covered solvent due =>
        obtain rfl : charged = 1 := by
          obtain whole | ⟨incremental, -⟩ := due
          · exact whole
          · cases incremental
        exact .inr ⟨turnRows_eq_nil.mpr fresh, _, Wallet.Account.ledger_record .., rfl, rfl, rfl⟩

end Wallet

/-! ## Replies -/

section Replies

variable {settings : Settings} {near : Surroundings} {plan : BillingPlan} {turn : Nat}
  {result : LLMResult} {serverTools executed : List ServerToolExecutionOut} {world after : World}
  {out : ChatRunOut}

theorem absorb_again_account
    (again : absorb settings near plan turn result serverTools world = .again after executed) :
    after.account = world.account := by
  rw [absorb] at again
  split at again
  · cases again
  · split at again
    · rw [handleToolUse] at again
      split at again
      · cases again
      · cases again
        rfl
      · cases again
    · rw [finalizeAssistant] at again
      split at again
      · split at again <;> cases again
      · cases again

/-- A reply which ends the request charges for an assistant message what its plan says, and for
nothing else. -/
theorem absorb_answered
    (answered : absorb settings near plan turn result serverTools world = .answered after out) :
    (out.status ≠ .assistantMessage ∧ after.account = world.account) ∨
      out.status = .assistantMessage ∧
        (plan.debitCredits = false ∧ after.account = world.account ∨
          plan.debitCredits = true ∧ ∃ charged,
            debit settings near turn result.usage world.account =
              (.consumed charged, after.account)) := by
  rw [absorb] at answered
  split at answered
  · cases answered
    exact .inl ⟨fun same => (by cases same), rfl⟩
  · split at answered
    · rw [handleToolUse] at answered
      split at answered
      · cases answered
      · cases answered
      · cases answered
        exact .inl ⟨fun same => (by cases same), rfl⟩
    · rw [finalizeAssistant] at answered
      split at answered
      next due =>
        split at answered
        next charged account debited =>
          cases answered
          exact .inr ⟨rfl, .inr ⟨due, charged, debited⟩⟩
        · cases answered
          exact .inl ⟨fun same => (by cases same), rfl⟩
        · cases answered
      next free =>
        cases answered
        exact .inr ⟨rfl, .inl ⟨Bool.not_eq_true _ |>.mp free, rfl⟩⟩

theorem absorb_refused (serverTools : List ServerToolExecutionOut) (world : World)
    (final : result.isFinal = true) (due : plan.debitCredits = true)
    (refused : isConsumed (debit settings near turn result.usage world.account).1 = false) :
    absorb settings near plan turn result serverTools world =
        .answered world (blocked .creditsEmpty) ∨
      absorb settings near plan turn result serverTools world = .raised .wallet := by
  rw [LLMResult.isFinal, Bool.and_eq_true, bne_iff_ne, Bool.not_eq_true', Bool.and_eq_false_iff,
    beq_eq_false_iff_ne] at final
  have no_tools : ¬(result.stopReason = .toolUse ∧ (!result.toolUses.isEmpty) = true) := by
    rintro ⟨stopped, some_tools⟩
    obtain otherwise | none_used := final.2
    · exact otherwise stopped
    · rw [some_tools] at none_used
      cases none_used
  rw [absorb, if_neg final.1, if_neg no_tools, finalizeAssistant, if_pos due]
  cases debited : debit settings near turn result.usage world.account with
  | mk outcome account =>
      rw [debited] at refused
      cases outcome with
      | consumed charged => cases refused
      | granted granted => exact .inr rfl
      | failed failure => exact .inr rfl
      | raised raised =>
          cases raised with
          | insufficientCredits => exact .inl rfl
          | _ => exact .inr rfl

end Replies

section Requests

variable {settings : Nat → Settings} {near : Surroundings} {state after : ChatSystem}
  {id chat : Nat} {phase : Phase}

theorem Write.perform_mode (stored : Session) (write : Write) :
    (write.perform stored).mode = stored.mode := by
  cases write with
  | delete | insert => rfl
  | answer id status result step =>
      rw [Write.perform]
      split <;> rfl

theorem Draft.view_mode (draft : Draft) (stored : Session) :
    (draft.view stored).mode = stored.mode := by
  induction draft generalizing stored with
  | nil => rfl
  | cons write later induction => exact (induction _).trans (write.perform_mode stored)

theorem billingPlan_debitCredits (near : Surroundings) (world : World) (stored : Session) :
    (billingPlan (policyState near world) stored.mode).debitCredits = chargeable near stored := by
  rw [chargeable]
  cases stored.mode with
  | byok => rfl
  | credits =>
      rw [billingPlan]
      split
      next active => exact (beq_iff_eq.mpr active).symm
      next inactive =>
        have none_due : (near.subscriptionStatus == .active) = false := beq_false_of_ne inactive
        rw [none_due]
        split <;> rfl

inductive Charge (settings : Nat → Settings) (near : Surroundings) (state : ChatSystem)
    (chat : Nat) (phase : Phase) (after : ChatSystem) : Prop
  | nothing (unfinished : state.finished settings near chat phase = none)
      (same : after.account = state.account)
  | free (turn : Nat) (plan : BillingPlan) (planned : phase.plan = some plan)
      (finished : state.finished settings near chat phase = some turn)
      (gratis : plan.debitCredits = false) (same : after.account = state.account)
  | debited (turn : Nat) (plan : BillingPlan) (planned : phase.plan = some plan)
      (finished : state.finished settings near chat phase = some turn)
      (due : plan.debitCredits = true) (usage : Usage) (charged : Wallet.ConsumeResult)
      (consumed : debit (settings chat) near turn usage state.account =
        (.consumed charged, after.account))

/-- The phase a request enters, and the plan it goes on under. -/
def Enters (near : Surroundings) (state : ChatSystem) (id chat : Nat) (phase : Phase)
    (after : ChatSystem) : Prop :=
  ∃ new, after.requests = state.requests.set id ⟨chat, new⟩ ∧
    ∀ plan, new.plan = some plan →
      if phase.readsPolicy then plan.debitCredits = chargeable near (state.chats chat)
      else phase.plan = some plan

theorem failed_plan (claimed : Bool) (turn : Nat) :
    (ChatSystem.failed claimed turn).plan = none := by
  cases claimed <;> rfl

theorem reply_enters {turn : Nat} {plan : BillingPlan} {claimed : Bool} {round : Option Nat}
    {left calls : Nat} {serverTools : List ServerToolExecutionOut} :
    Enters near state id chat (.asking turn plan claimed round left calls serverTools)
      (state.reply settings near id chat turn plan claimed round left calls serverTools) := by
  have fails : ∀ kept, (ChatSystem.failed claimed turn).plan = some kept →
      (Phase.asking turn plan claimed round left calls serverTools).plan = some kept := by
    rw [failed_plan]
    exact fun _ same => by cases same
  simp only [ChatSystem.reply]
  split
  · exact ⟨_, rfl, fails⟩
  · split
    · exact ⟨_, rfl, fails⟩
    · cases left with
      | zero => exact ⟨_, rfl, fails⟩
      | succ left => exact ⟨_, rfl, fun kept same => same⟩
    · refine ⟨_, rfl, ?_⟩
      split
      · exact fun _ same => by cases same
      · exact fails

theorem reply_charge {turn : Nat} {plan : BillingPlan} {claimed : Bool} {round : Option Nat}
    {left calls : Nat} {serverTools : List ServerToolExecutionOut} :
    Charge settings near state chat (.asking turn plan claimed round left calls serverTools)
      (state.reply settings near id chat turn plan claimed round left calls serverTools) := by
  cases created : createMessage (settings chat).loads (near.reply calls) with
  | error failure =>
      refine .nothing ?_ ?_
      · simp only [ChatSystem.finished, created]
      · simp only [ChatSystem.reply, created]
        rfl
  | ok result =>
      cases absorbed : absorb (settings chat) near plan turn result serverTools
          (state.world chat) with
      | raised failure =>
          refine .nothing ?_ ?_
          · simp only [ChatSystem.finished, created, absorbed]
          · simp only [ChatSystem.reply, created, absorbed]
            rfl
      | again after executed =>
          refine .nothing ?_ ?_
          · simp only [ChatSystem.finished, created, absorbed]
          · simp only [ChatSystem.reply, created, absorbed]
            exact absorb_again_account absorbed
      | answered after out =>
          have account : (state.reply settings near id chat turn plan claimed round left calls
              serverTools).account = after.account := by
            simp only [ChatSystem.reply, created, absorbed]
            rfl
          obtain ⟨unfinished, same⟩ | ⟨finished, ⟨gratis, same⟩ | ⟨due, charged, consumed⟩⟩ :=
            absorb_answered absorbed
          · refine .nothing ?_ (account.trans same)
            simp only [ChatSystem.finished, created, absorbed, if_neg unfinished]
          · refine .free turn plan rfl ?_ gratis (account.trans same)
            simp only [ChatSystem.finished, created, absorbed, if_pos finished]
          · refine .debited turn plan rfl ?_ due result.usage charged ?_
            · simp only [ChatSystem.finished, created, absorbed, if_pos finished]
            · rw [account]
              exact consumed

/-- Only a reply of the provider charges; a plan is made when the policy is read and kept from then
on. -/
theorem advance_charge (advanced : state.advance settings near id chat phase = some after) :
    Charge settings near state chat phase after ∧ Enters near state id chat phase after := by
  cases phase with
  | admitting turn draft =>
      simp only [ChatSystem.advance] at advanced
      split at advanced
      · cases advanced
        exact ⟨.nothing rfl rfl, _, rfl, fun _ same => by cases same⟩
      · cases advanced
        refine ⟨.nothing rfl rfl, _, rfl, fun plan planned => ?_⟩
        split at planned
        · cases planned
          exact billingPlan_debitCredits ..
        · cases planned
          exact billingPlan_debitCredits ..
  | claiming turn draft plan =>
      rw [ChatSystem.advance] at advanced
      split at advanced
      · cases advanced
        exact ⟨.nothing rfl rfl, _, rfl, fun _ same => by cases same⟩
      · cases advanced
        exact ⟨.nothing rfl rfl, _, rfl, fun kept same => same⟩
  | opening turn draft plan claimed round =>
      rw [ChatSystem.advance] at advanced
      split at advanced
      · cases advanced
        exact ⟨.nothing rfl rfl, _, rfl, fun _ same => by cases same⟩
      · cases advanced
        exact ⟨.nothing rfl rfl, _, rfl, fun kept same => same⟩
  | asking turn plan claimed round left calls serverTools =>
      cases advanced
      exact ⟨reply_charge, reply_enters⟩
  | reconciling turn =>
      rw [ChatSystem.advance] at advanced
      split at advanced
      · cases advanced
        exact ⟨.nothing rfl rfl, _, rfl, fun _ same => by cases same⟩
      · cases advanced
        exact ⟨.nothing rfl rfl, _, rfl, fun _ same => by cases same⟩
  | applying turn resolved todo draft =>
      cases todo with
      | nil =>
          cases advanced
          refine ⟨.nothing rfl rfl, _, rfl, ?_⟩
          split <;> exact fun _ same => by cases same
      | cons entry todo =>
          simp only [ChatSystem.advance, ChatSystem.applyItem] at advanced
          split at advanced
          · cases advanced
            exact ⟨.nothing rfl rfl, _, rfl, fun _ same => by cases same⟩
          · split at advanced
            · cases advanced
            · split at advanced
              · cases advanced
                exact ⟨.nothing rfl rfl, _, rfl, fun _ same => by cases same⟩
              · cases advanced
                exact ⟨.nothing rfl rfl, _, rfl, fun _ same => by cases same⟩
  | closed turn resolved draft =>
      obtain ⟨first, -, rfl⟩ := Option.map_eq_some_iff.mp advanced
      refine ⟨.nothing rfl rfl, _, rfl, ?_⟩
      split <;> exact fun _ same => by cases same
  | gating turn round draft =>
      cases advanced
      refine ⟨.nothing rfl rfl, _, rfl, fun plan planned => ?_⟩
      split at planned
      · cases planned
      · cases planned
        rw [draft.view_mode]
        exact billingPlan_debitCredits ..
  | leaving draft =>
      cases advanced
      exact ⟨.nothing rfl rfl, _, rfl, fun _ same => by cases same⟩
  | done => cases advanced

theorem rendered_of_plan {plan : BillingPlan} (planned : phase.plan = some plan) :
    state.rendered chat phase = none := by
  cases phase with
  | closed => cases planned
  | _ => rfl

theorem reply_refused (there : state.requests[id]? = some ⟨chat, phase⟩)
    (refused : state.refuses settings (.advance id near) = true)
    (advanced : state.advance settings near id chat phase = some after) :
    (∀ other, (after.chats other).steps = (state.chats other).steps) ∧
      state.finished settings near chat phase = none ∧ state.rendered chat phase = none := by
  rw [ChatSystem.refuses, there] at refused
  cases phase with
  | asking turn plan claimed round left calls serverTools =>
      cases advanced
      simp only at refused
      cases created : createMessage (settings chat).loads (near.reply calls) with
      | error failure =>
          rw [created] at refused
          cases refused
      | ok result =>
          rw [created, Bool.and_eq_true, Bool.and_eq_true, Bool.not_eq_true'] at refused
          obtain empty | raised := absorb_refused serverTools (state.world chat) refused.1.1
            refused.1.2 refused.2
          · refine ⟨fun other => ?_, ?_, rfl⟩
            · simp only [ChatSystem.reply, created, empty]
              change (Function.update state.chats chat _ other).steps = _
              by_cases own : other = chat
              · rw [own, Function.update_self]
                rfl
              · rw [Function.update_of_ne own]
            · simp only [ChatSystem.finished, created, empty]
              rfl
          · refine ⟨fun other => ?_, ?_, rfl⟩
            · simp only [ChatSystem.reply, created, raised]
              rfl
            · simp only [ChatSystem.finished, created, raised]
  | _ => cases refused

end Requests

/-! ## Runs -/

namespace Watch

variable {settings : Nat → Settings} {watch after : Watch} {action : RequestAction}

theorem step_cases (stepped : watch.step settings action = some after) :
    (∃ id near request, action = .advance id near ∧ watch.state.requests[id]? = some request ∧
      watch.state.advance settings near id request.chat request.phase = some after.state ∧
      after.subscribed = watch.subscribe id near request ∧
      after.answers = watch.answers ++ watch.ends settings id near request) ∨
    (∀ id near, action ≠ .advance id near) ∧ watch.state.step settings action = some after.state ∧
      after.subscribed = watch.subscribed ∧ after.answers = watch.answers := by
  obtain ⟨state, moved, rfl⟩ := Option.map_eq_some_iff.mp stepped
  cases action with
  | advance id near =>
      obtain ⟨request, there, advanced⟩ := Option.bind_eq_some_iff.mp moved
      simp only [there]
      exact .inl ⟨id, near, request, rfl, there, advanced, rfl, rfl⟩
  | _ => exact .inr ⟨nofun, moved, rfl, rfl⟩

end Watch

/-- The debits are those which are due, and every plan says what its request has read. -/
structure Watched (watch : Watch) : Prop where
  debited : Debited watch
  planned : ∀ id request plan, watch.state.requests[id]? = some request →
    request.phase.plan = some plan → plan.debitCredits = watch.subscribed id

section Runs

variable {settings : Nat → Settings} {watch after : Watch} {action : RequestAction}

theorem Debited.carry (debited : Debited watch)
    (rows : ∀ turn, turnRows after.state.account turn = turnRows watch.state.account turn)
    (answers : ∀ turn, (turn, true) ∈ after.answers ↔ (turn, true) ∈ watch.answers) :
    Debited after where
  once := by
    intro turn ended
    rw [rows]
    exact debited.once turn ((answers turn).mp ended)
  never := by
    intro turn open_still
    rw [rows]
    exact debited.never turn fun ended => open_still ((answers turn).mpr ended)

theorem Debited.charge (debited : Debited watch) {settings : Settings} {near : Surroundings}
    {turn : Nat} {usage : Usage} {charged : Wallet.ConsumeResult}
    (consumed : debit settings near turn usage watch.state.account =
      (.consumed charged, after.state.account))
    (answers : after.answers = watch.answers ++ [(turn, true)]) : Debited after := by
  have ends (other : Nat) :
      (other, true) ∈ after.answers ↔ (other, true) ∈ watch.answers ∨ other = turn := by
    rw [answers, List.mem_append, List.mem_singleton, Prod.mk.injEq, eq_self, and_true]
  obtain ⟨held, same⟩ | ⟨free, row, grown, key, type, amount⟩ := debit_consumed consumed
  · have charged_before : (turn, true) ∈ watch.answers := by
      by_contra unanswered
      exact held (debited.never turn unanswered)
    refine debited.carry (fun other => turnRows_of_ledger same) fun other => ?_
    rw [ends]
    exact ⟨fun ended => ended.elim id fun own => own ▸ charged_before, .inl⟩
  · have others {other : Nat} (apart : other ≠ turn) :
        turnRows after.state.account other = turnRows watch.state.account other := by
      refine turnRows_concat grown fun same => apart ?_
      rw [key] at same
      exact (turnKey_injective same).symm
    refine ⟨fun other ended => ?_, fun other unended => ?_⟩
    · by_cases own : other = turn
      · rw [own]
        exact ⟨row, turnRows_concat_self grown key free, type, amount⟩
      · rw [others own]
        exact debited.once other (((ends other).mp ended).resolve_right own)
    · rw [ends, not_or] at unended
      rw [others unended.2]
      exact debited.never other unended.1

theorem Watch.repeats_of_plan {id : Nat} {near : Surroundings} {request : Request}
    {plan : BillingPlan} (there : watch.state.requests[id]? = some request)
    (planned : request.phase.plan = some plan) : watch.repeats (.advance id near) = true := by
  rw [Watch.repeats, there, Option.all_some, rendered_of_plan planned]
  rfl

theorem debited_quiet (debited : Debited watch) {id : Nat} {near : Surroundings} {request : Request}
    (there : watch.state.requests[id]? = some request)
    (unfinished : watch.state.finished settings near request.chat request.phase = none)
    (same : after.state.account = watch.state.account)
    (answers : after.answers = watch.answers ++ watch.ends settings id near request) :
    Debited after ↔ watch.repeats (.advance id near) = true := by
  have rows (turn : Nat) :
      turnRows after.state.account turn = turnRows watch.state.account turn := by rw [same]
  rw [Watch.repeats, there, Option.all_some]
  rw [Watch.ends, unfinished] at answers
  cases rendered : watch.state.rendered request.chat request.phase with
  | none =>
      rw [rendered, List.append_nil] at answers
      refine iff_of_true (debited.carry rows fun turn => ?_) rfl
      rw [answers]
  | some turn =>
      simp only [rendered] at answers
      rw [Option.all_some]
      split at answers
      next before =>
        rw [List.append_nil] at answers
        rw [before, Bool.true_or]
        refine iff_of_true (debited.carry rows fun other => ?_) rfl
        rw [answers]
      next unanswered =>
        cases due : chargeable near (watch.state.chats request.chat) with
        | false =>
            rw [Bool.not_false, Bool.or_true]
            refine iff_of_true (debited.carry rows fun other => ?_) rfl
            rw [answers, due, List.mem_append, List.mem_singleton, Prod.mk.injEq]
            simp
        | true =>
            rw [Bool.not_true, Bool.or_false]
            refine iff_of_false (fun charged => ?_) unanswered
            have undue : (turn, true) ∉ watch.answers := fun ended =>
              unanswered (List.any_eq_true.mpr ⟨_, ended, beq_self_eq_true turn⟩)
            obtain ⟨row, held, -⟩ := charged.once turn (by
              rw [answers, due]
              exact List.mem_append_right _ (List.mem_singleton_self _))
            rw [rows, debited.never turn undue] at held
            cases held

/-- A step leaves the debits as they have to be exactly if what it answers from a saved step is a
repetition. -/
theorem debited_step (watched : Watched watch) (foreign : action.foreign)
    (stepped : watch.step settings action = some after) :
    Debited after ↔ watch.repeats action = true := by
  obtain ⟨id, near, request, rfl, there, advanced, -, answers⟩ | ⟨elsewhere, moved, -, answers⟩ :=
    Watch.step_cases stepped
  · obtain ⟨charge, -⟩ := advance_charge advanced
    cases charge with
    | nothing unfinished same =>
        exact debited_quiet watched.debited there unfinished same answers
    | free turn plan planned finished gratis same =>
        rw [Watch.ends, finished, ← watched.planned id request plan there planned, gratis]
          at answers
        refine iff_of_true (watched.debited.carry (fun other => ?_) fun other => ?_)
          (Watch.repeats_of_plan there planned)
        · rw [same]
        · rw [answers, List.mem_append, List.mem_singleton, Prod.mk.injEq]
          simp
    | debited turn plan planned finished due usage charged consumed =>
        rw [Watch.ends, finished, ← watched.planned id request plan there planned, due] at answers
        exact iff_of_true (watched.debited.charge consumed answers)
          (Watch.repeats_of_plan there planned)
  · have unchanged (same : after.state.account = watch.state.account) : Debited after := by
      refine watched.debited.carry (fun turn => ?_) fun turn => ?_
      · rw [same]
      · rw [answers]
    cases action with
    | advance id near => exact absurd rfl (elsewhere id near)
    | run chat request =>
        obtain ⟨deleted, -, moved⟩ := Option.map_eq_some_iff.mp moved
        exact iff_of_true (unchanged (moved ▸ rfl)) rfl
    | results chat results =>
        simp only [ChatSystem.step] at moved
        split at moved
        · exact iff_of_true (unchanged (Option.some.inj moved ▸ rfl)) rfl
        · exact iff_of_true (unchanged (Option.some.inj moved ▸ rfl)) rfl
    | lose id =>
        obtain ⟨request, -, moved⟩ := Option.map_eq_some_iff.mp moved
        exact iff_of_true (unchanged (moved ▸ rfl)) rfl
    | wallet invocation =>
        refine iff_of_true (watched.debited.carry (fun turn => ?_) fun turn => ?_) rfl
        · rw [← Option.some.inj moved]
          obtain same | ⟨row, grown, key⟩ := invocation.ledger_cases watch.state.account
          · exact turnRows_of_ledger same
          · exact turnRows_concat grown fun own => foreign turn (key.symm.trans own)
        · rw [answers]

theorem planned_step (watched : Watched watch) (stepped : watch.step settings action = some after)
    {id : Nat} {request : Request} {plan : BillingPlan}
    (there : after.state.requests[id]? = some request) (planned : request.phase.plan = some plan) :
    plan.debitCredits = after.subscribed id := by
  obtain ⟨own, near, before, rfl, stood, advanced, noted, -⟩ | ⟨elsewhere, moved, noted, -⟩ :=
    Watch.step_cases stepped
  · obtain ⟨-, new, entered, made⟩ := advance_charge advanced
    rw [entered] at there
    rw [noted, Watch.subscribe]
    obtain ⟨rfl, rfl⟩ | ⟨apart, stood_before⟩ := getElem?_set_cases there
    · have origin := made plan planned
      split at origin
      next reads =>
        rw [if_pos reads, Function.update_self]
        exact origin
      next keeps =>
        rw [if_neg keeps]
        exact watched.planned id before plan stood origin
    · have kept := watched.planned id request plan stood_before planned
      split
      · rw [Function.update_of_ne apart]
        exact kept
      · exact kept
  · rw [noted]
    have arrived {chat : Nat} {phase : Phase}
        (requests : watch.state.requests ++ [⟨chat, phase⟩] = after.state.requests)
        (idle : phase.plan = none) : plan.debitCredits = watch.subscribed id := by
      rw [← requests] at there
      obtain before | ⟨-, rfl⟩ := getElem?_snoc there
      · exact watched.planned id request plan before planned
      · rw [idle] at planned
        cases planned
    cases action with
    | advance own near => exact absurd rfl (elsewhere own near)
    | run chat request =>
        obtain ⟨deleted, -, moved⟩ := Option.map_eq_some_iff.mp moved
        exact arrived (congrArg ChatSystem.requests moved) rfl
    | results chat results =>
        simp only [ChatSystem.step] at moved
        split at moved
        · exact arrived (congrArg ChatSystem.requests (Option.some.inj moved)) rfl
        · rw [← Option.some.inj moved] at there
          exact watched.planned id request plan there planned
    | lose own =>
        obtain ⟨before, -, moved⟩ := Option.map_eq_some_iff.mp moved
        rw [← moved] at there
        obtain ⟨-, rfl⟩ | ⟨-, stood⟩ := getElem?_set_cases there
        · cases planned
        · exact watched.planned id request plan stood planned
    | wallet invocation =>
        rw [← Option.some.inj moved] at there
        exact watched.planned id request plan there planned

theorem charges_step (watched : Watched watch)
    (stepped : watch.step settings action = some after) : Charges settings watch action after := by
  obtain ⟨id, near, request, rfl, there, advanced, -, answers⟩ | ⟨elsewhere, moved, -, answers⟩ :=
    Watch.step_cases stepped
  · refine ⟨fun refused => ?_, fun _ row listed => ?_⟩
    · obtain ⟨steps, unfinished, unrendered⟩ := reply_refused there refused advanced
      refine ⟨steps, ?_⟩
      rw [answers, Watch.ends, unfinished, unrendered, List.append_nil]
    · obtain ⟨charge, -⟩ := advance_charge advanced
      cases charge with
      | nothing unfinished same => exact .inl (same ▸ listed)
      | free turn plan planned finished gratis same => exact .inl (same ▸ listed)
      | debited turn plan planned finished due usage charged consumed =>
          rw [Watch.ends, finished, ← watched.planned id request plan there planned, due] at answers
          obtain ⟨-, same⟩ | ⟨-, added, grown, key, -⟩ := debit_consumed consumed
          · exact .inl (same ▸ listed)
          · rw [grown, List.mem_append, List.mem_singleton] at listed
            obtain before | rfl := listed
            · exact .inl before
            · refine .inr ⟨turn, ?_, key⟩
              rw [answers]
              exact List.mem_append_right _ (List.mem_singleton_self _)
  · refine ⟨fun refused => ?_, fun own row listed => .inl ?_⟩
    · cases action with
      | advance id near => exact absurd rfl (elsewhere id near)
      | _ => cases refused
    · cases action with
      | advance id near => exact absurd rfl (elsewhere id near)
      | run chat request =>
          obtain ⟨deleted, -, moved⟩ := Option.map_eq_some_iff.mp moved
          rw [← moved] at listed
          exact listed
      | results chat results =>
          simp only [ChatSystem.step] at moved
          split at moved
          · rw [← Option.some.inj moved] at listed
            exact listed
          · rw [← Option.some.inj moved] at listed
            exact listed
      | lose id =>
          obtain ⟨request, -, moved⟩ := Option.map_eq_some_iff.mp moved
          rw [← moved] at listed
          exact listed
      | wallet invocation => exact absurd rfl (own invocation)

end Runs

/-- A debit exactly when an answer is delivered: whatever the requests of a user do side by side, as
long as what is answered from a saved step repeats an answer, the wallet is debited once for each
turn which has ended in an assistant message in credits mode with an active subscription, and for
no other turn; a refused debit leaves nothing to be seen.  The first answer from a saved step which
is no repetition breaks this. -/
theorem debited_for_answers (settings : Nat → Settings) (start : ChatSystem)
    (quiet : start.requests = []) (unkeyed : ∀ turn, turnRows start.account turn = [])
    (watch : Watch)
    (reached : Reachable (Watch.step settings)
      (fun watch action => action.foreign ∧ watch.repeats action = true) { state := start } watch) :
    Debited watch ∧ ∀ action after, action.foreign → watch.step settings action = some after →
      (Debited after ↔ watch.repeats action = true) ∧ Charges settings watch action after := by
  have initially : Watched { state := start } := by
    refine ⟨⟨nofun, fun turn _ => unkeyed turn⟩, fun id request plan found => ?_⟩
    rw [quiet] at found
    cases found
  have watched : Watched watch := reached.invariant Watched initially
    fun _ _ _ before allowed stepped => ⟨(debited_step before allowed.1 stepped).mpr allowed.2,
      fun _ _ _ there planned => planned_step before stepped there planned⟩
  exact ⟨watched.debited, fun action after foreign stepped =>
    ⟨debited_step watched foreign stepped, charges_step watched stepped⟩⟩

namespace Sample

/-- An action of the user's own requests. -/
def ofChats : RequestAction → Bool
  | .wallet _ => false
  | _ => true

theorem foreign_of_ofChats {action : RequestAction} (own : ofChats action = true) :
    action.foreign := by
  cases action with
  | wallet => cases own
  | _ => trivial

theorem subscriber_unkeyed (turn : Nat) : turnRows subscriber.account turn = [] := by
  have apart : "grant" ≠ toString turn := by
    intro same
    have listed : 'g' ∈ Nat.toDigits 10 turn := by
      rw [← Nat.toList_repr, ← Nat.toString_eq_repr, ← same]
      decide
    exact absurd (Nat.isDigit_of_mem_toDigits (by decide) (by decide) listed) (by decide)
  refine List.filter_eq_nil_iff.mpr fun row listed => ?_
  rw [List.mem_singleton.mp listed, beq_false_of_ne apart]
  nofun

/-- The results of both calls. -/
def bothResults : RequestAction :=
  .results 0 [⟨3, some (.obj []), none⟩, ⟨4, some (.obj []), none⟩]

/-- A turn with a round of tools ends in a message, for one credit. -/
theorem debited_for_the_message :
    ∃ watch : Watch, Debited watch ∧ watch.answers = [(0, true)] ∧
      watch.state.account.balance = 2 := by
  obtain ⟨watch, reached, tested⟩ := reachable_of_any (Watch.step fun _ => settings)
    (fun watch action => ofChats action = true ∧ watch.repeats action = true)
    { state := subscriber }
    (fun watch => watch.answers == [(0, true)] && watch.state.account.balance == 2)
    (asksForTwo ++ bothResults :: goes 1 7 finalText) (by decide)
  rw [Bool.and_eq_true, beq_iff_eq, beq_iff_eq] at tested
  have debited := debited_for_answers (fun _ => settings) subscriber rfl subscriber_unkeyed watch
    (reached.mono fun _ _ allowed => ⟨foreign_of_ofChats allowed.1, allowed.2⟩)
  exact ⟨watch, debited.1, tested⟩

/-- A reply which is cut off. -/
def brokenOff : Reply := .anthropic (some "max_tokens") [.text "par"] usage

/-- The results are sent again after the answer to them was cut off: the cut-off step is sent as
the message of a turn nobody has paid for. -/
theorem cut_off_step_rendered :
    ¬ ∀ (settings : Nat → Settings) (start : ChatSystem) (watch : Watch), start.requests = [] →
      (∀ turn, turnRows start.account turn = []) →
      Reachable (Watch.step settings) (fun _ action => action.foreign) { state := start } watch →
      Debited watch := by
  intro debited
  obtain ⟨watch, reached, tested⟩ := reachable_of_any (Watch.step fun _ => settings)
    (fun _ action => ofChats action = true) { state := subscriber }
    (fun watch => watch.answers == [(0, true)] && (turnRows watch.state.account 0).isEmpty)
    (asksForTwo ++ bothResults :: goes 1 7 brokenOff ++ bothResults :: goes 2 4 brokenOff)
    (by decide)
  rw [Bool.and_eq_true, beq_iff_eq, List.isEmpty_iff] at tested
  obtain ⟨row, held, -⟩ := (debited _ subscriber watch rfl subscriber_unkeyed
    (reached.mono fun _ _ allowed => foreign_of_ofChats allowed)).once 0 (by
      rw [tested.1]
      exact List.mem_singleton_self _)
  rw [tested.2] at held
  cases held

end Sample

end Hermes.Chat
