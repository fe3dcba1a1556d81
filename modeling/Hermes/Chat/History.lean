import Hermes.Chat.Orchestrator
import Mathlib.Data.List.Nodup

/-!
# What requests write

Every request changes the rows of a chat by a few writes: it appends a step, creates a tool call or
completes one.  `Written` is the closure of these writes for one turn; what it does to the order of
the rows and to the rows of other turns is settled here once.
-/

namespace Hermes.Chat

namespace Session

/-- Steps stand in the order of their numbers, and all identifiers handed out are different. -/
structure Numbered (chat : Session) : Prop where
  ascending : chat.steps.Pairwise fun first second => first.seq < second.seq
  below : ∀ step ∈ chat.steps, step.seq < chat.next
  distinct : chat.toolCalls.Pairwise fun first second => first.id ≠ second.id
  calls_below : ∀ row ∈ chat.toolCalls, row.id < chat.next

/-- A step with the greatest number is inserted at the end. -/
theorem insertStep_eq_append {step : Step} {steps : List Step}
    (greatest : ∀ earlier ∈ steps, earlier.seq < step.seq) :
    insertStep step steps = steps ++ [step] := by
  induction steps with
  | nil => rfl
  | cons first later induction =>
      have behind : ¬ step.seq < first.seq :=
        Nat.not_lt_of_gt (greatest first (List.mem_cons_self ..))
      rw [insertStep, if_neg behind,
        induction fun earlier member => greatest earlier (List.mem_cons_of_mem _ member)]
      rfl

theorem mem_insertStep {step other : Step} {steps : List Step} :
    other ∈ insertStep step steps ↔ other = step ∨ other ∈ steps := by
  induction steps with
  | nil => simp [insertStep]
  | cons first later induction =>
      rw [insertStep]
      split
      · exact List.mem_cons
      · rw [List.mem_cons, induction, List.mem_cons]
        exact or_left_comm

variable {chat : Session}

theorem Numbered.addStep_steps (numbered : chat.Numbered) (turn : Nat) (payload : Payload)
    (usage : Option Usage) :
    (chat.addStep turn payload usage).steps =
      chat.steps ++ [⟨chat.next, turn, payload, usage⟩] :=
  insertStep_eq_append numbered.below

theorem Numbered.skip (numbered : chat.Numbered) :
    { chat with next := chat.next + 1 }.Numbered where
  ascending := numbered.ascending
  below := fun step member => Nat.lt_succ_of_lt (numbered.below step member)
  distinct := numbered.distinct
  calls_below := fun row member => Nat.lt_succ_of_lt (numbered.calls_below row member)

theorem Numbered.addStep (numbered : chat.Numbered) (turn : Nat) (payload : Payload)
    (usage : Option Usage) : (chat.addStep turn payload usage).Numbered where
  ascending := by
    rw [numbered.addStep_steps, List.pairwise_append]
    refine ⟨numbered.ascending, List.pairwise_singleton .., fun earlier member step last => ?_⟩
    rw [List.mem_singleton.mp last]
    exact numbered.below earlier member
  below := by
    rw [numbered.addStep_steps]
    intro step member
    rcases List.mem_append.mp member with earlier | last
    · exact Nat.lt_succ_of_lt (numbered.below step earlier)
    · rw [List.mem_singleton.mp last]
      exact Nat.lt_succ_self _
  distinct := numbered.distinct
  calls_below := fun row member => Nat.lt_succ_of_lt (numbered.calls_below row member)

theorem Numbered.createToolCall (numbered : chat.Numbered) (turn : Nat) (tool : Tool)
    (providerId : String) (args : Json) :
    (chat.createToolCall turn tool providerId args).Numbered where
  ascending := numbered.ascending
  below := fun step member => Nat.lt_succ_of_lt (numbered.below step member)
  distinct := by
    rw [Session.createToolCall, List.pairwise_append]
    refine ⟨numbered.distinct, List.pairwise_singleton .., fun row member created last => ?_⟩
    rw [List.mem_singleton.mp last]
    exact Nat.ne_of_lt (numbered.calls_below row member)
  calls_below := by
    intro row member
    rcases List.mem_append.mp member with earlier | last
    · exact Nat.lt_succ_of_lt (numbered.calls_below row earlier)
    · rw [List.mem_singleton.mp last]
      exact Nat.lt_succ_self _

@[simp] theorem markToolCall_id (id : Nat) (status : ToolCallStatus) (result : Option Json)
    (row : ToolCall) : (markToolCall id status result row).id = row.id := by
  rw [markToolCall]
  split <;> rfl

@[simp] theorem markToolCall_messageStepId (id : Nat) (status : ToolCallStatus)
    (result : Option Json) (row : ToolCall) :
    (markToolCall id status result row).messageStepId = row.messageStepId := by
  rw [markToolCall]
  split <;> rfl

theorem markToolCall_of_ne {id : Nat} {row : ToolCall} (status : ToolCallStatus)
    (result : Option Json) (other : row.id ≠ id) : markToolCall id status result row = row :=
  if_neg fun both => other both.1

theorem Numbered.completeToolCall (numbered : chat.Numbered) (id : Nat) (status : ToolCallStatus)
    (result : Option Json) : (chat.completeToolCall id status result).Numbered where
  ascending := numbered.ascending
  below := numbered.below
  distinct := by
    rw [Session.completeToolCall, List.pairwise_map]
    simpa only [markToolCall_id] using numbered.distinct
  calls_below := by
    intro row member
    obtain ⟨stored, stored_member, rfl⟩ := List.mem_map.mp member
    rw [markToolCall_id]
    exact numbered.calls_below stored stored_member

theorem Numbered.row_unique (numbered : chat.Numbered) {first second : ToolCall}
    (first_member : first ∈ chat.toolCalls) (second_member : second ∈ chat.toolCalls)
    (same : first.id = second.id) : first = second := by
  have ids_distinct : (chat.toolCalls.map (·.id)).Nodup := List.pairwise_map.mpr numbered.distinct
  exact List.inj_on_of_nodup_map ids_distinct first_member second_member same

theorem Numbered.step_unique (numbered : chat.Numbered) {first second : Step}
    (first_member : first ∈ chat.steps) (second_member : second ∈ chat.steps)
    (same : first.seq = second.seq) : first = second := by
  have numbers_distinct : (chat.steps.map (·.seq)).Nodup :=
    List.pairwise_map.mpr (numbered.ascending.imp Nat.ne_of_lt)
  exact List.inj_on_of_nodup_map numbers_distinct first_member second_member same

theorem Numbered.getToolCall_eq (numbered : chat.Numbered) {row : ToolCall}
    (member : row ∈ chat.toolCalls) : chat.getToolCall row.id = some row := by
  cases found : chat.getToolCall row.id with
  | none =>
      have absent := List.find?_eq_none.mp found row member
      simp at absent
  | some stored =>
      have same : stored.id = row.id := by simpa using List.find?_some found
      rw [numbered.row_unique (List.mem_of_find?_eq_some found) member same]

theorem getToolCall_mem {id : Nat} {row : ToolCall} (found : chat.getToolCall id = some row) :
    row ∈ chat.toolCalls ∧ row.id = id :=
  ⟨List.mem_of_find?_eq_some found, by simpa using List.find?_some found⟩

/-! ## Truncation -/

/-- The numbers below that of a step are those of the steps before it. -/
theorem Numbered.cut_at (numbered : chat.Numbered) {anchor : Step} (member : anchor ∈ chat.steps) :
    ∃ kept dropped, chat.steps = kept ++ anchor :: dropped ∧
      chat.steps.filter (fun step => step.seq < anchor.seq) = kept ∧
      chat.steps.filter (fun step => anchor.seq ≤ step.seq) = anchor :: dropped := by
  obtain ⟨kept, dropped, split⟩ := List.append_of_mem member
  have ascending := numbered.ascending
  rw [split, List.pairwise_append, List.pairwise_cons] at ascending
  obtain ⟨-, ⟨after_anchor, -⟩, before_anchor⟩ := ascending
  have kept_before : ∀ step ∈ kept, step.seq < anchor.seq :=
    fun step member => before_anchor step member anchor (List.mem_cons_self ..)
  refine ⟨kept, dropped, split, ?_, ?_⟩
  · rw [split, List.filter_append, List.filter_cons, if_neg (by simp),
      List.filter_eq_self.mpr fun step member => by simpa using kept_before step member,
      List.filter_eq_nil_iff.mpr fun step member => by
        simpa using Nat.le_of_lt (after_anchor step member), List.append_nil]
  · rw [split, List.filter_append, List.filter_cons, if_pos (by simp),
      List.filter_eq_nil_iff.mpr fun step member => by simpa using kept_before step member,
      List.filter_eq_self.mpr fun step member => by
        simpa using Nat.le_of_lt (after_anchor step member), List.nil_append]

/-- A truncation cuts the history before a user step of the turn, and takes the calls of every turn
it cuts into. -/
theorem Numbered.truncate_cases (numbered : chat.Numbered) {turn : Nat} {after : Session}
    (truncated : chat.truncateFromMessageStep turn = some after) :
    ∃ kept anchor dropped, chat.steps = kept ++ anchor :: dropped ∧ anchor.isUser ∧
      after = { chat with
        steps := kept
        toolCalls := chat.toolCalls.filter fun row =>
          !(anchor :: dropped).any fun step => step.messageStepId == row.messageStepId } := by
  unfold truncateFromMessageStep at truncated
  split at truncated
  · cases truncated
  next anchor found =>
    have user : anchor.isUser := by
      have both := List.find?_some found
      simp only [Bool.and_eq_true] at both
      exact both.2
    obtain ⟨kept, dropped, split, kept_steps, dropped_steps⟩ :=
      numbered.cut_at (List.mem_of_find?_eq_some found)
    refine ⟨kept, anchor, dropped, split, user, ?_⟩
    rw [← Option.some.inj truncated, kept_steps, dropped_steps]

theorem Numbered.truncate (numbered : chat.Numbered) {turn : Nat} {after : Session}
    (truncated : chat.truncateFromMessageStep turn = some after) : after.Numbered := by
  obtain ⟨kept, anchor, dropped, split, -, rfl⟩ := numbered.truncate_cases truncated
  have ascending := numbered.ascending
  rw [split] at ascending
  exact {
    ascending := (List.pairwise_append.mp ascending).1
    below := fun step member =>
      numbered.below step (by rw [split]; exact List.mem_append_left _ member)
    distinct := numbered.distinct.filter _
    calls_below := fun row member => numbered.calls_below row (List.mem_filter.mp member).1 }

end Session

/-! ## Writes -/

theorem ToolExecution.status_ne_pending (execution : ToolExecution) :
    execution.status ≠ .pending := by
  rw [ToolExecution.status]
  split <;> exact nofun

/-- The chat after some writes of a turn other than its user step. -/
inductive Written (turn : Nat) : Session → Session → Prop
  | refl (chat : Session) : Written turn chat chat
  | reply {before chat : Session} (written : Written turn before chat) (content : List Block)
      (usage : Option Usage) : Written turn before (chat.addStep turn (.assistant content) usage)
  | handOut {before chat : Session} (written : Written turn before chat) (tool : Tool)
      (client : tool.clientSide) (providerId : String) (args : Json) :
      Written turn before (chat.createToolCall turn tool providerId args)
  | finish {before chat : Session} (written : Written turn before chat) (use : ToolUse)
      (args : Json) (execution : ToolExecution) :
      Written turn before (finishServerSide turn chat.next use execution
        (chat.createToolCall turn use.name use.id args))
  | answer {before chat : Session} (written : Written turn before chat) (record : ToolRecord)
      (status : ToolCallStatus) (result : Option Json) (done : status ≠ .pending)
      (own : ∀ row ∈ chat.toolCalls, row.id = record.toolCallId → row.messageStepId = turn) :
      Written turn before
        ((chat.completeToolCall record.toolCallId status result).addStep turn (.tool record))

namespace Written

variable {turn : Nat} {before between after : Session}

theorem trans (first : Written turn before between) (second : Written turn between after) :
    Written turn before after := by
  induction second with
  | refl => exact first
  | reply written content usage induction => exact induction.reply content usage
  | handOut written tool client providerId args induction =>
      exact induction.handOut tool client providerId args
  | finish written use args execution induction => exact induction.finish use args execution
  | answer written record status result done own induction =>
      exact induction.answer record status result done own

theorem numbered (written : Written turn before after) (numbered : before.Numbered) :
    after.Numbered := by
  induction written with
  | refl => exact numbered
  | reply written content usage induction => exact induction.addStep ..
  | handOut written tool client providerId args induction => exact induction.createToolCall ..
  | finish written use args execution induction =>
      exact ((induction.createToolCall ..).completeToolCall ..).addStep ..
  | answer written record status result done own induction =>
      exact (induction.completeToolCall ..).addStep ..

end Written

/-- The rows after a server-side tool has run: one more, which is done. -/
theorem Session.Numbered.finishServerSide_toolCalls {chat : Session} (numbered : chat.Numbered)
    (turn : Nat) (use : ToolUse) (args : Json) (execution : ToolExecution) :
    (finishServerSide turn chat.next use execution
        (chat.createToolCall turn use.name use.id args)).toolCalls =
      chat.toolCalls ++ [⟨chat.next, turn, use.name, use.id, args, execution.status,
        some execution.toToolResultPayload⟩] := by
  have others : ∀ row ∈ chat.toolCalls,
      markToolCall chat.next execution.status (some execution.toToolResultPayload) row = row :=
    fun row member =>
      markToolCall_of_ne _ _ (Nat.ne_of_lt (numbered.calls_below row member))
  change (chat.toolCalls ++ [_]).map _ = _
  rw [List.map_append, List.map_congr_left others, List.map_id', List.map_singleton,
    markToolCall, if_pos ⟨rfl, rfl⟩]

section ToolUses

variable {settings : Settings} {near : Surroundings} {turn : Nat}

/-- A tool use which is handled leaves a pending call for the client, or a call completed at
once. -/
theorem handleToolUses_cons {use : ToolUse} {later : List ToolUse} {chat : Session}
    {clientOuts : List ToolCallOut} {serverTools : List ServerToolExecutionOut}
    {result : Session × List ToolCallOut × List ServerToolExecutionOut}
    (handled : handleToolUses settings near turn (use :: later) chat clientOuts serverTools =
      .ok result) :
    ∃ args, (use.name.clientSide ∧
        handleToolUses settings near turn later
          (chat.createToolCall turn use.name use.id args)
          (clientOuts ++ [⟨chat.next, use.name, args⟩]) serverTools = .ok result) ∨
      (¬ use.name.clientSide ∧ ∃ execution executed,
        handleToolUses settings near turn later
          (finishServerSide turn chat.next use execution
            (chat.createToolCall turn use.name use.id args))
          clientOuts (serverTools ++ [executed]) = .ok result) := by
  simp only [handleToolUses] at handled
  split at handled
  · cases handled
  split at handled
  · cases handled
  next args validated =>
    split at handled
    next client => exact ⟨args, .inl ⟨client, handled⟩⟩
    next server =>
      split at handled
      · cases handled
      next execution ran => exact ⟨args, .inr ⟨server, execution, _, handled⟩⟩

theorem handleToolUses_written {uses : List ToolUse} {chat after : Session}
    {clientOuts outs : List ToolCallOut} {serverTools executed : List ServerToolExecutionOut}
    (handled : handleToolUses settings near turn uses chat clientOuts serverTools =
      .ok (after, outs, executed)) : Written turn chat after := by
  induction uses generalizing chat clientOuts serverTools with
  | nil =>
      cases handled
      exact .refl _
  | cons use later induction =>
      obtain ⟨args, ⟨client, rest⟩ | ⟨server, execution, ran, rest⟩⟩ := handleToolUses_cons handled
      · exact ((Written.refl chat).handOut _ client _ _).trans (induction rest)
      · exact ((Written.refl chat).finish ..).trans (induction rest)

end ToolUses

/-! ## Requests -/

theorem claimTrial_eq_some {world claimed : World} :
    claimTrial world = some claimed ↔
      world.trialUsed = false ∧ claimed = { world with trialUsed := true } := by
  rw [claimTrial]
  cases world.trialUsed <;> simp [eq_comm]

theorem claimTrial_eq_none {world : World} :
    claimTrial world = none ↔ world.trialUsed = true := by
  rw [claimTrial]
  cases world.trialUsed <;> simp

theorem claimTrial_chat {world claimed : World} (claims : claimTrial world = some claimed) :
    claimed.chat = world.chat := by
  obtain ⟨-, rfl⟩ := claimTrial_eq_some.mp claims
  rfl

section Requests

variable {settings : Settings} {near : Surroundings} {plan : BillingPlan} {turn : Nat}
  {result : LLMResult} {serverTools : List ServerToolExecutionOut} {world : World}

def Absorbed.chat (world : World) : Absorbed → Session
  | .again after _ => after.chat
  | .answered after _ => after.chat
  | .raised _ => world.chat

/-- What a reply can do to the chat: nothing, one assistant step, or an assistant step with its
tool calls. -/
theorem absorb_cases (settings : Settings) (near : Surroundings) (plan : BillingPlan) (turn : Nat)
    (result : LLMResult) (serverTools : List ServerToolExecutionOut) (world : World) :
    let saved := world.chat.addStep turn (.assistant result.contentBlocks) result.usage
    let absorbed := absorb settings near plan turn result serverTools world
    (∃ failure, absorbed = .raised failure) ∨
    (absorbed = .answered world (blocked .creditsEmpty)) ∨
    ((result.stopReason ≠ .toolUse ∨ result.toolUses = []) ∧
      ∃ after out, absorbed = .answered after out ∧ after.chat = saved) ∨
    (result.stopReason = .toolUse ∧ ∃ chat outs executed,
      handleToolUses settings near turn result.toolUses saved [] serverTools =
          .ok (chat, outs, executed) ∧
        ((outs = [] ∧ absorbed = .again { world with chat } executed) ∨
          (outs ≠ [] ∧ ∃ out, absorbed = .answered { world with chat } out))) := by
  intro saved absorbed
  have unfolded : absorbed = absorb settings near plan turn result serverTools world := rfl
  rw [absorb] at unfolded
  split at unfolded
  next truncated =>
    refine .inr (.inr (.inl ⟨.inl ?_, _, _, unfolded, rfl⟩))
    rw [truncated]
    exact nofun
  split at unfolded
  next tools =>
    rw [handleToolUse] at unfolded
    split at unfolded
    next failure handled => exact .inl ⟨failure, unfolded⟩
    next chat executed handled =>
      exact .inr (.inr (.inr ⟨tools.1, chat, [], executed, handled, .inl ⟨rfl, unfolded⟩⟩))
    next chat outs executed handed handled =>
      refine .inr (.inr (.inr ⟨tools.1, chat, outs, executed, handled, .inr ⟨?_, _, unfolded⟩⟩))
      rintro rfl
      exact handed rfl
  next final =>
    have no_tools : result.stopReason ≠ .toolUse ∨ result.toolUses = [] := by
      by_cases stopped : result.stopReason = .toolUse
      · exact .inr (by simpa [stopped] using final)
      · exact .inl stopped
    rw [finalizeAssistant] at unfolded
    split at unfolded
    · split at unfolded
      · exact .inr (.inr (.inl ⟨no_tools, _, _, unfolded, rfl⟩))
      · exact .inr (.inl unfolded)
      · exact .inl ⟨.wallet, unfolded⟩
    · exact .inr (.inr (.inl ⟨no_tools, _, _, unfolded, rfl⟩))

theorem absorb_written (settings : Settings) (near : Surroundings) (plan : BillingPlan) (turn : Nat)
    (result : LLMResult) (serverTools : List ServerToolExecutionOut) (world : World) :
    Written turn world.chat
      ((absorb settings near plan turn result serverTools world).chat world) := by
  have saved : Written turn world.chat
      (world.chat.addStep turn (.assistant result.contentBlocks) result.usage) :=
    .reply (.refl _) ..
  obtain ⟨failure, raised⟩ | blocked | ⟨-, after, out, answered, same⟩ |
      ⟨-, chat, outs, executed, handled, again⟩ :=
    absorb_cases settings near plan turn result serverTools world
  · rw [raised]
    exact .refl _
  · rw [blocked]
    exact .refl _
  · rw [answered, Absorbed.chat, same]
    exact saved
  · have written := saved.trans (handleToolUses_written handled)
    obtain ⟨-, continues⟩ | ⟨-, out, answered⟩ := again
    · rw [continues]
      exact written
    · rw [answered]
      exact written

theorem generateLoop_written (settings : Settings) (near : Surroundings) (plan : BillingPlan)
    (turn : Nat) (left calls : Nat) (world : World) (serverTools : List ServerToolExecutionOut) :
    Written turn world.chat
      (generateLoop settings near plan turn left calls world serverTools).world.chat := by
  induction left generalizing calls world serverTools with
  | zero => exact .refl _
  | succ left induction =>
      simp only [generateLoop]
      split
      · split <;> exact .refl _
      next result replied =>
        have written := absorb_written settings near plan turn result serverTools world
        split
        next after executed continues =>
          rw [continues] at written
          exact written.trans (induction ..)
        next after out answered =>
          rw [answered] at written
          exact written
        · exact .refl _

theorem generate_written (settings : Settings) (near : Surroundings) (claimed : Bool)
    (plan : BillingPlan) (turn : Nat) (before world : World) :
    (generate settings near claimed plan turn before world).world = before ∨
      Written turn world.chat
        (generate settings near claimed plan turn before world).world.chat := by
  rw [generate]
  split
  · exact .inl rfl
  · right
    rw [Attempt.reconcile]
    split <;> exact generateLoop_written settings near plan turn ..

theorem resolve_ok {chat : Session} {expected : Option Nat} {results : List ToolResultIn}
    {resolved : List (ToolResultIn × ToolCall)}
    (resolves : resolve chat expected results = .ok resolved) :
    resolved.map (·.1) = results ∧
      (∀ entry ∈ resolved, entry.2 ∈ chat.toolCalls ∧ entry.2.id = entry.1.toolCallId) ∧
      ∀ entry ∈ resolved, (expected.getD ((resolved.headD entry).2.messageStepId)) =
        entry.2.messageStepId := by
  induction results generalizing expected resolved with
  | nil =>
      cases resolves
      exact ⟨rfl, List.forall_mem_nil _, List.forall_mem_nil _⟩
  | cons item later induction =>
      rw [resolve] at resolves
      split at resolves
      · cases resolves
      next row found =>
        split at resolves
        next agrees =>
          obtain ⟨rest, rest_resolves, same⟩ := except_bind_eq_ok resolves
          cases same
          obtain ⟨items, rows, turns⟩ := induction rest_resolves
          have row_turn : expected.getD row.messageStepId = row.messageStepId := by
            cases expected with
            | none => rfl
            | some turn => simpa using agrees
          refine ⟨by rw [List.map_cons, items], ?_, ?_⟩
          · rintro entry (_ | ⟨_, member⟩)
            · exact Session.getToolCall_mem found
            · exact rows entry member
          · rintro entry (_ | ⟨_, member⟩)
            · exact row_turn
            · exact row_turn.trans (turns entry member)
        · cases resolves

theorem resultStatus_ne_pending (item : ToolResultIn) :
    (if item.error.isSome then ToolCallStatus.errored else .completed) ≠ .pending := by
  split <;> exact nofun

/-- An applied result completes its call, if that is still pending. -/
theorem applyToolResult_written {chat : Session} (item : ToolResultIn) {row : ToolCall}
    (own : ∀ stored ∈ chat.toolCalls, stored.id = row.id → stored.messageStepId = turn) :
    Written turn chat (applyToolResult turn item row chat) := by
  rw [applyToolResult]
  split
  · exact .answer (.refl chat)
      ⟨row.id, row.providerToolUseId, row.toolName, item.result, item.error⟩ _ _
      (resultStatus_ne_pending item) own
  · exact .refl _

theorem applyToolResult_rows {chat : Session} (turn : Nat) (item : ToolResultIn) (row : ToolCall)
    {stored : ToolCall} (member : stored ∈ (applyToolResult turn item row chat).toolCalls) :
    ∃ earlier ∈ chat.toolCalls, earlier.id = stored.id ∧
      earlier.messageStepId = stored.messageStepId ∧
      earlier.providerToolUseId = stored.providerToolUseId := by
  rw [applyToolResult] at member
  split at member
  · obtain ⟨earlier, earlier_member, rfl⟩ := List.mem_map.mp member
    refine ⟨earlier, earlier_member, ?_⟩
    rw [Session.markToolCall]
    split <;> exact ⟨rfl, rfl, rfl⟩
  · exact ⟨stored, member, rfl, rfl, rfl⟩

theorem Session.pending_of_completeToolCall {chat : Session} {id : Nat} {status : ToolCallStatus}
    {result : Option Json} (done : status ≠ .pending) {stored : ToolCall}
    (member : stored ∈ (chat.completeToolCall id status result).toolCalls)
    (pending : stored.status = .pending) : stored ∈ chat.toolCalls := by
  obtain ⟨earlier, earlier_member, rfl⟩ := List.mem_map.mp member
  rw [Session.markToolCall] at pending ⊢
  split at pending
  · exact absurd pending done
  next other =>
    rw [if_neg other]
    exact earlier_member

theorem pending_of_applyToolResult {item : ToolResultIn} {row : ToolCall} {chat : Session}
    {stored : ToolCall} (member : stored ∈ (applyToolResult turn item row chat).toolCalls)
    (pending : stored.status = .pending) : stored ∈ chat.toolCalls := by
  rw [applyToolResult] at member
  split at member
  · exact Session.pending_of_completeToolCall (resultStatus_ne_pending item) member pending
  · exact member

theorem pending_of_applyToolResults {resolved : List (ToolResultIn × ToolCall)} {chat : Session}
    {stored : ToolCall} (member : stored ∈ (applyToolResults turn resolved chat).toolCalls)
    (pending : stored.status = .pending) : stored ∈ chat.toolCalls := by
  induction resolved generalizing chat with
  | nil => exact member
  | cons entry later induction =>
      rw [applyToolResults] at member
      split at member
      · exact pending_of_applyToolResult (induction member) pending
      · exact induction member

theorem applyToolResults_written {resolved : List (ToolResultIn × ToolCall)} {chat : Session}
    (own : ∀ entry ∈ resolved, ∀ stored ∈ chat.toolCalls,
      stored.id = entry.2.id → stored.messageStepId = turn) :
    Written turn chat (applyToolResults turn resolved chat) := by
  induction resolved generalizing chat with
  | nil => exact .refl _
  | cons entry later induction =>
      rw [applyToolResults]
      split
      · refine (applyToolResult_written _ (own entry (List.mem_cons_self ..))).trans
          (induction fun other member stored stored_member same => ?_)
        obtain ⟨earlier, earlier_member, same_id, same_turn, -⟩ :=
          applyToolResult_rows turn entry.1 entry.2 stored_member
        rw [← same_turn]
        exact own other (List.mem_cons_of_mem _ member) earlier earlier_member (same_id.trans same)
      · exact induction fun other member => own other (List.mem_cons_of_mem _ member)

/-- The chat with the results of a batch applied. -/
def World.applied (world : World) (turn : Nat) (resolved : List (ToolResultIn × ToolCall)) :
    World :=
  { world with chat := applyToolResults turn resolved world.chat }

/-- The stages at which a tool-result request ends or goes on to generate. -/
theorem toolResult_cases (settings : Settings) (near : Surroundings) (world : World)
    (results : List ToolResultIn) :
    (∃ failure, toolResult settings near world results = ⟨world, .error failure, []⟩) ∨
    ∃ item row later, resolve world.chat none results = .ok ((item, row) :: later) ∧
      let turn := row.messageStepId
      let applied := world.applied turn ((item, row) :: later)
      (applied.chat.pendingCalls turn ≠ [] ∧ toolResult settings near world results =
        ⟨applied, .ok (awaitingResults applied.chat turn), []⟩) ∨
      (applied.chat.pendingCalls turn = [] ∧
        ((∃ saved, replayedStep applied.chat turn row.id ((item, row) :: later) = some saved ∧
          toolResult settings near world results =
            ⟨applied, .ok (renderSavedStep turn saved), []⟩) ∨
        (replayedStep applied.chat turn row.id ((item, row) :: later) = none ∧
          toolResult settings near world results =
            continueTurn settings near turn world applied))) := by
  rw [toolResult]
  split
  next failure resolves => exact .inl ⟨failure, rfl⟩
  · exact .inl ⟨_, rfl⟩
  next item row later resolves =>
    refine .inr ⟨item, row, later, resolves, ?_⟩
    simp only [World.applied]
    split
    next closed =>
      refine .inr ⟨List.isEmpty_iff.mp closed, ?_⟩
      split
      next saved replayed => exact .inl ⟨saved, replayed, rfl⟩
      next unsaved => exact .inr ⟨unsaved, rfl⟩
    next waiting => exact .inl ⟨fun closed => waiting (List.isEmpty_iff.mpr closed), rfl⟩

/-- The rows a resolved batch names: all of one turn, and stored in the chat. -/
theorem resolved_rows {chat : Session} {results : List ToolResultIn} {item : ToolResultIn}
    {row : ToolCall} {later : List (ToolResultIn × ToolCall)}
    (resolves : resolve chat none results = .ok ((item, row) :: later)) :
    ∀ entry ∈ (item, row) :: later, entry.2 ∈ chat.toolCalls ∧
      entry.2.id = entry.1.toolCallId ∧ entry.2.messageStepId = row.messageStepId := by
  obtain ⟨-, rows, turns⟩ := resolve_ok resolves
  exact fun entry member =>
    ⟨(rows entry member).1, (rows entry member).2, (turns entry member).symm⟩

theorem applied_written {chat : Session} (numbered : chat.Numbered) {results : List ToolResultIn}
    {item : ToolResultIn} {row : ToolCall} {later : List (ToolResultIn × ToolCall)}
    (resolves : resolve chat none results = .ok ((item, row) :: later)) :
    Written row.messageStepId chat
      (applyToolResults row.messageStepId ((item, row) :: later) chat) := by
  apply applyToolResults_written
  intro entry member stored stored_member same
  obtain ⟨entry_member, -, entry_turn⟩ := resolved_rows resolves entry member
  rw [numbered.row_unique stored_member entry_member same]
  exact entry_turn

end Requests

end Hermes.Chat
