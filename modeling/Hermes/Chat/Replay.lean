import Hermes.Chat.Growth

/-!
# Re-sending a batch of tool results

A batch which was applied once changes nothing when it is sent again, so the second response is
read off the stored rows.  `Replay` sorts first requests by what this second look has to find for
the two responses to agree.
-/

namespace Hermes.Chat

/-- Two responses agree on the status, the text, the pending tool calls and the step.  The calls are
compared without their order, which the random ids of their rows decide. -/
structure SameResponse (first second : ChatRunOut) : Prop where
  status : first.status = second.status
  text : first.assistantMessage = second.assistantMessage
  toolCalls : first.toolCalls.Perm second.toolCalls
  step : first.stepId = second.stepId

/-- The second request answers as the first did, asks no provider, debits nothing and stores no
step. -/
structure Faithful (out : ChatRunOut) (before : World) (again : Attempt) : Prop where
  response : ∃ second, again.response = .ok second ∧ SameResponse out second
  unsent : again.sent = []
  undebited : again.world.account = before.account
  unwritten : again.world.chat.steps = before.chat.steps

/-! ## What the second look has to find -/

inductive Replay
  /-- It handed out calls without a text: these calls still wait. -/
  | waiting
  /-- It answered with the text of the step behind the results: no call waits. -/
  | message
  /-- It was blocked with nothing stored: it is blocked at the gate again. -/
  | blockedAgain
  | never
  deriving DecidableEq, Repr

/-- What must be so when the batch is sent again, after the first request has left `left`. -/
def Replay.Holds (turn anchor : Nat) (left : Session) (near : Surroundings) (world : World) :
    Replay → Prop
  | .waiting =>
      ((world.chat.pendingCalls turn).map (·.out)).Perm ((left.pendingCalls turn).map (·.out))
  | .message => world.chat.pendingCalls turn = []
  | .blockedAgain =>
      world.chat.pendingCalls turn = [] ∧ world.chat.nextStepAfter turn anchor = none ∧
        (continuationGate (policyState near world) world.chat turn).isSome
  | .never => False

def unfunded (settings : Settings) (near : Surroundings) (plan : BillingPlan) (turn : Nat)
    (result : LLMResult) (world : World) : Bool :=
  plan.debitCredits &&
    (debit settings near turn result.usage world.account).1 == .raised .insufficientCredits

/-- The replay of a continuation: only its first reply is found behind the results, and of that
only a final text in typed blocks is answered with; calls handed out are listed without the text
beside them. -/
def loopReplay (settings : Settings) (near : Surroundings) (plan : BillingPlan) (turn : Nat) :
    Nat → Nat → World → List ServerToolExecutionOut → Bool → Replay
  | 0, _, _, _, _ => .never
  | left + 1, calls, world, serverTools, first =>
      match createMessage settings.loads (near.reply calls) with
      | .error _ => if first then .blockedAgain else .never
      | .ok result =>
          if result.stopReason = .maxTokens then .never
          else if result.stopReason = .toolUse ∧ !result.toolUses.isEmpty then
            match handleToolUse settings near turn result serverTools world with
            | .again after executed =>
                loopReplay settings near plan turn left (calls + 1) after executed false
            | .answered _ _ => if result.text.isEmpty then .waiting else .never
            | .raised _ => .never
          else if unfunded settings near plan turn result world then
            if first then .blockedAgain else .never
          else if first ∧ renderedText result.contentBlocks = result.text then .message
          else .never

def replayOf (settings : Settings) (near : Surroundings) (world : World)
    (results : List ToolResultIn) : Replay :=
  match resolve world.chat none results with
  | .ok ((item, row) :: later) =>
      let turn := row.messageStepId
      let applied := world.applied turn ((item, row) :: later)
      if (applied.chat.pendingCalls turn).isEmpty then
        match replayedStep applied.chat turn row.id ((item, row) :: later) with
        | some _ => .message
        | none =>
            let state := policyState near applied
            match continuationGate state applied.chat turn with
            | some _ => .blockedAgain
            | none =>
                loopReplay settings near (billingPlan state applied.chat.mode) turn
                  (settings.maxServerToolRounds + 1) 0 applied [] true
      else .waiting
  | _ => .never

/-! ## The second request -/

section Again

variable {settings : Settings} {near : Surroundings} {turn anchor : Nat} {world : World}
  {out : ChatRunOut}

theorem resolve_of_rows {chat : Session} {results : List ToolResultIn}
    (rows : ∀ item ∈ results, ∃ row, chat.getToolCall item.toolCallId = some row ∧
      row.messageStepId = turn) (expected : Option Nat) (agrees : expected.all (· == turn)) :
    ∃ resolved, resolve chat expected results = .ok resolved := by
  induction results generalizing expected with
  | nil => exact ⟨[], rfl⟩
  | cons item later induction =>
      obtain ⟨row, found, own⟩ := rows item (List.mem_cons_self ..)
      obtain ⟨rest, resolves⟩ := induction
        (fun other member => rows other (List.mem_cons_of_mem _ member)) (some turn) (by simp)
      refine ⟨(item, row) :: rest, ?_⟩
      rw [resolve, found]
      simp only [own, agrees, if_true, resolves]
      rfl

theorem applyToolResults_of_done {chat : Session} {resolved : List (ToolResultIn × ToolCall)}
    (done : ∀ entry ∈ resolved, entry.2.status ≠ .pending) :
    applyToolResults turn resolved chat = chat := by
  induction resolved with
  | nil => rfl
  | cons entry later induction =>
      rw [applyToolResults, if_neg (done entry (List.mem_cons_self ..))]
      exact induction fun other member => done other (List.mem_cons_of_mem _ member)

theorem allAlreadyDoneBefore_of_done {chat : Session} (numbered : chat.Numbered)
    {resolved : List (ToolResultIn × ToolCall)}
    (done : ∀ entry ∈ resolved, entry.2 ∈ chat.toolCalls ∧ entry.2.status ≠ .pending) :
    allAlreadyDoneBefore chat resolved = true := by
  rw [allAlreadyDoneBefore, List.all_eq_true]
  intro entry member
  rw [numbered.getToolCall_eq (done entry member).1]
  simpa using (done entry member).2

theorem generateLoop_sent_ne_nil (plan : BillingPlan) (left calls : Nat) (world : World)
    (serverTools : List ServerToolExecutionOut) :
    (generateLoop settings near plan turn (left + 1) calls world serverTools).sent ≠ [] := by
  simp only [generateLoop]
  split
  · split <;> exact List.cons_ne_nil _ _
  · split <;> exact List.cons_ne_nil _ _

/-- The response a second look at the rows gives. -/
def Resent (turn anchor : Nat) (near : Surroundings) (world : World) (out : ChatRunOut) : Prop :=
  (world.chat.pendingCalls turn ≠ [] ∧ SameResponse out (awaitingResults world.chat turn)) ∨
  (world.chat.pendingCalls turn = [] ∧
    ((∃ saved, world.chat.nextStepAfter turn anchor = some saved ∧
        SameResponse out (renderSavedStep turn saved)) ∨
      (world.chat.nextStepAfter turn anchor = none ∧ ∃ reason,
        continuationGate (policyState near world) world.chat turn = some reason ∧
        SameResponse out (blocked reason))))

theorem not_faithful_of_generate {claimed : Bool} {plan : BillingPlan}
    (faithful : Faithful out world (generate settings near claimed plan turn world world)) :
    False := by
  rw [generate] at faithful
  split at faithful
  · obtain ⟨second, response, -⟩ := faithful.response
    cases response
  · have unsent := faithful.unsent
    rw [Attempt.reconcile] at unsent
    split at unsent <;> exact generateLoop_sent_ne_nil _ _ _ _ _ unsent

theorem toolResult_of_done (sound : world.chat.Sound) {results : List ToolResultIn}
    {item : ToolResultIn} (head : results.head? = some item) (anchored : item.toolCallId = anchor)
    (done : ∀ entry ∈ results, ∃ row ∈ world.chat.toolCalls, row.id = entry.toolCallId ∧
      row.messageStepId = turn ∧ row.status ≠ .pending) :
    toolResult settings near world results =
      if (world.chat.pendingCalls turn).isEmpty then
        match world.chat.nextStepAfter turn anchor with
        | some saved => ⟨world, .ok (renderSavedStep turn saved), []⟩
        | none => continueTurn settings near turn world world
      else ⟨world, .ok (awaitingResults world.chat turn), []⟩ := by
  have found : ∀ entry ∈ results, ∃ row, world.chat.getToolCall entry.toolCallId = some row ∧
      row.messageStepId = turn := by
    intro entry member
    obtain ⟨row, row_member, same, own, -⟩ := done entry member
    exact ⟨row, same ▸ sound.numbered.getToolCall_eq row_member, own⟩
  obtain ⟨resolved, resolves⟩ := resolve_of_rows found none rfl
  obtain ⟨items, -, -⟩ := resolve_ok resolves
  cases resolved with
  | nil =>
      rw [← items] at head
      cases head
  | cons entry later =>
      obtain ⟨first, row⟩ := entry
      have rows := resolved_rows resolves
      have entry_done : ∀ entry ∈ (first, row) :: later, entry.2 ∈ world.chat.toolCalls ∧
          entry.2.messageStepId = turn ∧ entry.2.status ≠ .pending := by
        intro entry member
        obtain ⟨stored, same, -⟩ := rows entry member
        have listed : entry.1 ∈ results := items ▸ List.mem_map_of_mem member
        obtain ⟨known, known_member, known_id, known_turn, known_done⟩ := done entry.1 listed
        rw [sound.numbered.row_unique stored known_member (same.trans known_id.symm)]
        exact ⟨known_member, known_turn, known_done⟩
      have own : row.messageStepId = turn := (entry_done _ (List.mem_cons_self ..)).2.1
      have row_anchor : row.id = anchor := by
        rw [← items] at head
        rw [← anchored, ← Option.some.inj head]
        exact (rows _ (List.mem_cons_self ..)).2.1
      have unapplied : applyToolResults turn ((first, row) :: later) world.chat = world.chat :=
        applyToolResults_of_done fun entry member => (entry_done entry member).2.2
      have unchanged :
          { world with chat := applyToolResults turn ((first, row) :: later) world.chat } =
            world := by
        rw [unapplied]
      have all_done : allAlreadyDoneBefore world.chat ((first, row) :: later) = true :=
        allAlreadyDoneBefore_of_done sound.numbered fun entry member =>
          ⟨(entry_done entry member).1, (entry_done entry member).2.2⟩
      have replayed : replayedStep world.chat turn anchor ((first, row) :: later) =
          world.chat.nextStepAfter turn anchor := by
        rw [replayedStep, all_done]
        cases world.chat.nextStepAfter turn anchor <;> rfl
      rw [toolResult, resolves]
      simp only [own, row_anchor, unchanged]
      rw [unapplied]
      cases next : world.chat.nextStepAfter turn anchor <;> rw [replayed, next]

theorem faithful_iff_resent (sound : world.chat.Sound) {results : List ToolResultIn}
    {item : ToolResultIn} (head : results.head? = some item) (anchored : item.toolCallId = anchor)
    (done : ∀ entry ∈ results, ∃ row ∈ world.chat.toolCalls, row.id = entry.toolCallId ∧
      row.messageStepId = turn ∧ row.status ≠ .pending) :
    Faithful out world (toolResult settings near world results) ↔
      Resent turn anchor near world out := by
  rw [toolResult_of_done sound head anchored done, Resent]
  have ended : ∀ second, Faithful out world ⟨world, .ok second, []⟩ ↔ SameResponse out second := by
    intro second
    constructor
    · rintro ⟨⟨_, response, same⟩, -⟩
      cases response
      exact same
    · exact fun same => ⟨⟨second, rfl, same⟩, rfl, rfl, rfl⟩
  by_cases closed : world.chat.pendingCalls turn = []
  · simp only [closed, List.isEmpty_nil, if_true, ne_eq, not_true_eq_false, false_and, true_and,
      false_or]
    cases found : world.chat.nextStepAfter turn anchor with
    | some saved =>
        simp only [ended, Option.some.injEq, exists_eq_left', reduceCtorEq, false_and, or_false]
    | none =>
        simp only [reduceCtorEq, false_and, exists_false, true_and, false_or]
        rw [continueTurn]
        cases gate : continuationGate (policyState near world) world.chat turn with
        | some reason => simp only [ended, Option.some.injEq, exists_eq_left']
        | none =>
            simp only [reduceCtorEq, false_and, exists_false, iff_false]
            exact not_faithful_of_generate
  · have open_ : (world.chat.pendingCalls turn).isEmpty = false :=
      Bool.eq_false_iff.mpr fun empty => closed (List.isEmpty_iff.mp empty)
    simp only [open_, Bool.false_eq_true, if_false, ended, closed, ne_eq, not_false_eq_true,
      true_and, false_and, or_false]

/-! ### Kinds of responses -/

theorem resent_blocked_iff (left : Session) (reason : Policy.BlockReason) :
    Resent turn anchor near world (blocked reason) ↔
      Replay.blockedAgain.Holds turn anchor left near world := by
  constructor
  · rintro (⟨-, same⟩ | ⟨closed, ⟨saved, -, same⟩ | ⟨unsaved, again, gate, -⟩⟩)
    · cases same.status
    · cases same.status
    · exact ⟨closed, unsaved, Option.isSome_iff_exists.mpr ⟨again, gate⟩⟩
  · rintro ⟨closed, unsaved, gate⟩
    obtain ⟨again, gate⟩ := Option.isSome_iff_exists.mp gate
    exact .inr ⟨closed, .inr ⟨unsaved, again, gate, ⟨rfl, rfl, .refl _, rfl⟩⟩⟩

theorem not_resent_of_blocked {saved : Step} (status : out.status = .blocked)
    (found : world.chat.nextStepAfter turn anchor = some saved) :
    ¬ Resent turn anchor near world out := by
  rintro (⟨-, same⟩ | ⟨-, ⟨other, -, same⟩ | ⟨unsaved, -⟩⟩)
  · rw [same.status] at status
    cases status
  · rw [same.status] at status
    cases status
  · rw [found] at unsaved
    cases unsaved

theorem resent_message_iff {saved : Step} (status : out.status = .assistantMessage)
    (no_calls : out.toolCalls = []) (found : world.chat.nextStepAfter turn anchor = some saved) :
    Resent turn anchor near world out ↔
      world.chat.pendingCalls turn = [] ∧ out.assistantMessage = renderedText saved.content ∧
        out.stepId = saved.seq := by
  constructor
  · rintro (⟨-, same⟩ | ⟨closed, ⟨other, other_found, same⟩ | ⟨unsaved, -⟩⟩)
    · rw [same.status] at status
      cases status
    · rw [found] at other_found
      cases other_found
      exact ⟨closed, same.text, same.step⟩
    · rw [found] at unsaved
      cases unsaved
  · rintro ⟨closed, text, step⟩
    exact .inr ⟨closed, .inl ⟨saved, found, ⟨status, text, by rw [no_calls]; exact .refl _, step⟩⟩⟩

/-- Calls handed out are listed again while they all wait: no step of the turn was stored since. -/
theorem resent_handed_iff {left : Session} (numbered : left.Numbered)
    (kept : Kept turn left world.chat) (status : out.status = .toolCall)
    (handed : out.toolCalls = (left.pendingCalls turn).map (·.out))
    (some_handed : left.pendingCalls turn ≠ [])
    (step : out.stepId = left.assistantToolStepId turn) :
    Resent turn anchor near world out ↔
      out.assistantMessage = none ∧ Replay.waiting.Holds turn anchor left near world := by
  constructor
  · rintro (⟨-, same⟩ | ⟨-, ⟨other, -, same⟩ | ⟨-, reason, -, same⟩⟩)
    · refine ⟨same.text, ?_⟩
      rw [Replay.Holds, ← handed]
      exact same.toolCalls.symm
    · rw [same.status] at status
      cases status
    · rw [same.status] at status
      cases status
  · rintro ⟨no_text, waiting⟩
    obtain ⟨row, row_member⟩ := List.exists_mem_of_ne_nil _ some_handed
    -- One of the calls handed out is pending now, so no assistant step has been stored since.
    obtain ⟨later, later_member, same_out⟩ : ∃ later ∈ world.chat.pendingCalls turn,
        later.out = row.out := by
      exact List.mem_map.mp (waiting.symm.subset (List.mem_map_of_mem row_member))
    have same_steps : world.chat.assistantSteps turn = left.assistantSteps turn := by
      rcases kept.idle with same | done
      · exact same
      · obtain ⟨in_turn, pending⟩ := List.mem_filter.mp later_member
        obtain ⟨stored, own⟩ := List.mem_filter.mp in_turn
        have below : later.id < left.next := by
          rw [show later.id = row.id from congrArg ToolCallOut.id same_out]
          exact numbered.calls_below row (List.mem_filter.mp (List.mem_filter.mp row_member).1).1
        refine absurd ?_ (done later stored (eq_of_beq own) below)
        simp only [Bool.and_eq_true] at pending
        exact eq_of_beq pending.2
    refine .inl ⟨List.ne_nil_of_mem later_member, status, no_text, ?_, ?_⟩
    · rw [handed]
      exact waiting.symm
    · rw [step, Session.assistantToolStepId, ← same_steps]
      rfl

end Again

/-! ## The first request -/

section First

variable {settings : Settings} {near : Surroundings} {turn anchor : Nat}

theorem Grown.nextStepAfter {before after : Session} {saved : Step}
    (grown : Grown turn before after)
    (recorded : ∃ step ∈ before.turnSteps turn, step.answers anchor)
    (found : before.nextStepAfter turn anchor = some saved) :
    after.nextStepAfter turn anchor = some saved := by
  obtain ⟨more, same⟩ := grown.steps
  obtain ⟨step, member, answers⟩ := recorded
  rw [Session.nextStepAfter_eq] at found ⊢
  rw [Session.assistantSteps_eq, ← same, List.filter_append, List.find?_append,
    ← Session.assistantSteps_eq]
  cases anchored : (before.turnSteps turn).find? (·.answers anchor) with
  | none => exact absurd answers (List.find?_eq_none.mp anchored step member)
  | some first =>
      simp only [anchored, Option.some_or] at found ⊢
      rw [List.find?_append, found, Option.some_or]

theorem Session.Numbered.nextStepAfter_reply {chat : Session} (numbered : chat.Numbered)
    (recorded : ∃ step ∈ chat.turnSteps turn, step.answers anchor)
    (unsaved : chat.nextStepAfter turn anchor = none) (content : List Block)
    (usage : Option Usage) :
    (chat.addStep turn (.assistant content) usage).nextStepAfter turn anchor =
      some ⟨chat.next, turn, .assistant content, usage⟩ := by
  obtain ⟨step, member, answers⟩ := recorded
  rw [Session.nextStepAfter_eq] at unsaved ⊢
  rw [Session.assistantSteps_eq, numbered.turnSteps_addStep, if_pos rfl, List.filter_append,
    List.find?_append, ← Session.assistantSteps_eq]
  cases anchored : (chat.turnSteps turn).find? (·.answers anchor) with
  | none => exact absurd answers (List.find?_eq_none.mp anchored step member)
  | some first =>
      have behind : first.seq < chat.next :=
        numbered.below first (List.mem_filter.mp (List.mem_of_find?_eq_some anchored)).1
      simp only [anchored, Option.some_or] at unsaved ⊢
      rw [List.find?_append, unsaved, Option.none_or]
      simp [Step.isAssistant, behind]

theorem Grown.recorded {before after : Session} (grown : Grown turn before after)
    (recorded : ∃ step ∈ before.turnSteps turn, step.answers anchor) :
    ∃ step ∈ after.turnSteps turn, step.answers anchor := by
  obtain ⟨step, member, answers⟩ := recorded
  exact ⟨step, grown.steps.subset member, answers⟩

theorem handleToolUses_pending {uses : List ToolUse} {chat after : Session}
    {clientOuts outs : List ToolCallOut} {serverTools executed : List ServerToolExecutionOut}
    (numbered : chat.Numbered)
    (handled : handleToolUses settings near turn uses chat clientOuts serverTools =
      .ok (after, outs, executed)) :
    after.assistantSteps turn = chat.assistantSteps turn ∧ ∃ handed,
      outs = clientOuts ++ handed ∧
      (after.pendingCalls turn).map (·.out) = (chat.pendingCalls turn).map (·.out) ++ handed := by
  induction uses generalizing chat clientOuts serverTools with
  | nil =>
      cases handled
      exact ⟨rfl, [], (List.append_nil _).symm, (List.append_nil _).symm⟩
  | cons use later induction =>
      obtain ⟨args, ⟨client, rest⟩ | ⟨server, execution, ran, rest⟩⟩ := handleToolUses_cons handled
      · obtain ⟨steps, handed, same, pending⟩ := induction (numbered.createToolCall ..) rest
        refine ⟨steps, _, same.trans (List.append_assoc ..), pending.trans ?_⟩
        rw [← List.append_assoc]
        congr 1
        rw [Session.pendingCalls, Session.listToolCallsForStep, Session.createToolCall,
          List.filter_append, List.filter_append, List.map_append]
        simp only [List.filter_cons, beq_self_eq_true, if_true, client, Bool.and_self,
          List.filter_nil, List.map_cons, List.map_nil]
        rfl
      · have created := numbered.createToolCall turn use.name use.id args
        have completed := fun status result => created.completeToolCall chat.next status result
        obtain ⟨steps, handed, same, pending⟩ := induction
          (((Written.refl chat).finish use args execution).numbered numbered) rest
        refine ⟨steps.trans ?_, handed, same, pending.trans ?_⟩
        · rw [Session.assistantSteps_eq, finishServerSide, (completed _ _).turnSteps_addStep,
            List.filter_append, if_pos rfl, Session.assistantSteps_eq]
          exact List.append_nil _
        · congr 2
          rw [Session.pendingCalls, Session.listToolCallsForStep,
            numbered.finishServerSide_toolCalls, List.filter_append, List.filter_append,
            Session.pendingCalls, Session.listToolCallsForStep]
          simp [execution.status_ne_pending]

theorem handleToolUse_cases (settings : Settings) (near : Surroundings) (turn : Nat)
    (result : LLMResult) (serverTools : List ServerToolExecutionOut) (world : World) :
    let saved := world.chat.addStep turn (.assistant result.contentBlocks) result.usage
    let handled := handleToolUses settings near turn result.toolUses saved [] serverTools
    let absorbed := handleToolUse settings near turn result serverTools world
    (∃ failure, absorbed = .raised failure) ∨
    (∃ chat executed, handled = .ok (chat, [], executed) ∧
      absorbed = .again { world with chat } executed) ∨
    (∃ chat outs executed, handled = .ok (chat, outs, executed) ∧ outs ≠ [] ∧
      ∃ out, absorbed = .answered { world with chat } out ∧ out.status = .toolCall ∧
        out.assistantMessage = (if result.text.isEmpty then none else some result.text) ∧
        out.toolCalls = outs ∧ out.stepId = some world.chat.next) := by
  intro saved handled absorbed
  have unfolded : absorbed = handleToolUse settings near turn result serverTools world := rfl
  rw [handleToolUse] at unfolded
  split at unfolded
  next failure raised => exact .inl ⟨failure, unfolded⟩
  next chat executed ok => exact .inr (.inl ⟨chat, executed, ok, unfolded⟩)
  next chat outs executed handed ok =>
    refine .inr (.inr ⟨chat, outs, executed, ok, ?_, _, unfolded, rfl, ?_, rfl, rfl⟩)
    · rintro rfl
      exact handed rfl
    · split <;> rfl

theorem absorb_again {plan : BillingPlan} {result : LLMResult}
    {serverTools executed : List ServerToolExecutionOut} {world after : World}
    (numbered : world.chat.Numbered)
    (again : absorb settings near plan turn result serverTools world = .again after executed) :
    result.stopReason = .toolUse ∧ after.account = world.account ∧
      Written turn world.chat after.chat ∧
      (world.chat.pendingCalls turn = [] → after.chat.pendingCalls turn = []) := by
  have written := absorb_written settings near plan turn result serverTools world
  rw [again] at written
  obtain ⟨failure, raised⟩ | blocked | ⟨-, other, out, answered, -⟩ |
      ⟨stopped, chat, outs, ran, handled, ⟨none_handed, continues⟩ | ⟨-, out, answered⟩⟩ :=
    absorb_cases settings near plan turn result serverTools world
  · rw [again] at raised
    cases raised
  · rw [again] at blocked
    cases blocked
  · rw [again] at answered
    cases answered
  · rw [again] at continues
    cases continues
    refine ⟨stopped, rfl, written, fun closed => ?_⟩
    obtain ⟨-, handed, outs_eq, pending⟩ := handleToolUses_pending (numbered.addStep ..) handled
    rw [none_handed, List.nil_append] at outs_eq
    change (chat.pendingCalls turn).map (·.out) = (world.chat.pendingCalls turn).map _ ++ _
      at pending
    rw [closed, ← outs_eq] at pending
    exact List.map_eq_nil_iff.mp pending
  · rw [again] at answered
    cases answered

theorem finalizeAssistant_cases (settings : Settings) (near : Surroundings) (plan : BillingPlan)
    (turn : Nat) (result : LLMResult) (serverTools : List ServerToolExecutionOut) (world : World) :
    let absorbed := finalizeAssistant settings near plan turn result serverTools world
    (unfunded settings near plan turn result world = true ∧
      absorbed = .answered world (blocked .creditsEmpty)) ∨
    (unfunded settings near plan turn result world = false ∧
      ((∃ failure, absorbed = .raised failure) ∨
        ∃ after out, absorbed = .answered after out ∧
          after.chat = world.chat.addStep turn (.assistant result.contentBlocks) result.usage ∧
          out.status = .assistantMessage ∧ out.assistantMessage = some result.text ∧
          out.toolCalls = [] ∧ out.stepId = some world.chat.next)) := by
  intro absorbed
  have unfolded : absorbed = finalizeAssistant settings near plan turn result serverTools world :=
    rfl
  rw [finalizeAssistant] at unfolded
  split at unfolded
  next debits =>
    split at unfolded
    next consumed account debited =>
      refine .inr ⟨?_, .inr ⟨_, _, unfolded, rfl, rfl, rfl, rfl, rfl⟩⟩
      simp [unfunded, debited]
    next account refused =>
      exact .inl ⟨by simp [unfunded, debits, refused], unfolded⟩
    next debited refused other =>
      refine .inr ⟨Bool.eq_false_iff.mpr fun short => ?_, .inl ⟨_, unfolded⟩⟩
      simp only [unfunded, Bool.and_eq_true, beq_iff_eq] at short
      exact other _ (Prod.ext short.2 rfl)
  next free =>
    refine .inr ⟨?_, .inr ⟨_, _, unfolded, rfl, rfl, rfl, rfl, rfl⟩⟩
    simp [unfunded, Bool.eq_false_iff.mpr free]

section Loop

variable {plan : BillingPlan} {world : World} {first : Bool}

/-- Once a reply is stored, there is a step behind the results: the reply itself if it is the first,
and an earlier one otherwise. -/
theorem stored_after_reply (numbered : world.chat.Numbered)
    (recorded : ∃ step ∈ world.chat.turnSteps turn, step.answers anchor)
    (fresh : first = true → world.chat.nextStepAfter turn anchor = none)
    (stored : first = false → ∃ step, world.chat.nextStepAfter turn anchor = some step ∧
      step.seq < world.chat.next) (content : List Block) (usage : Option Usage) :
    ∃ step, (world.chat.addStep turn (.assistant content) usage).nextStepAfter turn anchor =
        some step ∧
      (first = true → step = ⟨world.chat.next, turn, .assistant content, usage⟩) ∧
      (first = false → step.seq < world.chat.next) := by
  cases first with
  | true =>
      exact ⟨_, numbered.nextStepAfter_reply recorded (fresh rfl) content usage, fun _ => rfl,
        nofun⟩
  | false =>
      obtain ⟨step, found, earlier⟩ := stored rfl
      exact ⟨step, (Grown.addStep numbered ..).nextStepAfter recorded found, nofun,
        fun _ => earlier⟩

/-- A response blocked in the loop is found again while nothing is stored behind the results. -/
theorem resent_refusal_iff {now : World} {again : Surroundings} (reason : Policy.BlockReason)
    (recorded : ∃ step ∈ world.chat.turnSteps turn, step.answers anchor)
    (stored : first = false → ∃ step, world.chat.nextStepAfter turn anchor = some step ∧
      step.seq < world.chat.next) (kept : Kept turn world.chat now.chat) :
    Resent turn anchor again now (blocked reason) ↔
      (if first then Replay.blockedAgain else .never).Holds turn anchor world.chat again now := by
  cases first with
  | true => exact resent_blocked_iff _ reason
  | false =>
      obtain ⟨step, found, -⟩ := stored rfl
      exact iff_of_false
        (not_resent_of_blocked rfl (kept.grown.nextStepAfter recorded found)) id

/-- Where no call waited, those which a reply hands out are the ones which wait, and the reply is
the latest step. -/
theorem handed_pending {uses : List ToolUse} {content : List Block} {usage : Option Usage}
    {chat : Session} {outs : List ToolCallOut} {serverTools executed : List ServerToolExecutionOut}
    (sound : world.chat.Sound) (closed : world.chat.pendingCalls turn = [])
    (handled : handleToolUses settings near turn uses
      (world.chat.addStep turn (.assistant content) usage) [] serverTools =
        .ok (chat, outs, executed)) :
    (chat.pendingCalls turn).map (·.out) = outs ∧
      chat.assistantToolStepId turn = some world.chat.next := by
  have closed_saved : (world.chat.addStep turn (.assistant content) usage).pendingCalls turn = [] :=
    closed
  obtain ⟨steps, handed, same, pending⟩ :=
    handleToolUses_pending (sound.numbered.addStep ..) handled
  rw [List.nil_append] at same
  rw [closed_saved, List.map_nil, List.nil_append, ← same] at pending
  refine ⟨pending, ?_⟩
  rw [Session.assistantToolStepId, steps, Session.assistantSteps_eq,
    sound.numbered.turnSteps_addStep, if_pos rfl, List.filter_append]
  simp [Step.isAssistant]

/-- The final text of a reply is found again if it is the first one, and its blocks render as the
text. -/
theorem resent_reply_iff {now : World} {again : Surroundings} {out : ChatRunOut}
    {result : LLMResult} {step : Step} {left : Session}
    (found : now.chat.nextStepAfter turn anchor = some step)
    (is_reply : first = true →
      step = ⟨world.chat.next, turn, .assistant result.contentBlocks, result.usage⟩)
    (is_earlier : first = false → step.seq < world.chat.next)
    (status : out.status = .assistantMessage) (calls : out.toolCalls = [])
    (text : out.assistantMessage = some result.text) (step_id : out.stepId = some world.chat.next) :
    Resent turn anchor again now out ↔
      (if first ∧ renderedText result.contentBlocks = result.text then Replay.message
        else .never).Holds turn anchor left again now := by
  rw [resent_message_iff status calls found, text, step_id]
  cases first with
  | true =>
      rw [is_reply rfl]
      simp only [true_and, Step.content, Option.some.injEq]
      by_cases rendered : renderedText result.contentBlocks = result.text
      · rw [if_pos rendered, rendered]
        exact ⟨fun all => all.1, fun closed_now => ⟨closed_now, rfl, trivial⟩⟩
      · rw [if_neg rendered]
        exact ⟨fun all => rendered all.2.1.symm, False.elim⟩
  | false =>
      simp only [Bool.false_eq_true, false_and, if_false]
      refine ⟨fun all => ?_, False.elim⟩
      exact Nat.ne_of_lt (is_earlier rfl) (Option.some.inj all.2.2).symm

/-- The response of a continuation is found again exactly as `loopReplay` tells. -/
theorem resent_loop_iff {left calls : Nat} {now : World} {again : Surroundings}
    {serverTools : List ServerToolExecutionOut} {out : ChatRunOut} (sound : world.chat.Sound)
    (known : turn < world.chat.next) (closed : world.chat.pendingCalls turn = [])
    (recorded : ∃ step ∈ world.chat.turnSteps turn, step.answers anchor)
    (fresh : first = true → world.chat.nextStepAfter turn anchor = none)
    (stored : first = false → ∃ step, world.chat.nextStepAfter turn anchor = some step ∧
      step.seq < world.chat.next)
    (answered : (generateLoop settings near plan turn left calls world serverTools).response =
      .ok out)
    (kept : Kept turn (generateLoop settings near plan turn left calls world serverTools).world.chat
      now.chat) :
    Resent turn anchor again now out ↔
      (loopReplay settings near plan turn left calls world serverTools first).Holds turn anchor
        (generateLoop settings near plan turn left calls world
          serverTools).world.chat again now := by
  induction left generalizing calls world serverTools first with
  | zero => cases answered
  | succ left induction =>
      cases created : createMessage settings.loads (near.reply calls) with
      | error failure =>
          simp only [generateLoop, loopReplay, created] at answered kept ⊢
          by_cases rejected : failure = .unauthorized ∧ world.chat.mode = .byok
          · simp only [if_pos rejected] at answered kept ⊢
            cases Except.ok.inj answered
            exact resent_refusal_iff .byokInvalid recorded stored kept
          · simp only [if_neg rejected] at answered
            cases answered
      | ok result =>
          simp only [generateLoop, loopReplay, created, absorb] at answered kept ⊢
          obtain ⟨step, found, is_reply, is_earlier⟩ := stored_after_reply sound.numbered recorded
            fresh stored result.contentBlocks result.usage
          have recorded_after := (Grown.addStep sound.numbered turn turn
            (.assistant result.contentBlocks) result.usage).recorded recorded
          have step_below : step.seq < world.chat.next + 1 := by
            cases first with
            | true =>
                rw [is_reply rfl]
                exact Nat.lt_succ_self _
            | false => exact Nat.lt_succ_of_lt (is_earlier rfl)
          by_cases truncated : result.stopReason = .maxTokens
          · simp only [if_pos truncated, handleMaxTokens] at answered kept ⊢
            refine iff_of_false (not_resent_of_blocked ?_
              (kept.grown.nextStepAfter recorded_after found)) id
            rw [← Except.ok.inj answered]
          simp only [if_neg truncated] at answered kept ⊢
          by_cases tools : result.stopReason = .toolUse ∧ !result.toolUses.isEmpty
          · simp only [if_pos tools] at answered kept ⊢
            have saved_sound := sound.addStep turn (.assistant result.contentBlocks) result.usage
            obtain ⟨failure, raised⟩ | ⟨chat, executed, handled, continues⟩ |
                ⟨chat, outs, executed, handled, some_out, handed_out, ended, status, text, calls,
                  step_id⟩ := handleToolUse_cases settings near turn result serverTools world
            · simp only [raised] at answered
              cases answered
            · have written := handleToolUses_written handled
              have grown := written.grown turn saved_sound.numbered
              obtain ⟨pending, -⟩ := handed_pending sound closed handled
              simp only [continues] at answered kept ⊢
              refine @induction _ false _ _
                (written.sound saved_sound (Nat.lt_succ_of_lt known))
                (Nat.lt_of_lt_of_le (Nat.lt_succ_of_lt known) grown.next) ?_
                (grown.recorded recorded_after)
                (fun is_first => absurd is_first Bool.false_ne_true) (fun _ => ?_) answered kept
              · exact List.map_eq_nil_iff.mp pending
              · exact ⟨step, grown.nextStepAfter recorded_after found,
                  Nat.lt_of_lt_of_le step_below grown.next⟩
            · obtain ⟨pending, latest⟩ := handed_pending sound closed handled
              have some_pending : chat.pendingCalls turn ≠ [] := by
                intro none_pending
                rw [none_pending] at pending
                exact some_out pending.symm
              have numbered := (handleToolUses_written handled).numbered saved_sound.numbered
              simp only [ended] at answered kept ⊢
              cases Except.ok.inj answered
              rw [resent_handed_iff numbered kept status (calls.trans pending.symm) some_pending
                (step_id.trans latest.symm), text]
              split
              next no_text => exact ⟨fun both => both.2, fun waiting => ⟨rfl, waiting⟩⟩
              next some_text =>
                refine ⟨fun both => ?_, False.elim⟩
                cases both.1
          · simp only [if_neg tools] at answered kept ⊢
            obtain ⟨short, ended⟩ | ⟨funded, ⟨failure, raised⟩ |
                ⟨after, message, ended, same, status, text, calls, step_id⟩⟩ :=
              finalizeAssistant_cases settings near plan turn result serverTools world
            · simp only [ended, short, if_true] at answered kept ⊢
              cases Except.ok.inj answered
              exact resent_refusal_iff .creditsEmpty recorded stored kept
            · simp only [raised] at answered
              cases answered
            · simp only [ended, funded, Bool.false_eq_true, if_false] at answered kept ⊢
              cases Except.ok.inj answered
              rw [same] at kept
              exact resent_reply_iff (kept.grown.nextStepAfter recorded_after found) is_reply
                is_earlier status calls text step_id

end Loop

@[simp] theorem Attempt.reconcile_response (claimed : Bool) (attempt : Attempt) :
    (attempt.reconcile claimed).response = attempt.response := by
  rw [Attempt.reconcile]
  split <;> rfl

@[simp] theorem Attempt.reconcile_chat (claimed : Bool) (attempt : Attempt) :
    (attempt.reconcile claimed).world.chat = attempt.world.chat := by
  rw [Attempt.reconcile]
  split <;> rfl

theorem allAlreadyDoneBefore_of_closed {chat applied : Session}
    {resolved : List (ToolResultIn × ToolCall)} (grown : Grown turn chat applied)
    (applied_sound : applied.Sound) (closed : applied.pendingCalls turn = [])
    (rows : ∀ entry ∈ resolved, entry.2 ∈ chat.toolCalls ∧ entry.2.messageStepId = turn) :
    allAlreadyDoneBefore applied resolved = true := by
  rw [allAlreadyDoneBefore, List.all_eq_true]
  intro entry member
  obtain ⟨stored, own⟩ := rows entry member
  obtain ⟨done, done_member, later⟩ := grown.kept entry.2 stored own
  rw [← later.id, applied_sound.numbered.getToolCall_eq done_member]
  simpa using applied_sound.done_of_closed closed done_member (later.turn.trans own)

/-- The response of a first request is found again exactly as `replayOf` tells. -/
theorem resent_iff {world now : World} {again : Surroundings} {results : List ToolResultIn}
    {item : ToolResultIn} {row : ToolCall} {later : List (ToolResultIn × ToolCall)}
    {out : ChatRunOut} (sound : world.chat.Sound)
    (resolves : resolve world.chat none results = .ok ((item, row) :: later))
    (answered : (toolResult settings near world results).response = .ok out)
    (kept : Kept row.messageStepId (toolResult settings near world results).world.chat now.chat) :
    Resent row.messageStepId row.id again now out ↔
      (replayOf settings near world results).Holds row.messageStepId row.id
        (toolResult settings near world results).world.chat again now := by
  have stored := (resolved_rows resolves _ (List.mem_cons_self ..)).1
  have known := sound.turns row stored
  have written := applied_written sound.numbered resolves
  have applied_sound := written.sound sound known
  obtain ⟨failure, rejected⟩ | ⟨_, _, _, again_resolves, stage⟩ :=
    toolResult_cases settings near world results
  · rw [rejected] at answered
    cases answered
  rw [resolves] at again_resolves
  cases again_resolves
  obtain ⟨waiting, ended⟩ | ⟨closed, rest⟩ := stage
  · rw [ended] at answered kept ⊢
    cases Except.ok.inj answered
    have not_empty : ¬ ((world.applied row.messageStepId ((item, row) :: later)).chat.pendingCalls
        row.messageStepId).isEmpty := fun empty => waiting (List.isEmpty_iff.mp empty)
    rw [replayOf, resolves]
    simp only [if_neg not_empty]
    rw [resent_handed_iff applied_sound.numbered kept rfl rfl waiting rfl]
    exact ⟨fun both => both.2, fun holds => ⟨rfl, holds⟩⟩
  -- The barrier is closed, so the first call of the batch is done and has its tool step.
  have recorded : ∃ step ∈ (world.applied row.messageStepId ((item, row) :: later)).chat.turnSteps
      row.messageStepId, step.answers row.id := by
    obtain ⟨done, done_member, grown⟩ :=
      (written.grown row.messageStepId sound.numbered).kept row stored rfl
    have own := grown.turn
    have finished := applied_sound.done_of_closed closed done_member own
    obtain ⟨step, member, answers⟩ := applied_sound.recorded done done_member finished
    rw [own] at member
    rw [grown.id] at answers
    exact ⟨step, member, answers⟩
  rw [replayOf, resolves]
  simp only [closed, List.isEmpty_nil, if_true]
  obtain ⟨saved, replayed, ended⟩ | ⟨unsaved, continues⟩ := rest
  · rw [ended] at answered kept ⊢
    cases Except.ok.inj answered
    have found := Option.filter_eq_some_iff.mp replayed
    simp only [replayed]
    rw [resent_message_iff rfl rfl (kept.grown.nextStepAfter recorded found.1)]
    exact ⟨fun all => all.1, fun closed_now => ⟨closed_now, rfl, rfl⟩⟩
  · rw [continues, continueTurn] at answered kept ⊢
    simp only [unsaved]
    split at answered
    next reason gate =>
      cases Except.ok.inj answered
      simp only [gate] at kept ⊢
      exact resent_blocked_iff _ reason
    next gate =>
      simp only [gate] at kept ⊢
      rw [generate] at answered kept ⊢
      split at answered
      · cases answered
      next usable =>
        simp only [if_neg usable, Attempt.reconcile_response, Attempt.reconcile_chat]
          at answered kept ⊢
        have all_done := allAlreadyDoneBefore_of_closed
          (written.grown row.messageStepId sound.numbered) applied_sound closed
          fun entry member =>
            ⟨(resolved_rows resolves entry member).1, (resolved_rows resolves entry member).2.2⟩
        have nothing_behind : (world.applied row.messageStepId ((item, row) ::
            later)).chat.nextStepAfter row.messageStepId row.id = none := by
          rw [replayedStep, World.applied, all_done] at unsaved
          cases found : Session.nextStepAfter _ row.messageStepId row.id with
          | none => rfl
          | some saved =>
              rw [World.applied] at found
              rw [found] at unsaved
              cases unsaved
        exact resent_loop_iff applied_sound
          (Nat.lt_of_lt_of_le known (written.grown 0 sound.numbered).next) closed recorded
          (fun _ => nothing_behind) (fun is_later => absurd is_later.symm Bool.false_ne_true)
          answered kept

theorem applied_done {chat : Session} {resolved : List (ToolResultIn × ToolCall)} (turn : Nat)
    (rows : ∀ entry ∈ resolved, ∀ stored ∈ chat.toolCalls, stored.id = entry.2.id →
      stored.status = .pending → entry.2.status = .pending) :
    ∀ entry ∈ resolved, ∀ stored ∈ (applyToolResults turn resolved chat).toolCalls,
      stored.id = entry.2.id → stored.status ≠ .pending := by
  induction resolved generalizing chat with
  | nil => exact List.forall_mem_nil _
  | cons first later induction =>
      intro entry member stored stored_member same pending
      rw [applyToolResults] at stored_member
      have earlier := pending_of_applyToolResults stored_member pending
      rcases List.mem_cons.mp member with rfl | found
      · split at earlier
        next to_apply =>
          rw [applyToolResult] at earlier
          split at earlier
          next some_pending =>
            obtain ⟨row, row_member, rfl⟩ := List.mem_map.mp earlier
            rw [Session.markToolCall_id] at same
            rw [Session.markToolCall] at pending
            split at pending
            · exact resultStatus_ne_pending entry.1 pending
            next other => exact other ⟨same, pending⟩
          next none_pending =>
            exact none_pending (List.any_eq_true.mpr ⟨stored, earlier, by simp [same, pending]⟩)
        next skipped =>
          exact skipped (rows entry (List.mem_cons_self ..) stored earlier same pending)
      · refine induction
          (fun other other_member row row_member same_row row_pending => ?_) entry found
          stored stored_member same pending
        have in_chat : row ∈ chat.toolCalls := by
          split at row_member
          · exact pending_of_applyToolResult row_member row_pending
          · exact row_member
        exact rows other (List.mem_cons_of_mem _ other_member) row in_chat same_row row_pending

theorem done_of_answered {world : World} {results : List ToolResultIn} {item : ToolResultIn}
    {row : ToolCall} {later : List (ToolResultIn × ToolCall)} {out : ChatRunOut}
    (sound : world.chat.Sound)
    (resolves : resolve world.chat none results = .ok ((item, row) :: later))
    (answered : (toolResult settings near world results).response = .ok out) :
    ∀ entry ∈ results, ∃ stored ∈ (toolResult settings near world results).world.chat.toolCalls,
      stored.id = entry.toolCallId ∧ stored.messageStepId = row.messageStepId ∧
        stored.status ≠ .pending := by
  have known := sound.turns row (resolved_rows resolves _ (List.mem_cons_self ..)).1
  have written := applied_written sound.numbered resolves
  have applied_sound := written.sound sound known
  have all_done := applied_done row.messageStepId
    fun entry member stored stored_member same pending => by
      rw [← sound.numbered.row_unique stored_member (resolved_rows resolves entry member).1 same]
      exact pending
  have applied_rows : ∀ entry ∈ results, ∃ stored ∈ (applyToolResults row.messageStepId
      ((item, row) :: later) world.chat).toolCalls, stored.id = entry.toolCallId ∧
        stored.messageStepId = row.messageStepId ∧ stored.status ≠ .pending := by
    intro entry member
    rw [← (resolve_ok resolves).1] at member
    obtain ⟨named, named_member, rfl⟩ := List.mem_map.mp member
    obtain ⟨stored, same_id, own⟩ := resolved_rows resolves named named_member
    obtain ⟨done, done_member, grown⟩ :=
      (written.grown row.messageStepId sound.numbered).kept named.2 stored own
    exact ⟨done, done_member, grown.id.trans same_id, grown.turn.trans own,
      all_done named named_member done done_member grown.id⟩
  obtain ⟨failure, rejected⟩ | ⟨_, _, _, again_resolves, stage⟩ :=
    toolResult_cases settings near world results
  · rw [rejected] at answered
    cases answered
  rw [resolves] at again_resolves
  cases again_resolves
  obtain ⟨-, ended⟩ | ⟨-, ⟨saved, -, ended⟩ | ⟨-, continues⟩⟩ := stage
  · rw [ended]
    exact applied_rows
  · rw [ended]
    exact applied_rows
  · rw [continues, continueTurn] at answered ⊢
    split at answered
    next reason gate => exact applied_rows
    next gate =>
      rw [generate] at answered ⊢
      split at answered
      · cases answered
      next usable =>
        rw [if_neg usable, Attempt.reconcile_chat]
        intro entry member
        obtain ⟨stored, stored_member, same_id, own, done⟩ := applied_rows entry member
        have generated := generateLoop_written settings near
          (billingPlan (policyState near (world.applied row.messageStepId ((item, row) :: later)))
            (world.applied row.messageStepId ((item, row) :: later)).chat.mode)
          row.messageStepId (settings.maxServerToolRounds + 1) 0
          (world.applied row.messageStepId ((item, row) :: later)) []
        obtain ⟨kept, kept_member, grown⟩ :=
          (generated.grown row.messageStepId applied_sound.numbered).kept stored stored_member own
        refine ⟨kept, kept_member, grown.id.trans same_id, grown.turn.trans own, fun pending => ?_⟩
        have unchanged := grown.pending pending
        rw [unchanged] at pending
        exact done pending

end First

theorem Session.created_sound (mode : Policy.Mode) (hasProject : Bool) :
    ({ mode, hasProject } : Session).Sound where
  numbered := ⟨.nil, List.forall_mem_nil _, .nil, List.forall_mem_nil _⟩
  client := List.forall_mem_nil _
  recorded := List.forall_mem_nil _
  turns := List.forall_mem_nil _

theorem sound_of_reachable {settings : Settings} {mode : Policy.Mode} {hasProject trialUsed : Bool}
    {account : Wallet.Account} {world : World}
    (reached : Reachable (perform settings) (fun _ _ => True)
      ⟨{ mode, hasProject }, trialUsed, account⟩ world) : world.chat.Sound := by
  apply reached.invariant (fun world => world.chat.Sound)
  · exact Session.created_sound mode hasProject
  · intro before operation after before_sound _ performed
    cases performed
    exact attempt_sound settings before_sound operation

/-- A batch which was answered is answered the same way when it is sent again, without a provider
call, a debit or a new step, exactly when the calls of its turn are still there and what its first
request came to is found again. -/
theorem resend_faithful_iff (settings : Settings) (mode : Policy.Mode) (hasProject : Bool)
    (trialUsed : Bool) (account : Wallet.Account) (world now : World)
    (near again : Surroundings) (results : List ToolResultIn) (item : ToolResultIn)
    (row : ToolCall) (later : List (ToolResultIn × ToolCall)) (out : ChatRunOut)
    (reached : Reachable (perform settings) (fun _ _ => True)
      ⟨{ mode, hasProject }, trialUsed, account⟩ world)
    (resolves : resolve world.chat none results = .ok ((item, row) :: later))
    (answered : (toolResult settings near world results).response = .ok out)
    (since : Reachable (perform settings) (fun _ _ => True)
      (toolResult settings near world results).world now) :
    Faithful out now (toolResult settings again now results) ↔
      now.chat.listToolCallsForStep row.messageStepId ≠ [] ∧
        (replayOf settings near world results).Holds row.messageStepId row.id
          (toolResult settings near world results).world.chat again now := by
  have sound := sound_of_reachable reached
  have first_sound : (toolResult settings near world results).world.chat.Sound :=
    attempt_sound settings sound (.toolResult near results)
  have done := done_of_answered sound resolves answered
  have items := (resolve_ok resolves).1
  have listed : item ∈ results := items ▸ List.mem_cons_self ..
  have head : results.head? = some item := by rw [← items]; rfl
  have anchored := (resolved_rows resolves _ (List.mem_cons_self ..)).2.1.symm
  obtain ⟨anchor, anchor_member, anchor_id, anchor_turn, -⟩ := done item listed
  obtain ⟨now_sound, earlier, kept | gone⟩ := turn_of_reachable first_sound
    (anchor_turn ▸ first_sound.turns anchor anchor_member) since
  · have now_done : ∀ entry ∈ results, ∃ stored ∈ now.chat.toolCalls,
        stored.id = entry.toolCallId ∧ stored.messageStepId = row.messageStepId ∧
          stored.status ≠ .pending := by
      intro entry member
      obtain ⟨stored, stored_member, same_id, own, finished⟩ := done entry member
      obtain ⟨current, current_member, grown⟩ := kept.grown.kept stored stored_member own
      refine ⟨current, current_member, grown.id.trans same_id, grown.turn.trans own,
        fun pending => ?_⟩
      have unchanged := grown.pending pending
      rw [unchanged] at pending
      exact finished pending
    have there : now.chat.listToolCallsForStep row.messageStepId ≠ [] := by
      obtain ⟨stored, stored_member, -, own, -⟩ := now_done item listed
      exact List.ne_nil_of_mem (List.mem_filter.mpr ⟨stored_member, beq_iff_eq.mpr own⟩)
    rw [faithful_iff_resent now_sound head anchored now_done,
      resent_iff sound resolves answered kept]
    exact ⟨fun holds => ⟨there, holds⟩, And.right⟩
  · refine iff_of_false ?_ fun both => both.1 gone
    have absent : now.chat.getToolCall item.toolCallId = none := by
      cases found : now.chat.getToolCall item.toolCallId with
      | none => rfl
      | some current =>
          obtain ⟨current_member, current_id⟩ := Session.getToolCall_mem found
          have below : current.id < (toolResult settings near world results).world.chat.next := by
            rw [current_id, ← anchor_id]
            exact first_sound.numbered.calls_below anchor anchor_member
          obtain ⟨old, old_member, old_id, old_turn⟩ := earlier current current_member below
          have same := first_sound.numbered.row_unique old_member anchor_member
            (old_id.trans (current_id.trans anchor_id.symm))
          have in_turn : current.messageStepId = row.messageStepId := by
            rw [← old_turn, same, anchor_turn]
          have member : current ∈ now.chat.listToolCallsForStep row.messageStepId :=
            List.mem_filter.mpr ⟨current_member, beq_iff_eq.mpr in_turn⟩
          rw [gone] at member
          cases member
    intro faithful
    obtain ⟨second, response, -⟩ := faithful.response
    cases results with
    | nil => cases listed
    | cons first others =>
        cases Option.some.inj head
        rw [toolResult, resolve, absent] at response
        cases response

namespace Sample

/-- A round with one call for the client, in each provider's format. -/
def anthropicCall : Reply :=
  .anthropic (some "tool_use") [.text "Let me look.", .toolUse "toolu_1" "files_read" (.obj [])]
    usage

def openaiCall : Reply := .openai (some "tool_calls") none [⟨"call_1", "files_read", ""⟩] usage

def openaiText : Reply := .openai (some "stop") (some "done") [] usage

/-- The chat once the call is handed out. -/
def handed (call : Reply) : World := (run settings (near call) start (message "read it")).world

/-- The client's result. -/
def result : ToolResultIn := ⟨3, some (.obj []), none⟩

theorem handed_reached (call : Reply) :
    Reachable (perform settings) (fun _ _ => True) start (handed call) :=
  .next .start trivial (show perform settings start (.run (near call) (message "read it")) =
    some (handed call) from rfl)

/-- A final text in typed blocks is replayed as it was. -/
theorem typed_text_replayed :
    ∃ out,
      (toolResult settings (near finalText) (handed anthropicCall) [result]).response = .ok out ∧
      out.assistantMessage = some "done" ∧
      Faithful out (toolResult settings (near finalText) (handed anthropicCall) [result]).world
        (toolResult settings (near finalText)
          (toolResult settings (near finalText) (handed anthropicCall) [result]).world
          [result]) := by
  refine ⟨_, rfl, rfl, ?_⟩
  refine (resend_faithful_iff settings .byok false false _ (handed anthropicCall) _ (near finalText)
    (near finalText) [result] result _ [] _ (handed_reached anthropicCall) rfl rfl .start).mpr
    ⟨List.cons_ne_nil _ _, ?_⟩
  show Session.pendingCalls (toolResult settings (near finalText) (handed anthropicCall)
    [result]).world.chat 0 = []
  exact List.isEmpty_iff.mp (by decide)

/-- A final text of the other provider is replayed as the empty text. -/
theorem openai_text_lost :
    ¬ ∀ world now near again results out,
      Reachable (perform settings) (fun _ _ => True) start world →
      (toolResult settings near world results).response = .ok out →
      Reachable (perform settings) (fun _ _ => True) (toolResult settings near world results).world
        now →
      Faithful out now (toolResult settings again now results) := by
  intro all
  obtain ⟨second, response, same⟩ := (all (handed openaiCall) _ (near openaiText) (near openaiText)
    [result] _ (handed_reached openaiCall) rfl .start).response
  have text := same.text
  rw [← Except.ok.inj response] at text
  revert text
  decide

end Sample

end Hermes.Chat
