import Hermes.Chat.History
import Hermes.Library.Answering
import Hermes.Library.Transition

/-!
# Conversations are well formed

Between requests the calls which wait for a result are exactly the pending rows of `tool_calls`, in
order.  The history handed to the provider is therefore answered whenever no row is pending, which
is what the condition on the requests below secures.
-/

namespace Hermes.Chat

open Answering (Answered Event settle)

/-- The ids of the tool calls in an entry of an assistant message. -/
def Block.callIds : Block → List String
  | .typed (.toolUse id _ _) => [id]
  | .typed _ => []
  | .message _ toolCalls => toolCalls.map (·.id)

/-- The ids of the tool calls of an assistant message. -/
def callIds (content : List Block) : List String := content.flatMap (·.callIds)

/-- The part of a message which tool calls and their results play. -/
def NeutralMessage.event : NeutralMessage → Event String
  | .user _ => .calls []
  | .assistant content => .calls (callIds content)
  | .tool record => .result record.providerToolUseId

/-- Every tool call of an assistant message is answered by exactly one tool result with the same id
before the next user or assistant message, and no tool result appears without its call. -/
def WellFormed (messages : List NeutralMessage) : Prop := Answered (messages.map (·.event))

instance (messages : List NeutralMessage) : Decidable (WellFormed messages) :=
  inferInstanceAs (Decidable (Answered _))

/-! ## Replies -/

def Reply.callIds : Reply → List String
  | .anthropic _ content _ => Chat.callIds (content.map .typed)
  | .openai _ _ toolCalls _ => toolCalls.map (·.id)
  | _ => []

def Reply.stopsForTools : Reply → Bool
  | .anthropic stopReason _ _ => stopReason == some "tool_use"
  | .openai finishReason _ _ _ => finishReason == some "tool_calls"
  | _ => false

/-- A reply names different calls, and none unless it stops for them. -/
structure Reply.Orderly (reply : Reply) : Prop where
  distinct : reply.callIds.Nodup
  stopped : reply.stopsForTools = false → reply.callIds = []

theorem anthropicToolUses_ids {content : List TypedBlock} {uses : List ToolUse}
    (parsed : anthropicToolUses content = .ok uses) :
    callIds (content.map .typed) = uses.map (·.id) := by
  induction content generalizing uses with
  | nil =>
      cases parsed
      rfl
  | cons block later induction =>
      cases block with
      | toolUse id name input =>
          simp only [anthropicToolUses] at parsed
          split at parsed
          · cases parsed
          next tool known =>
            obtain ⟨rest, rest_parsed, same⟩ := except_bind_eq_ok parsed
            cases same
            rw [List.map_cons, List.map_cons, ← induction rest_parsed]
            rfl
      | text said => exact induction parsed
      | other type => exact induction parsed

theorem openaiToolUses_ids {loads : String → Option Json} {toolCalls : List FunctionCall}
    {uses : List ToolUse} (parsed : openaiToolUses loads toolCalls = .ok uses) :
    toolCalls.map (·.id) = uses.map (·.id) := by
  induction toolCalls generalizing uses with
  | nil =>
      cases parsed
      rfl
  | cons call later induction =>
      simp only [openaiToolUses] at parsed
      split at parsed
      · cases parsed
      split at parsed
      · cases parsed
      · obtain ⟨rest, rest_parsed, same⟩ := except_bind_eq_ok parsed
        cases same
        rw [List.map_cons, List.map_cons, induction rest_parsed]
      · cases parsed

/-- The client keeps the calls of a reply, and their stop reason. -/
theorem createMessage_calls {loads : String → Option Json} {reply : Reply} {result : LLMResult}
    (created : createMessage loads reply = .ok result) :
    callIds result.contentBlocks = reply.callIds ∧
      result.toolUses.map (·.id) = reply.callIds ∧
      (result.stopReason = .toolUse ↔ reply.stopsForTools = true) := by
  cases reply with
  | anthropic stopReason content usage =>
      obtain ⟨uses, parsed, same⟩ := except_bind_eq_ok created
      cases same
      refine ⟨rfl, (anthropicToolUses_ids parsed).symm, ?_⟩
      simp only [anthropicStopReason, Reply.stopsForTools]
      split <;> simp_all
  | openai finishReason content toolCalls usage =>
      obtain ⟨uses, parsed, same⟩ := except_bind_eq_ok created
      cases same
      refine ⟨by simp [callIds, Block.callIds, Reply.callIds],
        (openaiToolUses_ids parsed).symm, ?_⟩
      simp only [openaiStopReason, Reply.stopsForTools]
      split <;> simp_all
  | unauthorized => cases created
  | unavailable message => cases created
  | interrupted => cases created

/-! ## Coherent chats -/

namespace Session

/-- The provider ids of the pending calls, in order. -/
def waiting (chat : Session) : List String :=
  (chat.toolCalls.filter fun row => row.status == .pending).map (·.providerToolUseId)

def events (chat : Session) : List (Event String) := chat.buildMessages.map (·.event)

/-- The turn has a step behind every user step. -/
def Current (chat : Session) (turn : Nat) : Prop :=
  ∀ user ∈ chat.steps, user.isUser → ∃ step ∈ chat.steps,
    step.messageStepId = turn ∧ user.seq < step.seq

/-- The calls waiting in the history are the pending rows, and after them those in `later`, which
have no row yet. -/
structure Coherent (chat : Session) (later : List String) : Prop where
  numbered : chat.Numbered
  settled : settle [] chat.events = some (chat.waiting ++ later)
  client : ∀ row ∈ chat.toolCalls, row.status = .pending → row.toolName.clientSide
  current : ∀ row ∈ chat.toolCalls, row.status = .pending → chat.Current row.messageStepId

variable {chat : Session}

theorem Numbered.events_addStep (numbered : chat.Numbered) (turn : Nat) (payload : Payload)
    (usage : Option Usage) :
    (chat.addStep turn payload usage).events =
      chat.events ++ [(Step.message ⟨chat.next, turn, payload, usage⟩).event] := by
  rw [events, buildMessages, numbered.addStep_steps, List.map_append, List.map_append]
  rfl

theorem waiting_addStep (turn : Nat) (payload : Payload) (usage : Option Usage) :
    (chat.addStep turn payload usage).waiting = chat.waiting := rfl

/-- A turn stays current while steps other than user steps are added. -/
theorem Numbered.current_addStep (numbered : chat.Numbered) {turn : Nat} {payload : Payload}
    (own : Nat) (usage : Option Usage) (reply : ∀ content, payload ≠ .user content)
    (current : chat.Current turn) : (chat.addStep own payload usage).Current turn := by
  intro user member is_user
  rw [numbered.addStep_steps] at member ⊢
  rcases List.mem_append.mp member with earlier | last
  · obtain ⟨step, step_member, same, behind⟩ := current user earlier is_user
    exact ⟨step, List.mem_append_left _ step_member, same, behind⟩
  · rw [List.mem_singleton.mp last] at is_user
    cases payload with
    | user content => exact absurd rfl (reply content)
    | assistant content => cases is_user
    | tool record => cases is_user

theorem Numbered.current_own (numbered : chat.Numbered) (turn : Nat) {payload : Payload}
    (usage : Option Usage) (reply : ∀ content, payload ≠ .user content) :
    (chat.addStep turn payload usage).Current turn := by
  intro user member is_user
  rw [numbered.addStep_steps] at member ⊢
  rcases List.mem_append.mp member with earlier | last
  · exact ⟨_, List.mem_append_right _ (List.mem_singleton.mpr rfl), rfl,
      numbered.below user earlier⟩
  · rw [List.mem_singleton.mp last] at is_user
    cases payload with
    | user content => exact absurd rfl (reply content)
    | assistant content => cases is_user
    | tool record => cases is_user

theorem no_pending_of_waiting (none_waiting : chat.waiting = []) :
    ∀ row ∈ chat.toolCalls, row.status ≠ .pending := by
  intro row member pending
  have listed : row ∈ chat.toolCalls.filter fun row => row.status == .pending :=
    List.mem_filter.mpr ⟨member, by simp [pending]⟩
  rw [List.map_eq_nil_iff.mp none_waiting] at listed
  cases listed

theorem waiting_of_no_pending (chat : Session)
    (none_pending : ∀ row ∈ chat.toolCalls, row.status ≠ .pending) :
    chat.waiting = [] := by
  rw [waiting, List.filter_eq_nil_iff.mpr fun row member => by simpa using none_pending row member]
  rfl

theorem Coherent.wellFormed (coherent : chat.Coherent []) (none_waiting : chat.waiting = []) :
    WellFormed chat.buildMessages := by
  rw [WellFormed, Answering.answered_iff_settle]
  have settled := coherent.settled
  rw [none_waiting] at settled
  exact settled

/-! ### The writes of a request -/

theorem Coherent.begin (coherent : chat.Coherent []) (none_waiting : chat.waiting = [])
    (request : RunRequest) : (request.begin chat).Coherent [] where
  numbered := coherent.numbered.skip.addStep ..
  settled := by
    have settled := coherent.settled
    rw [none_waiting] at settled
    have still : (request.begin chat).waiting = [] := none_waiting
    rw [still, RunRequest.begin, coherent.numbered.skip.events_addStep]
    exact (Answering.settle_concat settled).trans (Answering.settle_calls_nil List.nodup_nil)
  client := fun row member pending =>
    absurd pending (no_pending_of_waiting none_waiting row member)
  current := fun row member pending =>
    absurd pending (no_pending_of_waiting none_waiting row member)

theorem Coherent.assistant (coherent : chat.Coherent []) (none_waiting : chat.waiting = [])
    {content : List Block} (distinct : (callIds content).Nodup) (turn : Nat)
    (usage : Option Usage) :
    (chat.addStep turn (.assistant content) usage).Coherent (callIds content) where
  numbered := coherent.numbered.addStep ..
  settled := by
    have settled := coherent.settled
    rw [none_waiting] at settled
    rw [coherent.numbered.events_addStep, Answering.settle_concat settled, waiting_addStep,
      none_waiting]
    exact Answering.settle_calls_nil distinct
  client := fun row member pending =>
    absurd pending (no_pending_of_waiting none_waiting row member)
  current := fun row member pending =>
    absurd pending (no_pending_of_waiting none_waiting row member)

theorem Coherent.createToolCall {providerId : String} {later : List String}
    (coherent : chat.Coherent (providerId :: later)) {turn : Nat} {tool : Tool}
    (client : tool.clientSide) (current : chat.Current turn) (args : Json) :
    (chat.createToolCall turn tool providerId args).Coherent later where
  numbered := coherent.numbered.createToolCall ..
  settled := by
    have waiting_created : (chat.createToolCall turn tool providerId args).waiting =
        chat.waiting ++ [providerId] := by
      rw [waiting, Session.createToolCall, List.filter_append, List.map_append]
      rfl
    rw [waiting_created, List.append_assoc]
    exact coherent.settled
  client := by
    intro row member pending
    rcases List.mem_append.mp member with earlier | last
    · exact coherent.client row earlier pending
    · rw [List.mem_singleton.mp last]
      exact client
  current := by
    intro row member pending
    rcases List.mem_append.mp member with earlier | last
    · exact coherent.current row earlier pending
    · rw [List.mem_singleton.mp last]
      exact current

theorem Coherent.finishServerSide {use : ToolUse} {later : List String}
    (coherent : chat.Coherent (use.id :: later)) (turn : Nat) (args : Json)
    (execution : ToolExecution) :
    (finishServerSide turn chat.next use execution
      (chat.createToolCall turn use.name use.id args)).Coherent later := by
  have rows := coherent.numbered.finishServerSide_toolCalls turn use args execution
  have finished := execution.status_ne_pending
  have created := coherent.numbered.createToolCall turn use.name use.id args
  have completed := fun status result => created.completeToolCall chat.next status result
  have same_waiting : (Chat.finishServerSide turn chat.next use execution
      (chat.createToolCall turn use.name use.id args)).waiting = chat.waiting := by
    rw [waiting, rows, List.filter_append, List.filter_cons, if_neg (by simpa using finished),
      List.filter_nil, List.append_nil]
    rfl
  have distinct : (chat.waiting ++ use.id :: later).Nodup :=
    Answering.settle_nodup List.nodup_nil coherent.settled
  have absent : use.id ∉ chat.waiting := fun member =>
    List.disjoint_of_nodup_append distinct member (List.mem_cons_self ..)
  have pending_earlier : ∀ row ∈ chat.toolCalls ++ [⟨chat.next, turn, use.name, use.id, args,
      execution.status, some execution.toToolResultPayload⟩], row.status = .pending →
      row ∈ chat.toolCalls := by
    intro row member pending
    rcases List.mem_append.mp member with earlier | last
    · exact earlier
    · rw [List.mem_singleton.mp last] at pending
      exact absurd pending finished
  exact {
    numbered := (completed _ _).addStep ..
    settled := by
      rw [same_waiting, Chat.finishServerSide, (completed _ _).events_addStep]
      refine (Answering.settle_concat coherent.settled).trans ?_
      change (Event.result use.id).settle _ = _
      rw [Answering.settle_result (List.mem_append_right _ (List.mem_cons_self ..)),
        List.erase_append_right _ absent, List.erase_cons_head]
    client := by
      rw [rows]
      exact fun row member pending =>
        coherent.client row (pending_earlier row member pending) pending
    current := by
      rw [rows]
      intro row member pending
      exact (completed _ _).current_addStep _ _ (fun _ => nofun)
        (coherent.current row (pending_earlier row member pending) pending) }

theorem waiting_mark {rows : List ToolCall} {stored : ToolCall} (member : stored ∈ rows)
    (pending : stored.status = .pending)
    (distinct : rows.Pairwise fun first second => first.id ≠ second.id)
    (provider_distinct : ((rows.filter fun row => row.status == .pending).map
      (·.providerToolUseId)).Nodup)
    {status : ToolCallStatus} (done : status ≠ .pending) (result : Option Json) :
    ((rows.map (markToolCall stored.id status result)).filter fun row =>
        row.status == .pending).map (·.providerToolUseId) =
      ((rows.filter fun row => row.status == .pending).map (·.providerToolUseId)).erase
        stored.providerToolUseId := by
  induction rows with
  | nil => cases member
  | cons first later induction =>
      obtain ⟨apart, later_distinct⟩ := List.pairwise_cons.mp distinct
      by_cases here : first = stored
      · subst here
        have others : ∀ row ∈ later, markToolCall first.id status result row = row :=
          fun row row_member => markToolCall_of_ne _ _ (apart row row_member).symm
        rw [List.map_cons, List.map_congr_left others, List.map_id', List.filter_cons,
          List.filter_cons, if_neg (by simpa [markToolCall, pending] using done),
          if_pos (by simp [pending]), List.map_cons, List.erase_cons_head]
      · have later_member : stored ∈ later := by
          rcases List.mem_cons.mp member with same | found
          · exact absurd same.symm here
          · exact found
        have unmarked : markToolCall stored.id status result first = first :=
          markToolCall_of_ne _ _ (apart stored later_member)
        rw [List.map_cons, unmarked, List.filter_cons, List.filter_cons]
        rw [List.filter_cons] at provider_distinct
        split
        next first_pending =>
          rw [if_pos first_pending, List.map_cons, List.nodup_cons] at provider_distinct
          have listed : stored.providerToolUseId ∈
              (later.filter fun row => row.status == .pending).map (·.providerToolUseId) :=
            List.mem_map.mpr ⟨stored, List.mem_filter.mpr ⟨later_member, by simp [pending]⟩, rfl⟩
          have other : ¬ first.providerToolUseId == stored.providerToolUseId := by
            intro same
            rw [← eq_of_beq same] at listed
            exact provider_distinct.1 listed
          rw [List.map_cons, List.map_cons, List.erase_cons_tail other,
            induction later_member later_distinct provider_distinct.2]
        next first_done =>
          rw [if_neg first_done] at provider_distinct
          exact induction later_member later_distinct provider_distinct

theorem Coherent.applyToolResult (coherent : chat.Coherent []) (turn : Nat) (item : ToolResultIn)
    {row : ToolCall} (agrees : ∀ stored ∈ chat.toolCalls, stored.id = row.id →
      stored.providerToolUseId = row.providerToolUseId) :
    (applyToolResult turn item row chat).Coherent [] := by
  rw [Chat.applyToolResult]
  split
  next found =>
    obtain ⟨stored, member, both⟩ := List.any_eq_true.mp found
    obtain ⟨same_id, is_pending⟩ : stored.id = row.id ∧ stored.status = .pending := by
      simpa using both
    have settled := coherent.settled
    rw [List.append_nil] at settled
    have distinct : chat.waiting.Nodup := Answering.settle_nodup List.nodup_nil settled
    have listed : row.providerToolUseId ∈ chat.waiting := by
      rw [← agrees stored member same_id]
      exact List.mem_map.mpr ⟨stored, List.mem_filter.mpr ⟨member, by simp [is_pending]⟩, rfl⟩
    have finished := resultStatus_ne_pending item
    have completed := coherent.numbered.completeToolCall row.id
      (if item.error.isSome then .errored else .completed) (item.result.or item.error)
    have row_pending : ∀ done ∈ (chat.completeToolCall row.id
        (if item.error.isSome then .errored else .completed)
        (item.result.or item.error)).toolCalls, done.status = .pending →
        done ∈ chat.toolCalls :=
      fun _ done_member => pending_of_completeToolCall finished done_member
    exact {
      numbered := completed.addStep ..
      settled := by
        rw [completed.events_addStep, waiting_addStep, List.append_nil]
        refine (Answering.settle_concat settled).trans ?_
        change (Event.result row.providerToolUseId).settle _ = _
        rw [Answering.settle_result listed, ← agrees stored member same_id, ← same_id]
        exact congrArg some (waiting_mark member is_pending coherent.numbered.distinct distinct
          finished _).symm
      client := fun done done_member done_pending =>
        coherent.client done (row_pending done done_member done_pending) done_pending
      current := fun done done_member done_pending =>
        completed.current_addStep _ _ (by rintro _ ⟨⟩)
          (coherent.current done (row_pending done done_member done_pending) done_pending) }
  · exact coherent

theorem Coherent.applyToolResults {resolved : List (ToolResultIn × ToolCall)}
    (coherent : chat.Coherent []) (turn : Nat)
    (agrees : ∀ entry ∈ resolved, ∀ stored ∈ chat.toolCalls, stored.id = entry.2.id →
      stored.providerToolUseId = entry.2.providerToolUseId) :
    (applyToolResults turn resolved chat).Coherent [] := by
  induction resolved generalizing chat with
  | nil => exact coherent
  | cons entry later induction =>
      rw [Chat.applyToolResults]
      split
      · refine induction (coherent.applyToolResult turn entry.1
          (agrees entry (List.mem_cons_self ..))) fun other member stored stored_member same => ?_
        obtain ⟨earlier, earlier_member, same_id, -, same_provider⟩ :=
          applyToolResult_rows turn entry.1 entry.2 stored_member
        rw [← same_provider]
        exact agrees other (List.mem_cons_of_mem _ member) earlier earlier_member
          (same_id.trans same)
      · exact induction coherent fun other member => agrees other (List.mem_cons_of_mem _ member)

theorem Coherent.truncate (coherent : chat.Coherent []) {turn : Nat} {after : Session}
    (truncated : chat.truncateFromMessageStep turn = some after) :
    after.Coherent [] ∧ after.waiting = [] := by
  have numbered := coherent.numbered.truncate truncated
  obtain ⟨kept, anchor, dropped, split, user, rfl⟩ := coherent.numbered.truncate_cases truncated
  have ascending := coherent.numbered.ascending
  rw [split, List.pairwise_append] at ascending
  -- A pending call belongs to a turn with a step behind the anchor, so its row goes as well.
  have none_pending : ∀ row ∈ chat.toolCalls.filter (fun row =>
      !(anchor :: dropped).any fun step => step.messageStepId == row.messageStepId),
      row.status ≠ .pending := by
    intro row member pending
    obtain ⟨row_member, kept_row⟩ := List.mem_filter.mp member
    obtain ⟨step, step_member, same, behind⟩ := coherent.current row row_member pending anchor
      (by rw [split]; exact List.mem_append_right _ (List.mem_cons_self ..)) user
    rw [split] at step_member
    rcases List.mem_append.mp step_member with before | after
    · exact absurd (ascending.2.2 step before anchor (List.mem_cons_self ..))
        (Nat.not_lt_of_gt behind)
    · rw [List.any_eq_true.mpr ⟨step, after, by simp [same]⟩] at kept_row
      cases kept_row
  have none_waiting :=
    waiting_of_no_pending { chat with steps := kept, toolCalls := _ } none_pending
  refine ⟨⟨numbered, ?_, fun row member pending => absurd pending (none_pending row member),
    fun row member pending => absurd pending (none_pending row member)⟩, none_waiting⟩
  rw [none_waiting]
  have settled := coherent.settled
  rw [events, buildMessages, split, List.map_append, List.map_append, List.map_cons,
    List.map_cons] at settled
  have opens : anchor.message.event = Event.calls [] := by
    rw [Step.isUser] at user
    rw [Step.message]
    cases payload : anchor.payload with
    | user content => rfl
    | assistant content => simp [payload] at user
    | tool record => simp [payload] at user
  rw [opens] at settled
  exact Answering.settled_before_calls settled

end Session

/-! ## Generation -/

section Generation

variable {settings : Settings} {near : Surroundings} {turn : Nat}

/-- The tool uses of a reply leave their calls waiting for the client, or answered. -/
theorem handleToolUses_coherent {uses : List ToolUse} {chat after : Session}
    {clientOuts outs : List ToolCallOut} {serverTools executed : List ServerToolExecutionOut}
    (coherent : chat.Coherent (uses.map (·.id))) (current : chat.Current turn)
    (handled : handleToolUses settings near turn uses chat clientOuts serverTools =
      .ok (after, outs, executed)) :
    after.Coherent [] ∧ ∃ handed, outs = clientOuts ++ handed ∧
      (handed = [] → after.waiting = chat.waiting) := by
  induction uses generalizing chat clientOuts serverTools with
  | nil =>
      cases handled
      exact ⟨coherent, [], (List.append_nil _).symm, fun _ => rfl⟩
  | cons use later induction =>
      obtain ⟨args, ⟨client, rest⟩ | ⟨server, execution, ran, rest⟩⟩ := handleToolUses_cons handled
      · obtain ⟨finished, handed, same, -⟩ :=
          induction (coherent.createToolCall client current args) current rest
        refine ⟨finished, _, same.trans (List.append_assoc ..), fun none_handed => ?_⟩
        exact absurd none_handed (List.cons_ne_nil _ _)
      · have created := coherent.numbered.createToolCall turn use.name use.id args
        have rows := coherent.numbered.finishServerSide_toolCalls turn use args execution
        obtain ⟨finished, handed, same, unchanged⟩ :=
          induction (coherent.finishServerSide turn args execution)
            ((created.completeToolCall ..).current_addStep _ _ (fun _ => nofun) current) rest
        refine ⟨finished, handed, same, fun none_handed => (unchanged none_handed).trans ?_⟩
        rw [Session.waiting, rows, List.filter_append, List.filter_cons,
          if_neg (by simpa using execution.status_ne_pending), List.filter_nil, List.append_nil]
        rfl

/-- A reply leaves the chat coherent, with nothing waiting when the provider is asked again. -/
theorem absorb_coherent (near : Surroundings) {world : World} {result : LLMResult} {reply : Reply}
    (coherent : world.chat.Coherent []) (none_waiting : world.chat.waiting = [])
    (created : createMessage settings.loads reply = .ok result) (orderly : reply.Orderly)
    (plan : BillingPlan) (turn : Nat) (serverTools : List ServerToolExecutionOut) :
    ((absorb settings near plan turn result serverTools world).chat world).Coherent [] ∧
      ∀ after executed, absorb settings near plan turn result serverTools world =
        .again after executed → after.chat.waiting = [] := by
  obtain ⟨content_ids, use_ids, stops⟩ := createMessage_calls created
  have saved : ∀ ids, ids = reply.callIds →
      (world.chat.addStep turn (.assistant result.contentBlocks) result.usage).Coherent ids := by
    rintro ids rfl
    rw [← content_ids]
    exact coherent.assistant none_waiting (content_ids ▸ orderly.distinct) turn _
  obtain ⟨failure, raised⟩ | blocked | ⟨no_tools, after, out, answered, same⟩ |
      ⟨stopped, chat, outs, executed, handled, again⟩ :=
    absorb_cases settings near plan turn result serverTools world
  · rw [raised]
    exact ⟨coherent, by rintro _ _ ⟨⟩⟩
  · rw [blocked]
    exact ⟨coherent, by rintro _ _ ⟨⟩⟩
  · rw [answered]
    refine ⟨?_, by rintro _ _ ⟨⟩⟩
    have no_calls : reply.callIds = [] := by
      rcases no_tools with other | no_uses
      · exact orderly.stopped (Bool.eq_false_iff.mpr fun for_tools => other (stops.mpr for_tools))
      · rw [← use_ids, no_uses, List.map_nil]
    rw [Absorbed.chat, same]
    exact saved [] no_calls.symm
  · obtain ⟨finished, handed, same, unchanged⟩ := handleToolUses_coherent (saved _ use_ids)
      (coherent.numbered.current_own turn _ (by rintro _ ⟨⟩)) handled
    obtain ⟨none_out, continues⟩ | ⟨-, out, answered⟩ := again
    · rw [continues]
      refine ⟨finished, fun after ran equal => ?_⟩
      cases equal
      rw [none_out, List.nil_append] at same
      exact (unchanged same.symm).trans none_waiting
    · rw [answered]
      exact ⟨finished, by rintro _ _ ⟨⟩⟩

/-- Every round of the loop sends a well-formed conversation. -/
theorem generateLoop_coherent (orderly : ∀ calls, (near.reply calls).Orderly) (plan : BillingPlan)
    (turn left calls : Nat) {world : World} (serverTools : List ServerToolExecutionOut)
    (coherent : world.chat.Coherent []) (none_waiting : world.chat.waiting = []) :
    (∀ messages ∈ (generateLoop settings near plan turn left calls world serverTools).sent,
        WellFormed messages) ∧
      (generateLoop settings near plan turn left calls world
        serverTools).world.chat.Coherent [] := by
  induction left generalizing calls world serverTools with
  | zero => exact ⟨List.forall_mem_nil _, coherent⟩
  | succ left induction =>
      have asked := coherent.wellFormed none_waiting
      have only_asked : ∀ messages ∈ [world.chat.buildMessages], WellFormed messages := by
        intro messages member
        rw [List.mem_singleton.mp member]
        exact asked
      simp only [generateLoop]
      split
      · split <;> exact ⟨only_asked, coherent⟩
      next result replied =>
        obtain ⟨kept, idle⟩ := absorb_coherent near coherent none_waiting replied (orderly calls)
          plan turn serverTools
        split
        next after executed continues =>
          rw [continues] at kept
          obtain ⟨sent, finished⟩ := induction (calls + 1) executed kept (idle _ _ continues)
          refine ⟨?_, finished⟩
          rintro messages (_ | ⟨_, member⟩)
          · exact asked
          · exact sent messages member
        next after out answered =>
          rw [answered] at kept
          exact ⟨only_asked, kept⟩
        · exact ⟨only_asked, coherent⟩

theorem generate_coherent (orderly : ∀ calls, (near.reply calls).Orderly) (claimed : Bool)
    (plan : BillingPlan) (turn : Nat) {before world : World} (kept : before.chat.Coherent [])
    (coherent : world.chat.Coherent []) (none_waiting : world.chat.waiting = []) :
    (∀ messages ∈ (generate settings near claimed plan turn before world).sent,
        WellFormed messages) ∧
      (generate settings near claimed plan turn before world).world.chat.Coherent [] := by
  rw [generate]
  split
  · exact ⟨fun _ sent => absurd sent List.not_mem_nil, kept⟩
  · rw [Attempt.reconcile]
    split <;> exact generateLoop_coherent orderly plan turn _ _ _ coherent none_waiting

end Generation

/-! ## Operations -/

/-- The turn which a batch continues: its barrier is closed and there is no step to replay. -/
def continuedTurn (chat : Session) (results : List ToolResultIn) : Option Nat :=
  match resolve chat none results with
  | .ok ((item, row) :: later) =>
      let turn := row.messageStepId
      let applied := applyToolResults turn ((item, row) :: later) chat
      if (applied.pendingCalls turn).isEmpty ∧
          (replayedStep applied turn row.id ((item, row) :: later)).isNone then some turn
      else none
  | _ => none

/-- Replies are orderly; a new message is sent while no call waits in the history it goes on from,
and a turn is continued while no call of another turn waits. -/
def Operation.Orderly (world : World) : Operation → Prop
  | .run near request =>
      (∀ calls, (near.reply calls).Orderly) ∧
        ∀ chat, request.truncated world.chat = some chat →
          ∀ row ∈ chat.toolCalls, row.status ≠ .pending
  | .toolResult near results =>
      (∀ calls, (near.reply calls).Orderly) ∧
        ∀ turn, continuedTurn world.chat results = some turn →
          ∀ row ∈ world.chat.toolCalls, row.status = .pending → row.messageStepId = turn
  | .elsewhere _ _ => True

section Operations

variable {settings : Settings} {world : World}

theorem truncated_coherent (coherent : world.chat.Coherent []) {request : RunRequest}
    {chat : Session} (truncated : request.truncated world.chat = some chat) :
    chat.Coherent [] := by
  rw [RunRequest.truncated] at truncated
  split at truncated
  · cases truncated
    exact coherent
  · exact (coherent.truncate truncated).1

theorem run_coherent (coherent : world.chat.Coherent []) {near : Surroundings}
    {request : RunRequest} (orderly : (Operation.run near request).Orderly world) :
    (∀ messages ∈ (run settings near world request).sent, WellFormed messages) ∧
      (run settings near world request).world.chat.Coherent [] := by
  obtain ⟨replies, idle⟩ := orderly
  rw [run]
  split
  · exact ⟨List.forall_mem_nil _, coherent⟩
  next chat truncated =>
    have none_waiting := chat.waiting_of_no_pending (idle chat truncated)
    have begun := (truncated_coherent coherent truncated).begin none_waiting request
    simp only
    split
    · exact ⟨List.forall_mem_nil _, begun⟩
    split
    · split
      · exact ⟨List.forall_mem_nil _, begun⟩
      next claimed claims =>
        have same : claimed.chat = request.begin chat := claimTrial_chat claims
        rw [← same] at begun
        exact generate_coherent replies true _ _ begun begun (by rw [same]; exact none_waiting)
    · exact generate_coherent replies false _ _ coherent begun none_waiting

theorem toolResult_coherent (coherent : world.chat.Coherent []) {near : Surroundings}
    {results : List ToolResultIn} (orderly : (Operation.toolResult near results).Orderly world) :
    (∀ messages ∈ (toolResult settings near world results).sent, WellFormed messages) ∧
      (toolResult settings near world results).world.chat.Coherent [] := by
  obtain ⟨replies, idle⟩ := orderly
  obtain ⟨failure, rejected⟩ | ⟨item, row, later, resolves, stage⟩ :=
    toolResult_cases settings near world results
  · rw [rejected]
    exact ⟨List.forall_mem_nil _, coherent⟩
  have applied : (world.applied row.messageStepId ((item, row) :: later)).chat.Coherent [] :=
    coherent.applyToolResults _ fun entry member stored stored_member same => by
      rw [coherent.numbered.row_unique stored_member (resolved_rows resolves entry member).1 same]
  obtain ⟨-, awaiting⟩ | ⟨closed, ⟨saved, -, replayed⟩ | ⟨unsaved, continues⟩⟩ := stage
  · rw [awaiting]
    exact ⟨List.forall_mem_nil _, applied⟩
  · rw [replayed]
    exact ⟨List.forall_mem_nil _, applied⟩
  · rw [continues, continueTurn]
    split
    · exact ⟨List.forall_mem_nil _, applied⟩
    · refine generate_coherent replies _ _ _ coherent applied
        (Session.waiting_of_no_pending _ fun done done_member pending => ?_)
      have stored := pending_of_applyToolResults done_member pending
      have own : done.messageStepId = row.messageStepId := by
        refine idle row.messageStepId ?_ done stored pending
        rw [World.applied] at closed unsaved
        simp only [continuedTurn, resolves, closed, unsaved]
        rfl
      have listed : done ∈ Session.pendingCalls _ row.messageStepId :=
        List.mem_filter.mpr ⟨List.mem_filter.mpr ⟨done_member, by simp [own]⟩,
          by simp [coherent.client done stored pending, pending]⟩
      rw [closed] at listed
      cases listed

theorem attempt_coherent (coherent : world.chat.Coherent []) {operation : Operation}
    (orderly : operation.Orderly world) :
    (∀ messages ∈ (attempt settings world operation).sent, WellFormed messages) ∧
      (attempt settings world operation).world.chat.Coherent [] := by
  cases operation with
  | run near request => exact run_coherent coherent orderly
  | toolResult near results => exact toolResult_coherent coherent orderly
  | elsewhere trialUsed account => exact ⟨List.forall_mem_nil _, coherent⟩

theorem coherent_of_reachable {start : World} (empty : start.chat.Coherent [])
    (reached : Reachable (perform settings) Operation.Orderly start world) :
    world.chat.Coherent [] := by
  refine reached.invariant (fun world => world.chat.Coherent []) empty ?_
  rintro before operation _ coherent orderly ⟨⟩
  exact (attempt_coherent coherent orderly).2

end Operations

def Session.created (mode : Policy.Mode) (hasProject : Bool) : Session := { mode, hasProject }

theorem Session.created_coherent (mode : Policy.Mode) (hasProject : Bool) :
    (Session.created mode hasProject).Coherent [] where
  numbered := ⟨.nil, List.forall_mem_nil _, .nil, List.forall_mem_nil _⟩
  settled := rfl
  client := List.forall_mem_nil _
  current := List.forall_mem_nil _

/-- Every conversation sent to the provider is well formed, in every history of a chat whose
operations are orderly. -/
theorem conversations_well_formed (settings : Settings) (mode : Policy.Mode) (hasProject : Bool)
    (trialUsed : Bool) (account : Wallet.Account) (world : World) (operation : Operation)
    (messages : List NeutralMessage)
    (reached : Reachable (perform settings) Operation.Orderly
      ⟨.created mode hasProject, trialUsed, account⟩ world)
    (orderly : operation.Orderly world)
    (sent : messages ∈ (attempt settings world operation).sent) : WellFormed messages := by
  have coherent : world.chat.Coherent [] := by
    refine coherent_of_reachable ?_ reached
    exact Session.created_coherent mode hasProject
  exact (attempt_coherent coherent orderly).1 messages sent

namespace Sample

/-- A round with a call for the client and one for the server. -/
def bothTools : Reply :=
  .anthropic (some "tool_use")
    [.toolUse "toolu_1" "files_read" (.obj []), .toolUse "toolu_2" "time_now" (.obj [])] usage

def read : Operation := .run (near bothTools) (message "read it")

/-- The chat once the call for the client is handed out, and the client's result. -/
def asked : World := (attempt settings start read).world

def answer : Operation := .toolResult (near finalText) [⟨3, some (.obj []), none⟩]

theorem bothTools_orderly : bothTools.Orderly := ⟨by decide, by decide⟩

theorem finalText_orderly : finalText.Orderly := ⟨by decide, by decide⟩

theorem read_orderly : read.Orderly start := by
  refine ⟨fun _ => bothTools_orderly, ?_⟩
  rintro chat ⟨⟩
  exact List.forall_mem_nil _

theorem asked_reached : Reachable (perform settings) Operation.Orderly start asked :=
  .next .start read_orderly (show perform settings start read = some asked from rfl)

theorem answer_orderly : answer.Orderly asked := by
  refine ⟨fun _ => finalText_orderly, fun turn continued row member _ => ?_⟩
  cases continued
  have all_of_turn : asked.chat.toolCalls.all (fun row => row.messageStepId == 0) = true := by
    decide
  exact eq_of_beq (List.all_eq_true.mp all_of_turn row member)

/-- The continuation after a mixed round sends the message, both calls and both results. -/
theorem well_formed_after_round :
    ∃ messages ∈ (attempt settings asked answer).sent, messages.length = 4 ∧
      WellFormed messages :=
  ⟨_, List.mem_cons_self .., rfl,
    conversations_well_formed settings .byok false false _ asked answer _ asked_reached
      answer_orderly (List.mem_cons_self ..)⟩

/-- A reply cut off in the middle of a tool call. -/
def cutOff : Reply :=
  .anthropic (some "max_tokens") [.toolUse "toolu_1" "files_read" (.obj [])] usage

def cut : World := (attempt settings start (.run (near cutOff) (message "read it"))).world

/-- The cut-off call is replayed with the next message, without a result. -/
theorem cut_off_call_replayed :
    ¬ ∀ world operation messages, Reachable (perform settings) (fun _ _ => True) start world →
      messages ∈ (attempt settings world operation).sent → WellFormed messages := by
  intro well_formed
  have unanswered := well_formed cut (.run (near finalText) (message "go on")) _
    (.next .start trivial (show perform settings start (.run (near cutOff) (message "read it")) =
      some cut from rfl)) (List.mem_cons_self ..)
  revert unanswered
  decide

end Sample

end Hermes.Chat
