import Hermes.Chat.Replay

/-!
# Conversations only grow

Between edits nothing the model has been told is changed or taken back: every conversation sent to
the provider begins with all those sent before it.  `Appends` says what a request adds to a chat,
for any property of the payloads it may add.
-/

namespace Hermes.Chat

/-- Steps with a property of their payload are added behind those there are. -/
structure Appends (holds : Payload → Prop) (before after : Session) : Prop where
  numbered : after.Numbered
  steps : ∃ added, after.steps = before.steps ++ added ∧ ∀ step ∈ added, holds step.payload

namespace Appends

variable {holds : Payload → Prop} {before between after chat : Session}

theorem refl (numbered : chat.Numbered) : Appends holds chat chat :=
  ⟨numbered, [], (List.append_nil _).symm, fun _ member => by cases member⟩

theorem trans (first : Appends holds before between) (second : Appends holds between after) :
    Appends holds before after := by
  obtain ⟨earlier, first_steps, first_hold⟩ := first.steps
  obtain ⟨later, second_steps, second_hold⟩ := second.steps
  refine ⟨second.numbered, earlier ++ later, ?_, List.forall_mem_append.mpr
    ⟨first_hold, second_hold⟩⟩
  rw [second_steps, first_steps, List.append_assoc]

theorem addStep (numbered : chat.Numbered) (turn : Nat) {payload : Payload} (usage : Option Usage)
    (held : holds payload) : Appends holds chat (chat.addStep turn payload usage) :=
  ⟨numbered.addStep turn payload usage, _, numbered.addStep_steps turn payload usage,
    List.forall_mem_singleton.mpr held⟩

theorem rows (numbered : after.Numbered) (same : after.steps = before.steps) :
    Appends holds before after :=
  ⟨numbered, [], by rw [same, List.append_nil], fun _ member => by cases member⟩

/-- What the model is told afterwards begins with what it would have been told before. -/
theorem messages_prefix (appends : Appends holds before after) :
    before.buildMessages <+: after.buildMessages := by
  obtain ⟨added, steps, -⟩ := appends.steps
  rw [Session.buildMessages, Session.buildMessages, steps, List.map_append]
  exact List.prefix_append ..

theorem all (appends : Appends holds before after)
    (earlier : ∀ step ∈ before.steps, holds step.payload) :
    ∀ step ∈ after.steps, holds step.payload := by
  obtain ⟨added, steps, held⟩ := appends.steps
  rw [steps]
  exact List.forall_mem_append.mpr ⟨earlier, held⟩

theorem mono {weaker : Payload → Prop} (appends : Appends holds before after)
    (implied : ∀ payload, holds payload → weaker payload) : Appends weaker before after := by
  obtain ⟨added, steps, held⟩ := appends.steps
  exact ⟨appends.numbered, added, steps, fun step member => implied _ (held step member)⟩

end Appends

/-- A request sends some conversations one after the other, each after the steps of the one before
it, and leaves a chat with all of them. -/
structure Attempt.Sends (holds : Payload → Prop) (before : Session) (attempt : Attempt) : Prop where
  each : ∀ messages ∈ attempt.sent, ∃ chat, Appends holds before chat ∧
    messages = chat.buildMessages ∧ Appends holds chat attempt.world.chat
  chain : attempt.sent.Pairwise fun first second => first <+: second

namespace Attempt.Sends

variable {holds : Payload → Prop} {before between : Session} {world : World}
  {response : Except Failure ChatRunOut}

theorem none : Attempt.Sends holds before ⟨world, response, []⟩ :=
  ⟨fun _ member => (by cases member), .nil⟩

theorem once (appends : Appends holds before between)
    (kept : Appends holds between world.chat) :
    Attempt.Sends holds before ⟨world, response, [between.buildMessages]⟩ :=
  ⟨List.forall_mem_singleton.mpr ⟨between, appends, rfl, kept⟩, List.pairwise_singleton ..⟩

theorem trans {attempt : Attempt} (appends : Appends holds before between)
    (sends : attempt.Sends holds between) : attempt.Sends holds before := by
  refine ⟨fun messages member => ?_, sends.chain⟩
  obtain ⟨chat, grown, same, kept⟩ := sends.each messages member
  exact ⟨chat, appends.trans grown, same, kept⟩

/-- A request which asks the provider again after it has added some steps. -/
theorem again {attempt : Attempt} (numbered : before.Numbered)
    (grown : Appends holds before between) (sends : attempt.Sends holds between)
    (kept : Appends holds between attempt.world.chat) :
    Attempt.Sends holds before { attempt with sent := before.buildMessages :: attempt.sent } := by
  refine ⟨List.forall_mem_cons.mpr ⟨⟨before, .refl numbered, rfl, grown.trans kept⟩,
    (sends.trans grown).each⟩, List.pairwise_cons.mpr ⟨fun messages member => ?_, sends.chain⟩⟩
  obtain ⟨chat, after, rfl, -⟩ := (sends.trans grown).each messages member
  exact after.messages_prefix

end Attempt.Sends

/-! ## What a generation adds -/

section Generation

variable {settings : Settings} {holds : Payload → Prop}

/-- The property holds of everything the provider and the tools make a generation add. -/
structure Surroundings.Adds (settings : Settings) (holds : Payload → Prop) (near : Surroundings) :
    Prop where
  replies : ∀ calls result, createMessage settings.loads (near.reply calls) = .ok result →
    holds (.assistant result.contentBlocks)
  results : ∀ record, holds (.tool record)

theorem finishServerSide_appends (results : ∀ record, holds (.tool record)) {chat : Session}
    (numbered : chat.Numbered) (turn : Nat) (use : ToolUse) (args : Json)
    (execution : ToolExecution) :
    Appends holds chat (finishServerSide turn chat.next use execution
      (chat.createToolCall turn use.name use.id args)) := by
  have created := numbered.createToolCall turn use.name use.id args
  have done := created.completeToolCall chat.next execution.status
    (some execution.toToolResultPayload)
  have unchanged : Appends holds chat
      ((chat.createToolCall turn use.name use.id args).completeToolCall chat.next
        execution.status (some execution.toToolResultPayload)) := .rows done rfl
  exact unchanged.trans (.addStep done turn none (results _))

theorem handleToolUses_appends {near : Surroundings} (results : ∀ record, holds (.tool record))
    {turn : Nat} {uses : List ToolUse} {chat after : Session}
    {clientOuts outs : List ToolCallOut} {serverTools executed : List ServerToolExecutionOut}
    (numbered : chat.Numbered)
    (handled : handleToolUses settings near turn uses chat clientOuts serverTools =
      .ok (after, outs, executed)) : Appends holds chat after := by
  induction uses generalizing chat clientOuts serverTools with
  | nil =>
      cases handled
      exact .refl numbered
  | cons use later induction =>
      obtain ⟨args, ⟨client, rest⟩ | ⟨server, execution, ran, rest⟩⟩ := handleToolUses_cons handled
      · have created := numbered.createToolCall turn use.name use.id args
        have unchanged : Appends holds chat (chat.createToolCall turn use.name use.id args) :=
          .rows created rfl
        exact unchanged.trans (induction created rest)
      · have finished := finishServerSide_appends results numbered turn use args execution
        exact finished.trans (induction finished.numbered rest)

theorem absorb_appends {near : Surroundings} (adds : near.Adds settings holds) {calls : Nat}
    {world : World} {result : LLMResult} (numbered : world.chat.Numbered)
    (created : createMessage settings.loads (near.reply calls) = .ok result) (plan : BillingPlan)
    (turn : Nat) (serverTools : List ServerToolExecutionOut) :
    Appends holds world.chat
      ((absorb settings near plan turn result serverTools world).chat world) := by
  have saved : Appends holds world.chat
      (world.chat.addStep turn (.assistant result.contentBlocks) result.usage) :=
    .addStep numbered turn _ (adds.replies calls result created)
  obtain ⟨failure, raised⟩ | blocked | ⟨-, after, out, answered, same⟩ |
      ⟨-, chat, outs, executed, handled, again⟩ :=
    absorb_cases settings near plan turn result serverTools world
  · rw [raised]
    exact .refl numbered
  · rw [blocked]
    exact .refl numbered
  · rw [answered, Absorbed.chat, same]
    exact saved
  · have handed := saved.trans (handleToolUses_appends adds.results saved.numbered handled)
    obtain ⟨-, continues⟩ | ⟨-, out, answered⟩ := again
    · rw [continues]
      exact handed
    · rw [answered]
      exact handed

theorem generateLoop_appends {near : Surroundings} (adds : near.Adds settings holds)
    (plan : BillingPlan) (turn left calls : Nat) {world : World}
    (serverTools : List ServerToolExecutionOut) (numbered : world.chat.Numbered) :
    let looped := generateLoop settings near plan turn left calls world serverTools
    Appends holds world.chat looped.world.chat ∧ looped.Sends holds world.chat ∧
      looped.sent.length ≤ left := by
  induction left generalizing calls world serverTools with
  | zero => exact ⟨.refl numbered, .none, Nat.le_refl _⟩
  | succ left induction =>
      have asked : Appends holds world.chat world.chat := .refl numbered
      simp only [generateLoop]
      split
      · split <;> exact ⟨asked, .once asked asked, Nat.le_add_left ..⟩
      next result replied =>
        have kept := absorb_appends adds numbered replied plan turn serverTools
        split
        next after executed continues =>
          rw [continues] at kept
          obtain ⟨grown, sends, few⟩ := induction (calls + 1) executed kept.numbered
          exact ⟨kept.trans grown, sends.again numbered kept grown, Nat.succ_le_succ few⟩
        next after out answered =>
          rw [answered] at kept
          exact ⟨kept, .once asked kept, Nat.le_add_left ..⟩
        · exact ⟨asked, .once asked asked, Nat.le_add_left ..⟩

end Generation

/-! ## What a request adds -/

section Requests

variable {settings : Settings} {holds : Payload → Prop} {near : Surroundings} {world : World}

/-- What comes of a request: nothing, or something added to the history it goes on from. -/
structure Attempt.Adds (settings : Settings) (holds : Payload → Prop) (start chat : Session)
    (attempt : Attempt) : Prop where
  kept : attempt.world.chat = start ∨ Appends holds chat attempt.world.chat
  sends : attempt.Sends holds chat
  few : attempt.sent.length ≤ settings.maxServerToolRounds + 1

theorem Attempt.Adds.silent {start chat : Session} {response : Except Failure ChatRunOut}
    (kept : world.chat = start ∨ Appends holds chat world.chat) :
    Attempt.Adds settings holds start chat ⟨world, response, []⟩ :=
  ⟨kept, .none, Nat.zero_le _⟩

theorem Attempt.Adds.trans {start chat between : Session} {attempt : Attempt}
    (appends : Appends holds chat between) (adds : attempt.Adds settings holds start between) :
    attempt.Adds settings holds start chat :=
  ⟨adds.kept.imp_right appends.trans, adds.sends.trans appends, adds.few⟩

theorem Attempt.Adds.committed {start earlier chat : Session} {attempt : Attempt}
    (appends : Appends holds chat start) (adds : attempt.Adds settings holds start chat) :
    attempt.Adds settings holds earlier chat := by
  refine ⟨.inr ?_, adds.sends, adds.few⟩
  rcases adds.kept with same | kept
  · rw [same]
    exact appends
  · exact kept

theorem Attempt.Adds.reconcile {start chat : Session} {attempt : Attempt} (claimed : Bool)
    (adds : attempt.Adds settings holds start chat) :
    (attempt.reconcile claimed).Adds settings holds start chat := by
  rw [Attempt.reconcile]
  split
  · exact ⟨adds.kept, ⟨adds.sends.each, adds.sends.chain⟩, adds.few⟩
  · exact adds

theorem generate_adds (adds : near.Adds settings holds) (claimed : Bool) (plan : BillingPlan)
    (turn : Nat) (before : World) (numbered : world.chat.Numbered) :
    (generate settings near claimed plan turn before world).Adds settings holds before.chat
      world.chat := by
  rw [generate]
  split
  · exact .silent (.inl rfl)
  · obtain ⟨kept, sends, few⟩ :=
      generateLoop_appends adds plan turn (settings.maxServerToolRounds + 1) 0 [] numbered
    exact Attempt.Adds.reconcile claimed ⟨.inr kept, sends, few⟩

theorem RunRequest.begin_appends {chat : Session} (numbered : chat.Numbered)
    {request : RunRequest} (held : holds (.user request.content)) :
    Appends holds chat (request.begin chat) := by
  have skipped : Appends holds chat { chat with next := chat.next + 1 } :=
    .rows numbered.skip rfl
  exact skipped.trans (.addStep numbered.skip _ none held)

theorem run_adds (adds : near.Adds settings holds) {request : RunRequest}
    (held : holds (.user request.content)) {chat : Session} (numbered : chat.Numbered)
    (truncated : request.truncated world.chat = some chat) :
    (run settings near world request).Adds settings holds world.chat chat := by
  have begun := RunRequest.begin_appends numbered held
  rw [run, truncated]
  simp only
  split
  · exact .silent (.inr begun)
  split
  · split
    · exact .silent (.inr begun)
    next claimed claims =>
      have same : claimed.chat = request.begin chat := claimTrial_chat claims
      rw [← same] at begun
      exact ((generate_adds adds true _ _ _ begun.numbered).trans begun).committed begun
  · have generated (plan : BillingPlan) : (generate settings near false plan chat.next world
        { world with chat := request.begin chat }).Adds settings holds world.chat
          (request.begin chat) :=
      @generate_adds _ _ _ { world with chat := request.begin chat } adds false plan chat.next
        world begun.numbered
    exact (generated _).trans begun

theorem applyToolResults_appends (results : ∀ record, holds (.tool record)) (turn : Nat)
    {resolved : List (ToolResultIn × ToolCall)} {chat : Session} (numbered : chat.Numbered) :
    Appends holds chat (applyToolResults turn resolved chat) := by
  induction resolved generalizing chat with
  | nil => exact .refl numbered
  | cons entry later induction =>
      obtain ⟨item, row⟩ := entry
      have applied : Appends holds chat
          (if row.status = .pending then applyToolResult turn item row chat else chat) := by
        split
        · rw [applyToolResult]
          split
          · have done := numbered.completeToolCall row.id
              (if item.error.isSome then .errored else .completed) (item.result.or item.error)
            have unchanged : Appends holds chat (chat.completeToolCall row.id
                (if item.error.isSome then .errored else .completed)
                (item.result.or item.error)) := .rows done rfl
            exact unchanged.trans (.addStep done turn none (results _))
          · exact .refl numbered
        · exact .refl numbered
      rw [applyToolResults]
      exact applied.trans (induction applied.numbered)

/-- Results of the client are added, and a closed barrier goes on from there. -/
theorem toolResult_adds (adds : near.Adds settings holds) (numbered : world.chat.Numbered)
    (results : List ToolResultIn) :
    (toolResult settings near world results).Adds settings holds world.chat world.chat := by
  obtain ⟨failure, rejected⟩ | ⟨item, row, later, -, stage⟩ :=
    toolResult_cases settings near world results
  · rw [rejected]
    exact .silent (.inl rfl)
  have applied : Appends holds world.chat
      (world.applied row.messageStepId ((item, row) :: later)).chat :=
    applyToolResults_appends adds.results _ numbered
  obtain ⟨-, waits⟩ | ⟨-, ⟨saved, -, replays⟩ | ⟨-, continues⟩⟩ := stage
  · rw [waits]
    exact .silent (.inr applied)
  · rw [replays]
    exact .silent (.inr applied)
  · rw [continues, continueTurn]
    split
    · exact .silent (.inr applied)
    · exact (generate_adds adds _ _ _ _ applied.numbered).trans applied

def Operation.Unedited : Operation → Prop
  | .run _ request => request.editMessageStepId = none
  | _ => True

/-- Everything an operation may add has a property. -/
def Operation.Adds (settings : Settings) (holds : Payload → Prop) : Operation → Prop
  | .run near request => near.Adds settings holds ∧ holds (.user request.content)
  | .toolResult near _ => near.Adds settings holds
  | .elsewhere _ _ => True

theorem attempt_adds {operation : Operation} (adds : operation.Adds settings holds)
    (unedited : operation.Unedited) (numbered : world.chat.Numbered) :
    (attempt settings world operation).Adds settings holds world.chat world.chat := by
  cases operation with
  | run near request =>
      refine run_adds adds.1 adds.2 numbered ?_
      rw [RunRequest.truncated, unedited]
  | toolResult near results => exact toolResult_adds adds numbered results
  | elsewhere trialUsed account => exact .silent (.inl rfl)

/-- Whatever an operation does, what holds of all steps there were and of all it may add holds of
all there are, and of all it tells the provider. -/
theorem attempt_holds {operation : Operation} (adds : operation.Adds settings holds)
    (numbered : world.chat.Numbered) (all : ∀ step ∈ world.chat.steps, holds step.payload) :
    (∀ step ∈ (attempt settings world operation).world.chat.steps, holds step.payload) ∧
      ∀ messages ∈ (attempt settings world operation).sent, ∃ chat : Session,
        (∀ step ∈ chat.steps, holds step.payload) ∧ messages = chat.buildMessages := by
  have settled {chat : Session} {made : Attempt} (came : made.Adds settings holds world.chat chat)
      (earlier : ∀ step ∈ chat.steps, holds step.payload) :
      (∀ step ∈ made.world.chat.steps, holds step.payload) ∧
        ∀ messages ∈ made.sent, ∃ chat : Session,
          (∀ step ∈ chat.steps, holds step.payload) ∧ messages = chat.buildMessages := by
    refine ⟨?_, fun messages member => ?_⟩
    · rcases came.kept with same | kept
      · rw [same]
        exact all
      · exact kept.all earlier
    · obtain ⟨between, appends, same, -⟩ := came.sends.each messages member
      exact ⟨between, appends.all earlier, same⟩
  cases operation with
  | run near request =>
      cases truncated : request.truncated world.chat with
      | none =>
          rw [attempt, run, truncated]
          exact ⟨all, fun _ member => by cases member⟩
      | some chat =>
          have kept : chat.Numbered ∧ ∀ step ∈ chat.steps, step ∈ world.chat.steps := by
            rw [RunRequest.truncated] at truncated
            split at truncated
            · cases truncated
              exact ⟨numbered, fun _ member => member⟩
            · refine ⟨numbered.truncate truncated, ?_⟩
              rw [Session.truncateFromMessageStep] at truncated
              split at truncated
              · cases truncated
              · cases truncated
                exact fun step member => List.mem_of_mem_filter member
          exact settled (run_adds adds.1 adds.2 kept.1 truncated)
            fun step member => all step (kept.2 step member)
  | toolResult near results => exact settled (toolResult_adds adds numbered results) all
  | elsewhere trialUsed account => exact ⟨all, fun _ member => by cases member⟩

end Requests

/-! ## Whole conversations -/

/-- The conversations which some operations send to the provider, in the order they are sent. -/
def conversations (settings : Settings) : World → List Operation → List (List NeutralMessage)
  | _, [] => []
  | world, operation :: later =>
      (attempt settings world operation).sent ++
        conversations settings (attempt settings world operation).world later

section Conversations

variable {settings : Settings} {world : World}

theorem Operation.adds_anything (settings : Settings) (operation : Operation) :
    operation.Adds settings fun _ => True := by
  cases operation with
  | run near request => exact ⟨⟨fun _ _ _ => trivial, fun _ => trivial⟩, trivial⟩
  | toolResult near results => exact ⟨fun _ _ _ => trivial, fun _ => trivial⟩
  | elsewhere trialUsed account => trivial

theorem conversations_grow {operations : List Operation}
    (unedited : ∀ operation ∈ operations, operation.Unedited) (numbered : world.chat.Numbered) :
    (∀ messages ∈ conversations settings world operations,
        world.chat.buildMessages <+: messages) ∧
      ((conversations settings world operations).Pairwise fun first second => first <+: second) ∧
      (conversations settings world operations).length ≤
        operations.length * (settings.maxServerToolRounds + 1) := by
  induction operations generalizing world with
  | nil => exact ⟨fun _ member => (by cases member), .nil, Nat.zero_le _⟩
  | cons operation later induction =>
      obtain ⟨first, rest⟩ := List.forall_mem_cons.mp unedited
      have adds := attempt_adds (operation.adds_anything settings) first numbered
      have grown : Appends (fun _ => True) world.chat
          (attempt settings world operation).world.chat := by
        rcases adds.kept with same | kept
        · rw [same]
          exact .refl numbered
        · exact kept
      obtain ⟨all_grow, chain, few⟩ := induction rest grown.numbered
      rw [conversations]
      refine ⟨List.forall_mem_append.mpr ⟨fun messages member => ?_, fun messages member => ?_⟩,
        List.pairwise_append.mpr ⟨adds.sends.chain, chain, fun messages member later after => ?_⟩,
        ?_⟩
      · obtain ⟨chat, appends, rfl, -⟩ := adds.sends.each messages member
        exact appends.messages_prefix
      · exact grown.messages_prefix.trans (all_grow messages member)
      · obtain ⟨chat, -, rfl, kept⟩ := adds.sends.each messages member
        exact kept.messages_prefix.trans (all_grow later after)
      · have bound := adds.few
        rw [List.length_append, List.length_cons, Nat.add_mul, Nat.one_mul]
        omega

/-- From any state of a chat on, as long as no message is edited, every conversation sent to the
provider begins with the history there is and with all conversations sent before it; and no request
sends more of them than the bound on tool rounds allows. -/
theorem conversations_only_grow (settings : Settings) (mode : Policy.Mode) (hasProject : Bool)
    (trialUsed : Bool) (account : Wallet.Account) (world : World) (operations : List Operation)
    (reached : Reachable (perform settings) (fun _ _ => True)
      ⟨{ mode, hasProject }, trialUsed, account⟩ world)
    (unedited : ∀ operation ∈ operations, operation.Unedited) :
    (∀ messages ∈ conversations settings world operations,
        world.chat.buildMessages <+: messages) ∧
      ((conversations settings world operations).Pairwise fun first second => first <+: second) ∧
      (conversations settings world operations).length ≤
        operations.length * (settings.maxServerToolRounds + 1) :=
  conversations_grow unedited (sound_of_reachable reached).numbered

end Conversations

namespace Sample

/-- A reply which asks for the time and a later one which answers. -/
def clock : Reply :=
  .anthropic (some "tool_use") [.toolUse "toolu_1" "time_now" (.obj [])] usage

/-- Two messages, the first with a round of tools. -/
def dialogue : List Operation :=
  [.run { near finalText with reply := fun calls => if calls = 0 then clock else finalText }
      (message "what time is it"),
    .run (near finalText) (message "thanks")]

/-- The provider is asked twice for the first message and once for the second. -/
theorem dialogue_grows :
    (conversations settings start dialogue).map List.length = [1, 3, 5] ∧
      (conversations settings start dialogue).Pairwise fun first second => first <+: second := by
  have unedited : ∀ operation ∈ dialogue, operation.Unedited :=
    List.forall_mem_cons.mpr ⟨rfl, List.forall_mem_singleton.mpr rfl⟩
  exact ⟨rfl, (conversations_only_grow settings .byok false false {} start dialogue .start
    unedited).2.1⟩

end Sample

end Hermes.Chat
