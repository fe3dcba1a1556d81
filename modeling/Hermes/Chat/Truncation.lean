import Hermes.Chat.Replay
import Hermes.Library.JsonDecoder

/-!
# Replies cut off at the token limit

A reply which the provider cuts off ends its turn as blocked, whatever tool calls it carries.  Both
clients read the tool calls of a reply before the orchestrator looks at its stop reason, so this
holds of the replies whose tool calls can be read, and of no others.
-/

namespace Hermes.Chat

/-- The provider has cut the reply off: `max_tokens`, or `length`. -/
def Reply.truncated : Reply → Bool
  | .anthropic stopReason _ _ => anthropicStopReason stopReason == .maxTokens
  | .openai finishReason _ _ _ => openaiStopReason finishReason == .maxTokens
  | _ => false

/-- A tool use of the Anthropic wire format names a tool. -/
def TypedBlock.readable : TypedBlock → Bool
  | .toolUse _ name _ => (Tool.toDomain name).isSome
  | _ => true

/-- A function call of the OpenAI wire format names a tool, and its arguments are empty or an
object. -/
def FunctionCall.readable (loads : String → Option Json) (call : FunctionCall) : Bool :=
  (Tool.toDomain call.name).isSome &&
    match if call.arguments.isEmpty then some (.obj []) else loads call.arguments with
    | some (.obj _) => true
    | _ => false

/-- Every tool call of the reply can be read. -/
def Reply.readable (loads : String → Option Json) : Reply → Bool
  | .anthropic _ content _ => content.all (·.readable)
  | .openai _ _ toolCalls _ => toolCalls.all (·.readable loads)
  | _ => true

def Operation.near : Operation → Option Surroundings
  | .run near _ | .toolResult near _ => some near
  | .elsewhere _ _ => none

/-- The reply to the last call a request has made. -/
def Attempt.lastReply (attempt : Attempt) (near : Surroundings) : Option Reply :=
  match attempt.sent.length with
  | 0 => none
  | made + 1 => some (near.reply made)

/-- A turn has ended as blocked with reason `max_tokens`: nothing is debited, no call is handed out,
and the calls which wait waited before and belong to other turns. -/
def CutOff (turn : Nat) (before : World) (attempt : Attempt) : Prop :=
  ∃ out, attempt.response = .ok out ∧ out.status = .blocked ∧
    out.blockReason = some .maxTokens ∧ out.messageStepId = some turn ∧ out.toolCalls = [] ∧
    attempt.world.account = before.account ∧
    ∀ row ∈ attempt.world.chat.toolCalls, row.status = .pending →
      row ∈ before.chat.toolCalls ∧ row.messageStepId ≠ turn

/-! ## The clients -/

section Clients

/-- What can be read is read, and the rest is refused by validation. -/
def Reads {α : Type} (readable : Bool) (outcome : Except Failure α) : Prop :=
  if readable then ∃ value, outcome = .ok value
  else ∃ message, outcome = .error (.validationFailed message)

theorem Reads.bind {α β : Type} {readable : Bool} {outcome : Except Failure α}
    (reads : Reads readable outcome) (next : α → β) :
    Reads readable (outcome >>= fun value => .ok (next value)) := by
  cases readable with
  | true =>
      obtain ⟨value, rfl⟩ := reads
      exact ⟨next value, rfl⟩
  | false =>
      obtain ⟨message, rfl⟩ := reads
      exact ⟨message, rfl⟩

theorem anthropicToolUses_reads (content : List TypedBlock) :
    Reads (content.all (·.readable)) (anthropicToolUses content) := by
  induction content with
  | nil => exact ⟨[], rfl⟩
  | cons block later induction =>
      cases block with
      | text said => exact induction
      | other type => exact induction
      | toolUse id name input =>
          rw [List.all_cons, anthropicToolUses, TypedBlock.readable]
          cases Tool.toDomain name with
          | none => exact ⟨_, rfl⟩
          | some tool => exact induction.bind _

theorem openaiToolUses_reads (loads : String → Option Json) (toolCalls : List FunctionCall) :
    Reads (toolCalls.all (·.readable loads)) (openaiToolUses loads toolCalls) := by
  induction toolCalls with
  | nil => exact ⟨[], rfl⟩
  | cons call later induction =>
      rw [List.all_cons, openaiToolUses, FunctionCall.readable]
      generalize (if call.arguments.isEmpty then some (Json.obj []) else loads call.arguments) =
        parsed
      cases Tool.toDomain call.name with
      | none => exact ⟨_, rfl⟩
      | some tool =>
          cases parsed with
          | none => exact ⟨_, rfl⟩
          | some value =>
              cases value with
              | obj fields => exact induction.bind _
              | _ => exact ⟨_, rfl⟩

/-- A reply which is cut off is read as such, or refused for a call which cannot be read. -/
theorem createMessage_truncated (loads : String → Option Json) {reply : Reply}
    (truncated : reply.truncated = true) :
    Reads (reply.readable loads) (createMessage loads reply) ∧
      ∀ result, createMessage loads reply = .ok result → result.stopReason = .maxTokens := by
  cases reply with
  | anthropic stopReason content usage =>
      refine ⟨(anthropicToolUses_reads content).bind _, fun result created => ?_⟩
      obtain ⟨uses, -, same⟩ := except_bind_eq_ok created
      cases same
      exact beq_iff_eq.mp truncated
  | openai finishReason content toolCalls usage =>
      refine ⟨(openaiToolUses_reads loads toolCalls).bind _, fun result created => ?_⟩
      obtain ⟨uses, -, same⟩ := except_bind_eq_ok created
      cases same
      exact beq_iff_eq.mp truncated
  | unauthorized => cases truncated
  | unavailable => cases truncated
  | interrupted => cases truncated

end Clients

/-! ## The generation loop -/

section Loop

variable {settings : Settings} {near : Surroundings} {plan : BillingPlan} {turn : Nat}

/-- What a request which has received a cut-off reply comes to. -/
def Ends (settings : Settings) (turn : Nat) (before : World) (reply : Reply) (attempt : Attempt) :
    Prop :=
  if reply.readable settings.loads then CutOff turn before attempt
  else ∃ message, attempt.response = .error (.validationFailed message)

theorem absorb_truncated (serverTools : List ServerToolExecutionOut) {world : World}
    (sound : world.chat.Sound) (closed : world.chat.pendingCalls turn = []) {result : LLMResult}
    (stopped : result.stopReason = .maxTokens) :
    ∃ after out, absorb settings near plan turn result serverTools world = .answered after out ∧
      ∀ sent, CutOff turn world ⟨after, .ok out, sent⟩ := by
  rw [absorb, if_pos stopped]
  refine ⟨_, _, rfl, fun sent => ⟨_, rfl, rfl, rfl, rfl, rfl, rfl, fun row member pending => ?_⟩⟩
  exact ⟨member, fun own => sound.done_of_closed closed member own pending⟩

theorem Ends.earlier {before between : World} {reply : Reply} {attempt : Attempt}
    {sent : List (List NeutralMessage)} (ends : Ends settings turn between reply attempt)
    (account : between.account = before.account)
    (rows : ∀ row ∈ between.chat.toolCalls, row.status = .pending → row.messageStepId ≠ turn →
      row ∈ before.chat.toolCalls) :
    Ends settings turn before reply { attempt with sent } := by
  rw [Ends] at ends ⊢
  split
  next readable =>
    rw [if_pos readable] at ends
    obtain ⟨out, response, status, reason, own, none_handed, unchanged, waiting⟩ := ends
    refine ⟨out, response, status, reason, own, none_handed, unchanged.trans account, ?_⟩
    intro row member pending
    obtain ⟨earlier, other⟩ := waiting row member pending
    exact ⟨rows row earlier pending other, other⟩
  next unreadable =>
    rw [if_neg unreadable] at ends
    exact ends

theorem stops_cut {calls : Nat} {result : LLMResult}
    (created : createMessage settings.loads (near.reply calls) = .ok result)
    (truncated : (near.reply calls).truncated = true) : result.stopReason = .maxTokens :=
  (createMessage_truncated settings.loads truncated).2 result created

theorem readable_of_created {calls : Nat} {result : LLMResult}
    (created : createMessage settings.loads (near.reply calls) = .ok result)
    (truncated : (near.reply calls).truncated = true) :
    (near.reply calls).readable settings.loads = true := by
  have reads := (createMessage_truncated settings.loads truncated).1
  cases readable : (near.reply calls).readable settings.loads with
  | true => rfl
  | false =>
      rw [readable, created] at reads
      obtain ⟨message, impossible⟩ := reads
      cases impossible

theorem generateLoop_ends (left calls : Nat) (world : World)
    (serverTools : List ServerToolExecutionOut) (sound : world.chat.Sound)
    (known : turn < world.chat.next) (closed : world.chat.pendingCalls turn = []) {made : Nat}
    (count : (generateLoop settings near plan turn left calls world serverTools).sent.length =
      made + 1)
    (truncated : (near.reply (calls + made)).truncated = true) :
    Ends settings turn world (near.reply (calls + made))
      (generateLoop settings near plan turn left calls world serverTools) := by
  induction left generalizing calls world serverTools made with
  | zero => cases count
  | succ left induction =>
      simp only [generateLoop] at count ⊢
      split at count
      next failure refused =>
        have only : made = 0 := by
          split at count
          · exact (Nat.succ.inj count).symm
          · exact (Nat.succ.inj count).symm
        subst only
        obtain ⟨reads, -⟩ := createMessage_truncated settings.loads truncated
        rw [Nat.add_zero] at reads ⊢
        rw [Reads, refused] at reads
        rw [Ends]
        split
        next readable =>
          rw [if_pos readable] at reads
          obtain ⟨value, impossible⟩ := reads
          cases impossible
        next unreadable =>
          rw [if_neg unreadable] at reads
          obtain ⟨message, same⟩ := reads
          cases same
          exact ⟨message, rfl⟩
      next result created =>
        split at count
        next after executed again =>
          obtain ⟨stopped, account, written, still_closed⟩ := absorb_again sound.numbered again
          cases made with
          | zero =>
              have cut := stops_cut created truncated
              rw [stopped] at cut
              cases cut
          | succ made =>
              have shifted : calls + (made + 1) = calls + 1 + made := by omega
              rw [shifted] at truncated ⊢
              have grown := (written.grown turn sound.numbered).next
              have ends := induction (calls + 1) after executed (written.sound sound known)
                (Nat.lt_of_lt_of_le known grown) (still_closed closed) (Nat.succ.inj count)
                truncated
              refine ends.earlier account fun row member pending other => ?_
              have listed : row ∈ after.chat.listToolCallsForStep row.messageStepId :=
                List.mem_filter.mpr ⟨member, beq_self_eq_true _⟩
              rw [(written.frame sound.numbered other.symm).2] at listed
              exact (List.mem_filter.mp listed).1
        next after out answered =>
          have only : made = 0 := (Nat.succ.inj count).symm
          rw [only, Nat.add_zero] at truncated ⊢
          have readable := readable_of_created created truncated
          obtain ⟨_, _, same, cut_off⟩ := @absorb_truncated settings near plan turn serverTools
            world sound closed result (stops_cut created truncated)
          rw [answered] at same
          cases same
          rw [Ends, if_pos readable]
          exact cut_off _
        next failure raised =>
          have only : made = 0 := (Nat.succ.inj count).symm
          rw [only, Nat.add_zero] at truncated
          obtain ⟨_, _, same, -⟩ := @absorb_truncated settings near plan turn serverTools
            world sound closed result (stops_cut created truncated)
          rw [raised] at same
          cases same

end Loop

/-! ## Requests -/

section Requests

variable {settings : Settings} {near : Surroundings} {world : World}

@[simp] theorem Attempt.reconcile_sent (claimed : Bool) (attempt : Attempt) :
    (attempt.reconcile claimed).sent = attempt.sent := by
  rw [Attempt.reconcile]
  split <;> rfl

@[simp] theorem Attempt.reconcile_account (claimed : Bool) (attempt : Attempt) :
    (attempt.reconcile claimed).world.account = attempt.world.account := by
  rw [Attempt.reconcile]
  split <;> rfl

/-- A request which has asked the provider has entered the generation loop for a turn no call of
which waits; no call waits which did not wait before. -/
structure Entered (settings : Settings) (near : Surroundings) (world : World) (attempt : Attempt)
    (turn : Nat) (plan : BillingPlan) (claimed : Bool) (entered : World) : Prop where
  account : entered.account = world.account
  sound : entered.chat.Sound
  known : turn < entered.chat.next
  closed : entered.chat.pendingCalls turn = []
  rows : ∀ row ∈ entered.chat.toolCalls, row.status = .pending → row ∈ world.chat.toolCalls
  generated : attempt = (generateLoop settings near plan turn (settings.maxServerToolRounds + 1) 0
    entered []).reconcile claimed

theorem generate_sent {claimed : Bool} {plan : BillingPlan} {turn : Nat} {before entered : World}
    (asked : (generate settings near claimed plan turn before entered).sent ≠ []) :
    generate settings near claimed plan turn before entered =
      (generateLoop settings near plan turn (settings.maxServerToolRounds + 1) 0 entered
        []).reconcile claimed := by
  rw [generate] at asked ⊢
  split at asked
  · exact absurd rfl asked
  next available => rw [if_neg available]

theorem RunRequest.truncated_rows {request : RunRequest} {before chat : Session}
    (truncated : request.truncated before = some chat) :
    ∀ row ∈ chat.toolCalls, row ∈ before.toolCalls := by
  rw [RunRequest.truncated] at truncated
  split at truncated
  · cases truncated
    exact fun _ => id
  · rw [Session.truncateFromMessageStep] at truncated
    split at truncated
    · cases truncated
    · cases truncated
      exact fun row member => (List.mem_filter.mp member).1

theorem RunRequest.begin_pendingCalls {chat : Session} (sound : chat.Sound) (request : RunRequest) :
    (request.begin chat).pendingCalls chat.next = [] := by
  have fresh : chat.listToolCallsForStep chat.next = [] := by
    rw [Session.listToolCallsForStep, List.filter_eq_nil_iff]
    intro row member own
    exact absurd (beq_iff_eq.mp own) (Nat.ne_of_lt (sound.turns row member))
  change (chat.listToolCallsForStep chat.next).filter _ = []
  rw [fresh]
  rfl

theorem run_entered {request : RunRequest} (sound : world.chat.Sound)
    (asked : (run settings near world request).sent ≠ []) :
    ∃ turn plan claimed entered,
      Entered settings near world (run settings near world request) turn plan claimed entered := by
  rw [run] at asked ⊢
  split at asked
  · exact absurd rfl asked
  next chat truncated =>
    obtain ⟨chat_sound, -⟩ := RunRequest.truncated_sound sound truncated
    have begun_sound : (request.begin chat).Sound := chat_sound.skip.addStep ..
    have known : chat.next < (request.begin chat).next := Nat.lt_succ_of_lt (Nat.lt_succ_self _)
    have closed := RunRequest.begin_pendingCalls chat_sound request
    have rows : ∀ row ∈ (request.begin chat).toolCalls, row.status = .pending →
        row ∈ world.chat.toolCalls :=
      fun row member _ => RunRequest.truncated_rows truncated row member
    dsimp only at asked ⊢
    split at asked
    · exact absurd rfl asked
    split at asked
    next marked =>
      rw [if_pos marked]
      split at asked
      · exact absurd rfl asked
      next claimed claims =>
        obtain ⟨-, rfl⟩ := claimTrial_eq_some.mp claims
        exact ⟨chat.next, _, _, ⟨request.begin chat, true, world.account⟩, rfl, begun_sound,
          known, closed, rows, generate_sent asked⟩
    next unmarked =>
      rw [if_neg unmarked]
      exact ⟨chat.next, _, _, ⟨request.begin chat, world.trialUsed, world.account⟩, rfl,
        begun_sound, known, closed, rows, generate_sent asked⟩

theorem toolResult_entered {results : List ToolResultIn} (sound : world.chat.Sound)
    (asked : (toolResult settings near world results).sent ≠ []) :
    ∃ turn plan claimed entered, Entered settings near world
      (toolResult settings near world results) turn plan claimed entered := by
  obtain ⟨failure, rejected⟩ | ⟨item, row, later, resolves, ⟨-, ended⟩ | ⟨closed,
      ⟨saved, -, ended⟩ | ⟨-, continues⟩⟩⟩ := toolResult_cases settings near world results
  · rw [rejected] at asked
    exact absurd rfl asked
  · rw [ended] at asked
    exact absurd rfl asked
  · rw [ended] at asked
    exact absurd rfl asked
  · rw [continues] at asked ⊢
    rw [continueTurn] at asked ⊢
    split at asked
    · exact absurd rfl asked
    next passes =>
      have written := applied_written sound.numbered resolves
      have known := sound.turns row (resolved_rows resolves _ (List.mem_cons_self ..)).1
      refine ⟨row.messageStepId, _, _, world.applied row.messageStepId ((item, row) :: later), rfl,
        written.sound sound known, ?_, closed, ?_, generate_sent asked⟩
      · exact Nat.lt_of_lt_of_le known (written.grown 0 sound.numbered).next
      · exact fun row member pending => pending_of_applyToolResults member pending

theorem Entered.ends {attempt : Attempt} {turn : Nat} {plan : BillingPlan} {claimed : Bool}
    {entered : World} (enters : Entered settings near world attempt turn plan claimed entered)
    {reply : Reply} (last : attempt.lastReply near = some reply)
    (truncated : reply.truncated = true) :
    Ends settings turn world reply attempt := by
  obtain ⟨account, sound, known, closed, rows, rfl⟩ := enters
  rw [Attempt.lastReply, Attempt.reconcile_sent] at last
  split at last
  · cases last
  next made count =>
    cases last
    have ends := generateLoop_ends (settings.maxServerToolRounds + 1) 0 entered []
      sound known closed
      count (by rwa [Nat.zero_add])
    rw [Nat.zero_add] at ends
    have whole := @Ends.earlier _ _ world _ _ _ [] ends account fun row member pending _ =>
      rows row member pending
    rw [Ends] at whole ⊢
    split
    next readable =>
      rw [if_pos readable] at whole
      rw [CutOff, Attempt.reconcile_response, Attempt.reconcile_account, Attempt.reconcile_chat]
      exact whole
    next unreadable =>
      rw [if_neg unreadable] at whole
      rw [Attempt.reconcile_response]
      exact whole

end Requests

/-- A request whose last reply was cut off at the token limit ends its turn as blocked with reason
`max_tokens`, debits nothing and leaves no call to the client, exactly when every tool call of the
reply can be read; otherwise it fails by validation. -/
theorem cut_off_reply_blocks_iff (settings : Settings) (mode : Policy.Mode) (hasProject : Bool)
    (trialUsed : Bool) (account : Wallet.Account) (world : World) (operation : Operation)
    (near : Surroundings) (reply : Reply)
    (reached : Reachable (perform settings) (fun _ _ => True)
      ⟨{ mode, hasProject }, trialUsed, account⟩ world)
    (meets : operation.near = some near)
    (last : (attempt settings world operation).lastReply near = some reply)
    (truncated : reply.truncated = true) :
    (∃ turn, CutOff turn world (attempt settings world operation)) ↔
      reply.readable settings.loads = true := by
  have sound : world.chat.Sound := sound_of_reachable reached
  have asked : (attempt settings world operation).sent ≠ [] := by
    intro silent
    rw [Attempt.lastReply, silent] at last
    cases last
  obtain ⟨turn, plan, claimed, entered, enters⟩ : ∃ turn plan claimed entered,
      Entered settings near world (attempt settings world operation) turn plan claimed entered := by
    cases operation with
    | run around request =>
        cases meets
        exact run_entered sound asked
    | toolResult around results =>
        cases meets
        exact toolResult_entered sound asked
    | elsewhere used account => cases meets
  have ends := enters.ends last truncated
  rw [Ends] at ends
  split at ends
  next readable => exact iff_of_true ⟨turn, ends⟩ readable
  next unreadable =>
    refine iff_of_false ?_ unreadable
    rintro ⟨other, out, answered, -⟩
    obtain ⟨message, refused⟩ := ends
    rw [refused] at answered
    cases answered

namespace Sample

/-- The same chat with `json.loads` as it is. -/
def decoding : Settings :=
  { settings with loads := fun text => JsonDecoder.loads (Encoding.codes text) }

/-- A call whose arguments were cut off. -/
def cutArguments : Reply :=
  .openai (some "length") none [⟨"call_1", "files_write", "\x7b\"path\": \"no"⟩] usage

/-- A call of the same kind in the other format: the provider has closed its input. -/
def cutInput : Reply :=
  .anthropic (some "max_tokens") [.text "Let me", .toolUse "toolu_1" "files_write" (.obj [])] usage

/-- A first message is written. -/
def writes (reply : Reply) : Operation := .run (near reply) (message "write it")

theorem writes_lastReply {settings : Settings} {reply : Reply}
    (asked : (attempt settings start (writes reply)).sent.length = 1) :
    (attempt settings start (writes reply)).lastReply (near reply) = some reply := by
  rw [Attempt.lastReply, asked]
  rfl

/-- A reply cut off behind a call blocks the turn. -/
theorem cut_input_blocks :
    ∃ turn, CutOff turn start (attempt decoding start (writes cutInput)) :=
  (cut_off_reply_blocks_iff decoding .byok false false {} start (writes cutInput) (near cutInput)
    cutInput .start rfl (writes_lastReply (by decide +kernel)) rfl).mpr (by decide +kernel)

/-- A reply cut off within the arguments of a call fails by validation. -/
theorem cut_arguments_refused :
    ¬ ∀ (settings : Settings) (mode : Policy.Mode) (hasProject trialUsed : Bool)
      (account : Wallet.Account) (world : World) (operation : Operation) (near : Surroundings)
      (reply : Reply),
      Reachable (perform settings) (fun _ _ => True) ⟨{ mode, hasProject }, trialUsed, account⟩
        world →
      operation.near = some near →
      (attempt settings world operation).lastReply near = some reply →
      reply.truncated = true →
      ∃ turn, CutOff turn world (attempt settings world operation) := by
  intro blocks
  obtain ⟨turn, out, answered, -⟩ := blocks decoding .byok false false {} start
    (writes cutArguments) (near cutArguments) cutArguments .start rfl
    (writes_lastReply (by decide +kernel)) rfl
  have refused :
      (attempt decoding start (writes cutArguments)).response.toOption.isSome = false := by
    decide +kernel
  rw [answered] at refused
  cases refused

end Sample

end Hermes.Chat
