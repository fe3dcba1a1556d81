import Hermes.Chat.History
import Hermes.Library.Transition

/-!
# How a turn grows

What a chat stores about a turn is its steps and its tool calls.  Requests of other turns leave both
alone, requests of the turn itself only add to them, and a truncation either spares a turn or takes
all its calls.
-/

namespace Hermes.Chat

namespace Session

def turnSteps (chat : Session) (turn : Nat) : List Step :=
  chat.steps.filter fun step => step.messageStepId == turn

variable {chat : Session} {turn : Nat}

theorem assistantSteps_eq (chat : Session) (turn : Nat) :
    chat.assistantSteps turn = (chat.turnSteps turn).filter (·.isAssistant) := by
  rw [assistantSteps, turnSteps, List.filter_filter]
  congr 1
  funext step
  exact Bool.and_comm ..

/-- The step after a result is found among the steps of the turn. -/
theorem nextStepAfter_eq (chat : Session) (turn toolCallId : Nat) :
    chat.nextStepAfter turn toolCallId =
      match (chat.turnSteps turn).find? (·.answers toolCallId) with
      | some anchor => (chat.assistantSteps turn).find? fun step => anchor.seq < step.seq
      | none => (chat.assistantSteps turn).getLast? := by
  rw [turnSteps, List.find?_filter]
  simp only [Bool.decide_and, Bool.decide_eq_true]
  rfl

theorem Numbered.turnSteps_addStep (numbered : chat.Numbered) (own : Nat) (payload : Payload)
    (usage : Option Usage) :
    (chat.addStep own payload usage).turnSteps turn =
      chat.turnSteps turn ++ if own = turn then [⟨chat.next, own, payload, usage⟩] else [] := by
  rw [turnSteps, numbered.addStep_steps, List.filter_append, turnSteps]
  congr 1
  by_cases same : own = turn <;> simp [same]

end Session

/-! ## Growth -/

structure ToolCall.Later (earlier later : ToolCall) : Prop where
  id : later.id = earlier.id
  turn : later.messageStepId = earlier.messageStepId
  pending : later.status = .pending → later = earlier

theorem ToolCall.Later.refl (row : ToolCall) : row.Later row := ⟨rfl, rfl, fun _ => rfl⟩

theorem ToolCall.Later.trans {first second third : ToolCall} (earlier : first.Later second)
    (later : second.Later third) : first.Later third where
  id := later.id.trans earlier.id
  turn := later.turn.trans earlier.turn
  pending := by
    intro pending
    have same := later.pending pending
    subst same
    exact earlier.pending pending

structure Grown (turn : Nat) (before after : Session) : Prop where
  next : before.next ≤ after.next
  steps : before.turnSteps turn <+: after.turnSteps turn
  kept : ∀ row ∈ before.toolCalls, row.messageStepId = turn →
    ∃ later ∈ after.toolCalls, row.Later later
  earlier : ∀ later ∈ after.toolCalls, later.messageStepId = turn → later.id < before.next →
    ∃ row ∈ before.toolCalls, row.Later later

namespace Grown

variable {turn : Nat} {before between after : Session}

theorem refl (turn : Nat) (chat : Session) : Grown turn chat chat where
  next := Nat.le_refl _
  steps := List.prefix_refl _
  kept := fun row member _ => ⟨row, member, .refl row⟩
  earlier := fun row member _ _ => ⟨row, member, .refl row⟩

theorem trans (first : Grown turn before between) (second : Grown turn between after) :
    Grown turn before after where
  next := Nat.le_trans first.next second.next
  steps := first.steps.trans second.steps
  kept := by
    intro row member own
    obtain ⟨middle, middle_member, grown⟩ := first.kept row member own
    obtain ⟨later, later_member, later_grown⟩ :=
      second.kept middle middle_member (grown.turn.trans own)
    exact ⟨later, later_member, grown.trans later_grown⟩
  earlier := by
    intro later member own below
    obtain ⟨middle, middle_member, grown⟩ :=
      second.earlier later member own (Nat.lt_of_lt_of_le below first.next)
    obtain ⟨row, row_member, row_grown⟩ := first.earlier middle middle_member
      (grown.turn.symm.trans own) (grown.id ▸ below)
    exact ⟨row, row_member, row_grown.trans grown⟩

theorem addStep {chat : Session} (numbered : chat.Numbered) (turn own : Nat) (payload : Payload)
    (usage : Option Usage) : Grown turn chat (chat.addStep own payload usage) where
  next := Nat.le_succ _
  steps := by
    rw [numbered.turnSteps_addStep]
    exact List.prefix_append ..
  kept := fun row member _ => ⟨row, member, .refl row⟩
  earlier := fun row member _ _ => ⟨row, member, .refl row⟩

theorem createToolCall (chat : Session) (turn own : Nat) (tool : Tool) (providerId : String)
    (args : Json) : Grown turn chat (chat.createToolCall own tool providerId args) where
  next := Nat.le_succ _
  steps := List.prefix_refl _
  kept := fun row member _ => ⟨row, List.mem_append_left _ member, .refl row⟩
  earlier := by
    intro later member _ below
    rcases List.mem_append.mp member with found | last
    · exact ⟨later, found, .refl later⟩
    · rw [List.mem_singleton.mp last] at below
      exact absurd below (Nat.lt_irrefl _)

theorem markToolCall_later (id : Nat) {status : ToolCallStatus} (done : status ≠ .pending)
    (result : Option Json) (row : ToolCall) :
    row.Later (Session.markToolCall id status result row) where
  id := Session.markToolCall_id ..
  turn := Session.markToolCall_messageStepId ..
  pending := by
    rw [Session.markToolCall]
    split
    · exact fun pending => absurd pending done
    · exact fun _ => rfl

theorem completeToolCall (chat : Session) (turn id : Nat) {status : ToolCallStatus}
    (done : status ≠ .pending) (result : Option Json) :
    Grown turn chat (chat.completeToolCall id status result) where
  next := Nat.le_refl _
  steps := List.prefix_refl _
  kept := fun row member _ =>
    ⟨_, List.mem_map_of_mem member, markToolCall_later id done result row⟩
  earlier := by
    intro later member _ _
    obtain ⟨row, row_member, rfl⟩ := List.mem_map.mp member
    exact ⟨row, row_member, markToolCall_later id done result row⟩

end Grown

theorem Written.grown {own : Nat} {before after : Session} (written : Written own before after)
    (turn : Nat) (numbered : before.Numbered) : Grown turn before after := by
  induction written with
  | refl => exact .refl turn _
  | reply written content usage induction =>
      exact induction.trans (.addStep (written.numbered numbered) ..)
  | handOut written tool client providerId args induction =>
      exact induction.trans (.createToolCall ..)
  | finish written use args execution induction =>
      have created := (written.numbered numbered).createToolCall own use.name use.id args
      refine induction.trans ((Grown.createToolCall ..).trans
        ((Grown.completeToolCall _ turn _ execution.status_ne_pending _).trans
          (.addStep (created.completeToolCall ..) ..)))
  | answer written record status result done own_rows induction =>
      exact induction.trans ((Grown.completeToolCall _ turn _ done _).trans
        (.addStep ((written.numbered numbered).completeToolCall ..) ..))

theorem Session.turnCalls_createToolCall {chat : Session} {own turn : Nat} (other : own ≠ turn)
    (tool : Tool) (providerId : String) (args : Json) :
    (chat.createToolCall own tool providerId args).listToolCallsForStep turn =
      chat.listToolCallsForStep turn := by
  rw [listToolCallsForStep, createToolCall, List.filter_append, listToolCallsForStep]
  simp [other]

theorem Session.turnCalls_completeToolCall {chat : Session} {own turn id : Nat} (other : own ≠ turn)
    (status : ToolCallStatus) (result : Option Json)
    (own_rows : ∀ row ∈ chat.toolCalls, row.id = id → row.messageStepId = own) :
    (chat.completeToolCall id status result).listToolCallsForStep turn =
      chat.listToolCallsForStep turn := by
  rw [listToolCallsForStep, completeToolCall, listToolCallsForStep, List.filter_map]
  have same_turn : ((fun row : ToolCall => row.messageStepId == turn) ∘
      markToolCall id status result) = fun row => row.messageStepId == turn := by
    funext row
    rw [Function.comp_apply, markToolCall_messageStepId]
  rw [same_turn]
  have untouched : ∀ row ∈ chat.toolCalls.filter (fun row => row.messageStepId == turn),
      markToolCall id status result row = row := by
    intro row member
    obtain ⟨stored, in_turn⟩ := List.mem_filter.mp member
    refine markToolCall_of_ne _ _ fun same => other ?_
    rw [← own_rows row stored same]
    exact eq_of_beq in_turn
  rw [List.map_congr_left untouched, List.map_id']

/-- The writes of a request leave the other turns alone. -/
theorem Written.frame {own turn : Nat} {before after : Session} (written : Written own before after)
    (numbered : before.Numbered) (other : own ≠ turn) :
    after.turnSteps turn = before.turnSteps turn ∧
      after.listToolCallsForStep turn = before.listToolCallsForStep turn := by
  have added : ∀ {chat : Session} (payload : Payload) (usage : Option Usage), chat.Numbered →
      (chat.addStep own payload usage).turnSteps turn = chat.turnSteps turn :=
    fun payload usage chat_numbered => by
      rw [chat_numbered.turnSteps_addStep, if_neg other, List.append_nil]
  induction written with
  | refl => exact ⟨rfl, rfl⟩
  | reply written content usage induction =>
      exact ⟨(added _ _ (written.numbered numbered)).trans induction.1,
        induction.2⟩
  | handOut written tool client providerId args induction =>
      exact ⟨induction.1,
        (Session.turnCalls_createToolCall other ..).trans induction.2⟩
  | finish written use args execution induction =>
      have chat_numbered := written.numbered numbered
      have created := chat_numbered.createToolCall own use.name use.id args
      refine ⟨(added _ _ (created.completeToolCall ..)).trans induction.1, ?_⟩
      refine .trans ?_ induction.2
      rw [Session.listToolCallsForStep, chat_numbered.finishServerSide_toolCalls,
        List.filter_append, Session.listToolCallsForStep]
      simp [other]
  | answer written record status result done own_rows induction =>
      have chat_numbered := written.numbered numbered
      exact ⟨(added _ _ (chat_numbered.completeToolCall ..)).trans induction.1,
        (Session.turnCalls_completeToolCall other _ _ own_rows).trans induction.2⟩

/-! ## Sound chats -/

/-- Only the client is waited for, every result received has its tool step, and turns are numbered
like everything else. -/
structure Session.Sound (chat : Session) : Prop where
  numbered : chat.Numbered
  client : ∀ row ∈ chat.toolCalls, row.status = .pending → row.toolName.clientSide
  recorded : ∀ row ∈ chat.toolCalls, row.status ≠ .pending →
    ∃ step ∈ chat.turnSteps row.messageStepId, step.answers row.id
  turns : ∀ row ∈ chat.toolCalls, row.messageStepId < chat.next

namespace Session.Sound

variable {chat : Session} {turn : Nat}

/-- With no call of the turn pending, every row of the turn is done. -/
theorem done_of_closed (sound : chat.Sound) (closed : chat.pendingCalls turn = [])
    {row : ToolCall} (member : row ∈ chat.toolCalls) (own : row.messageStepId = turn) :
    row.status ≠ .pending := by
  intro pending
  have listed : row ∈ chat.pendingCalls turn :=
    List.mem_filter.mpr ⟨List.mem_filter.mpr ⟨member, by simp [own]⟩,
      by simp [sound.client row member pending, pending]⟩
  rw [closed] at listed
  cases listed

theorem addStep (sound : chat.Sound) (own : Nat) (payload : Payload) (usage : Option Usage) :
    (chat.addStep own payload usage).Sound where
  numbered := sound.numbered.addStep ..
  client := sound.client
  recorded := by
    intro row member done
    obtain ⟨step, step_member, answers⟩ := sound.recorded row member done
    refine ⟨step, ?_, answers⟩
    rw [sound.numbered.turnSteps_addStep]
    exact List.mem_append_left _ step_member
  turns := fun row member => Nat.lt_succ_of_lt (sound.turns row member)

theorem skip (sound : chat.Sound) : { chat with next := chat.next + 1 }.Sound where
  numbered := sound.numbered.skip
  client := sound.client
  recorded := sound.recorded
  turns := fun row member => Nat.lt_succ_of_lt (sound.turns row member)

theorem truncate (sound : chat.Sound) {anchor : Nat} {after : Session}
    (truncated : chat.truncateFromMessageStep anchor = some after) : after.Sound := by
  have numbered := sound.numbered.truncate truncated
  obtain ⟨kept, first, dropped, split, -, rfl⟩ := sound.numbered.truncate_cases truncated
  refine ⟨numbered, fun row member => sound.client row (List.mem_filter.mp member).1, ?_,
    fun row member => sound.turns row (List.mem_filter.mp member).1⟩
  intro row member done
  obtain ⟨stored, spared⟩ := List.mem_filter.mp member
  obtain ⟨step, step_member, answers⟩ := sound.recorded row stored done
  obtain ⟨in_steps, in_turn⟩ := List.mem_filter.mp step_member
  rw [split] at in_steps
  rcases List.mem_append.mp in_steps with before | after
  · exact ⟨step, List.mem_filter.mpr ⟨before, in_turn⟩, answers⟩
  · rw [List.any_eq_true.mpr ⟨step, after, in_turn⟩] at spared
    cases spared

end Session.Sound

theorem Written.sound {turn : Nat} {before after : Session} (written : Written turn before after)
    (sound : before.Sound) (known : turn < before.next) : after.Sound := by
  induction written with
  | refl => exact sound
  | reply written content usage induction => exact induction.addStep ..
  | @handOut chat written tool client providerId args induction =>
      have grown := written.grown turn sound.numbered
      refine ⟨induction.numbered.createToolCall .., ?_, ?_, ?_⟩
      · intro row member pending
        rcases List.mem_append.mp member with earlier | last
        · exact induction.client row earlier pending
        · rw [List.mem_singleton.mp last]
          exact client
      · intro row member done
        rcases List.mem_append.mp member with earlier | last
        · exact induction.recorded row earlier done
        · rw [List.mem_singleton.mp last] at done
          exact absurd rfl done
      · intro row member
        rcases List.mem_append.mp member with earlier | last
        · exact Nat.lt_succ_of_lt (induction.turns row earlier)
        · rw [List.mem_singleton.mp last]
          exact Nat.lt_succ_of_lt (Nat.lt_of_lt_of_le known grown.next)
  | @finish chat written use args execution induction =>
      have grown := written.grown turn sound.numbered
      have rows := induction.numbered.finishServerSide_toolCalls turn use args execution
      have completed := fun status result =>
        (induction.numbered.createToolCall turn use.name use.id args).completeToolCall chat.next
          status result
      refine ⟨(completed _ _).addStep .., ?_, ?_, ?_⟩
      · rw [rows]
        intro row member pending
        rcases List.mem_append.mp member with earlier | last
        · exact induction.client row earlier pending
        · rw [List.mem_singleton.mp last] at pending
          exact absurd pending execution.status_ne_pending
      · rw [rows]
        intro row member done
        rw [finishServerSide, (completed _ _).turnSteps_addStep]
        rcases List.mem_append.mp member with earlier | last
        · obtain ⟨step, step_member, answers⟩ := induction.recorded row earlier done
          exact ⟨step, List.mem_append_left _ step_member, answers⟩
        · rw [List.mem_singleton.mp last, if_pos rfl]
          exact ⟨_, List.mem_append_right _ (List.mem_singleton.mpr rfl), beq_self_eq_true _⟩
      · rw [rows]
        intro row member
        rcases List.mem_append.mp member with earlier | last
        · exact Nat.lt_succ_of_lt (Nat.lt_succ_of_lt (induction.turns row earlier))
        · rw [List.mem_singleton.mp last]
          exact Nat.lt_succ_of_lt (Nat.lt_succ_of_lt (Nat.lt_of_lt_of_le known grown.next))
  | @answer chat written record status result done own induction =>
      have completed := induction.numbered.completeToolCall record.toolCallId status result
      refine ⟨completed.addStep .., ?_, ?_, ?_⟩
      · exact fun row member pending =>
          induction.client row (Session.pending_of_completeToolCall done member pending) pending
      · intro row member finished
        rw [completed.turnSteps_addStep]
        obtain ⟨earlier, earlier_member, rfl⟩ := List.mem_map.mp member
        rw [Session.markToolCall] at finished ⊢
        split at finished
        next marked =>
          rw [if_pos marked]
          refine ⟨⟨chat.next, turn, .tool record, none⟩, List.mem_append_right _ ?_, ?_⟩
          · rw [if_pos (own earlier earlier_member marked.1).symm]
            exact List.mem_singleton.mpr rfl
          · exact beq_iff_eq.mpr marked.1.symm
        next other =>
          rw [if_neg other]
          obtain ⟨step, step_member, answers⟩ := induction.recorded earlier earlier_member finished
          exact ⟨step, List.mem_append_left _ step_member, answers⟩
      · intro row member
        obtain ⟨earlier, earlier_member, rfl⟩ := List.mem_map.mp member
        rw [Session.markToolCall_messageStepId]
        exact Nat.lt_succ_of_lt (induction.turns earlier earlier_member)

/-! ## Operations -/

/-- The turn has only been added to, and no assistant step of it was stored while one of the calls
it had was pending. -/
structure Kept (turn : Nat) (before after : Session) : Prop where
  grown : Grown turn before after
  idle : after.assistantSteps turn = before.assistantSteps turn ∨
    ∀ row ∈ after.toolCalls, row.messageStepId = turn → row.id < before.next →
      row.status ≠ .pending

namespace Kept

variable {turn : Nat} {before between after : Session}

theorem of_same (later : before.next ≤ after.next)
    (steps : after.turnSteps turn = before.turnSteps turn)
    (calls : after.listToolCallsForStep turn = before.listToolCallsForStep turn) :
    Kept turn before after := by
  have same_rows : ∀ row : ToolCall, row.messageStepId = turn →
      (row ∈ after.toolCalls ↔ row ∈ before.toolCalls) := by
    intro row own
    have member : ∀ chat : Session, row ∈ chat.toolCalls ↔ row ∈ chat.listToolCallsForStep turn :=
      fun chat => by rw [Session.listToolCallsForStep, List.mem_filter]; simp [own]
    rw [member, member, calls]
  refine ⟨⟨later, steps ▸ List.prefix_refl _, ?_, ?_⟩, .inl ?_⟩
  · exact fun row member own => ⟨row, (same_rows row own).mpr member, .refl row⟩
  · exact fun row member own _ => ⟨row, (same_rows row own).mp member, .refl row⟩
  · rw [Session.assistantSteps_eq, Session.assistantSteps_eq, steps]

theorem trans (first : Kept turn before between) (second : Kept turn between after) :
    Kept turn before after where
  grown := first.grown.trans second.grown
  idle := by
    rcases second.idle with same | done
    · rcases first.idle with earlier_same | earlier_done
      · exact .inl (same.trans earlier_same)
      · right
        intro row member own below pending
        obtain ⟨earlier, earlier_member, later⟩ := second.grown.earlier row member own
          (Nat.lt_of_lt_of_le below first.grown.next)
        have unchanged := later.pending pending
        subst unchanged
        exact earlier_done row earlier_member own below pending
    · exact .inr fun row member own below =>
        done row member own (Nat.lt_of_lt_of_le below first.grown.next)

end Kept

section Operations

variable {settings : Settings} {near : Surroundings} {turn : Nat}

theorem Session.Numbered.truncate_turn {chat after : Session} (numbered : chat.Numbered)
    {anchor : Nat} (truncated : chat.truncateFromMessageStep anchor = some after) (turn : Nat) :
    after.next = chat.next ∧ (after.listToolCallsForStep turn = [] ∨
      (after.turnSteps turn = chat.turnSteps turn ∧
        after.listToolCallsForStep turn = chat.listToolCallsForStep turn)) := by
  obtain ⟨kept, first, dropped, split, -, rfl⟩ := numbered.truncate_cases truncated
  refine ⟨rfl, ?_⟩
  by_cases cut : (first :: dropped).any fun step => step.messageStepId == turn
  · left
    rw [listToolCallsForStep, List.filter_eq_nil_iff]
    intro row member own
    obtain ⟨-, spared⟩ := List.mem_filter.mp member
    rw [eq_of_beq own, cut] at spared
    cases spared
  · right
    constructor
    · have none_dropped : (first :: dropped).filter (fun step => step.messageStepId == turn) = [] :=
        List.filter_eq_nil_iff.mpr fun step member own =>
          cut (List.any_eq_true.mpr ⟨step, member, own⟩)
      rw [turnSteps, turnSteps, split, List.filter_append, none_dropped, List.append_nil]
    · rw [listToolCallsForStep, listToolCallsForStep, List.filter_filter]
      refine List.filter_congr fun row _ => ?_
      by_cases own : row.messageStepId = turn
      · rw [own, Bool.eq_false_iff.mpr cut]
        simp
      · simp [own]

theorem applyToolResults_assistantSteps {resolved : List (ToolResultIn × ToolCall)} {chat : Session}
    (numbered : chat.Numbered) (own turn : Nat) :
    (applyToolResults own resolved chat).assistantSteps turn = chat.assistantSteps turn := by
  induction resolved generalizing chat with
  | nil => rfl
  | cons entry later induction =>
      rw [applyToolResults]
      split
      · rw [applyToolResult]
        split
        · have completed := numbered.completeToolCall entry.2.id
            (if entry.1.error.isSome then .errored else .completed)
            (entry.1.result.or entry.1.error)
          rw [induction (completed.addStep ..), Session.assistantSteps_eq,
            completed.turnSteps_addStep, List.filter_append, Session.assistantSteps_eq]
          by_cases same : own = turn
          · simp only [if_pos same]
            exact List.append_nil _
          · simp only [if_neg same]
            exact List.append_nil _
        · exact induction numbered
      · exact induction numbered

/-- A run leaves the chat as it is, or writes for a fresh turn behind the truncated history. -/
theorem run_written (settings : Settings) (near : Surroundings) (world : World)
    (request : RunRequest) :
    (run settings near world request).world.chat = world.chat ∨
      ∃ chat, request.truncated world.chat = some chat ∧
        Written chat.next (request.begin chat) (run settings near world request).world.chat := by
  rw [run]
  split
  · exact .inl rfl
  next chat truncated =>
    simp only
    split
    · exact .inr ⟨chat, truncated, .refl _⟩
    split
    · split
      · exact .inr ⟨chat, truncated, .refl _⟩
      next claimed claims =>
        have same : claimed.chat = request.begin chat := claimTrial_chat claims
        right
        refine ⟨chat, truncated, ?_⟩
        rw [← same]
        rcases generate_written settings near true _ chat.next claimed claimed with kept | written
        · rw [kept]
          exact .refl _
        · exact written
    · rcases generate_written settings near false _ chat.next world _ with kept | written
      · exact .inl (congrArg World.chat kept)
      · exact .inr ⟨chat, truncated, written⟩

/-- A tool-result request leaves the chat as it is, or writes for the turn of its calls: the results
first, and replies only once no call of the turn is pending. -/
theorem toolResult_written (settings : Settings) (near : Surroundings) {world : World}
    (numbered : world.chat.Numbered) (results : List ToolResultIn) :
    let after := (toolResult settings near world results).world.chat
    after = world.chat ∨ ∃ item row later,
      resolve world.chat none results = .ok ((item, row) :: later) ∧
      let applied := applyToolResults row.messageStepId ((item, row) :: later) world.chat
      Written row.messageStepId world.chat applied ∧
        (after = applied ∨ (applied.pendingCalls row.messageStepId = [] ∧
          Written row.messageStepId applied after)) := by
  intro after
  obtain ⟨failure, rejected⟩ | ⟨item, row, later, resolves, stage⟩ :=
    toolResult_cases settings near world results
  · exact .inl (by rw [show after = _ from congrArg (·.world.chat) rejected])
  have written := applied_written numbered resolves
  obtain ⟨-, ended⟩ | ⟨closed, ⟨saved, -, ended⟩ | ⟨-, continues⟩⟩ := stage
  · exact .inr ⟨item, row, later, resolves, written, .inl (congrArg (·.world.chat) ended)⟩
  · exact .inr ⟨item, row, later, resolves, written, .inl (congrArg (·.world.chat) ended)⟩
  · have same : after = (continueTurn settings near row.messageStepId world
        (world.applied row.messageStepId ((item, row) :: later))).world.chat :=
      congrArg (·.world.chat) continues
    rw [continueTurn] at same
    split at same
    · exact .inr ⟨item, row, later, resolves, written, .inl same⟩
    · rcases generate_written settings near _ _ row.messageStepId world _ with kept | generated
      · left
        rw [same, kept]
      · right
        refine ⟨item, row, later, resolves, written, .inr ⟨closed, ?_⟩⟩
        rw [same]
        exact generated

theorem RunRequest.truncated_sound {request : RunRequest} {before chat : Session}
    (sound : before.Sound) (truncated : request.truncated before = some chat) :
    chat.Sound ∧ chat.next = before.next := by
  rw [RunRequest.truncated] at truncated
  split at truncated
  · cases truncated
    exact ⟨sound, rfl⟩
  · exact ⟨sound.truncate truncated, (sound.numbered.truncate_turn truncated 0).1⟩

theorem attempt_sound (settings : Settings) {world : World} (sound : world.chat.Sound)
    (operation : Operation) :
    (attempt settings world operation).world.chat.Sound := by
  cases operation with
  | run near request =>
      rcases run_written settings near world request with same | ⟨chat, truncated, written⟩
      · rw [attempt, same]
        exact sound
      · obtain ⟨chat_sound, -⟩ := RunRequest.truncated_sound sound truncated
        refine written.sound (chat_sound.skip.addStep ..) ?_
        exact Nat.lt_succ_of_lt (Nat.lt_succ_self _)
  | toolResult near results =>
      rcases toolResult_written settings near sound.numbered results with
        same | ⟨item, row, later, resolves, applied, ended⟩
      · rw [attempt, same]
        exact sound
      · have known := sound.turns row (resolved_rows resolves _ (List.mem_cons_self ..)).1
        have applied_sound := applied.sound sound known
        rcases ended with same | ⟨-, generated⟩
        · rw [attempt, same]
          exact applied_sound
        · exact generated.sound applied_sound
            (Nat.lt_of_lt_of_le known (applied.grown 0 sound.numbered).next)
  | elsewhere trialUsed account => exact sound

theorem run_turn {world : World} (sound : world.chat.Sound) (known : turn < world.chat.next)
    (request : RunRequest) :
    let after := (run settings near world request).world.chat
    world.chat.next ≤ after.next ∧ (after.listToolCallsForStep turn = [] ∨
      (after.turnSteps turn = world.chat.turnSteps turn ∧
        after.listToolCallsForStep turn = world.chat.listToolCallsForStep turn)) := by
  intro after
  rcases run_written settings near world request with same | ⟨chat, truncated, written⟩
  · rw [show after = world.chat from same]
    exact ⟨Nat.le_refl _, .inr ⟨rfl, rfl⟩⟩
  obtain ⟨chat_sound, same_next⟩ := RunRequest.truncated_sound sound truncated
  have begun := chat_sound.numbered.skip.addStep chat.next (.user request.content) none
  have fresh : chat.next ≠ turn := by
    rw [same_next]
    exact (Nat.ne_of_lt known).symm
  obtain ⟨steps, calls⟩ := written.frame begun fresh
  have begun_steps : (request.begin chat).turnSteps turn = chat.turnSteps turn := by
    rw [RunRequest.begin, chat_sound.numbered.skip.turnSteps_addStep, if_neg fresh,
      List.append_nil]
    rfl
  have spared : chat.listToolCallsForStep turn = [] ∨
      (chat.turnSteps turn = world.chat.turnSteps turn ∧
        chat.listToolCallsForStep turn = world.chat.listToolCallsForStep turn) := by
    rw [RunRequest.truncated] at truncated
    split at truncated
    · cases truncated
      exact .inr ⟨rfl, rfl⟩
    · exact (sound.numbered.truncate_turn truncated turn).2
  constructor
  · rw [← same_next]
    exact Nat.le_trans (Nat.le_trans (Nat.le_succ _) (Nat.le_succ _)) (written.grown 0 begun).next
  · rcases spared with gone | ⟨same_steps, same_calls⟩
    · exact .inl (calls.trans gone)
    · exact .inr ⟨steps.trans (begun_steps.trans same_steps), calls.trans same_calls⟩

theorem attempt_turn {world : World} (sound : world.chat.Sound) (known : turn < world.chat.next)
    (operation : Operation) :
    let after := (attempt settings world operation).world.chat
    Kept turn world.chat after ∨ (world.chat.next ≤ after.next ∧
      after.listToolCallsForStep turn = []) := by
  intro after
  have unchanged : after = world.chat → Kept turn world.chat after := by
    intro same
    rw [same]
    exact .of_same (Nat.le_refl _) rfl rfl
  cases operation with
  | run near request =>
      obtain ⟨later, gone | ⟨steps, calls⟩⟩ := run_turn sound known request
      · exact .inr ⟨later, gone⟩
      · exact .inl (.of_same later steps calls)
  | toolResult near results =>
      left
      rcases toolResult_written settings near sound.numbered results with
        same | ⟨item, row, later, resolves, applied, ended⟩
      · exact unchanged same
      have own_known := sound.turns row (resolved_rows resolves _ (List.mem_cons_self ..)).1
      have applied_sound := applied.sound sound own_known
      have first : Kept turn world.chat
          (applyToolResults row.messageStepId ((item, row) :: later) world.chat) :=
        ⟨applied.grown turn sound.numbered,
          .inl (applyToolResults_assistantSteps sound.numbered ..)⟩
      rcases ended with same | ⟨closed, generated⟩
      · rw [show after = _ from same]
        exact first
      · refine first.trans ?_
        by_cases own : row.messageStepId = turn
        · subst own
          refine ⟨generated.grown _ applied_sound.numbered, .inr ?_⟩
          intro done member in_turn below pending
          obtain ⟨earlier, earlier_member, grown⟩ :=
            (generated.grown _ applied_sound.numbered).earlier done member in_turn below
          have unchanged := grown.pending pending
          subst unchanged
          exact applied_sound.done_of_closed closed earlier_member in_turn pending
        · obtain ⟨steps, calls⟩ := generated.frame applied_sound.numbered own
          exact .of_same (generated.grown 0 applied_sound.numbered).next steps calls
  | elsewhere trialUsed account => exact .inl (unchanged rfl)

theorem attempt_gone {world : World} (sound : world.chat.Sound) (known : turn < world.chat.next)
    (gone : world.chat.listToolCallsForStep turn = []) (operation : Operation) :
    (attempt settings world operation).world.chat.listToolCallsForStep turn = [] := by
  have no_row : ∀ row ∈ world.chat.toolCalls, row.messageStepId ≠ turn := by
    intro row member own
    exact absurd (beq_iff_eq.mpr own) (List.filter_eq_nil_iff.mp gone row member)
  cases operation with
  | run near request =>
      obtain ⟨-, taken | ⟨-, calls⟩⟩ := run_turn sound known request
      · exact taken
      · exact calls.trans gone
  | toolResult near results =>
      rcases toolResult_written settings near sound.numbered results with
        same | ⟨item, row, later, resolves, applied, ended⟩
      · rw [attempt, same]
        exact gone
      have stored := (resolved_rows resolves _ (List.mem_cons_self ..)).1
      have other := no_row row stored
      have first := (applied.frame sound.numbered other).2.trans gone
      rcases ended with same | ⟨-, generated⟩
      · rw [attempt, same]
        exact first
      · exact ((generated.frame (applied.numbered sound.numbered) other).2).trans first
  | elsewhere trialUsed account => exact gone

/-- Rows numbered before an operation are rows of before. -/
theorem attempt_rows {world : World} (sound : world.chat.Sound) (operation : Operation)
    {later : ToolCall} (member : later ∈ (attempt settings world operation).world.chat.toolCalls)
    (below : later.id < world.chat.next) :
    ∃ row ∈ world.chat.toolCalls, row.id = later.id ∧
      row.messageStepId = later.messageStepId := by
  have found : ∀ {before : Session}, (∃ row ∈ before.toolCalls, row.Later later) →
      ∃ row ∈ before.toolCalls, row.id = later.id ∧ row.messageStepId = later.messageStepId :=
    fun ⟨row, row_member, grown⟩ => ⟨row, row_member, grown.id.symm, grown.turn.symm⟩
  cases operation with
  | run near request =>
      rcases run_written settings near world request with same | ⟨chat, truncated, written⟩
      · rw [attempt, same] at member
        exact ⟨later, member, rfl, rfl⟩
      obtain ⟨chat_sound, same_next⟩ := RunRequest.truncated_sound sound truncated
      have begun := chat_sound.numbered.skip.addStep chat.next (.user request.content) none
      have earlier_below : later.id < (request.begin chat).next := by
        rw [← same_next] at below
        exact Nat.lt_succ_of_lt (Nat.lt_succ_of_lt below)
      obtain ⟨row, row_member, same⟩ :=
        found ((written.grown later.messageStepId begun).earlier later member rfl earlier_below)
      refine ⟨row, ?_, same⟩
      rw [RunRequest.truncated] at truncated
      split at truncated
      · cases truncated
        exact row_member
      · obtain ⟨kept, first, dropped, -, -, rfl⟩ := sound.numbered.truncate_cases truncated
        exact (List.mem_filter.mp row_member).1
  | toolResult near results =>
      rcases toolResult_written settings near sound.numbered results with
        same | ⟨item, row, rest, resolves, applied, ended⟩
      · rw [attempt, same] at member
        exact ⟨later, member, rfl, rfl⟩
      have first := applied.grown later.messageStepId sound.numbered
      rcases ended with same | ⟨-, generated⟩
      · rw [attempt, same] at member
        exact found (first.earlier later member rfl below)
      · have whole := first.trans
          (generated.grown later.messageStepId (applied.numbered sound.numbered))
        exact found (whole.earlier later member rfl below)
  | elsewhere trialUsed account => exact ⟨later, member, rfl, rfl⟩

/-- Whatever happens to a chat, a turn is kept, or its calls are gone for good. -/
theorem turn_of_reachable {start world : World} (sound : start.chat.Sound)
    (known : turn < start.chat.next)
    (reached : Reachable (perform settings) (fun _ _ => True) start world) :
    world.chat.Sound ∧
      (∀ later ∈ world.chat.toolCalls, later.id < start.chat.next →
        ∃ row ∈ start.chat.toolCalls, row.id = later.id ∧
          row.messageStepId = later.messageStepId) ∧
      (Kept turn start.chat world.chat ∨ world.chat.listToolCallsForStep turn = []) := by
  suffices invariant : (world.chat.Sound ∧ start.chat.next ≤ world.chat.next) ∧
      (∀ later ∈ world.chat.toolCalls, later.id < start.chat.next →
        ∃ row ∈ start.chat.toolCalls, row.id = later.id ∧
          row.messageStepId = later.messageStepId) ∧
      (Kept turn start.chat world.chat ∨ world.chat.listToolCallsForStep turn = []) from
    ⟨invariant.1.1, invariant.2⟩
  refine reached.invariant (fun world => (world.chat.Sound ∧ start.chat.next ≤ world.chat.next) ∧
    (∀ later ∈ world.chat.toolCalls, later.id < start.chat.next →
      ∃ row ∈ start.chat.toolCalls, row.id = later.id ∧
        row.messageStepId = later.messageStepId) ∧
    (Kept turn start.chat world.chat ∨ world.chat.listToolCallsForStep turn = [])) ?_ ?_
  · exact ⟨⟨sound, Nat.le_refl _⟩, fun later member _ => ⟨later, member, rfl, rfl⟩,
      .inl (.of_same (Nat.le_refl _) rfl rfl)⟩
  · rintro before operation _ ⟨⟨before_sound, longer⟩, rows, kept⟩ - ⟨⟩
    have before_known := Nat.lt_of_lt_of_le known longer
    have after_rows : ∀ later ∈ (attempt settings before operation).world.chat.toolCalls,
        later.id < start.chat.next → ∃ row ∈ start.chat.toolCalls, row.id = later.id ∧
          row.messageStepId = later.messageStepId := by
      intro later member below
      obtain ⟨middle, middle_member, same_id, same_turn⟩ :=
        attempt_rows before_sound operation member (Nat.lt_of_lt_of_le below longer)
      rw [← same_id, ← same_turn]
      exact rows middle middle_member (same_id ▸ below)
    have after_sound := attempt_sound settings before_sound operation
    rcases attempt_turn before_sound before_known operation with grown | ⟨further, taken⟩
    · refine ⟨⟨after_sound, Nat.le_trans longer grown.grown.next⟩, after_rows, ?_⟩
      rcases kept with so_far | gone
      · exact .inl (so_far.trans grown)
      · exact .inr (attempt_gone before_sound before_known gone operation)
    · exact ⟨⟨after_sound, Nat.le_trans longer further⟩, after_rows, .inr taken⟩

end Operations

end Hermes.Chat
