import Hermes.Chat.Conversation
import Hermes.Chat.Replay
import Hermes.Chat.Sources

/-!
# Editing a message

An edit cuts the steps by their numbers and the tool calls by the turns of the steps which are cut.
The two cuts agree unless a turn which asked for tools before the edited message has a step behind
it, as a late result leaves one: then the calls stay and their rows go.
-/

namespace Hermes.Chat

/-- An assistant step calls a tool under an id of the provider. -/
def Step.Asks (step : Step) (id : String) (tool : Tool) : Prop :=
  ∃ content, step.payload = .assistant content ∧ ∃ block ∈ content, block.Asks id tool

namespace Session

structure IsAnchor (chat : Session) (messageStepId : Nat) (anchor : Step) : Prop where
  mem : anchor ∈ chat.steps
  turn : anchor.messageStepId = messageStepId
  user : anchor.isUser = true
  first : ∀ other ∈ chat.steps, other.messageStepId = messageStepId → other.isUser = true →
    anchor.seq ≤ other.seq

def HasCallRow (chat : Session) (turn : Nat) (id : String) (tool : Tool) : Prop :=
  ∃ row ∈ chat.toolCalls, row.messageStepId = turn ∧ row.providerToolUseId = id ∧
    row.toolName = tool

/-- The history is cut before a step, and the rows and calls which are left belong together. -/
structure CutCleanly (before after : Session) (anchor : Step) : Prop where
  steps : ∃ dropped, before.steps = after.steps ++ anchor :: dropped
  rows : after.toolCalls.Sublist before.toolCalls
  called : ∀ row ∈ after.toolCalls,
    after.Calls row.messageStepId row.providerToolUseId row.toolName
  recorded : ∀ turn id tool, after.Calls turn id tool → before.HasCallRow turn id tool →
    after.HasCallRow turn id tool

/-- No turn with a step from the anchor on has a row for a call which was asked before it. -/
def Undivided (chat : Session) (messageStepId : Nat) : Prop :=
  ∀ anchor, chat.IsAnchor messageStepId anchor →
    ∀ asking ∈ chat.steps, asking.seq < anchor.seq →
    ∀ late ∈ chat.steps, anchor.seq ≤ late.seq → late.messageStepId = asking.messageStepId →
    ∀ row ∈ chat.toolCalls, row.messageStepId = asking.messageStepId →
      ¬ asking.Asks row.providerToolUseId row.toolName

end Session

/-- An edit of the message of a turn cuts the history cleanly before the first user step of the
turn; without a user step the request fails and changes nothing. -/
structure EditsCleanly (settings : Settings) (world : World) (messageStepId : Nat) : Prop where
  found : ∀ anchor, world.chat.IsAnchor messageStepId anchor →
    ∃ after, world.chat.truncateFromMessageStep messageStepId = some after ∧
      world.chat.CutCleanly after anchor
  missing : (∀ step ∈ world.chat.steps, step.messageStepId = messageStepId →
      step.isUser = false) →
    world.chat.truncateFromMessageStep messageStepId = none ∧
      ∀ near content, run settings near world ⟨content, some messageStepId⟩ =
        ⟨world, .error .messageNotFound, []⟩

section Cutting

variable {chat after : Session} {messageStepId : Nat} {anchor : Step}

namespace Session

theorem IsAnchor.find (numbered : chat.Numbered) (is_anchor : chat.IsAnchor messageStepId anchor) :
    (chat.steps.find? fun step => step.messageStepId == messageStepId && step.isUser) =
      some anchor := by
  obtain ⟨kept, dropped, split, kept_steps, -⟩ := numbered.cut_at is_anchor.mem
  rw [List.find?_eq_some_iff_append]
  refine ⟨by simp [is_anchor.turn, is_anchor.user], kept, dropped, split, fun step member => ?_⟩
  rw [← kept_steps] at member
  obtain ⟨listed, below⟩ := List.mem_filter.mp member
  rw [Bool.not_eq_true', Bool.and_eq_false_imp, beq_iff_eq]
  intro own
  rw [← Bool.not_eq_true]
  intro user
  exact absurd (is_anchor.first step listed own user) (Nat.not_le_of_lt (of_decide_eq_true below))

theorem IsAnchor.truncate (numbered : chat.Numbered)
    (is_anchor : chat.IsAnchor messageStepId anchor) :
    ∃ after, chat.truncateFromMessageStep messageStepId = some after ∧
      (∃ dropped, chat.steps = after.steps ++ anchor :: dropped) ∧
      (∀ step, step ∈ after.steps ↔ step ∈ chat.steps ∧ step.seq < anchor.seq) ∧
      after.toolCalls.Sublist chat.toolCalls ∧
      ∀ row, row ∈ after.toolCalls ↔ row ∈ chat.toolCalls ∧
        ∀ late ∈ chat.steps, anchor.seq ≤ late.seq → late.messageStepId ≠ row.messageStepId := by
  obtain ⟨kept, dropped, split, kept_steps, -⟩ := numbered.cut_at is_anchor.mem
  unfold truncateFromMessageStep
  rw [is_anchor.find numbered]
  refine ⟨_, rfl, ⟨dropped, ?_⟩, fun step => ?_, List.filter_sublist, fun row => ?_⟩
  · rw [kept_steps]
    exact split
  · rw [List.mem_filter, decide_eq_true_eq]
  · rw [List.mem_filter, Bool.not_eq_true', List.any_eq_false]
    simp only [List.mem_filter, decide_eq_true_eq, beq_iff_eq, and_imp, ne_eq]

theorem truncate_eq_none (absent : ∀ step ∈ chat.steps, step.messageStepId = messageStepId →
    step.isUser = false) : chat.truncateFromMessageStep messageStepId = none := by
  have unfound : (chat.steps.find? fun step =>
      step.messageStepId == messageStepId && step.isUser) = none := by
    rw [List.find?_eq_none]
    intro step member both
    rw [Bool.and_eq_true, beq_iff_eq] at both
    rw [absent step member both.1] at both
    cases both.2
  unfold truncateFromMessageStep
  rw [unfound]

theorem cutCleanly_iff (numbered : chat.Numbered) (sourced : chat.Sourced) :
    (∀ anchor, chat.IsAnchor messageStepId anchor →
      ∃ after, chat.truncateFromMessageStep messageStepId = some after ∧
        chat.CutCleanly after anchor) ↔ chat.Undivided messageStepId := by
  constructor
  · intro cuts anchor is_anchor asking asking_member before late late_member behind same row
      row_member own asks
    obtain ⟨after, truncated, clean⟩ := cuts anchor is_anchor
    obtain ⟨_, again, -, steps, -, rows⟩ := is_anchor.truncate numbered
    rw [truncated, Option.some.injEq] at again
    subst again
    have calls : after.Calls asking.messageStepId row.providerToolUseId row.toolName :=
      ⟨asking, (steps asking).mpr ⟨asking_member, before⟩, rfl, asks⟩
    obtain ⟨left, left_member, left_turn, -⟩ :=
      clean.recorded _ _ _ calls ⟨row, row_member, own, rfl, rfl⟩
    exact ((rows left).mp left_member).2 late late_member behind (same.trans left_turn.symm)
  · intro undivided anchor is_anchor
    obtain ⟨after, truncated, dropped, steps, sublist, rows⟩ := is_anchor.truncate numbered
    refine ⟨after, truncated, dropped, sublist, (sourced.truncate truncated).called, ?_⟩
    rintro turn id tool ⟨asking, asking_left, rfl, asks⟩ ⟨row, row_member, own, rfl, rfl⟩
    obtain ⟨asking_member, before⟩ := (steps asking).mp asking_left
    refine ⟨row, (rows row).mpr ⟨row_member, fun late late_member behind same => ?_⟩, own, rfl, rfl⟩
    exact undivided anchor is_anchor asking asking_member before late late_member behind
      (same.trans own) row row_member own asks

end Session

end Cutting

/-- In every history an edit cuts cleanly exactly if no turn with a step from the edited message on
has a row for a call which was asked before that message. -/
theorem editsCleanly_iff (settings : Settings) (mode : Policy.Mode) (hasProject : Bool)
    (trialUsed : Bool) (account : Wallet.Account) (world : World) (messageStepId : Nat)
    (reached : Reachable (perform settings) (fun _ operation => operation.Plain)
      ⟨{ mode, hasProject }, trialUsed, account⟩ world) :
    EditsCleanly settings world messageStepId ↔ world.chat.Undivided messageStepId := by
  have sourced := sourced_of_reachable reached
  have sound : world.chat.Sound :=
    sound_of_reachable (reached.mono fun _ _ _ => trivial)
  rw [← Session.cutCleanly_iff sound.numbered sourced]
  constructor
  · exact EditsCleanly.found
  · refine fun found => ⟨found, fun absent => ?_⟩
    have untouched := Session.truncate_eq_none absent
    refine ⟨untouched, fun near content => ?_⟩
    rw [run, RunRequest.truncated]
    dsimp only
    rw [untouched]

namespace Sample

theorem read_plain : read.Plain := by
  rintro block (_ | ⟨_, ⟨⟩⟩)
  exact ⟨_, rfl⟩

theorem asked_reached_plainly :
    Reachable (perform settings) (fun _ operation => operation.Plain) start asked :=
  .next .start read_plain (show perform settings start read = some asked from rfl)

/-- The message of the only turn can be edited while the call for the client still waits. -/
theorem asked_edits_cleanly : EditsCleanly settings asked 0 := by
  refine (editsCleanly_iff settings .byok false false {} asked 0 asked_reached_plainly).mpr ?_
  intro anchor is_anchor asking asking_member before
  have user_first : ∀ step ∈ asked.chat.steps, step.isUser = true → step.seq = 1 := by
    decide
  have none_before : ∀ step ∈ asked.chat.steps, 1 ≤ step.seq := by decide
  rw [user_first anchor is_anchor.mem is_anchor.user] at before
  exact absurd (none_before asking asking_member) (Nat.not_le_of_lt before)

/-- The user goes on without the result of the client. -/
def goOn : Operation := .run (near finalText) (message "go on")

def wentOn : World := (attempt settings asked goOn).world

/-- The result of the client comes late, and continues the first turn. -/
def late : World := (attempt settings wentOn answer).world

theorem goOn_plain : goOn.Plain := by
  rintro block (_ | ⟨_, ⟨⟩⟩)
  exact ⟨_, rfl⟩

theorem late_reached :
    Reachable (perform settings) (fun _ operation => operation.Plain) start late :=
  .next (.next asked_reached_plainly goOn_plain
      (show perform settings asked goOn = some wentOn from rfl))
    (show answer.Plain from trivial) (show perform settings wentOn answer = some late from rfl)

/-- Editing the second message takes the row of a call which stays. -/
theorem late_result_loses_row :
    ¬ ∀ world messageStepId,
      Reachable (perform settings) (fun _ operation => operation.Plain) start world →
      EditsCleanly settings world messageStepId := by
  intro cleanly
  have sourced := sourced_of_reachable late_reached
  have sound : late.chat.Sound := sound_of_reachable (late_reached.mono fun _ _ _ => trivial)
  have undivided := (Session.cutCleanly_iff sound.numbered sourced).mp
    (cleanly late 6 late_reached).found
  have edited : late.chat.IsAnchor 6 (late.chat.steps.get ⟨3, by decide⟩) :=
    ⟨List.get_mem .., by decide, by decide, by decide⟩
  exact undivided _ edited (late.chat.steps.get ⟨1, by decide⟩) (List.get_mem ..)
    (by decide) (late.chat.steps.get ⟨5, by decide⟩) (List.get_mem ..)
    (by decide) (by decide) (late.chat.toolCalls.get ⟨0, by decide⟩)
    (List.get_mem ..) (by decide)
    ⟨_, rfl, _, List.mem_cons_self, rfl, rfl⟩

end Sample

end Hermes.Chat
