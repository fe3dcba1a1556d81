import Hermes.Chat.Replay
import Hermes.Chat.Requests
import Hermes.Wallet.Conservation

/-!
# What a commit does to a chat

Between its commits a request writes results of calls and at most one user step.  A commit adds
these to whatever the other requests have committed meanwhile, so a step may come to stand before
steps with greater numbers.  What a chat keeps under such insertions is that every assistant step of
a turn stands before a call of the turn or behind the result of it.
-/

namespace Hermes.Chat

/-! ## Insertions -/

namespace Session

variable {chat : Session} {step : Step} {steps : List Step}

theorem insertStep_ascending (ascending : steps.Pairwise fun first second => first.seq < second.seq)
    (fresh : ∀ other ∈ steps, other.seq ≠ step.seq) :
    (insertStep step steps).Pairwise fun first second => first.seq < second.seq := by
  induction steps with
  | nil => exact List.pairwise_singleton ..
  | cons first later induction =>
      obtain ⟨before, rest⟩ := List.pairwise_cons.mp ascending
      rw [insertStep]
      split
      next smaller =>
        refine List.pairwise_cons.mpr ⟨fun other member => ?_, ascending⟩
        obtain rfl | later_member := List.mem_cons.mp member
        · exact smaller
        · exact Nat.lt_trans smaller (before other later_member)
      next greater =>
        have behind : first.seq < step.seq :=
          Nat.lt_of_le_of_ne (Nat.not_lt.mp greater) (fresh first (List.mem_cons_self ..))
        refine List.pairwise_cons.mpr ⟨fun other member => ?_,
          induction rest fun other member => fresh other (List.mem_cons_of_mem _ member)⟩
        obtain rfl | later_member := mem_insertStep.mp member
        · exact behind
        · exact before other later_member

/-- A selection of steps does not see an insertion of another step. -/
theorem filter_insertStep {selected : Step → Bool} (other : selected step = false) :
    (insertStep step steps).filter selected = steps.filter selected := by
  induction steps with
  | nil => simp [insertStep, other]
  | cons first later induction =>
      rw [insertStep]
      split
      · simp [other]
      · rw [List.filter_cons, List.filter_cons, induction]

theorem assistantSteps_insertStep (plain : step.isAssistant = false) (turn : Nat) :
    { chat with steps := insertStep step chat.steps }.assistantSteps turn =
      chat.assistantSteps turn :=
  filter_insertStep (by simp [plain])

theorem mem_turnSteps {turn : Nat} :
    step ∈ chat.turnSteps turn ↔ step ∈ chat.steps ∧ step.messageStepId = turn := by
  rw [turnSteps, List.mem_filter, beq_iff_eq]

theorem mem_assistantSteps {turn : Nat} :
    step ∈ chat.assistantSteps turn ↔
      step ∈ chat.steps ∧ step.messageStepId = turn ∧ step.isAssistant := by
  rw [assistantSteps, List.mem_filter, Bool.and_eq_true, beq_iff_eq]

/-! ## Settled chats -/

/-- Every assistant step of a turn stands before a call of the turn or behind its result. -/
def Placed (chat : Session) : Prop :=
  ∀ row ∈ chat.toolCalls, ∀ step ∈ chat.assistantSteps row.messageStepId,
    step.seq < row.id ∨ row.status ≠ .pending ∧
      ∀ result ∈ chat.turnSteps row.messageStepId, result.answers row.id → result.seq < step.seq

/-- Sound, with every assistant step in its place. -/
structure Settled (chat : Session) : Prop where
  sound : chat.Sound
  placed : chat.Placed

theorem Placed.before_pending (placed : chat.Placed) {row : ToolCall}
    (member : row ∈ chat.toolCalls) (pending : row.status = .pending)
    (assistant : step ∈ chat.assistantSteps row.messageStepId) : step.seq < row.id := by
  obtain before | ⟨done, -⟩ := placed row member step assistant
  · exact before
  · exact absurd pending done

theorem Settled.raise (settled : chat.Settled) {next : Nat} (later : chat.next ≤ next) :
    { chat with next }.Settled where
  sound :=
    { numbered :=
        { ascending := settled.sound.numbered.ascending
          below := fun step member =>
            Nat.lt_of_lt_of_le (settled.sound.numbered.below step member) later
          distinct := settled.sound.numbered.distinct
          calls_below := fun row member =>
            Nat.lt_of_lt_of_le (settled.sound.numbered.calls_below row member) later }
      client := settled.sound.client
      recorded := settled.sound.recorded
      turns := fun row member => Nat.lt_of_lt_of_le (settled.sound.turns row member) later }
  placed := settled.placed

/-- A step which is no assistant step is inserted, and answers at most calls with no assistant step
behind them. -/
theorem Settled.insert (settled : chat.Settled) (below : step.seq < chat.next)
    (fresh : ∀ other ∈ chat.steps, other.seq ≠ step.seq) (plain : step.isAssistant = false)
    (answered : ∀ row ∈ chat.toolCalls, step.answers row.id →
      ∀ assistant ∈ chat.assistantSteps row.messageStepId, assistant.seq < row.id) :
    { chat with steps := insertStep step chat.steps }.Settled where
  sound :=
    { numbered :=
        { ascending := insertStep_ascending settled.sound.numbered.ascending fresh
          below := by
            intro other member
            obtain rfl | earlier := mem_insertStep.mp member
            · exact below
            · exact settled.sound.numbered.below other earlier
          distinct := settled.sound.numbered.distinct
          calls_below := settled.sound.numbered.calls_below }
      client := settled.sound.client
      recorded := by
        intro row member done
        obtain ⟨result, in_turn, answers⟩ := settled.sound.recorded row member done
        rw [mem_turnSteps] at in_turn
        exact ⟨result, mem_turnSteps.mpr ⟨mem_insertStep.mpr (.inr in_turn.1), in_turn.2⟩, answers⟩
      turns := settled.sound.turns }
  placed := by
    intro row member assistant listed
    rw [assistantSteps_insertStep plain] at listed
    obtain before | ⟨done, behind⟩ := settled.placed row member assistant listed
    · exact .inl before
    · by_cases answers : step.answers row.id = true
      · exact .inl (answered row member answers assistant listed)
      · refine .inr ⟨done, fun result in_turn result_answers => ?_⟩
        obtain ⟨inserted, own⟩ := mem_turnSteps.mp in_turn
        obtain rfl | earlier := mem_insertStep.mp inserted
        · exact absurd result_answers answers
        · exact behind result (mem_turnSteps.mpr ⟨earlier, own⟩) result_answers

theorem Settled.complete (settled : chat.Settled) {id : Nat} {status : ToolCallStatus}
    (result : Option Json) (done : status ≠ .pending)
    (answered : ∀ row ∈ chat.toolCalls, row.id = id →
      ∃ step ∈ chat.turnSteps row.messageStepId, step.answers id) :
    (chat.completeToolCall id status result).Settled where
  sound :=
    { numbered := settled.sound.numbered.completeToolCall ..
      client := fun row member pending =>
        settled.sound.client row (pending_of_completeToolCall done member pending) pending
      recorded := by
        intro row member finished
        obtain ⟨earlier, earlier_member, rfl⟩ := List.mem_map.mp member
        rw [markToolCall] at finished ⊢
        split at finished
        next marked =>
          rw [if_pos marked]
          obtain ⟨step, in_turn, answers⟩ := answered earlier earlier_member marked.1
          exact ⟨step, in_turn, marked.1 ▸ answers⟩
        next other =>
          rw [if_neg other]
          exact settled.sound.recorded earlier earlier_member finished
      turns := by
        intro row member
        obtain ⟨earlier, earlier_member, rfl⟩ := List.mem_map.mp member
        rw [markToolCall_messageStepId]
        exact settled.sound.turns earlier earlier_member }
  placed := by
    intro row member assistant listed
    obtain ⟨earlier, earlier_member, rfl⟩ := List.mem_map.mp member
    rw [markToolCall_messageStepId] at listed
    rw [markToolCall_id]
    by_cases marked : earlier.id = id ∧ earlier.status = .pending
    · exact .inl (settled.placed.before_pending earlier_member marked.2 listed)
    · rw [markToolCall, if_neg marked]
      exact settled.placed earlier earlier_member assistant listed

end Session

/-! ## Writes of a draft -/

/-- What requests write when nothing is edited: a user step, or the result of a call of the turn. -/
inductive Write.Proper (chat : Session) : Write → Prop
  | delete : Proper chat (.delete [] [])
  | insert (seq turn : Nat) (content : List Block) :
      Proper chat (.insert ⟨seq, turn, .user content, none⟩)
  | answer {status : ToolCallStatus} (result : Option Json) (done : status ≠ .pending) (seq : Nat)
      {row : ToolCall} (member : row ∈ chat.toolCalls) (record : ToolRecord)
      (same : record.toolCallId = row.id) :
      Proper chat (.answer row.id status result ⟨seq, row.messageStepId, .tool record, none⟩)

/-- The numbers of the steps a write inserts. -/
def Write.seqs : Write → List Nat
  | .delete _ _ => []
  | .insert step | .answer _ _ _ step => [step.seq]

/-- The numbers of the steps a draft inserts. -/
def Draft.seqs (draft : Draft) : List Nat := draft.flatMap (·.seqs)

/-- Every call of a turn which waits in the chat is answered in the draft. -/
def Draft.Covers (draft : Draft) (chat : Session) (turn : Nat) : Prop :=
  ∀ row ∈ chat.toolCalls, row.messageStepId = turn → row.status = .pending →
    draft.any (Write.holds row.id) = true

/-- What becomes of a chat by a commit: steps and calls are added, calls are completed.  Only the
turn `own` may get assistant steps and calls, and gets some assistant step then. -/
structure Passed (own : Option Nat) (before after : Session) : Prop where
  next : before.next ≤ after.next
  kept : ∀ row ∈ before.toolCalls, ∃ later ∈ after.toolCalls, row.Later later
  rows : ∀ later ∈ after.toolCalls, own ≠ some later.messageStepId →
    ∃ row ∈ before.toolCalls, row.Later later
  grows : ∀ turn, before.assistantSteps turn <+: after.assistantSteps turn
  same : ∀ turn, own ≠ some turn → after.assistantSteps turn = before.assistantSteps turn
  saved : ∀ turn, own = some turn → ∃ step ∈ after.assistantSteps turn, before.next ≤ step.seq

namespace Passed

variable {chat before between after : Session}

theorem raise (chat : Session) {next : Nat} (later : chat.next ≤ next) :
    Passed none chat { chat with next } where
  next := later
  kept := fun row member => ⟨row, member, .refl row⟩
  rows := fun row member _ => ⟨row, member, .refl row⟩
  grows := fun _ => List.prefix_refl _
  same := fun _ _ => rfl
  saved := nofun

theorem refl (chat : Session) : Passed none chat chat := raise chat (Nat.le_refl _)

theorem trans (first : Passed none before between) (second : Passed none between after) :
    Passed none before after where
  next := Nat.le_trans first.next second.next
  kept := by
    intro row member
    obtain ⟨middle, middle_member, grown⟩ := first.kept row member
    obtain ⟨later, later_member, later_grown⟩ := second.kept middle middle_member
    exact ⟨later, later_member, grown.trans later_grown⟩
  rows := by
    intro later member _
    obtain ⟨middle, middle_member, later_grown⟩ := second.rows later member nofun
    obtain ⟨row, row_member, grown⟩ := first.rows middle middle_member nofun
    exact ⟨row, row_member, grown.trans later_grown⟩
  grows := fun turn => (first.grows turn).trans (second.grows turn)
  same := fun turn _ => (second.same turn nofun).trans (first.same turn nofun)
  saved := nofun

end Passed

namespace Write

variable {chat : Session} {write : Write}

theorem perform_delete_nil (chat : Session) : (Write.delete [] []).perform chat = chat := by
  simp [perform]

theorem Proper.carry {after : Session} (proper : write.Proper chat)
    (kept : ∀ row ∈ chat.toolCalls, ∃ later ∈ after.toolCalls, row.Later later) :
    write.Proper after := by
  cases proper with
  | delete => exact .delete
  | insert seq turn content => exact .insert seq turn content
  | answer result done seq member record same =>
      obtain ⟨later, later_member, grown⟩ := kept _ member
      rw [← grown.id, ← grown.turn]
      exact .answer result done seq later_member record (same.trans grown.id.symm)

theorem perform_passed (proper : write.Proper chat) : Passed none chat (write.perform chat) := by
  cases proper with
  | delete =>
      rw [perform_delete_nil]
      exact .refl chat
  | insert seq turn content =>
      have same (turn : Nat) := @Session.assistantSteps_insertStep chat
        ⟨seq, turn, .user content, none⟩ rfl
      exact
        { next := Nat.le_refl _
          kept := fun row member => ⟨row, member, .refl row⟩
          rows := fun row member _ => ⟨row, member, .refl row⟩
          grows := fun turn => (same _ turn).symm ▸ List.prefix_refl _
          same := fun turn _ => same _ turn
          saved := nofun }
  | @answer status result done seq row member record same =>
      rw [perform]
      split
      · have steps := @Session.assistantSteps_insertStep chat
          ⟨seq, row.messageStepId, .tool record, none⟩ rfl
        have grown := Grown.markToolCall_later row.id done result
        exact
          { next := Nat.le_refl _
            kept := fun row member => ⟨_, List.mem_map_of_mem member, grown row⟩
            rows := by
              intro later later_member _
              obtain ⟨earlier, earlier_member, rfl⟩ := List.mem_map.mp later_member
              exact ⟨earlier, earlier_member, grown earlier⟩
            grows := fun turn => (steps turn).symm ▸ List.prefix_refl _
            same := fun turn _ => steps turn
            saved := nofun }
      · exact .refl chat

theorem perform_settled (settled : chat.Settled) (proper : write.Proper chat)
    (fresh : ∀ seq ∈ write.seqs, seq < chat.next ∧ ∀ step ∈ chat.steps, step.seq ≠ seq) :
    (write.perform chat).Settled := by
  cases proper with
  | delete =>
      rw [perform_delete_nil]
      exact settled
  | insert seq turn content =>
      obtain ⟨below, new⟩ := fresh seq (List.mem_singleton.mpr rfl)
      exact settled.insert below new rfl nofun
  | @answer status result done seq row member record same =>
      obtain ⟨below, new⟩ := fresh seq (List.mem_singleton.mpr rfl)
      rw [perform]
      split
      next found =>
        obtain ⟨stored, stored_member, tested⟩ := List.any_eq_true.mp found
        rw [Bool.and_eq_true, beq_iff_eq, beq_iff_eq] at tested
        have numbered := settled.sound.numbered
        have pending : row.status = .pending := by
          rw [← numbered.row_unique stored_member member tested.1]
          exact tested.2
        -- The step comes first, so that the call is never done without it.
        have inserted := @Session.Settled.insert chat ⟨seq, row.messageStepId, .tool record, none⟩
          settled below new rfl ?_
        · refine inserted.complete result done fun other other_member other_same => ?_
          rw [numbered.row_unique other_member member other_same]
          refine ⟨_, Session.mem_turnSteps.mpr ⟨Session.mem_insertStep.mpr (.inl rfl), rfl⟩, ?_⟩
          exact beq_iff_eq.mpr same
        · intro other other_member answers assistant listed
          have other_same : other.id = row.id := (beq_iff_eq.mp answers).symm.trans same
          rw [numbered.row_unique other_member member other_same] at listed ⊢
          exact settled.placed.before_pending member pending listed
      · exact settled

/-- A call which waits behind a write waited before it, and is not the one answered. -/
theorem perform_pending (proper : write.Proper chat) {row : ToolCall}
    (member : row ∈ (write.perform chat).toolCalls) (pending : row.status = .pending) :
    row ∈ chat.toolCalls ∧ write.holds row.id = false := by
  cases proper with
  | delete =>
      rw [perform_delete_nil] at member
      exact ⟨member, rfl⟩
  | insert seq turn content => exact ⟨member, rfl⟩
  | @answer status result done seq answered answered_member record same =>
      rw [perform] at member
      split at member
      · have earlier := Session.pending_of_completeToolCall done member pending
        refine ⟨earlier, beq_eq_false_iff_ne.mpr fun held => ?_⟩
        obtain ⟨stored, -, rfl⟩ := List.mem_map.mp member
        rw [Session.markToolCall] at pending held
        split at pending
        · exact absurd pending done
        next other =>
          rw [if_neg other] at held
          exact other ⟨held.symm, pending⟩
      next absent =>
        refine ⟨member, beq_eq_false_iff_ne.mpr fun held => absent ?_⟩
        exact List.any_eq_true.mpr ⟨row, member, by simp [held, pending]⟩

theorem perform_other (proper : write.Proper chat) {row : ToolCall} (member : row ∈ chat.toolCalls)
    (other : write.holds row.id = false) : row ∈ (write.perform chat).toolCalls := by
  cases proper with
  | delete =>
      rw [perform_delete_nil]
      exact member
  | insert seq turn content => exact member
  | @answer status result done seq answered answered_member record same =>
      rw [perform]
      split
      · have apart : row.id ≠ answered.id := (beq_eq_false_iff_ne.mp other).symm
        exact List.mem_map.mpr ⟨row, member, Session.markToolCall_of_ne _ _ apart⟩
      · exact member

/-- The steps behind a write are those before it and those it inserts. -/
theorem perform_steps (proper : write.Proper chat) {step : Step}
    (member : step ∈ (write.perform chat).steps) : step ∈ chat.steps ∨ step.seq ∈ write.seqs := by
  cases proper with
  | delete =>
      rw [perform_delete_nil] at member
      exact .inl member
  | insert seq turn content =>
      obtain rfl | earlier := Session.mem_insertStep.mp member
      · exact .inr (List.mem_singleton.mpr rfl)
      · exact .inl earlier
  | @answer status result done seq answered answered_member record same =>
      rw [perform] at member
      split at member
      · obtain rfl | earlier := Session.mem_insertStep.mp member
        · exact .inr (List.mem_singleton.mpr rfl)
        · exact .inl earlier
      · exact .inl member

@[simp] theorem perform_next (chat : Session) (write : Write) :
    (write.perform chat).next = chat.next := by
  cases write with
  | delete => rfl
  | insert => rfl
  | answer =>
      rw [perform]
      split <;> rfl

theorem perform_raise (chat : Session) (next : Nat) (write : Write) :
    write.perform { chat with next } = { write.perform chat with next } := by
  cases write with
  | delete => rfl
  | insert => rfl
  | answer =>
      rw [perform, perform]
      split <;> rfl

end Write

namespace Draft

variable {chat : Session} {draft : Draft}

theorem view_raise (chat : Session) (next : Nat) (draft : Draft) :
    draft.view { chat with next } = { draft.view chat with next } := by
  induction draft generalizing chat with
  | nil => rfl
  | cons write later induction =>
      change Draft.view later (write.perform { chat with next }) = _
      rw [Write.perform_raise]
      exact induction (write.perform chat)

@[simp] theorem view_next (chat : Session) (draft : Draft) :
    (draft.view chat).next = chat.next := by
  induction draft generalizing chat with
  | nil => rfl
  | cons write later induction => exact (induction _).trans (Write.perform_next ..)

theorem proper_tail {write : Write} (proper : ∀ other ∈ write :: draft, other.Proper chat) :
    ∀ other ∈ draft, other.Proper (write.perform chat) :=
  fun other member => (proper other (List.mem_cons_of_mem _ member)).carry
    (Write.perform_passed (proper write (List.mem_cons_self ..))).kept

theorem view_passed (proper : ∀ write ∈ draft, write.Proper chat) :
    Passed none chat (draft.view chat) := by
  induction draft generalizing chat with
  | nil => exact .refl chat
  | cons write later induction =>
      exact (Write.perform_passed (proper write (List.mem_cons_self ..))).trans
        (induction (proper_tail proper))

theorem view_settled (settled : chat.Settled) (proper : ∀ write ∈ draft, write.Proper chat)
    (once : draft.seqs.Nodup)
    (fresh : ∀ seq ∈ draft.seqs, seq < chat.next ∧ ∀ step ∈ chat.steps, step.seq ≠ seq) :
    (draft.view chat).Settled := by
  induction draft generalizing chat with
  | nil => exact settled
  | cons write later induction =>
      have first := proper write (List.mem_cons_self ..)
      obtain ⟨-, later_once, apart⟩ := List.nodup_append.mp once
      have performed := Write.perform_settled settled first fun seq member =>
        fresh seq (List.mem_append_left _ member)
      refine induction performed (proper_tail proper) later_once fun seq member => ?_
      obtain ⟨below, new⟩ := fresh seq (List.mem_append_right _ member)
      refine ⟨Nat.lt_of_lt_of_eq below (Write.perform_next ..).symm, fun step step_member => ?_⟩
      obtain earlier | written := Write.perform_steps first step_member
      · exact new step earlier
      · exact apart _ written _ member

theorem view_steps (proper : ∀ write ∈ draft, write.Proper chat) {step : Step}
    (member : step ∈ (draft.view chat).steps) : step ∈ chat.steps ∨ step.seq ∈ draft.seqs := by
  induction draft generalizing chat with
  | nil => exact .inl member
  | cons write later induction =>
      obtain performed | drafted := induction (proper_tail proper) member
      · exact (Write.perform_steps (proper write (List.mem_cons_self ..)) performed).imp_right
          (List.mem_append_left _)
      · exact .inr (List.mem_append_right _ drafted)

theorem view_pending (proper : ∀ write ∈ draft, write.Proper chat) {row : ToolCall}
    (pending : row.status = .pending) :
    row ∈ (draft.view chat).toolCalls ↔
      row ∈ chat.toolCalls ∧ draft.any (Write.holds row.id) = false := by
  induction draft generalizing chat with
  | nil => exact (and_iff_left rfl).symm
  | cons write later induction =>
      have first := proper write (List.mem_cons_self ..)
      rw [List.any_cons, Bool.or_eq_false_iff, ← and_assoc]
      refine (induction (proper_tail proper)).trans (and_congr_left fun _ => ⟨fun member => ?_, ?_⟩)
      · exact Write.perform_pending first member pending
      · exact fun other => Write.perform_other first other.1 other.2

/-- A draft covers a turn exactly if no call of the turn waits for the request. -/
theorem covers_iff (settled : chat.Settled) (proper : ∀ write ∈ draft, write.Proper chat)
    (turn : Nat) : draft.Covers chat turn ↔ ((draft.view chat).pendingCalls turn).isEmpty := by
  rw [List.isEmpty_iff, List.eq_nil_iff_forall_not_mem]
  constructor
  · intro covers row listed
    obtain ⟨in_turn, waits⟩ := List.mem_filter.mp listed
    obtain ⟨member, own⟩ := List.mem_filter.mp in_turn
    rw [Bool.and_eq_true, beq_iff_eq] at waits
    obtain ⟨stored, free⟩ := (view_pending proper waits.2).mp member
    rw [covers row stored (beq_iff_eq.mp own) waits.2] at free
    cases free
  · intro closed row member own pending
    cases held : draft.any (Write.holds row.id) with
    | true => rfl
    | false =>
        refine absurd ?_ (closed row)
        refine List.mem_filter.mpr ⟨List.mem_filter.mpr
          ⟨(view_pending proper pending).mpr ⟨member, held⟩, beq_iff_eq.mpr own⟩, ?_⟩
        rw [settled.sound.client row member pending, pending]
        rfl

theorem covers_nil_iff (settled : chat.Settled) (turn : Nat) :
    Covers [] chat turn ↔ (chat.pendingCalls turn).isEmpty :=
  @covers_iff chat [] settled (List.forall_mem_nil _) turn

theorem Covers.commit {turn : Nat} (covers : draft.Covers chat turn)
    (proper : ∀ write ∈ draft, write.Proper chat) : Covers [] (draft.view chat) turn := by
  intro row member own pending
  obtain ⟨stored, free⟩ := (view_pending proper pending).mp member
  rw [covers row stored own pending] at free
  cases free

theorem Covers.carry {turn : Nat} {own : Option Nat} {after : Session}
    (covers : draft.Covers chat turn) (passed : Passed own chat after) (other : own ≠ some turn) :
    draft.Covers after turn := by
  intro row member in_turn pending
  obtain ⟨earlier, earlier_member, grown⟩ := passed.rows row member (in_turn ▸ other)
  obtain rfl := grown.pending pending
  exact covers row earlier_member in_turn pending

end Draft

/-! ## Replies -/

section Replies

variable {settings : Settings} {near : Surroundings} {turn : Nat}

theorem Session.Placed.createToolCall {chat : Session} (placed : chat.Placed)
    (numbered : chat.Numbered) (turn : Nat) (tool : Tool) (providerId : String) (args : Json) :
    (chat.createToolCall turn tool providerId args).Placed := by
  intro row member step listed
  rcases List.mem_append.mp member with earlier | last
  · exact placed row earlier step listed
  · rw [List.mem_singleton.mp last]
    exact .inl (numbered.below step (mem_assistantSteps.mp listed).1)

/-- So do the calls completed at once, and their results answer no other call. -/
theorem Session.Placed.finishServerSide {chat : Session} (placed : chat.Placed)
    (numbered : chat.Numbered) (turn : Nat) (use : ToolUse) (args : Json)
    (execution : ToolExecution) :
    (finishServerSide turn chat.next use execution
      (chat.createToolCall turn use.name use.id args)).Placed := by
  have completed := (numbered.createToolCall turn use.name use.id args).completeToolCall chat.next
    execution.status (some execution.toToolResultPayload)
  intro row member step listed
  rw [numbered.finishServerSide_toolCalls] at member
  rw [Chat.finishServerSide, assistantSteps_eq, completed.turnSteps_addStep, List.filter_append,
    List.mem_append, ← assistantSteps_eq] at listed
  have assistant : step ∈ chat.assistantSteps row.messageStepId := by
    obtain earlier | last := listed
    · exact earlier
    · obtain ⟨inserted, speaks⟩ := List.mem_filter.mp last
      split at inserted
      · rw [List.mem_singleton.mp inserted] at speaks
        cases speaks
      · cases inserted
  rcases List.mem_append.mp member with earlier | last
  · refine (placed row earlier step assistant).imp_right fun settled =>
      ⟨settled.1, fun result in_turn answers => ?_⟩
    rw [Chat.finishServerSide, completed.turnSteps_addStep, List.mem_append] at in_turn
    obtain stored | inserted := in_turn
    · exact settled.2 result stored answers
    · split at inserted
      · rw [List.mem_singleton.mp inserted] at answers
        have same : chat.next = row.id := beq_iff_eq.mp answers
        exact absurd same.symm (Nat.ne_of_lt (numbered.calls_below row earlier))
      · cases inserted
  · rw [List.mem_singleton.mp last]
    exact .inl (numbered.below step (mem_assistantSteps.mp assistant).1)

theorem handleToolUses_placed {uses : List ToolUse} {chat after : Session}
    {clientOuts outs : List ToolCallOut} {serverTools executed : List ServerToolExecutionOut}
    (placed : chat.Placed) (numbered : chat.Numbered)
    (handled : handleToolUses settings near turn uses chat clientOuts serverTools =
      .ok (after, outs, executed)) : after.Placed := by
  induction uses generalizing chat clientOuts serverTools with
  | nil =>
      cases handled
      exact placed
  | cons use later induction =>
      obtain ⟨args, ⟨client, rest⟩ | ⟨server, execution, ran, rest⟩⟩ := handleToolUses_cons handled
      · have created := placed.createToolCall numbered turn use.name use.id args
        exact induction created (numbered.createToolCall ..) rest
      · have finished := placed.finishServerSide numbered turn use args execution
        exact induction finished (((Written.refl chat).finish use args execution).numbered numbered)
          rest

theorem Session.Placed.reply {chat : Session} (placed : chat.Placed) (numbered : chat.Numbered)
    (closed : Draft.Covers [] chat turn) (content : List Block) (usage : Option Usage) :
    (chat.addStep turn (.assistant content) usage).Placed := by
  intro row member step listed
  rw [assistantSteps_eq, numbered.turnSteps_addStep, List.filter_append, List.mem_append,
    ← assistantSteps_eq] at listed
  rw [numbered.turnSteps_addStep]
  -- The step just stored answers nothing.
  have answers_stored {result : Step} (answers : result.answers row.id = true)
      (in_turn : result ∈ chat.turnSteps row.messageStepId ++
        if turn = row.messageStepId then [⟨chat.next, turn, .assistant content, usage⟩] else []) :
      result ∈ chat.turnSteps row.messageStepId := by
    obtain stored | inserted := List.mem_append.mp in_turn
    · exact stored
    · split at inserted
      · rw [List.mem_singleton.mp inserted] at answers
        cases answers
      · cases inserted
  obtain earlier | last := listed
  · refine (placed row member step earlier).imp_right fun ⟨done, behind⟩ =>
      ⟨done, fun result in_turn answers => behind result (answers_stored answers in_turn) answers⟩
  · obtain ⟨inserted, -⟩ := List.mem_filter.mp last
    split at inserted
    next own =>
      rw [List.mem_singleton.mp inserted]
      refine .inr ⟨fun pending => ?_, fun result in_turn answers => ?_⟩
      · cases closed row member own.symm pending
      · exact numbered.below result (mem_turnSteps.mp (answers_stored answers in_turn)).1
    · cases inserted

theorem Written.steps {before after : Session} (written : Written turn before after)
    (numbered : before.Numbered) {step : Step} (member : step ∈ after.steps) :
    step ∈ before.steps ∨ before.next ≤ step.seq := by
  have added {chat : Session} (payload : Payload) (usage : Option Usage)
      (grown : before.next ≤ chat.next)
      (earlier : ∀ step ∈ chat.steps, step ∈ before.steps ∨ before.next ≤ step.seq) :
      ∀ step ∈ (chat.addStep turn payload usage).steps,
        step ∈ before.steps ∨ before.next ≤ step.seq := by
    intro step inserted
    obtain rfl | stored := Session.mem_insertStep.mp inserted
    · exact .inr grown
    · exact earlier step stored
  induction written generalizing step with
  | refl => exact .inl member
  | reply written content usage induction =>
      exact added _ _ (written.grown turn numbered).next (fun _ => induction) step member
  | handOut written tool client providerId args induction => exact induction member
  | finish written use args execution induction =>
      rw [finishServerSide] at member
      refine added _ _ ?_ ?_ step member
      · exact Nat.le_succ_of_le (written.grown turn numbered).next
      · exact fun _ => induction
  | answer written record status result done own induction =>
      exact added _ _ (written.grown turn numbered).next (fun _ => induction) step member

/-- What the writes of a request with an assistant step among them do to a chat. -/
theorem Written.passed {before after : Session} (written : Written turn before after)
    (numbered : before.Numbered)
    (saved : ∃ step ∈ after.assistantSteps turn, before.next ≤ step.seq) :
    Passed (some turn) before after where
  next := (written.grown turn numbered).next
  kept := fun row member => (written.grown row.messageStepId numbered).kept row member rfl
  rows := by
    intro later member other
    have apart : turn ≠ later.messageStepId := fun same => other (congrArg some same)
    have listed : later ∈ after.listToolCallsForStep later.messageStepId :=
      List.mem_filter.mpr ⟨member, beq_self_eq_true _⟩
    rw [(written.frame numbered apart).2] at listed
    exact ⟨later, (List.mem_filter.mp listed).1, .refl later⟩
  grows := by
    intro other
    rw [Session.assistantSteps_eq, Session.assistantSteps_eq]
    exact (written.grown other numbered).steps.filter _
  same := by
    intro other apart
    rw [Session.assistantSteps_eq, Session.assistantSteps_eq,
      (written.frame numbered fun same => apart (congrArg some same)).1]
  saved := fun own same => Option.some.inj same ▸ saved

/-- What a reply does to a settled chat in which no call of its turn waits: nothing, or one
assistant step more with its calls, none of which waits if the provider is asked again. -/
theorem absorb_settled (settings : Settings) (near : Surroundings) (plan : BillingPlan)
    (result : LLMResult) (serverTools : List ServerToolExecutionOut) {world : World}
    (settled : world.chat.Settled) (known : turn < world.chat.next)
    (closed : Draft.Covers [] world.chat turn) :
    let absorbed := absorb settings near plan turn result serverTools world
    (∃ failure, absorbed = .raised failure) ∨ absorbed = .answered world (blocked .creditsEmpty) ∨
      ∃ after : World, Written turn world.chat after.chat ∧ after.chat.Settled ∧
        (∃ saved, world.chat.next ≤ saved.seq ∧
          after.chat.assistantSteps turn = world.chat.assistantSteps turn ++ [saved]) ∧
        ((∃ executed, absorbed = .again after executed ∧ Draft.Covers [] after.chat turn) ∨
          ∃ out, absorbed = .answered after out) := by
  intro absorbed
  have numbered := settled.sound.numbered
  have reply : Written turn world.chat
      (world.chat.addStep turn (.assistant result.contentBlocks) result.usage) :=
    .reply (.refl _) ..
  have placed := settled.placed.reply numbered closed result.contentBlocks result.usage
  obtain ⟨saved, behind, steps⟩ : ∃ saved : Step, world.chat.next ≤ saved.seq ∧
      (world.chat.addStep turn (.assistant result.contentBlocks) result.usage).assistantSteps turn =
        world.chat.assistantSteps turn ++ [saved] := by
    refine ⟨⟨world.chat.next, turn, .assistant result.contentBlocks, result.usage⟩,
      Nat.le_refl world.chat.next, ?_⟩
    rw [Session.assistantSteps_eq, numbered.turnSteps_addStep, if_pos rfl, List.filter_append,
      Session.assistantSteps_eq]
    rfl
  obtain raised | blocked | ⟨-, after, out, answered, same⟩ |
      ⟨-, chat, outs, executed, handled, again⟩ :=
    absorb_cases settings near plan turn result serverTools world
  · exact .inl raised
  · exact .inr (.inl blocked)
  · refine .inr (.inr ⟨after, ?_, ?_, ?_, .inr ⟨out, answered⟩⟩)
    · rw [same]
      exact reply
    · rw [same]
      exact ⟨reply.sound settled.sound known, placed⟩
    · rw [same]
      exact ⟨saved, behind, steps⟩
  · have saved_numbered := reply.numbered numbered
    have written := reply.trans (handleToolUses_written handled)
    have sound := written.sound settled.sound known
    obtain ⟨unchanged, handed, outs_eq, pending⟩ :=
      handleToolUses_pending saved_numbered handled
    have after_settled : chat.Settled :=
      ⟨sound, handleToolUses_placed placed saved_numbered handled⟩
    refine .inr (.inr ⟨{ world with chat }, written, after_settled,
      ⟨saved, behind, unchanged.trans steps⟩, ?_⟩)
    obtain ⟨none_handed, continues⟩ | ⟨-, answered⟩ := again
    · refine .inl ⟨executed, continues, (Draft.covers_nil_iff after_settled turn).mpr ?_⟩
      have none_waited : world.chat.pendingCalls turn = [] :=
        List.isEmpty_iff.mp ((Draft.covers_nil_iff settled turn).mp closed)
      rw [none_handed, List.nil_append] at outs_eq
      change (chat.pendingCalls turn).map (·.out) = (world.chat.pendingCalls turn).map _ ++ _
        at pending
      rw [none_waited, ← outs_eq] at pending
      exact List.isEmpty_iff.mpr (List.map_eq_nil_iff.mp pending)
    · exact .inr answered

def Absorbed.account (world : World) : Absorbed → Wallet.Account
  | .again after _ => after.account
  | .answered after _ => after.account
  | .raised _ => world.account

theorem absorb_account (settings : Settings) (near : Surroundings) (plan : BillingPlan)
    (turn : Nat) (result : LLMResult) (serverTools : List ServerToolExecutionOut) {world : World}
    (sound : world.account.Sound) :
    ((absorb settings near plan turn result serverTools world).account world).Sound := by
  rw [absorb]
  split
  · exact sound
  · split
    · rw [handleToolUse]
      split <;> exact sound
    · rw [finalizeAssistant]
      split
      · split
        next account debited =>
          have kept : (debit settings near turn result.usage world.account).2.Sound :=
            (Wallet.Call.step_balances _ world.account sound).1
          rw [debited] at kept
          exact kept
        · exact sound
        · exact sound
      · exact sound

end Replies

end Hermes.Chat
