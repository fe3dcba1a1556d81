import Hermes.Chat.Replay
import Hermes.Library.Encoding
import Hermes.Library.Sorting

/-!
# The steps of a chat as its user reads them

The chats module reads the rows which the orchestrator writes.  It sorts them by `created_at`,
the time at which their transaction began, and then by their random ids, where the orchestrator
sorts by `seq`.
-/

namespace Hermes.Chats

open Chat
open Encoding (isSpace)

/-- What the database fills in for each step of a chat, by its `seq`. -/
structure Stamps (chat : Session) where
  /-- `now()`: the same for all steps of a transaction, and later for a later one. -/
  createdAt : Nat → Int
  /-- `gen_random_uuid()`. -/
  id : Nat → Nat
  ordered : ∀ first ∈ chat.steps, ∀ second ∈ chat.steps, first.seq < second.seq →
    createdAt first.seq ≤ createdAt second.seq
  distinct : ∀ first ∈ chat.steps, ∀ second ∈ chat.steps, id first.seq = id second.seq →
    first.seq = second.seq

namespace Stamps

variable {chat : Session} (stamps : Stamps chat)

/-- `ORDER BY created_at, id`. -/
def Precedes (first second : Step) : Prop :=
  stamps.createdAt first.seq < stamps.createdAt second.seq ∨
    stamps.createdAt first.seq = stamps.createdAt second.seq ∧
      stamps.id first.seq ≤ stamps.id second.seq

instance : DecidableRel stamps.Precedes := fun _ _ => inferInstanceAs (Decidable (_ ∨ _))

/-- `ORDER BY created_at DESC, id DESC LIMIT 1`. -/
def latest (steps : List Step) : Option Step :=
  (steps.insertionSort fun first second => stamps.Precedes second first).head?

/-- `list_steps` of the chats module. -/
def listSteps : List Step := chat.steps.insertionSort stamps.Precedes

/-- `latest_message_step_id`. -/
def latestMessageStepId : Option Nat := (stamps.latest chat.steps).map (·.messageStepId)

/-- `steps_for_message`. -/
def stepsForMessage (messageStepId : Nat) : List Step :=
  (chat.turnSteps messageStepId).insertionSort stamps.Precedes

end Stamps

/-! ## The preview -/

/-- `" ".join(value.split())`. -/
def collapsed (value : List Char) : List Char :=
  [' '].intercalate
    ((value.splitOnP fun char => isSpace char.toNat).filter fun word => !word.isEmpty)

/-- `_truncate`. -/
def truncate (limit : Nat) (value : List Char) : List Char := (collapsed value).take limit

/-- The beginning of the block with the settings of a conversation. -/
def contextBlockHead : List Char := "[Conversation settings for this message: ".toList

/-- `strip_context_block`. -/
def stripContextBlock (text : List Char) : List Char :=
  if contextBlockHead.isPrefixOf text then
    match (text.drop contextBlockHead.length).dropWhile (· != ']') with
    | ']' :: '\n' :: '\n' :: rest => rest
    | [']'] => []
    | _ => text
  else text

/-- The texts of the typed text blocks which are not empty, with a blank between two. -/
def joinedText (content : List Block) : List Char :=
  [' '].intercalate <| (content.filterMap fun block =>
    match block with
    | .typed (.text said) => some said.toList
    | _ => none).filter fun part => !part.isEmpty

/-- `_text_from_payload`. -/
def textFromPayload (step : Step) : List Char :=
  ((joinedText step.content).dropWhile fun char => isSpace char.toNat).rdropWhile
    fun char => isSpace char.toNat

def previewOf (step : Step) : Option (List Char) :=
  let text := textFromPayload step
  let shown := if step.isUser && !text.isEmpty then stripContextBlock text else text
  if shown.isEmpty then none else some (truncate 160 shown)

/-- The steps which a preview may be taken from. -/
def spoken (chat : Session) : List Step :=
  chat.steps.filter fun step => step.isUser || step.isAssistant

/-- `_preview`. -/
def Stamps.preview {chat : Session} (stamps : Stamps chat) : Option (List Char) :=
  (stamps.latest (spoken chat)).bind previewOf

/-! ## The order of the steps -/

namespace Stamps

variable {chat : Session} (stamps : Stamps chat)

/-- All that the user reads is in the order in which the orchestrator replays the steps. -/
structure InOrder : Prop where
  history : stamps.listSteps = chat.steps
  views : ∀ turn, stamps.stepsForMessage turn = chat.turnSteps turn
  latest : stamps.latestMessageStepId = chat.steps.getLast?.map (·.messageStepId)
  preview : stamps.preview = (spoken chat).getLast?.bind previewOf

/-- The ids of steps which were created at the same time happen to ascend. -/
def TiesAscend : Prop :=
  ∀ first ∈ chat.steps, ∀ second ∈ chat.steps, first.seq < second.seq →
    stamps.createdAt first.seq = stamps.createdAt second.seq →
    stamps.id first.seq < stamps.id second.seq

instance : Decidable stamps.TiesAscend := inferInstanceAs (Decidable (∀ first ∈ chat.steps, _))

instance : Std.Total stamps.Precedes where
  total first second := by
    unfold Precedes
    omega

instance : IsTrans Step stamps.Precedes where
  trans first second third former latter := by
    unfold Precedes at *
    omega

theorem Precedes.antisymm (numbered : chat.Numbered) {first second : Step}
    (firstIn : first ∈ chat.steps) (secondIn : second ∈ chat.steps)
    (former : stamps.Precedes first second) (latter : stamps.Precedes second first) :
    first = second := by
  have same : stamps.id first.seq = stamps.id second.seq := by
    unfold Precedes at *
    omega
  exact numbered.step_unique firstIn secondIn (stamps.distinct first firstIn second secondIn same)

variable {stamps}

theorem InOrder.tiesAscend (inOrder : stamps.InOrder) (numbered : chat.Numbered) :
    stamps.TiesAscend := by
  have sorted : chat.steps.Pairwise stamps.Precedes :=
    (insertionSort_eq_self_iff stamps.Precedes).mp inOrder.history
  have respected : ∀ first ∈ chat.steps, ∀ second ∈ chat.steps, first.seq < second.seq →
      stamps.Precedes first second := by
    apply List.Pairwise.forall_of_forall_of_flip
    · intro step _ earlier
      exact absurd earlier (Nat.lt_irrefl _)
    · apply sorted.imp
      intro first second precedes _
      exact precedes
    · exact numbered.ascending.imp fun before after => absurd after (Nat.lt_asymm before)
  intro first firstIn second secondIn earlier same
  obtain before | ⟨-, ascends⟩ := respected first firstIn second secondIn earlier
  · exact absurd same (ne_of_lt before)
  · apply lt_of_le_of_ne ascends
    intro equal
    exact absurd (stamps.distinct first firstIn second secondIn equal) (Nat.ne_of_lt earlier)

theorem TiesAscend.sorted (ascend : stamps.TiesAscend) (numbered : chat.Numbered) :
    chat.steps.Pairwise stamps.Precedes := by
  apply numbered.ascending.imp_of_mem
  intro first second firstIn secondIn earlier
  obtain before | same := (stamps.ordered first firstIn second secondIn earlier).lt_or_eq
  · exact .inl before
  · exact .inr ⟨same, (ascend first firstIn second secondIn earlier same).le⟩

theorem latest_eq (numbered : chat.Numbered) {steps : List Step} (part : steps.Sublist chat.steps)
    (sorted : chat.steps.Pairwise stamps.Precedes) : stamps.latest steps = steps.getLast? := by
  apply head?_insertionSort_converse stamps.Precedes
  · intro first firstIn second secondIn former latter
    exact Precedes.antisymm stamps numbered (part.subset firstIn) (part.subset secondIn) former
      latter
  · exact sorted.sublist part

theorem TiesAscend.inOrder (ascend : stamps.TiesAscend) (numbered : chat.Numbered) :
    stamps.InOrder := by
  have sorted := ascend.sorted numbered
  constructor
  case history => exact sorted.insertionSort_eq
  case views =>
    intro turn
    exact (sorted.sublist List.filter_sublist).insertionSort_eq
  case latest => rw [latestMessageStepId, latest_eq numbered (List.Sublist.refl _) sorted]
  case preview =>
    have part : (spoken chat).Sublist chat.steps := List.filter_sublist
    rw [preview, latest_eq numbered part sorted]

end Stamps

/-- The user reads a chat in the order in which it is replayed exactly when steps which were created
at the same time happen to have ascending ids. -/
theorem steps_in_order_iff (settings : Settings) (mode : Policy.Mode) (hasProject : Bool)
    (trialUsed : Bool) (account : Wallet.Account) (world : World)
    (reached : Reachable (perform settings) (fun _ _ => True)
      ⟨{ mode, hasProject }, trialUsed, account⟩ world) (stamps : Stamps world.chat) :
    stamps.InOrder ↔ stamps.TiesAscend := by
  have numbered := (sound_of_reachable reached).numbered
  constructor
  · intro inOrder
    exact inOrder.tiesAscend numbered
  · intro ascend
    exact ascend.inOrder numbered

namespace Sample

open Chat.Sample

/-- The clock is asked, and the reply comes after it. -/
def asks : Reply := .anthropic (some "tool_use") [.toolUse "toolu_1" "time_now" (.obj [])] usage

/-- A turn with a tool which the backend executes. -/
def clockTurn : Operation :=
  .run { near finalText with reply := fun calls => if calls = 0 then asks else finalText }
    (message "what time is it?")

/-- The user step, the call and its result, which one transaction stores, and the answer. -/
def clockChat : World := (attempt settings start clockTurn).world

theorem clockChat_reached :
    Reachable (perform settings) (fun _ _ => True) start clockChat :=
  .next .start trivial rfl

/-- Stamps under which the call and its result were created at the same time. -/
def clockStamps (id : Nat → Nat)
    (distinct : ∀ first ∈ clockChat.chat.steps, ∀ second ∈ clockChat.chat.steps,
      id first.seq = id second.seq → first.seq = second.seq) : Stamps clockChat.chat where
  createdAt seq := if seq < 2 then 0 else if seq < 5 then 1 else 2
  id
  ordered := by decide
  distinct

/-- With ascending ids the chat is read as it is replayed. -/
theorem ascending_ids_in_order : (clockStamps id (by decide)).InOrder :=
  (steps_in_order_iff settings .byok false false {} clockChat clockChat_reached _).mpr (by decide)

/-- With the greater id for the call its result is shown first. -/
theorem result_shown_before_call :
    ¬ ∀ (settings : Settings) (mode : Policy.Mode) (hasProject trialUsed : Bool)
      (account : Wallet.Account) (world : World),
      Reachable (perform settings) (fun _ _ => True) ⟨{ mode, hasProject }, trialUsed, account⟩
        world → ∀ stamps : Stamps world.chat, stamps.InOrder := by
  intro ordered
  have inOrder := ordered settings .byok false false {} clockChat clockChat_reached
    (clockStamps (fun seq => if seq = 2 then 4 else if seq = 4 then 2 else seq) (by decide))
  have numbers := congrArg (List.map Step.seq) inOrder.history
  exact absurd numbers (by decide)

end Sample

end Hermes.Chats
