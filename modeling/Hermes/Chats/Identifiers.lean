import Hermes.Chat.Sources
import Hermes.Chats.View

/-!
# Identifiers in the history

A chat whose tool calls are stored as typed blocks, each with a row of its own, is shown with the
names and ids of the domain.  The steps view shows the names only, and the text of a step in short.
-/

namespace Hermes.Chats

open Chat

/-! ## What is shown -/

def ShownPayload.blocks : ShownPayload → List ShownBlock
  | .user content | .assistant content => content
  | .tool _ _ _ _ => []

/-- The block shows no id of the provider and no name of the transport. -/
def ShownBlock.Domestic : ShownBlock → Prop
  | .text _ | .other _ => True
  | .toolUse id name _ => (∃ domainId, id = .domain domainId) ∧ ∃ tool, name = .domain tool
  | .message _ toolCalls => toolCalls = []

def ShownBlock.said : ShownBlock → Option String
  | .text said => some said
  | .message content _ => content
  | _ => none

def said : Block → Option String
  | .typed (.text said) => some said
  | .message content _ => content
  | _ => none

/-- A tool use has a row of its turn, and an OpenAI message has no calls. -/
def covered (chat : Session) (turn : Nat) : Block → Bool
  | .typed (.toolUse id _ _) =>
      chat.toolCalls.any fun row => row.messageStepId == turn && row.providerToolUseId == id
  | .message _ toolCalls => toolCalls.isEmpty
  | _ => true

/-- Every call of a tool is a typed block with a row, and no two rows share an id of the
provider. -/
structure Direct (chat : Session) : Prop where
  covered : ∀ step ∈ chat.steps, ∀ block ∈ step.content,
    covered chat step.messageStepId block = true
  distinct : (chat.toolCalls.map fun row => row.providerToolUseId).Nodup

/-- The history shows nothing but names and ids of the domain, every tool call under its own, and
the text of the assistant as it is stored. -/
structure HistoryDomestic {chat : Session} (stamps : Stamps chat) (rows : List ToolCall) :
    Prop where
  domestic : ∀ view ∈ getHistory stamps rows, ∀ block ∈ view.payload.blocks, block.Domestic
  calls : ∀ row ∈ chat.toolCalls, ∃ view ∈ getHistory stamps rows,
    view.messageStepId = row.messageStepId ∧ ∃ input,
      .toolUse (.domain row.id) (.domain row.toolName) input ∈ view.payload.blocks
  texts : ∀ step ∈ chat.steps, ∀ content, step.payload = .assistant content →
    ∃ view ∈ getHistory stamps rows, view.id = stamps.id step.seq ∧
      view.payload.blocks.filterMap ShownBlock.said = content.filterMap said

/-- The steps view of a turn shows its tool calls by the names of the domain, and the text of each
assistant step in short. -/
structure ViewDomestic {chat : Session} (stamps : Stamps chat) (turn : Nat)
    (entries : List StepsViewStep) : Prop where
  named : ∀ entry ∈ entries, entry.kind = .toolCall → entry.toolName.isSome
  calls : ∀ row ∈ chat.toolCalls, row.messageStepId = turn → ∃ entry ∈ entries,
    entry.kind = .toolCall ∧ entry.toolName = some row.toolName
  texts : ∀ step ∈ chat.turnSteps turn, ∀ content, step.payload = .assistant content →
    textSummary content ≠ [] → ∃ entry ∈ entries, entry.summary = textSummary content ∧
      entry.createdAt = stamps.createdAt step.seq

/-! ## Looking up rows -/

section LookUp

variable {chat : Session} {rows : List ToolCall}

theorem find_row (distinct : (chat.toolCalls.map fun row => row.providerToolUseId).Nodup)
    {listed : List ToolCall} (part : ∀ row ∈ listed, row ∈ chat.toolCalls) {row : ToolCall}
    (member : row ∈ listed) :
    listed.reverse.find? (fun other => other.providerToolUseId == row.providerToolUseId) =
      some row := by
  cases found : listed.reverse.find? fun other =>
      other.providerToolUseId == row.providerToolUseId with
  | none =>
      have absent := List.find?_eq_none.mp found row (List.mem_reverse.mpr member)
      simp at absent
  | some other =>
      have same : other.providerToolUseId = row.providerToolUseId := by
        simpa using List.find?_some found
      have present := List.mem_reverse.mp (List.mem_of_find?_eq_some found)
      rw [List.inj_on_of_nodup_map distinct (part other present) (part row member) same]

theorem providerIdToDomainId_eq (direct : Direct chat) (all : rows.Perm chat.toolCalls)
    {row : ToolCall} (member : row ∈ chat.toolCalls) :
    providerIdToDomainId rows row.providerToolUseId = some row.id := by
  rw [providerIdToDomainId,
    find_row direct.distinct (fun _ present => all.mem_iff.mp present) (all.mem_iff.mpr member)]
  rfl

theorem callsByProviderId_eq (direct : Direct chat) (all : rows.Perm chat.toolCalls)
    {row : ToolCall} (member : row ∈ chat.toolCalls) :
    callsByProviderId rows row.messageStepId row.providerToolUseId = some row := by
  apply find_row direct.distinct
  · intro other present
    exact all.mem_iff.mp (List.mem_of_mem_filter present)
  · exact List.mem_filter.mpr ⟨all.mem_iff.mpr member, beq_self_eq_true _⟩

theorem Direct.row (direct : Direct chat) {step : Step} (present : step ∈ chat.steps) {id : String}
    {name : String} {input : Json} (member : .typed (.toolUse id name input) ∈ step.content) :
    ∃ row ∈ chat.toolCalls, row.messageStepId = step.messageStepId ∧
      row.providerToolUseId = id := by
  have found := direct.covered step present _ member
  simpa [Chats.covered] using found

theorem Direct.block (direct : Direct chat) (sourced : chat.Sourced) {row : ToolCall}
    (member : row ∈ chat.toolCalls) :
    ∃ step ∈ chat.steps, step.messageStepId = row.messageStepId ∧ ∃ content,
      step.payload = .assistant content ∧ ∃ name input,
        .typed (.toolUse row.providerToolUseId name input) ∈ content ∧
          Tool.toDomain name = some row.toolName := by
  obtain ⟨step, present, turn, content, payload, block, stored, asks⟩ :=
    sourced.called row member
  have here : block ∈ step.content := by
    rw [Step.content, payload]
    exact stored
  refine ⟨step, present, turn, content, payload, ?_⟩
  have found := direct.covered step present block here
  cases block with
  | message text toolCalls =>
      obtain ⟨call, called, -⟩ := asks
      simp only [Chats.covered, List.isEmpty_iff] at found
      rw [found] at called
      cases called
  | typed block =>
      cases block with
      | text said => cases asks
      | other type => cases asks
      | toolUse used name input =>
          obtain ⟨rfl, named⟩ := asks
          exact ⟨name, input, stored, named⟩

end LookUp

/-! ## The history -/

section History

variable {chat : Session} {stamps : Stamps chat} {rows : List ToolCall}

theorem shown_of_mem {step : Step} (member : step ∈ chat.steps) :
    (⟨stamps.id step.seq, step.messageStepId,
      normalizePayload (providerIdToDomainId rows) step.payload, step.usage,
      stamps.createdAt step.seq⟩ : ChatStepView) ∈ getHistory stamps rows :=
  List.mem_map.mpr ⟨step, (List.mem_insertionSort _).mpr member, rfl⟩

theorem mem_of_shown {view : ChatStepView} (shown : view ∈ getHistory stamps rows) :
    ∃ step ∈ chat.steps, view.payload =
      normalizePayload (providerIdToDomainId rows) step.payload := by
  obtain ⟨step, listed, rfl⟩ := List.mem_map.mp shown
  exact ⟨step, (List.mem_insertionSort _).mp listed, rfl⟩

/-- A block which is covered is shown with the name and the id of the domain. -/
theorem normalizeBlock_domestic (direct : Direct chat) (all : rows.Perm chat.toolCalls)
    {turn : Nat} {block : Block} (known : block.Known)
    (found : covered chat turn block = true) :
    (normalizeBlock (providerIdToDomainId rows) block).Domestic := by
  cases block with
  | message content toolCalls => exact List.isEmpty_iff.mp found
  | typed block =>
      cases block with
      | text said => trivial
      | other type => trivial
      | toolUse id name input =>
          obtain ⟨tool, named⟩ := known
          simp only [Chats.covered, List.any_eq_true, Bool.and_eq_true, beq_iff_eq] at found
          obtain ⟨row, member, -, rfl⟩ := found
          rw [normalizeBlock, providerIdToDomainId_eq direct all member, named]
          exact ⟨⟨row.id, rfl⟩, tool, rfl⟩

/-- Taking the settings out of the first text leaves no other kind of block. -/
theorem stripLeadingContextBlock_cases (content : List Block) :
    ∀ block ∈ stripLeadingContextBlock content,
      block ∈ content ∨ ∃ said, block = .typed (.text said) := by
  induction content with
  | nil => exact List.forall_mem_nil _
  | cons first later induction =>
      have passed : ∀ block ∈ first :: stripLeadingContextBlock later,
          block ∈ first :: later ∨ ∃ said, block = .typed (.text said) := by
        intro block member
        obtain rfl | member := List.mem_cons.mp member
        · exact .inl (List.mem_cons_self ..)
        · obtain kept | stripped := induction block member
          · exact .inl (List.mem_cons_of_mem _ kept)
          · exact .inr stripped
      cases first with
      | message text toolCalls => exact passed
      | typed block =>
          cases block with
          | toolUse id name input => exact passed
          | other type => exact passed
          | text said =>
              intro block member
              obtain rfl | member := List.mem_cons.mp member
              · exact .inr ⟨_, rfl⟩
              · exact .inl (List.mem_cons_of_mem _ member)

theorem normalizePayload_domestic (direct : Direct chat) (sourced : chat.Sourced)
    (all : rows.Perm chat.toolCalls) {step : Step} (present : step ∈ chat.steps) :
    ∀ block ∈ (normalizePayload (providerIdToDomainId rows) step.payload).blocks,
      block.Domestic := by
  have stored : ∀ block ∈ step.content,
      (normalizeBlock (providerIdToDomainId rows) block).Domestic := by
    intro block member
    exact normalizeBlock_domestic direct all (sourced.known step present block member)
      (direct.covered step present block member)
  rw [Step.content] at stored
  cases payload : step.payload with
  | tool record => exact fun _ listed => absurd listed List.not_mem_nil
  | assistant content =>
      rw [payload] at stored
      exact List.forall_mem_map.mpr stored
  | user content =>
      rw [payload] at stored
      have stripped : ∀ block ∈ stripLeadingContextBlock content,
          (normalizeBlock (providerIdToDomainId rows) block).Domestic := by
        intro block member
        obtain kept | ⟨said, rfl⟩ := stripLeadingContextBlock_cases content block member
        · exact stored block kept
        · trivial
      exact List.forall_mem_map.mpr stripped

theorem said_normalizeBlock (providerToDomain : String → Option Nat) (block : Block) :
    (normalizeBlock providerToDomain block).said = said block := by
  cases block with
  | message content toolCalls => rfl
  | typed block => cases block <;> rfl

theorem history_domestic (direct : Direct chat) (sourced : chat.Sourced)
    (all : rows.Perm chat.toolCalls) : HistoryDomestic stamps rows where
  domestic := by
    intro view shown
    obtain ⟨step, present, same⟩ := mem_of_shown shown
    rw [same]
    exact normalizePayload_domestic direct sourced all present
  calls := by
    intro row member
    obtain ⟨step, present, turn, content, payload, name, input, stored, named⟩ :=
      direct.block sourced member
    refine ⟨_, shown_of_mem present, turn, input, ?_⟩
    simp only [payload, normalizePayload, ShownPayload.blocks]
    refine List.mem_map.mpr ⟨_, stored, ?_⟩
    rw [normalizeBlock, providerIdToDomainId_eq direct all member, named]
  texts := by
    intro step present content payload
    refine ⟨_, shown_of_mem present, rfl, ?_⟩
    simp only [payload, normalizePayload, ShownPayload.blocks, List.filterMap_map]
    congr 1
    funext block
    exact said_normalizeBlock _ block

end History

/-! ## The steps view -/

section View

variable {chat : Session} {stamps : Stamps chat} {rows : List ToolCall} {turn : Nat}
  {entries : List StepsViewStep}

theorem mem_stepsView (viewed : stepsView stamps rows (some turn) = .ok (turn, entries))
    (entry : StepsViewStep) :
    entry ∈ entries ↔ ∃ step ∈ chat.turnSteps turn,
      entry ∈ renderStep (callsByProviderId rows turn) (stamps.createdAt step.seq)
        step.payload := by
  simp only [stepsView, Option.some_or] at viewed
  split at viewed
  · cases viewed
  · cases viewed
    simp [List.mem_flatMap, Stamps.stepsForMessage]

theorem mem_typedUses {content : List Block} {id : String} :
    id ∈ typedUses content ↔ ∃ name input, .typed (.toolUse id name input) ∈ content := by
  rw [typedUses, List.mem_filterMap]
  constructor
  · rintro ⟨block, member, shown⟩
    split at shown
    next used name input =>
      cases shown
      exact ⟨name, input, member⟩
    · cases shown
  · rintro ⟨name, input, member⟩
    exact ⟨_, member, rfl⟩

theorem toolUse_of_render {byProviderId : String → Option ToolCall} {createdAt : Int}
    {payload : Payload} {entry : StepsViewStep}
    (rendered : entry ∈ renderStep byProviderId createdAt payload)
    (call : entry.kind = .toolCall) :
    ∃ content, payload = .assistant content ∧ ∃ id ∈ typedUses content,
      entry = renderToolUse byProviderId createdAt id := by
  cases payload with
  | user content => cases rendered
  | tool record =>
      obtain rfl := List.mem_singleton.mp rendered
      cases call
  | assistant content =>
      refine ⟨content, rfl, ?_⟩
      rw [renderStep, List.mem_append] at rendered
      obtain text | use := rendered
      · split at text
        · cases text
        · obtain rfl := List.mem_singleton.mp text
          simp only at call
          split at call <;> cases call
      · obtain ⟨id, member, rfl⟩ := List.mem_map.mp use
        exact ⟨id, member, rfl⟩

theorem view_domestic (direct : Direct chat) (sourced : chat.Sourced)
    (all : rows.Perm chat.toolCalls)
    (viewed : stepsView stamps rows (some turn) = .ok (turn, entries)) :
    ViewDomestic stamps turn entries where
  named := by
    intro entry member call
    obtain ⟨step, inTurn, rendered⟩ := (mem_stepsView viewed entry).mp member
    obtain ⟨present, own⟩ := List.mem_filter.mp inTurn
    obtain ⟨content, payload, id, used, rfl⟩ := toolUse_of_render rendered call
    obtain ⟨name, input, stored⟩ := mem_typedUses.mp used
    have here : .typed (.toolUse id name input) ∈ step.content := by
      rw [Step.content, payload]
      exact stored
    obtain ⟨row, listed, same, rfl⟩ := direct.row present here
    have turn_eq : row.messageStepId = turn := same.trans (beq_iff_eq.mp own)
    rw [renderToolUse, ← turn_eq, callsByProviderId_eq direct all listed]
    rfl
  calls := by
    rintro row member rfl
    obtain ⟨step, present, own, content, payload, name, input, stored, named⟩ :=
      direct.block sourced member
    refine ⟨renderToolUse (callsByProviderId rows row.messageStepId) (stamps.createdAt step.seq)
      row.providerToolUseId, (mem_stepsView viewed _).mpr ?_, ?_⟩
    · refine ⟨step, List.mem_filter.mpr ⟨present, beq_iff_eq.mpr own⟩, ?_⟩
      rw [payload, renderStep, List.mem_append]
      exact .inr (List.mem_map_of_mem (mem_typedUses.mpr ⟨name, input, stored⟩))
    · rw [renderToolUse, callsByProviderId_eq direct all member]
      exact ⟨rfl, rfl⟩
  texts := by
    intro step inTurn content payload text
    refine ⟨⟨if (typedUses content).isEmpty then .assistantMessage else .reasoning, none,
      textSummary content, stamps.createdAt step.seq⟩, (mem_stepsView viewed _).mpr ?_, rfl, rfl⟩
    refine ⟨step, inTurn, ?_⟩
    rw [payload, renderStep, List.mem_append, if_neg (by simpa using text)]
    exact .inl (List.mem_singleton.mpr rfl)

end View

/-- A chat whose tool calls are typed blocks with rows of their own is shown with the names and the
ids which the responses gave, and with the text of the assistant unchanged; the steps view of a turn
shows the names of its calls, no ids, and the text in short. -/
theorem history_shows_domain_identifiers (settings : Settings) (mode : Policy.Mode)
    (hasProject trialUsed : Bool) (account : Wallet.Account) (world : World)
    (reached : Reachable (perform settings) (fun _ operation => operation.Plain)
      ⟨{ mode, hasProject }, trialUsed, account⟩ world) :
    (∀ (operation : Operation) (out : ChatRunOut), operation.Plain →
      (attempt settings world operation).response = .ok out →
        (attempt settings world operation).world.chat.Lists out.toolCalls out.serverTools) ∧
    (Direct world.chat → ∀ (stamps : Stamps world.chat) (rows : List ToolCall),
      rows.Perm world.chat.toolCalls →
        HistoryDomestic stamps rows ∧
          ∀ (turn : Nat) (entries : List StepsViewStep),
            stepsView stamps rows (some turn) = .ok (turn, entries) →
              ViewDomestic stamps turn entries) := by
  have sourced := sourced_of_reachable reached
  constructor
  · intro operation out plain answered
    exact (attempt_sourced sourced plain).lists out answered
  · intro direct stamps rows all
    refine ⟨history_domestic direct sourced all, ?_⟩
    intro turn entries viewed
    exact view_domestic direct sourced all viewed

namespace Sample

open Chat.Sample

/-- The clock is asked, and a file. -/
def asksBoth : Reply :=
  .anthropic (some "tool_use")
    [.text "Let me see.", .toolUse "toolu_1" "time_now" (.obj []),
      .toolUse "toolu_2" "files_read" (.obj [])] usage

/-- The chat after a turn which waits for the file. -/
def askedChat : World := (attempt settings start (.run (near asksBoth) (message "read it"))).world

theorem askedChat_reached :
    Reachable (perform settings) (fun _ operation => operation.Plain) start askedChat :=
  .next .start (by simp [Operation.Plain, message]) rfl

theorem askedChat_direct : Direct askedChat.chat := ⟨by decide, by decide⟩

/-- Stamps in the order of the numbers. -/
def askedStamps : Stamps askedChat.chat where
  createdAt := fun seq => seq
  id := id
  ordered := by decide
  distinct := by decide

/-- Both calls are shown under their domain names and ids. -/
theorem asked_history_domestic :
    HistoryDomestic askedStamps askedChat.chat.toolCalls :=
  ((history_shows_domain_identifiers settings .byok false false {} askedChat
    askedChat_reached).2 askedChat_direct askedStamps _ (List.Perm.refl _)).1

/-- A text of two lines. -/
def twoLines : Reply := .anthropic (some "end_turn") [.text "first\nsecond"] usage

def linesChat : World := (attempt settings start (.run (near twoLines) (message "go on"))).world

theorem linesChat_reached :
    Reachable (perform settings) (fun _ operation => operation.Plain) start linesChat :=
  .next .start (by simp [Operation.Plain, message]) rfl

def linesStamps : Stamps linesChat.chat where
  createdAt := fun seq => seq
  id := id
  ordered := by decide
  distinct := by decide

/-- The steps view shows the text of the assistant on one line. -/
theorem steps_view_shortens_text :
    ¬ ∀ (settings : Settings) (mode : Policy.Mode) (hasProject trialUsed : Bool)
      (account : Wallet.Account) (world : World),
      Reachable (perform settings) (fun _ operation => operation.Plain)
        ⟨{ mode, hasProject }, trialUsed, account⟩ world →
      ∀ (stamps : Stamps world.chat) (turn : Nat) (entries : List StepsViewStep),
        stepsView stamps world.chat.toolCalls (some turn) = .ok (turn, entries) →
        ∀ step ∈ world.chat.turnSteps turn, ∀ said,
          step.payload = .assistant [.typed (.text said)] →
          ∃ entry ∈ entries, entry.summary = said.toList := by
  intro full
  obtain ⟨entry, member, same⟩ := full settings .byok false false {} linesChat linesChat_reached
    linesStamps 0 [⟨.assistantMessage, none, "first second".toList, 2⟩] (by rfl)
    ⟨2, 0, .assistant [.typed (.text "first\nsecond")], some usage⟩
    (List.mem_of_getElem? (i := 1) (by rfl)) _ rfl
  obtain rfl := List.mem_singleton.mp member
  exact absurd same (by decide)

end Sample

end Hermes.Chats
