import Hermes.Chat.Attachments

/-!
# What a workspace puts in front of the model

The instructions of a workspace go behind the prompt of the assistant, and its files into the first
message.  Texts share a budget of characters, oldest file first; images are free.
-/

namespace Hermes.Workspaces

open Encoding Chat

/-! ## Files -/

/-- A row of `workspace_files`. -/
structure WorkspaceFile where
  id : Nat
  workspaceProjectId : Nat
  filename : List Nat
  content : List UInt8
  mediaType : MediaType
  size : Nat
  extractedText : Option (List Nat)
  createdAt : Int
  deriving DecidableEq, Repr

/-- `_IMAGE_TYPES`. -/
def imageTypes : List MediaType := [.imageJpeg, .imagePng, .imageGif, .imageWebp]

namespace WorkspaceFile

/-- `_image_block`. -/
def imageBlock (file : WorkspaceFile) : Provider → ContentBlock
  | .openai => .imageUrl
      (codes ("data:" ++ file.mediaType.name ++ ";base64,") ++ Base64.encode file.content)
  | .anthropic => .image file.mediaType (Base64.encode file.content)

/-- The block of a file with some of its text. -/
def textBlock (file : WorkspaceFile) (snippet : List Nat) : ContentBlock :=
  .text (codes "[Файл проекта: " ++ file.filename ++ codes "]\n" ++ snippet)

def isImage (file : WorkspaceFile) : Bool := imageTypes.contains file.mediaType

/-- What is written in a file which is no image. -/
def text (file : WorkspaceFile) : List Nat :=
  if file.isImage then [] else file.extractedText.getD []

end WorkspaceFile

section Blocks

variable (maxChars : Int) (provider : Provider)

/-- The loop of `_build_file_attachments` behind some characters. -/
def fileBlocks : Nat → List WorkspaceFile → List ContentBlock
  | _, [] => []
  | used, file :: later =>
      if file.isImage then file.imageBlock provider :: fileBlocks used later
      else
        match file.extractedText with
        | none | some [] => fileBlocks used later
        | some (first :: rest) =>
            if maxChars ≤ used then fileBlocks used later
            else
              let snippet := (first :: rest).take (maxChars - used).toNat
              file.textBlock snippet :: fileBlocks (used + snippet.length) later

/-- `_build_file_attachments`. -/
def buildFileAttachments (files : List WorkspaceFile) : Option PreparedAttachments :=
  match fileBlocks maxChars provider 0 files with
  | [] => none
  | blocks => some ⟨blocks, []⟩

end Blocks

/-- `_merge_attachments`. -/
def mergeAttachments : Option PreparedAttachments → Option PreparedAttachments →
    Option PreparedAttachments
  | none, none => none
  | chat, workspace => some
      { contentBlocks := (workspace.elim [] (·.contentBlocks)) ++ (chat.elim [] (·.contentBlocks))
        placeholders := chat.elim [] (·.placeholders) }

/-! ## Prompts -/

inductive AssistantMode
  | chat
  | code
  deriving DecidableEq, Repr

/-- `_TIME_NOW_INSTRUCTION`. -/
def timeNowInstruction : String :=
  "You do not have built-in knowledge of the current date or time. If the user's request " ++
    "depends on the current date, time, or day of the week, call the time.now tool to get it; " ++
    "do not guess."

/-- `_SYSTEM_PROMPT_CHAT`. -/
def systemPromptChat : String :=
  "You are a helpful assistant integrated into an iOS app. You can call tools that the " ++
    "user's device executes locally (files, calendar, reminders). Use tools when needed and " ++
    "respond concisely. " ++ timeNowInstruction

/-- `_SYSTEM_PROMPT_CODE`. -/
def systemPromptCode : String :=
  "You are a coding assistant integrated into an iOS app. Favor precise, technical answers: " ++
    "produce correct, idiomatic code with brief explanations. You can call tools that the " ++
    "user's device executes locally (files, calendar, reminders) and server-side site tools. " ++
    "Use tools when needed and respond concisely. " ++ timeNowInstruction

/-- `_system_prompt_for`. -/
def systemPromptFor : AssistantMode → List Nat
  | .code => codes systemPromptCode
  | .chat => codes systemPromptChat

/-- `_system_prompt_with_workspace`. -/
def systemPromptWithWorkspace (assistantMode : AssistantMode) (instructions : Option (List Nat)) :
    List Nat :=
  let stripped := strip (instructions.getD [])
  if stripped = [] then systemPromptFor assistantMode
  else systemPromptFor assistantMode ++ codes "\n\n" ++ stripped

/-! ## The budget -/

def isText : ContentBlock → Bool
  | .text _ => true
  | _ => false

/-- The blocks show the files: every image, and of the texts their beginning, each part of it under
the name of the file it comes from. -/
structure Excerpts (maxChars : Nat) (provider : Provider) (files : List WorkspaceFile)
    (blocks : List ContentBlock) (excerpts : List (WorkspaceFile × List Nat)) : Prop where
  images : blocks.filter (fun block => !isText block) =
    (files.filter (·.isImage)).map (·.imageBlock provider)
  named : blocks.filter isText = excerpts.map fun excerpt => excerpt.1.textBlock excerpt.2
  ordered : (excerpts.map (·.1)).Sublist (files.filter fun file => !file.isImage)
  begins : ∀ excerpt ∈ excerpts, excerpt.2 ≠ [] ∧ excerpt.2 <+: excerpt.1.text
  texts : excerpts.flatMap (·.2) = (files.flatMap (·.text)).take maxChars

section Budget

variable {maxChars : Int} {provider : Provider} {used : Nat} {files : List WorkspaceFile}
  {file : WorkspaceFile}

theorem isText_imageBlock (file : WorkspaceFile) (provider : Provider) :
    isText (file.imageBlock provider) = false := by
  cases provider <;> rfl

theorem Excerpts.skip {budget : Nat} {blocks : List ContentBlock}
    {excerpts : List (WorkspaceFile × List Nat)} (noImage : file.isImage = false)
    (nothing : file.text = [] ∨ budget = 0)
    (shown : Excerpts budget provider files blocks excerpts) :
    Excerpts budget provider (file :: files) blocks excerpts where
  images := by
    rw [List.filter_cons_of_neg (by simp [noImage])]
    exact shown.images
  named := shown.named
  ordered := by
    rw [List.filter_cons_of_pos (by simp [noImage])]
    exact shown.ordered.cons file
  begins := shown.begins
  texts := by
    obtain empty | spent := nothing
    · rw [List.flatMap_cons, empty]
      exact shown.texts
    · rw [shown.texts, spent, List.take_zero, List.take_zero]

theorem fileBlocks_excerpts (maxChars : Int) (provider : Provider) (used : Nat)
    (files : List WorkspaceFile) :
    ∃ excerpts, Excerpts (maxChars - used).toNat provider files
      (fileBlocks maxChars provider used files) excerpts := by
  induction files generalizing used with
  | nil => exact ⟨[], rfl, rfl, List.Sublist.refl [], by simp, by simp⟩
  | cons file later induction =>
      rw [fileBlocks]
      split
      case isTrue image =>
          obtain ⟨excerpts, shown⟩ := induction used
          have notText := isText_imageBlock file provider
          refine ⟨excerpts, ?_, ?_, ?_, shown.begins, ?_⟩
          · rw [List.filter_cons_of_pos (by simp [notText]), List.filter_cons_of_pos image,
              List.map_cons, shown.images]
          · rw [List.filter_cons_of_neg (by simp [notText])]
            exact shown.named
          · rw [List.filter_cons_of_neg (by simp [image])]
            exact shown.ordered
          · rw [List.flatMap_cons, WorkspaceFile.text, if_pos image]
            exact shown.texts
      case isFalse noImage =>
          replace noImage : file.isImage = false := Bool.eq_false_of_not_eq_true noImage
          split
          case h_1 none =>
              obtain ⟨excerpts, shown⟩ := induction used
              exact ⟨excerpts, shown.skip noImage (.inl (by simp [WorkspaceFile.text, none]))⟩
          case h_2 empty =>
              obtain ⟨excerpts, shown⟩ := induction used
              exact ⟨excerpts, shown.skip noImage (.inl (by simp [WorkspaceFile.text, empty]))⟩
          case h_3 first rest read =>
              have written : file.text = first :: rest := by
                simp [WorkspaceFile.text, noImage, read]
              split
              case isTrue spent =>
                  obtain ⟨excerpts, shown⟩ := induction used
                  exact ⟨excerpts, shown.skip noImage (.inr (by omega))⟩
              case isFalse room =>
                  have positive : 0 < (maxChars - used).toNat := by omega
                  generalize budget_eq : (maxChars - used).toNat = budget at positive ⊢
                  dsimp only
                  obtain ⟨excerpts, shown⟩ := induction (used +
                    ((first :: rest).take budget).length)
                  have left : (maxChars - ↑(used + ((first :: rest).take budget).length)).toNat =
                      budget - (first :: rest).length := by
                    rw [List.length_take]
                    omega
                  rw [left] at shown
                  refine ⟨(file, (first :: rest).take budget) :: excerpts, ?_, ?_, ?_, ?_, ?_⟩
                  · rw [List.filter_cons_of_neg (by simp [isText, WorkspaceFile.textBlock]),
                      List.filter_cons_of_neg (by simp [noImage])]
                    exact shown.images
                  · rw [List.filter_cons_of_pos rfl, List.map_cons, shown.named]
                  · rw [List.map_cons, List.filter_cons_of_pos (by simp [noImage])]
                    exact shown.ordered.cons_cons file
                  · rw [List.forall_mem_cons]
                    refine ⟨⟨?_, ?_⟩, shown.begins⟩
                    · rw [ne_eq, List.take_eq_nil_iff, not_or]
                      exact ⟨positive.ne', nofun⟩
                    · rw [written]
                      exact List.take_prefix ..
                  · rw [List.flatMap_cons, List.flatMap_cons, shown.texts, written,
                      List.take_append]

/-- A model is shown every image of a workspace and the beginning of what is written in its other
files. -/
theorem buildFileAttachments_excerpts (maxChars : Int) (provider : Provider)
    (files : List WorkspaceFile) :
    ∃ excerpts, Excerpts maxChars.toNat provider files
      ((buildFileAttachments maxChars provider files).elim [] (·.contentBlocks)) excerpts := by
  have blocks : (buildFileAttachments maxChars provider files).elim [] (·.contentBlocks) =
      fileBlocks maxChars provider 0 files := by
    rw [buildFileAttachments]
    split <;> simp [*]
  obtain ⟨excerpts, shown⟩ := fileBlocks_excerpts maxChars provider 0 files
  rw [Nat.cast_zero, sub_zero] at shown
  exact ⟨excerpts, blocks ▸ shown⟩

end Budget

end Hermes.Workspaces
