import Hermes.Chat.Attachments
import Hermes.Chats.View
import Hermes.Library.Words

/-!
# The settings block of a message

The settings a client sends along are written into a block before the text of the user, and taken
off again wherever the text is shown.  The block ends at its first bracket, so a setting with a
bracket in it keeps the block in the text; and a message which looks like a block is taken for one.
-/

namespace Hermes.Chats

open Chat
open Encoding (codes)

/-! ## Writing the block -/

def blank (char : Char) : Bool := Encoding.isSpace char.toNat

/-- The keys of `_CONTEXT_KEY_ORDER`. -/
inductive ContextKey
  | codeLanguage
  | responseStyle
  | verbosity
  | tone
  | locale
  deriving DecidableEq, Repr

namespace ContextKey

def name : ContextKey → String
  | codeLanguage => "codeLanguage"
  | responseStyle => "responseStyle"
  | verbosity => "verbosity"
  | tone => "tone"
  | locale => "locale"

/-- `_CONTEXT_KEY_ORDER`. -/
def order : List ContextKey := [codeLanguage, responseStyle, verbosity, tone, locale]

/-- `_CONTEXT_ENUMS`. -/
def allowed : ContextKey → Option (List String)
  | responseStyle => some ["concise", "balanced", "detailed"]
  | verbosity => some ["low", "medium", "high"]
  | _ => none

/-- `_CONTEXT_FREE_STRING_MAX`. -/
def maxLength : ContextKey → Nat
  | locale => 35
  | _ => 40

end ContextKey

/-- `_CONTEXT_LOCALE_CHARS`. -/
def isLocaleChar (char : Char) : Bool :=
  char.isAlphanum || char == '_' || char == '-'

/-- `_sanitize_context_value`. -/
def sanitizeContextValue (value : List Char) : List Char :=
  collapsed (value.map fun char => if char ∈ ['\n', '\r', ';', '='] then ' ' else char)

/-- `_validated_context_value`.  Of the letters whose lower case is ASCII the Kelvin sign alone is
not ASCII itself, and no word of the sets has its letter. -/
def validatedContextValue (key : ContextKey) : Json → Option (List Char)
  | .str text =>
      let value := Words.strip blank text.toList
      if value = [] then none
      else match key.allowed with
        | some words =>
            let lowered := value.map Char.toLower
            if (words.map String.toList).contains lowered then some lowered else none
        | none =>
            if key.maxLength < value.length then none
            else if key = .locale then
              if value.all isLocaleChar then some value else none
            else
              let sanitized := sanitizeContextValue value
              if sanitized = [] then none else some sanitized
  | _ => none

def contextValue (context : List (String × Json)) (key : ContextKey) : Option (List Char) :=
  (Json.get? context key.name).bind (validatedContextValue key)

/-- The settings, as they stand in the block. -/
def contextParts (context : List (String × Json)) : List (List Char) :=
  ContextKey.order.filterMap fun key =>
    (contextValue context key).map fun value => key.name.toList ++ '=' :: value

/-- `_render_context_block`. -/
def renderContextBlock (context : Option (List (String × Json))) : Option (List Char) :=
  match context with
  | none => none
  | some fields =>
      if contextParts fields = [] then none
      else some (contextBlockHead ++ "; ".toList.intercalate (contextParts fields) ++ [']'])

/-- `not msg.strip()`. -/
def isBlank (message : List Char) : Bool := (Words.strip blank message).isEmpty

/-- `_compose_turn0_text`. -/
def composeTurn0Text (block : Option (List Char)) (message : List Char) : List Char :=
  if isBlank message then block.getD []
  else match block with
    | some block => block ++ '\n' :: '\n' :: message
    | none => message

/-- A placeholder as `prepare_attachments` makes one. -/
structure Placeholder where
  text : String
  made : ∃ att size, codes text = placeholder att size

/-- The `content` of the user step which `run` stores. -/
def userContent (context : Option (List (String × Json))) (message : List Char)
    (placeholders : List Placeholder) : List Block :=
  let text := composeTurn0Text (renderContextBlock context) message
  (if text = [] then [] else [.typed (.text (String.ofList text))]) ++
    placeholders.map fun placeholder => .typed (.text placeholder.text)

/-! ## What the user should see -/

/-- The own text of the user: a message without words is no text. -/
def ownText (message : List Char) : List Char := if isBlank message then [] else message

/-- The stored content with the own text for the text with the block. -/
def ownContent (context : Option (List (String × Json))) (message : List Char)
    (placeholders : List Placeholder) : List Block :=
  (if composeTurn0Text (renderContextBlock context) message = [] then []
    else [.typed (.text (String.ofList (ownText message)))]) ++
    placeholders.map fun placeholder => .typed (.text placeholder.text)

/-- Composing is undone: by the strip itself, in the history, and in the preview. -/
structure OwnTextShown (context : Option (List (String × Json))) (message : List Char)
    (placeholders : List Placeholder) : Prop where
  stripped : stripContextBlock (composeTurn0Text (renderContextBlock context) message) =
    ownText message
  history : stripLeadingContextBlock (userContent context message placeholders) =
    ownContent context message placeholders
  /-- Whatever the row holds besides; no preview shows as little as an empty one. -/
  preview : ∀ seq turn usage,
    (previewOf ⟨seq, turn, .user (userContent context message placeholders), usage⟩).getD [] =
      truncate 160 (ownText message)

/-- The text begins with what looks like a settings block, and the rest follows. -/
def Leads (text rest : List Char) : Prop :=
  ∃ inner, ']' ∉ inner ∧
    (text = contextBlockHead ++ inner ++ ']' :: '\n' :: '\n' :: rest ∨
      (text = contextBlockHead ++ inner ++ [']'] ∧ rest = []))

/-- The words of the user and the placeholders, as they stand in a row. -/
def spokenText (message : List Char) (placeholders : List Placeholder) : List Char :=
  Words.strip blank ([' '].intercalate ((if isBlank message then [] else [message]) ++
    placeholders.map fun placeholder => placeholder.text.toList))

def NoSettings (context : Option (List (String × Json))) : Prop :=
  ∀ fields, context = some fields → ∀ key, contextValue fields key = none

def PlainSettings (context : Option (List (String × Json))) : Prop :=
  ∀ fields, context = some fields → ∀ key value, contextValue fields key = some value → ']' ∉ value

/-- No setting has a bracket, and without settings neither the message nor what the preview is made
of looks as if it began with settings; and nothing else shows in the preview. -/
structure Unmistakable (context : Option (List (String × Json))) (message : List Char)
    (placeholders : List Placeholder) : Prop where
  settings : PlainSettings context
  unmarked : NoSettings context → ∀ rest, ¬ Leads message rest
  preview : (NoSettings context ∧
      ∃ rest, Leads (spokenText message placeholders) rest ∧
        truncate 160 rest = truncate 160 message) ∨
    ((NoSettings context → ∀ rest, ¬ Leads (spokenText message placeholders) rest) ∧
      (placeholders = [] ∨ 160 ≤ (collapsed message).length))

/-! ## Taking the block off -/

section Taking

variable {text rest inner body tail message : List Char}

theorem first_bracket {front other back later : List Char} (absent : ']' ∉ front)
    (missing : ']' ∉ other) (same : front ++ ']' :: back = other ++ ']' :: later) :
    front = other ∧ back = later := by
  induction front generalizing other with
  | nil =>
      cases other with
      | nil => exact ⟨rfl, (List.cons.inj same).2⟩
      | cons head other => exact absurd (List.cons.inj same).1 fun is => missing (by simp [← is])
  | cons head front induction =>
      cases other with
      | nil => exact absurd (List.cons.inj same).1 fun is => absent (by simp [is])
      | cons first other =>
          obtain ⟨heads, tails⟩ := List.cons.inj same
          obtain ⟨fronts, backs⟩ := induction (fun listed => absent (List.mem_cons_of_mem _ listed))
            (fun listed => missing (List.mem_cons_of_mem _ listed)) tails
          exact ⟨by rw [heads, fronts], backs⟩

theorem stripContextBlock_bracket (absent : ']' ∉ inner) (tail : List Char) :
    stripContextBlock (contextBlockHead ++ inner ++ ']' :: tail) =
      match tail with
      | '\n' :: '\n' :: rest => rest
      | [] => []
      | _ => contextBlockHead ++ inner ++ ']' :: tail := by
  have begins : contextBlockHead.isPrefixOf (contextBlockHead ++ inner ++ ']' :: tail) = true := by
    rw [List.isPrefixOf_iff_prefix, List.append_assoc]
    exact List.prefix_append _ _
  have found : ((contextBlockHead ++ inner ++ ']' :: tail).drop
      contextBlockHead.length).dropWhile (· != ']') = ']' :: tail := by
    rw [List.append_assoc, List.drop_left, List.dropWhile_append_of_pos, List.dropWhile_cons_of_neg]
    · decide
    · intro char listed
      rw [bne_iff_ne]
      exact fun is => absent (is ▸ listed)
  rw [stripContextBlock, if_pos begins, found]
  split
  next same => cases same; rfl
  next same => cases same; rfl
  next other last =>
    split
    next => exact absurd rfl (other _)
    next => exact absurd rfl last
    next => rfl

theorem strip_of_leads (leads : Leads text rest) : stripContextBlock text = rest := by
  obtain ⟨inner, absent, rfl | ⟨rfl, rfl⟩⟩ := leads
  · exact stripContextBlock_bracket absent _
  · exact stripContextBlock_bracket absent []

theorem strip_of_not_leads (unmarked : ∀ rest, ¬ Leads text rest) :
    stripContextBlock text = text := by
  rw [stripContextBlock]
  split
  next begins =>
    obtain ⟨later, rfl⟩ := List.isPrefixOf_iff_prefix.mp begins
    rw [List.drop_left]
    have absent : ']' ∉ later.takeWhile (· != ']') := fun listed =>
      absurd (List.mem_takeWhile_imp listed) (by decide)
    have whole := List.takeWhile_append_dropWhile (p := (· != ']')) (l := later)
    split
    next rest found =>
      rw [found] at whole
      exact absurd ⟨_, absent, .inl (by rw [List.append_assoc, whole])⟩ (unmarked rest)
    next found =>
      rw [found] at whole
      exact absurd ⟨_, absent, .inr ⟨by rw [List.append_assoc, whole], rfl⟩⟩ (unmarked [])
    next => rfl
  next => rfl

theorem Leads.length (leads : Leads text rest) : rest.length < text.length := by
  obtain ⟨inner, -, rfl | ⟨rfl, rfl⟩⟩ := leads
  · simp only [List.length_append, List.length_cons]
    omega
  · simp

/-- The strip leaves a text alone exactly if it does not begin like a block. -/
theorem strip_eq_self_iff : stripContextBlock text = text ↔ ∀ rest, ¬ Leads text rest := by
  constructor
  · intro same rest leads
    have shorter := leads.length
    rw [← strip_of_leads leads, same] at shorter
    exact absurd shorter (lt_irrefl _)
  · exact strip_of_not_leads

theorem not_leads_of_bracket (bracket : ']' ∈ body) (single : '\n' ∉ body) (tail : List Char) :
    ∀ rest, ¬ Leads (contextBlockHead ++ body ++ ']' :: tail) rest := by
  rintro rest ⟨inner, absent, shape⟩
  have cancelled : ∃ later, body ++ ']' :: tail = inner ++ ']' :: later ∧
      (later = [] ∨ later.head? = some '\n') := by
    rcases shape with same | ⟨same, -⟩
    · rw [List.append_assoc, List.append_assoc] at same
      exact ⟨_, List.append_cancel_left same, .inr rfl⟩
    · rw [List.append_assoc, List.append_assoc] at same
      exact ⟨[], List.append_cancel_left same, .inl rfl⟩
  obtain ⟨later, same, ending⟩ := cancelled
  obtain ⟨front, back, rfl, missing⟩ := List.eq_append_cons_of_mem bracket
  rw [List.append_assoc, List.cons_append] at same
  obtain ⟨-, behind⟩ := first_bracket missing absent same
  rw [← behind] at ending
  rcases ending with empty | newline
  · simp at empty
  · cases back with
    | nil => exact absurd newline (by simp)
    | cons head back =>
        rw [List.cons_append, List.head?_cons, Option.some.injEq] at newline
        exact single (by simp [newline])

end Taking

/-! ## What stands in the block -/

section Values

variable {fields : List (String × Json)} {key : ContextKey} {value : List Char}

theorem collapsed_eq (text : List Char) :
    collapsed text = [' '].intercalate (Words.words blank text) := rfl

theorem newline_notMem_collapsed (text : List Char) : '\n' ∉ collapsed text := by
  intro listed
  rw [collapsed_eq] at listed
  rcases Words.mem_intercalate listed with separator | ⟨word, wordIn, newline⟩
  · exact absurd separator (by decide)
  · exact absurd ((Words.mem_words wordIn).2 _ newline) (by decide)

theorem newline_notMem_value {raw : Json} (accepted : validatedContextValue key raw = some value) :
    '\n' ∉ value := by
  cases raw with
  | str text =>
      simp only [validatedContextValue] at accepted
      split at accepted
      next => cases accepted
      next =>
        split at accepted
        next words listed =>
          split at accepted
          next member =>
            rw [Option.some.injEq] at accepted
            subst accepted
            cases key <;> simp only [ContextKey.allowed, reduceCtorEq, Option.some.injEq] at listed
            all_goals
              subst listed
              intro newline
              simp only [List.contains_iff_mem, List.map_cons, List.map_nil, List.mem_cons,
                List.not_mem_nil, or_false] at member
              rcases member with is | is | is <;>
              · rw [is] at newline
                exact absurd newline (by decide)
          next => cases accepted
        next =>
          split at accepted
          next => cases accepted
          next =>
            split at accepted
            next =>
              split at accepted
              next plain =>
                cases accepted
                intro newline
                exact absurd (List.all_eq_true.mp plain _ newline) (by decide)
              next => cases accepted
            next =>
              split at accepted
              next => cases accepted
              next =>
                cases accepted
                exact newline_notMem_collapsed _
  | _ => cases accepted

theorem mem_contextParts {part : List Char} :
    part ∈ contextParts fields ↔
      ∃ key value, contextValue fields key = some value ∧
        key.name.toList ++ '=' :: value = part := by
  simp only [contextParts, List.mem_filterMap, Option.map_eq_some_iff]
  constructor
  · rintro ⟨key, -, value, accepted, rfl⟩
    exact ⟨key, value, accepted, rfl⟩
  · rintro ⟨key, value, accepted, rfl⟩
    exact ⟨key, by cases key <;> decide, value, accepted, rfl⟩

theorem name_plain (key : ContextKey) : '\n' ∉ key.name.toList ∧ ']' ∉ key.name.toList := by
  cases key <;> decide

def blockBody (fields : List (String × Json)) : List Char :=
  "; ".toList.intercalate (contextParts fields)

theorem newline_notMem_blockBody : '\n' ∉ blockBody fields := by
  intro newline
  rcases Words.mem_intercalate newline with separator | ⟨part, partIn, inPart⟩
  · exact absurd separator (by decide)
  · obtain ⟨key, value, accepted, rfl⟩ := mem_contextParts.mp partIn
    rw [List.mem_append, List.mem_cons] at inPart
    rcases inPart with name | equals | inValue
    · exact (name_plain key).1 name
    · exact absurd equals (by decide)
    · obtain ⟨raw, -, validated⟩ := Option.bind_eq_some_iff.mp accepted
      exact newline_notMem_value validated inValue

theorem bracket_mem_blockBody :
    ']' ∈ blockBody fields ↔
      ∃ key value, contextValue fields key = some value ∧ ']' ∈ value := by
  constructor
  · intro bracket
    rcases Words.mem_intercalate bracket with separator | ⟨part, partIn, inPart⟩
    · exact absurd separator (by decide)
    · obtain ⟨key, value, accepted, rfl⟩ := mem_contextParts.mp partIn
      rw [List.mem_append, List.mem_cons] at inPart
      rcases inPart with name | equals | inValue
      · exact absurd name (name_plain key).2
      · exact absurd equals (by decide)
      · exact ⟨key, value, accepted, inValue⟩
  · rintro ⟨key, value, accepted, bracket⟩
    exact Words.mem_intercalate_of_mem (mem_contextParts.mpr ⟨key, value, accepted, rfl⟩)
      (List.mem_append_right _ (List.mem_cons_of_mem _ bracket))

end Values

/-! ## Undoing the composition -/

section Undoing

variable {context : Option (List (String × Json))} {message block : List Char}
  {placeholders : List Placeholder}

theorem exists_of_rendered (rendered : renderContextBlock context = some block) :
    ∃ fields, context = some fields ∧ block = contextBlockHead ++ blockBody fields ++ [']'] := by
  unfold renderContextBlock at rendered
  split at rendered
  next => cases rendered
  next fields =>
    split at rendered
    next => cases rendered
    next =>
      cases rendered
      exact ⟨fields, rfl, rfl⟩

theorem renderContextBlock_eq_none_iff :
    renderContextBlock context = none ↔ NoSettings context := by
  cases context with
  | none => exact ⟨fun _ fields is => absurd is (by simp), fun _ => rfl⟩
  | some fields =>
      have parts : contextParts fields = [] ↔ ∀ key, contextValue fields key = none := by
        constructor
        · intro none key
          rw [Option.eq_none_iff_forall_ne_some]
          intro value accepted
          have listed := mem_contextParts.mpr ⟨key, value, accepted, rfl⟩
          rw [none] at listed
          exact absurd listed List.not_mem_nil
        · intro none
          rw [List.eq_nil_iff_forall_not_mem]
          intro part partIn
          obtain ⟨key, value, accepted, -⟩ := mem_contextParts.mp partIn
          rw [none key] at accepted
          cases accepted
      unfold renderContextBlock
      simp only [ite_eq_left_iff, reduceCtorEq, imp_false, not_not, parts]
      constructor
      · rintro none _ ⟨rfl⟩
        exact none
      · exact fun none => none fields rfl

theorem plainSettings_of_none (none : NoSettings context) : PlainSettings context := by
  rintro fields rfl key value accepted
  rw [none fields rfl key] at accepted
  cases accepted

theorem isBlank_iff : isBlank message = true ↔ Words.words blank message = [] := by
  rw [isBlank, List.isEmpty_iff, Words.strip_eq_nil_iff]

theorem not_isBlank_of_head {later : List Char} : isBlank ('[' :: later) = false :=
  Bool.eq_false_iff.mpr fun isBlank =>
    Words.words_ne_nil_of_head (by decide) later (isBlank_iff.mp isBlank)

theorem not_leads_of_isBlank (isBlank_ : isBlank message = true) :
    ∀ rest, ¬ Leads message rest := by
  rintro rest ⟨inner, -, shape⟩
  have bracket : ∃ later, message = '[' :: later := by
    rcases shape with is | ⟨is, -⟩
    · exact ⟨_, is⟩
    · exact ⟨_, is⟩
  obtain ⟨later, rfl⟩ := bracket
  rw [not_isBlank_of_head] at isBlank_
  cases isBlank_

def behindBlock (message : List Char) : List Char :=
  if isBlank message then [] else '\n' :: '\n' :: message

theorem compose_block (body message : List Char) :
    composeTurn0Text (some (contextBlockHead ++ body ++ [']'])) message =
      contextBlockHead ++ body ++ ']' :: behindBlock message := by
  unfold composeTurn0Text behindBlock
  split <;> simp

theorem strip_compose {body : List Char} (plain : ']' ∉ body) :
    stripContextBlock (contextBlockHead ++ body ++ ']' :: behindBlock message) =
      ownText message := by
  rw [stripContextBlock_bracket plain]
  unfold behindBlock ownText
  cases isBlank message <;> rfl

theorem stripped_iff :
    stripContextBlock (composeTurn0Text (renderContextBlock context) message) = ownText message ↔
      PlainSettings context ∧ (NoSettings context → ∀ rest, ¬ Leads message rest) := by
  rw [← renderContextBlock_eq_none_iff]
  cases rendered : renderContextBlock context with
  | none =>
      have plain := plainSettings_of_none (renderContextBlock_eq_none_iff.mp rendered)
      cases empty : isBlank message with
      | true => simp [composeTurn0Text, ownText, empty, plain, not_leads_of_isBlank empty,
          stripContextBlock]
      | false => simp [composeTurn0Text, ownText, empty, plain, strip_eq_self_iff]
  | some block =>
      obtain ⟨fields, rfl, rfl⟩ := exists_of_rendered rendered
      have plain_iff : PlainSettings (some fields) ↔ ']' ∉ blockBody fields := by
        rw [bracket_mem_blockBody]
        constructor
        · rintro plain ⟨key, value, accepted, bracket⟩
          exact plain fields rfl key value accepted bracket
        · rintro absent _ ⟨rfl⟩ key value accepted bracket
          exact absent ⟨key, value, accepted, bracket⟩
      rw [plain_iff, compose_block]
      simp only [reduceCtorEq, false_implies, and_true]
      constructor
      · intro undone bracket
        rw [strip_of_not_leads (not_leads_of_bracket bracket newline_notMem_blockBody _)] at undone
        have lengths := congrArg List.length undone
        unfold behindBlock ownText at lengths
        simp only [List.length_append, List.length_cons] at lengths
        split at lengths
        next => simp at lengths
        next =>
          simp only [List.length_cons] at lengths
          omega
      · exact strip_compose

/-- The text of a placeholder, from its first characters to its last one. -/
theorem Placeholder.shape (placeholder : Placeholder) :
    ∃ inner, placeholder.text.toList = '[' :: 'a' :: (inner ++ [']']) := by
  obtain ⟨text, att, size, made⟩ := placeholder
  have head : codes "[attachment: " = 91 :: 97 :: codes "ttachment: " := rfl
  have last : codes "B — отправлено в первом обращении к модели]" =
      codes "B — отправлено в первом обращении к модели" ++ [93] := by decide +kernel
  have chars : text.toList = (codes text).map Char.ofNat := by
    rw [codes, List.map_map]
    exact ((List.map_congr_left fun char _ => Char.ofNat_toNat char).trans (List.map_id _)).symm
  unfold Chat.placeholder at made
  rw [Encoding.codes_append, Encoding.codes_append, Encoding.codes_append, Encoding.codes_append,
    head, last] at made
  rw [chars, made]
  simp only [List.cons_append, List.append_assoc, List.map_cons, List.map_append, List.map_nil]
  simp only [← List.append_assoc]
  exact ⟨_, rfl⟩

theorem Placeholder.not_leads (placeholder : Placeholder) (later rest : List Char) :
    ¬ Leads (placeholder.text.toList ++ later) rest := by
  obtain ⟨inner, shape⟩ := placeholder.shape
  rw [shape]
  rintro ⟨body, -, is | ⟨is, -⟩⟩ <;>
  · have second := (List.cons.inj (List.cons.inj is).2).1
    exact absurd second (by decide)

theorem stripLeading_placeholders (placeholders : List Placeholder) :
    stripLeadingContextBlock (placeholders.map fun placeholder => .typed (.text placeholder.text)) =
      placeholders.map fun placeholder => .typed (.text placeholder.text) := by
  cases placeholders with
  | nil => rfl
  | cons first later =>
      have kept := strip_of_not_leads (first.not_leads [])
      rw [List.append_nil] at kept
      simp only [List.map_cons, stripLeadingContextBlock, kept, String.ofList_toList]

/-- Once stripping undoes composing the history shows the own text. -/
theorem history_of_stripped
    (stripped : stripContextBlock (composeTurn0Text (renderContextBlock context) message) =
      ownText message) :
    stripLeadingContextBlock (userContent context message placeholders) =
      ownContent context message placeholders := by
  unfold userContent ownContent
  by_cases empty : composeTurn0Text (renderContextBlock context) message = []
  · simp only [empty, if_true, List.nil_append, stripLeading_placeholders]
  · simp only [empty, if_false, List.singleton_append, stripLeadingContextBlock,
      String.toList_ofList, stripped]

/-! ### The preview -/

theorem truncate_eq (limit : Nat) (text : List Char) :
    truncate limit text = ([' '].intercalate (Words.words blank text)).take limit := rfl

theorem truncate_congr {limit : Nat} {text other : List Char}
    (same : Words.words blank text = Words.words blank other) :
    truncate limit text = truncate limit other := by
  rw [truncate_eq, truncate_eq, same]

theorem truncate_eq_nil_iff {limit : Nat} (positive : 0 < limit) {text : List Char} :
    truncate limit text = [] ↔ Words.words blank text = [] := by
  rw [truncate_eq, List.take_eq_nil_iff,
    Words.intercalate_eq_nil_iff fun word wordIn => (Words.mem_words wordIn).1]
  exact or_iff_right (Nat.pos_iff_ne_zero.mp positive)

theorem truncate_ownText (limit : Nat) :
    truncate limit (ownText message) = truncate limit message := by
  unfold ownText
  split
  next empty => exact truncate_congr (isBlank_iff.mp empty).symm
  next => rfl

def contentTexts (text : List Char) (placeholders : List Placeholder) : List (List Char) :=
  (if text = [] then [] else [text]) ++ placeholders.map fun placeholder => placeholder.text.toList

theorem Placeholder.ne_nil (placeholder : Placeholder) : placeholder.text.toList ≠ [] := by
  obtain ⟨inner, shape⟩ := placeholder.shape
  rw [shape]
  exact List.cons_ne_nil _ _

def blockText : Block → Option (List Char)
  | .typed (.text said) => some said.toList
  | _ => none

theorem joinedText_eq (content : List Block) :
    joinedText content =
      [' '].intercalate ((content.filterMap blockText).filter fun part => !part.isEmpty) := rfl

theorem blockText_userContent :
    (userContent context message placeholders).filterMap blockText =
      contentTexts (composeTurn0Text (renderContextBlock context) message) placeholders := by
  unfold userContent contentTexts
  rw [List.filterMap_append, List.filterMap_map]
  congr 1
  · split
    · rfl
    · simp [blockText]
  · exact congrFun List.filterMap_eq_map placeholders

theorem joinedText_userContent :
    joinedText (userContent context message placeholders) = [' '].intercalate
      (contentTexts (composeTurn0Text (renderContextBlock context) message) placeholders) := by
  rw [joinedText_eq, blockText_userContent]
  congr 1
  apply List.filter_eq_self.mpr
  intro part partIn
  rw [Bool.not_eq_true', List.isEmpty_eq_false_iff]
  rcases List.mem_append.mp partIn with own | added
  · split at own
    · exact absurd own List.not_mem_nil
    · rwa [List.mem_singleton.mp own]
  · obtain ⟨placeholder, -, rfl⟩ := List.mem_map.mp added
    exact placeholder.ne_nil

theorem previewOf_user (seq turn : Nat) (usage : Option Usage) (content : List Block) :
    (previewOf ⟨seq, turn, .user content, usage⟩).getD [] =
      truncate 160 (stripContextBlock (Words.strip blank (joinedText content))) := by
  have text : textFromPayload ⟨seq, turn, .user content, usage⟩ =
      Words.strip blank (joinedText content) := rfl
  unfold previewOf
  rw [text]
  generalize Words.strip blank (joinedText content) = said
  cases said with
  | nil => rfl
  | cons head later =>
      simp only [Step.isUser, List.isEmpty_cons, Bool.not_false, Bool.and_self, if_true]
      split
      next empty =>
        rw [List.isEmpty_iff.mp empty]
        rfl
      next => rfl

theorem words_placeholders :
    (placeholders.flatMap fun placeholder => Words.words blank placeholder.text.toList) = [] ↔
      placeholders = [] := by
  constructor
  · intro none
    cases placeholders with
    | nil => rfl
    | cons first later =>
        obtain ⟨inner, shape⟩ := first.shape
        rw [List.flatMap_cons, List.append_eq_nil_iff, shape] at none
        exact absurd none.1 (Words.words_ne_nil_of_head (by decide) _)
  · rintro rfl
    rfl

/-- Placeholders behind a message show unless the message fills the preview. -/
theorem truncate_iff {text : List Char} (words : Words.words blank text =
    Words.words blank message ++
      placeholders.flatMap fun placeholder => Words.words blank placeholder.text.toList) :
    truncate 160 text = truncate 160 message ↔
      placeholders = [] ∨ 160 ≤ (collapsed message).length := by
  rw [truncate_eq, truncate_eq, words, Words.take_intercalate_append, words_placeholders]
  · rfl
  · intro word wordIn
    rcases List.mem_append.mp wordIn with own | added
    · exact (Words.mem_words own).1
    · obtain ⟨placeholder, -, listed⟩ := List.mem_flatMap.mp added
      exact (Words.mem_words listed).1

theorem words_contentTexts (text : List Char) :
    Words.words blank ([' '].intercalate (contentTexts text placeholders)) =
      Words.words blank text ++
        placeholders.flatMap fun placeholder => Words.words blank placeholder.text.toList := by
  rw [Words.words_intercalate (by decide), contentTexts, List.flatMap_append, List.flatMap_map]
  congr 1
  split
  next empty => rw [empty]; rfl
  next => rw [List.flatMap_singleton]

theorem contentTexts_ownText :
    contentTexts (ownText message) placeholders =
      (if isBlank message then [] else [message]) ++
        placeholders.map fun placeholder => placeholder.text.toList := by
  unfold contentTexts ownText
  congr 1
  cases empty : isBlank message with
  | true => rfl
  | false =>
      have filled : message ≠ [] := by
        rintro rfl
        cases empty
      simp [filled]

theorem words_spokenText :
    Words.words blank (spokenText message placeholders) = Words.words blank message ++
      placeholders.flatMap fun placeholder => Words.words blank placeholder.text.toList := by
  rw [spokenText, Words.words_strip, ← contentTexts_ownText, words_contentTexts]
  congr 1
  unfold ownText
  split
  next empty => rw [isBlank_iff.mp empty]; rfl
  next => rfl

theorem preview_none :
    truncate 160 (stripContextBlock (spokenText message placeholders)) = truncate 160 message ↔
      (∃ rest, Leads (spokenText message placeholders) rest ∧
        truncate 160 rest = truncate 160 message) ∨
      (∀ rest, ¬ Leads (spokenText message placeholders) rest) ∧
        (placeholders = [] ∨ 160 ≤ (collapsed message).length) := by
  by_cases marked : ∃ rest, Leads (spokenText message placeholders) rest
  · obtain ⟨rest, leads⟩ := marked
    rw [strip_of_leads leads]
    constructor
    · exact fun same => .inl ⟨rest, leads, same⟩
    · rintro (⟨other, again, same⟩ | ⟨unmarked, -⟩)
      · rwa [← strip_of_leads leads, strip_of_leads again]
      · exact absurd leads (unmarked rest)
  · rw [not_exists] at marked
    rw [strip_of_not_leads marked, truncate_iff words_spokenText]
    constructor
    · exact fun plain => .inr ⟨marked, plain⟩
    · rintro (⟨rest, leads, -⟩ | ⟨-, plain⟩)
      · exact absurd leads (marked rest)
      · exact plain

/-- Blanks at the end of a text with a block are behind the block. -/
theorem strip_block (body tail : List Char) :
    Words.strip blank (contextBlockHead ++ body ++ ']' :: tail) =
      contextBlockHead ++ body ++ ']' :: tail.rdropWhile blank := by
  have start : (contextBlockHead ++ body ++ ']' :: tail).dropWhile blank =
      contextBlockHead ++ body ++ ']' :: tail := rfl
  rw [Words.strip, start, Words.rdropWhile_append_of_words _
    (Words.words_ne_nil_of_head (by decide) tail), Words.rdropWhile_cons_of_solid (by decide)]

/-- The preview of a message with settings and with text of its own. -/
theorem preview_block {body : List Char} (plain : ']' ∉ body) (filled : isBlank message = false) :
    truncate 160 (stripContextBlock (Words.strip blank ([' '].intercalate (contentTexts
        (contextBlockHead ++ body ++ ']' :: behindBlock message) placeholders)))) =
      truncate 160 message ↔ placeholders = [] ∨ 160 ≤ (collapsed message).length := by
  have nonempty : message ≠ [] := by
    rintro rfl
    cases filled
  have texts : contentTexts (contextBlockHead ++ body ++ ']' :: behindBlock message) placeholders =
      ((contextBlockHead ++ body ++ [']', '\n', '\n']) ++ message) ::
        placeholders.map fun placeholder => placeholder.text.toList := by
    simp [contentTexts, behindBlock, filled]
  have own : contentTexts message placeholders =
      message :: placeholders.map fun placeholder => placeholder.text.toList := by
    simp [contentTexts, nonempty]
  have words := @words_contentTexts placeholders message
  have some_word :
      Words.words blank ([' '].intercalate (contentTexts message placeholders)) ≠ [] := by
    intro none
    rw [words, List.append_eq_nil_iff] at none
    rw [isBlank_iff.mpr none.1] at filled
    cases filled
  rw [texts, Words.intercalate_cons_append, ← own]
  generalize [' '].intercalate (contentTexts message placeholders) = said at words some_word
  have shape : contextBlockHead ++ body ++ [']', '\n', '\n'] ++ said =
      contextBlockHead ++ body ++ ']' :: (['\n', '\n'] ++ said) := by simp
  rw [shape, strip_block, Words.rdropWhile_append_of_words _ some_word,
    stripContextBlock_bracket plain]
  change truncate 160 (said.rdropWhile blank) = truncate 160 message ↔ _
  refine truncate_iff ?_
  rw [Words.words_rdropWhile, words]

/-- The preview of a message with settings and no text of its own. -/
theorem preview_bare {body : List Char} (plain : ']' ∉ body) (empty : isBlank message = true) :
    truncate 160 (stripContextBlock (Words.strip blank ([' '].intercalate (contentTexts
        (contextBlockHead ++ body ++ ']' :: behindBlock message) placeholders)))) =
      truncate 160 message ↔ placeholders = [] ∨ 160 ≤ (collapsed message).length := by
  have silent : collapsed message = [] := by
    rw [collapsed_eq, isBlank_iff.mp empty]
    rfl
  have nothing : truncate 160 message = [] := by rw [truncate, silent, List.take_nil]
  rw [silent, nothing]
  cases placeholders with
  | nil =>
      have text : [' '].intercalate (contentTexts
          (contextBlockHead ++ body ++ ']' :: behindBlock message) []) =
            contextBlockHead ++ body ++ ']' :: [] := by
        simp [contentTexts, behindBlock, empty]
      rw [text, strip_block, List.rdropWhile_nil, stripContextBlock_bracket plain]
      simp [truncate_eq]
  | cons first later =>
      set added := (first :: later).map fun placeholder => placeholder.text.toList with added_eq
      have texts : contentTexts (contextBlockHead ++ body ++ ']' :: behindBlock message)
          (first :: later) = (contextBlockHead ++ body ++ [']']) :: added := by
        simp [contentTexts, behindBlock, empty, added_eq]
      have some_word : Words.words blank ([' '].intercalate added) ≠ [] := by
        have solid := @words_contentTexts (first :: later) []
        simp only [contentTexts, if_true, List.nil_append, Words.words_nil] at solid
        rw [added_eq, solid, Ne, words_placeholders]
        exact List.cons_ne_nil _ _
      have shape : [' '].intercalate ((contextBlockHead ++ body ++ [']']) :: added) =
          contextBlockHead ++ body ++ ']' :: ([' '] ++ [' '].intercalate added) := by
        rw [added_eq, List.map_cons, List.intercalate_cons_cons]
        simp
      rw [texts, shape, strip_block, Words.rdropWhile_append_of_words _ some_word,
        stripContextBlock_bracket plain]
      change truncate 160 (contextBlockHead ++ body ++ ']' :: _) = [] ↔ _
      rw [truncate_eq_nil_iff (by decide)]
      constructor
      · exact fun none => absurd none (Words.words_ne_nil_of_head (by decide) _)
      · rintro (none | long)
        · cases none
        · exact absurd long (by decide)

/-! ### When the own text shows -/

/-- The words of the user and the placeholders are what a step without settings is made of. -/
theorem spokenText_eq : spokenText message placeholders =
    Words.strip blank ([' '].intercalate (contentTexts (ownText message) placeholders)) := by
  rw [spokenText, contentTexts_ownText]

theorem composeTurn0Text_none : composeTurn0Text none message = ownText message := by
  unfold composeTurn0Text ownText
  split <;> rfl

/-- The preview of a step, once its settings are plain. -/
theorem preview_iff (plain : PlainSettings context) :
    truncate 160 (stripContextBlock (Words.strip blank (joinedText
        (userContent context message placeholders)))) = truncate 160 message ↔
      (NoSettings context ∧
          ∃ rest, Leads (spokenText message placeholders) rest ∧
            truncate 160 rest = truncate 160 message) ∨
        ((NoSettings context → ∀ rest, ¬ Leads (spokenText message placeholders) rest) ∧
          (placeholders = [] ∨ 160 ≤ (collapsed message).length)) := by
  rw [joinedText_userContent, ← renderContextBlock_eq_none_iff]
  cases rendered : renderContextBlock context with
  | none =>
      rw [composeTurn0Text_none, ← spokenText_eq, preview_none]
      simp only [true_and, true_implies]
  | some block =>
      obtain ⟨fields, rfl, rfl⟩ := exists_of_rendered rendered
      have absent : ']' ∉ blockBody fields := by
        rw [bracket_mem_blockBody]
        rintro ⟨key, value, accepted, bracket⟩
        exact plain fields rfl key value accepted bracket
      rw [compose_block]
      simp only [reduceCtorEq, false_and, false_implies, true_and, false_or]
      cases empty : isBlank message with
      | true => exact preview_bare absent empty
      | false => exact preview_block absent empty

/-- The own text of the user is what strip, history and preview show exactly if the settings have
no bracket, the message is no block itself, and no placeholder reaches the preview. -/
theorem own_text_shown_iff (context : Option (List (String × Json))) (message : List Char)
    (placeholders : List Placeholder) :
    OwnTextShown context message placeholders ↔ Unmistakable context message placeholders := by
  constructor
  · intro shown
    obtain ⟨plain, unmarked⟩ := stripped_iff.mp shown.stripped
    refine ⟨plain, unmarked, (preview_iff plain).mp ?_⟩
    rw [← previewOf_user 0 0 none, shown.preview, truncate_ownText]
  · intro clear
    have stripped := stripped_iff.mpr ⟨clear.settings, clear.unmarked⟩
    refine ⟨stripped, history_of_stripped stripped, fun seq turn usage => ?_⟩
    rw [previewOf_user, (preview_iff clear.settings).mpr clear.preview, truncate_ownText]

/-- A tone with a bracket keeps the block in the text. -/
theorem bracket_in_tone_shown :
    ¬ OwnTextShown (some [("tone", .str "a]b")]) ['h', 'i'] [] := by
  intro shown
  exact absurd shown.stripped (by decide)

end Undoing

end Hermes.Chats
