import Hermes.AgentProxy.Usage

/-!
# Redaction of logs and audit payloads

A value is walked through its dictionaries and lists, and what stands under a sensitive key becomes
a marker.  A list of attachments has a walk of its own, which hides the data of each attachment and
does not look at the other keys of it.
-/

namespace Hermes.Observability

open AgentProxy (lowerChar Occurs)

/-- `REDACTED`. -/
def marker : Json := .str "***REDACTED***"

/-- `_DENY_SUBSTRINGS`. -/
def denySubstrings : List String :=
  ["key", "token", "secret", "password", "authorization", "credential"]

/-- `_USAGE_COUNT_ALLOWLIST`. -/
def usageCountAllowlist : List String :=
  ["input_tokens", "output_tokens", "total_tokens", "inputtokens", "outputtokens", "totaltokens",
    "cumulative_input_tokens", "cumulative_output_tokens", "cumulative_total_tokens",
    "cumulativeinputtokens", "cumulativeoutputtokens", "cumulativetotaltokens"]

/-- `_IDEMPOTENCY_KEY_ALLOWLIST`. -/
def idempotencyKeyAllowlist : List String := ["idempotencykey", "idempotency_key"]

/-- `_DENY_EXACT`. -/
def denyExact : List String :=
  ["apikey", "transaction", "jws", "receipt", "dek", "nonce", "encrypted_key", "encrypted_dek",
    "x-admin-token", "x_admin_token"]

/-- `str.lower`, as far as it is compared with letters of ASCII. -/
def lower (key : String) : List Char := key.toList.flatMap lowerChar

/-- `_is_sensitive_key`. -/
def isSensitiveKey (key : String) : Bool :=
  let lowered := lower key
  if (usageCountAllowlist.map String.toList).contains lowered then false
  else if (idempotencyKeyAllowlist.map String.toList).contains lowered then false
  else if "status".toList.isSuffixOf lowered then false
  else if (denyExact.map String.toList).contains lowered then true
  else denySubstrings.any fun part => decide (part.toList <:+: lowered)

/-- `k.lower() == "attachments"`. -/
def isAttachmentsKey (key : String) : Bool := lower key == "attachments".toList

/-! ## The walk -/

mutual

/-- `redact`. -/
def redact : Json → Json
  | .obj fields => .obj (redactFields fields)
  | .arr items => .arr (redactItems items)
  | value => value

def redactFields : List (String × Json) → List (String × Json)
  | [] => []
  | (key, value) :: fields =>
      (key,
        if isSensitiveKey key then marker
        else if isAttachmentsKey key then redactAttachments value
        else redact value) :: redactFields fields

def redactItems : List Json → List Json
  | [] => []
  | item :: items => redact item :: redactItems items

/-- `_redact_attachments`; what is no list is redacted as any other value is. -/
def redactAttachments : Json → Json
  | .arr items => .arr (redactAttachmentItems items)
  | .obj fields => .obj (redactFields fields)
  | value => value

def redactAttachmentItems : List Json → List Json
  | [] => []
  | .obj fields :: items => .obj (redactAttachmentFields fields) :: redactAttachmentItems items
  | .arr inner :: items => .arr (redactItems inner) :: redactAttachmentItems items
  | item :: items => item :: redactAttachmentItems items

def redactAttachmentFields : List (String × Json) → List (String × Json)
  | [] => []
  | (key, value) :: fields =>
      (key, if key = "data" then marker else redact value) :: redactAttachmentFields fields

end

/-- The calls nested in a call of `_is_sensitive_key`; only its last test runs a generator. -/
def keyFrames (key : String) : Nat :=
  let lowered := lower key
  if (usageCountAllowlist.map String.toList).contains lowered then 1
  else if (idempotencyKeyAllowlist.map String.toList).contains lowered then 1
  else if "status".toList.isSuffixOf lowered then 1
  else if (denyExact.map String.toList).contains lowered then 1
  else 2

mutual

/-- How many calls are nested in a call of `redact`. -/
def frames : Json → Nat
  | .obj fields => 1 + fieldFrames fields
  | .arr items => 1 + itemFrames items
  | _ => 1

def fieldFrames : List (String × Json) → Nat
  | [] => 0
  | (key, value) :: fields =>
      max
        (max (keyFrames key)
          (if isSensitiveKey key then 0
            else if isAttachmentsKey key then 1 + attachmentFrames value
            else frames value))
        (fieldFrames fields)

def itemFrames : List Json → Nat
  | [] => 0
  | item :: items => max (frames item) (itemFrames items)

/-- The calls nested in a call of `_redact_attachments`. -/
def attachmentFrames : Json → Nat
  | .arr items => attachmentItemFrames items
  | .obj fields => 1 + fieldFrames fields
  | _ => 1

def attachmentItemFrames : List Json → Nat
  | [] => 0
  | .obj fields :: items => max (attachmentFieldFrames fields) (attachmentItemFrames items)
  | .arr inner :: items => max (1 + itemFrames inner) (attachmentItemFrames items)
  | _ :: items => max 1 (attachmentItemFrames items)

def attachmentFieldFrames : List (String × Json) → Nat
  | [] => 0
  | (key, value) :: fields =>
      max (if key = "data" then 0 else frames value) (attachmentFieldFrames fields)

end

/-- `redact` on a stack with room for some calls; none is a `RecursionError`. -/
def redactWithin (room : Nat) (value : Json) : Option Json :=
  if frames value ≤ room then some (redact value) else none

/-! ## What redaction has to do -/

/-- What stands under a key gives nothing away: under a sensitive one the marker, and in a list of
attachments no data but the marker. -/
structure Hidden (key : String) (stored : Json) : Prop where
  secret : isSensitiveKey key = true → stored = marker
  data : isAttachmentsKey key = true → ∀ items, stored = .arr items → ∀ attachment,
    .obj attachment ∈ items → ∀ datum, ("data", datum) ∈ attachment → datum = marker

inductive Place
  | key (name : String)
  | index (position : Nat)
  deriving DecidableEq, Repr

def at? : Json → List Place → Option Json
  | value, [] => some value
  | .obj fields, .key name :: path => (Json.get? fields name).bind (at? · path)
  | .arr items, .index position :: path => items[position]?.bind (at? · path)
  | _, _ :: _ => none

/-- A path leads through a sensitive key or the data of an attachment. -/
def Covered (path : List Place) : Prop :=
  (∃ name, .key name ∈ path ∧ isSensitiveKey name = true) ∨
    ∃ name position, isAttachmentsKey name = true ∧
      [.key name, .index position, .key "data"] <:+: path

/-- A leaf itself, and of a container what it has room for. -/
inductive Outline
  | leaf (value : Json)
  | list (length : Nat)
  | dict (keys : List String)

def outline : Json → Outline
  | .obj fields => .dict (fields.map (·.1))
  | .arr items => .list items.length
  | value => .leaf value

/-- A redacted value hides what it has to, and has everything else where it was. -/
structure Redacted (value result : Json) : Prop where
  hidden : ∀ level key stored, Occurs level result key stored → Hidden key stored
  kept : ∀ path, ¬ Covered path → (at? result path).map outline = (at? value path).map outline

/-- The redaction of a value succeeds, is idempotent and does what it has to. -/
def RedactionLaw (room : Nat) (value : Json) : Prop :=
  ∃ result, redactWithin room value = some result ∧ redactWithin room result = some result ∧
    Redacted value result

/-- The parts of a value which `redact` is called with. -/
inductive Visits (root : Json) : Json → Prop
  | root : Visits root root
  | field {fields : List (String × Json)} {key : String} {value : Json}
      (within : Visits root (.obj fields)) (listed : (key, value) ∈ fields)
      (plain : isSensitiveKey key = false) (other : isAttachmentsKey key = false) :
      Visits root value
  | item {items : List Json} {item : Json} (within : Visits root (.arr items))
      (listed : item ∈ items) : Visits root item
  /-- What stands under `attachments` and is no list. -/
  | single {fields : List (String × Json)} {key : String} {value : Json}
      (within : Visits root (.obj fields)) (listed : (key, value) ∈ fields)
      (named : isAttachmentsKey key = true) (single : ∀ items, value ≠ .arr items) :
      Visits root value
  /-- What stands among the attachments and is no dictionary. -/
  | loose {fields : List (String × Json)} {key : String} {items : List Json} {item : Json}
      (within : Visits root (.obj fields)) (listed : (key, .arr items) ∈ fields)
      (named : isAttachmentsKey key = true) (among : item ∈ items)
      (loose : ∀ attachment, item ≠ .obj attachment) : Visits root item
  | part {fields attachment : List (String × Json)} {key name : String} {items : List Json}
      {value : Json} (within : Visits root (.obj fields)) (listed : (key, .arr items) ∈ fields)
      (named : isAttachmentsKey key = true) (among : .obj attachment ∈ items)
      (part : (name, value) ∈ attachment) (other : name ≠ "data") : Visits root value

/-- The attachments in a value have nothing to hide beside their data. -/
def Screened (value : Json) : Prop :=
  ∀ fields key items attachment name part, Visits value (.obj fields) →
    (key, .arr items) ∈ fields → isAttachmentsKey key = true → .obj attachment ∈ items →
      (name, part) ∈ attachment → Hidden name part

/-! ## The walk as a map -/

section Walk

def redactField (key : String) (value : Json) : Json :=
  if isSensitiveKey key then marker
  else if isAttachmentsKey key then redactAttachments value
  else redact value

/-- What becomes of a value under a key of an attachment. -/
def redactAttachmentField (key : String) (value : Json) : Json :=
  if key = "data" then marker else redact value

def redactAttachment : Json → Json
  | .obj fields => .obj (redactAttachmentFields fields)
  | value => redact value

theorem redactFields_eq_map (fields : List (String × Json)) :
    redactFields fields = fields.map fun field => (field.1, redactField field.1 field.2) := by
  induction fields with
  | nil => rfl
  | cons field fields induction => rw [redactFields, induction, List.map_cons, redactField]

theorem redactItems_eq_map (items : List Json) : redactItems items = items.map redact := by
  induction items with
  | nil => rfl
  | cons item items induction => rw [redactItems, induction, List.map_cons]

theorem redactAttachmentFields_eq_map (fields : List (String × Json)) :
    redactAttachmentFields fields =
      fields.map fun field => (field.1, redactAttachmentField field.1 field.2) := by
  induction fields with
  | nil => rfl
  | cons field fields induction =>
      rw [redactAttachmentFields, induction, List.map_cons, redactAttachmentField]

theorem redactAttachmentItems_eq_map (items : List Json) :
    redactAttachmentItems items = items.map redactAttachment := by
  induction items with
  | nil => rfl
  | cons item items induction =>
      rw [List.map_cons, ← induction]
      cases item <;> rfl

theorem redactAttachments_single {value : Json} (single : ∀ items, value ≠ .arr items) :
    redactAttachments value = redact value := by
  cases value with
  | arr items => exact absurd rfl (single items)
  | _ => rfl

theorem redactAttachment_loose {value : Json} (loose : ∀ attachment, value ≠ .obj attachment) :
    redactAttachment value = redact value := by
  cases value with
  | obj fields => exact absurd rfl (loose fields)
  | _ => rfl

theorem mem_map_fields {change : String → Json → Json} {fields : List (String × Json)}
    {key : String} {stored : Json} :
    (key, stored) ∈ fields.map (fun field => (field.1, change field.1 field.2)) ↔
      ∃ value, (key, value) ∈ fields ∧ change key value = stored := by
  rw [List.mem_map]
  constructor
  · rintro ⟨⟨name, value⟩, listed, same⟩
    cases same
    exact ⟨value, listed, rfl⟩
  · rintro ⟨value, listed, rfl⟩
    exact ⟨(key, value), listed, rfl⟩

theorem get?_map_fields {change : String → Json → Json} (fields : List (String × Json))
    (key : String) :
    Json.get? (fields.map fun field => (field.1, change field.1 field.2)) key =
      (Json.get? fields key).map (change key) := by
  induction fields with
  | nil => rfl
  | cons field fields induction =>
      simp only [Json.get?, List.map_cons, List.find?_cons] at induction ⊢
      cases same : field.1 == key with
      | false => exact induction
      | true =>
          rw [beq_iff_eq] at same
          simp [same]

theorem mem_redactFields {fields : List (String × Json)} {key : String} {stored : Json} :
    (key, stored) ∈ redactFields fields ↔
      ∃ value, (key, value) ∈ fields ∧ redactField key value = stored := by
  rw [redactFields_eq_map, mem_map_fields]

theorem mem_redactAttachmentFields {fields : List (String × Json)} {key : String} {stored : Json} :
    (key, stored) ∈ redactAttachmentFields fields ↔
      ∃ value, (key, value) ∈ fields ∧ redactAttachmentField key value = stored := by
  rw [redactAttachmentFields_eq_map, mem_map_fields]

theorem redact_eq_marker {value : Json} (same : redact value = marker) : value = marker := by
  cases value with
  | obj fields => cases same
  | arr items => cases same
  | _ => exact same

theorem redact_eq_arr {value : Json} {items : List Json} (same : redact value = .arr items) :
    ∃ before, value = .arr before ∧ items = before.map redact := by
  cases value with
  | arr before =>
      cases same
      exact ⟨before, rfl, redactItems_eq_map before⟩
  | _ => cases same

theorem redact_eq_obj {value : Json} {fields : List (String × Json)}
    (same : redact value = .obj fields) :
    ∃ before, value = .obj before ∧ fields = redactFields before := by
  cases value with
  | obj before =>
      cases same
      exact ⟨before, rfl, rfl⟩
  | _ => cases same

end Walk

/-! ## Idempotence -/

section Idempotence

mutual

theorem redact_redact : ∀ value, redact (redact value) = redact value
  | .obj fields => congrArg Json.obj (redactFields_redactFields fields)
  | .arr items => congrArg Json.arr (redactItems_redactItems items)
  | .null | .bool _ | .int _ | .float _ | .str _ => rfl

theorem redactFields_redactFields :
    ∀ fields, redactFields (redactFields fields) = redactFields fields
  | [] => rfl
  | (key, value) :: fields => by
      rw [redactFields, redactFields, redactFields_redactFields fields]
      split
      · rfl
      split
      · rw [redactAttachments_redactAttachments value]
      · rw [redact_redact value]

theorem redactItems_redactItems : ∀ items, redactItems (redactItems items) = redactItems items
  | [] => rfl
  | item :: items => by
      rw [redactItems, redactItems, redact_redact item, redactItems_redactItems items]

theorem redactAttachments_redactAttachments :
    ∀ value, redactAttachments (redactAttachments value) = redactAttachments value
  | .obj fields => congrArg Json.obj (redactFields_redactFields fields)
  | .arr items => congrArg Json.arr (redactAttachmentItems_redactAttachmentItems items)
  | .null | .bool _ | .int _ | .float _ | .str _ => rfl

theorem redactAttachmentItems_redactAttachmentItems :
    ∀ items, redactAttachmentItems (redactAttachmentItems items) = redactAttachmentItems items
  | [] => rfl
  | .obj fields :: items =>
      congrArg₂ (fun fields items => Json.obj fields :: items)
        (redactAttachmentFields_redactAttachmentFields fields)
        (redactAttachmentItems_redactAttachmentItems items)
  | .arr inner :: items =>
      congrArg₂ (fun inner items => Json.arr inner :: items) (redactItems_redactItems inner)
        (redactAttachmentItems_redactAttachmentItems items)
  | .null :: items | .bool _ :: items | .int _ :: items | .float _ :: items | .str _ :: items =>
      congrArg (List.cons _) (redactAttachmentItems_redactAttachmentItems items)

theorem redactAttachmentFields_redactAttachmentFields :
    ∀ fields, redactAttachmentFields (redactAttachmentFields fields) = redactAttachmentFields fields
  | [] => rfl
  | (key, value) :: fields => by
      rw [redactAttachmentFields, redactAttachmentFields,
        redactAttachmentFields_redactAttachmentFields fields]
      split
      · rfl
      · rw [redact_redact value]

end

mutual

/-- A redacted value is not nested deeper. -/
theorem frames_redact : ∀ value, frames (redact value) ≤ frames value
  | .obj fields => Nat.add_le_add_left (fieldFrames_redactFields fields) 1
  | .arr items => Nat.add_le_add_left (itemFrames_redactItems items) 1
  | .null | .bool _ | .int _ | .float _ | .str _ => Nat.le_refl _

theorem fieldFrames_redactFields :
    ∀ fields, fieldFrames (redactFields fields) ≤ fieldFrames fields
  | [] => Nat.le_refl _
  | (key, value) :: fields => by
      rw [redactFields, fieldFrames, fieldFrames]
      apply max_le_max _ (fieldFrames_redactFields fields)
      apply max_le_max_left
      split
      · exact Nat.le_refl _
      split
      · exact Nat.add_le_add_left (attachmentFrames_redactAttachments value) 1
      · exact frames_redact value

theorem itemFrames_redactItems : ∀ items, itemFrames (redactItems items) ≤ itemFrames items
  | [] => Nat.le_refl _
  | item :: items => max_le_max (frames_redact item) (itemFrames_redactItems items)

theorem attachmentFrames_redactAttachments :
    ∀ value, attachmentFrames (redactAttachments value) ≤ attachmentFrames value
  | .obj fields => Nat.add_le_add_left (fieldFrames_redactFields fields) 1
  | .arr items => attachmentItemFrames_redactAttachmentItems items
  | .null | .bool _ | .int _ | .float _ | .str _ => Nat.le_refl _

theorem attachmentItemFrames_redactAttachmentItems :
    ∀ items, attachmentItemFrames (redactAttachmentItems items) ≤ attachmentItemFrames items
  | [] => Nat.le_refl _
  | .obj fields :: items =>
      max_le_max (attachmentFieldFrames_redactAttachmentFields fields)
        (attachmentItemFrames_redactAttachmentItems items)
  | .arr inner :: items =>
      max_le_max (Nat.add_le_add_left (itemFrames_redactItems inner) 1)
        (attachmentItemFrames_redactAttachmentItems items)
  | .null :: items | .bool _ :: items | .int _ :: items | .float _ :: items | .str _ :: items =>
      max_le_max_left 1 (attachmentItemFrames_redactAttachmentItems items)

theorem attachmentFieldFrames_redactAttachmentFields :
    ∀ fields, attachmentFieldFrames (redactAttachmentFields fields) ≤ attachmentFieldFrames fields
  | [] => Nat.le_refl _
  | (key, value) :: fields => by
      rw [redactAttachmentFields, attachmentFieldFrames, attachmentFieldFrames]
      apply max_le_max _ (attachmentFieldFrames_redactAttachmentFields fields)
      split
      · exact Nat.le_refl _
      · exact frames_redact value

end

end Idempotence

/-! ## Secrets -/

section Secrets

variable {key : String}

theorem not_sensitive_of_attachments (named : isAttachmentsKey key = true) :
    isSensitiveKey key = false := by
  rw [isAttachmentsKey, beq_iff_eq] at named
  rw [isSensitiveKey, named]
  decide

theorem redactField_data (value : Json) : redactField "data" value = redact value := by
  rw [redactField, if_neg (by decide), if_neg (by decide)]

/-- Data are hidden by the list of attachments they are in, and not by their key. -/
theorem hidden_data (value : Json) : Hidden "data" value where
  secret sensitive := absurd sensitive (by decide)
  data named := absurd named (by decide)

theorem hidden_redactField (value : Json) : Hidden key (redactField key value) where
  secret sensitive := if_pos sensitive
  data named items same attachment among datum listed := by
    rw [redactField, not_sensitive_of_attachments named, if_neg (by simp), if_pos named] at same
    cases value with
    | arr before =>
        rw [redactAttachments, redactAttachmentItems_eq_map] at same
        cases same
        obtain ⟨item, -, changed⟩ := List.mem_map.mp among
        cases item with
        | obj fields =>
            cases changed
            obtain ⟨value, -, rfl⟩ := mem_redactAttachmentFields.mp listed
            exact if_pos rfl
        | _ => cases changed
    | _ => cases same

theorem hidden_redact_iff (value : Json) : Hidden key (redact value) ↔ Hidden key value := by
  constructor
  · refine fun hidden => ⟨fun sensitive => redact_eq_marker (hidden.secret sensitive), ?_⟩
    intro named items same attachment among datum listed
    subst same
    apply redact_eq_marker
    refine hidden.data named _ (congrArg Json.arr (redactItems_eq_map items)) _
      (List.mem_map_of_mem among) _ ?_
    exact mem_redactFields.mpr ⟨datum, listed, redactField_data datum⟩
  · refine fun hidden => ⟨fun sensitive => ?_, ?_⟩
    · rw [hidden.secret sensitive]
      rfl
    · intro named items same attachment among datum listed
      obtain ⟨before, rfl, rfl⟩ := redact_eq_arr same
      obtain ⟨item, item_among, changed⟩ := List.mem_map.mp among
      obtain ⟨fields, rfl, rfl⟩ := redact_eq_obj changed
      obtain ⟨value, value_listed, rfl⟩ := mem_redactFields.mp listed
      rw [redactField_data, hidden.data named _ rfl _ item_among _ value_listed]
      rfl

theorem not_occurs_marker {level : Nat} {stored : Json} : ¬ Occurs level marker key stored := by
  generalize same : marker = value
  rintro (_ | _ | _) <;> cases same

/-- Nothing in the redaction of a screened value gives anything away. -/
theorem hidden_of_occurs {root : Json} (screened : Screened root) {level : Nat} {part : Json}
    {stored : Json} (visits : Visits root part) (occurs : Occurs level (redact part) key stored) :
    Hidden key stored := by
  induction level using Nat.strong_induction_on generalizing part with
  | _ level induction =>
  generalize same : redact part = result at occurs
  cases occurs with
  | here listed =>
      obtain ⟨fields, rfl, rfl⟩ := redact_eq_obj same
      obtain ⟨value, -, rfl⟩ := mem_redactFields.mp listed
      exact hidden_redactField value
  | item listed inner =>
      obtain ⟨before, rfl, rfl⟩ := redact_eq_arr same
      obtain ⟨item, among, rfl⟩ := List.mem_map.mp listed
      exact induction _ (Nat.lt_succ_self _) (visits.item among) inner
  | @field _ name _ child _ lower listed inner =>
      obtain ⟨fields, rfl, rfl⟩ := redact_eq_obj same
      obtain ⟨value, member, rfl⟩ := mem_redactFields.mp listed
      rw [redactField] at inner
      cases sensitive : isSensitiveKey name with
      | true =>
          rw [if_pos sensitive] at inner
          exact absurd inner not_occurs_marker
      | false =>
      rw [sensitive, if_neg (by simp)] at inner
      cases named : isAttachmentsKey name with
      | false =>
          rw [named, if_neg (by simp)] at inner
          exact induction _ (Nat.lt_succ_self _) (visits.field member sensitive named) inner
      | true =>
      rw [if_pos named] at inner
      by_cases single : ∀ items, value ≠ .arr items
      · rw [redactAttachments_single single] at inner
        exact induction _ (Nat.lt_succ_self _) (visits.single member named single) inner
      -- What is left is a list of attachments.
      push Not at single
      obtain ⟨items, rfl⟩ := single
      rw [redactAttachments, redactAttachmentItems_eq_map] at inner
      cases inner with
      | item listed inner =>
      obtain ⟨item, among, rfl⟩ := List.mem_map.mp listed
      by_cases loose : ∀ attachment, item ≠ .obj attachment
      · rw [redactAttachment_loose loose] at inner
        exact induction _ (by omega) (visits.loose member named among loose) inner
      push Not at loose
      obtain ⟨attachment, rfl⟩ := loose
      cases inner with
      | here listed =>
          obtain ⟨part, part_listed, rfl⟩ := mem_redactAttachmentFields.mp listed
          rw [redactAttachmentField]
          split
          case isTrue data =>
              subst data
              exact hidden_data marker
          case isFalse other =>
              exact (hidden_redact_iff part).mpr
                (screened _ _ _ _ _ _ visits member named among part_listed)
      | field listed inner =>
          obtain ⟨part, part_listed, rfl⟩ := mem_redactAttachmentFields.mp listed
          rw [redactAttachmentField] at inner
          split at inner
          case isTrue data => exact absurd inner not_occurs_marker
          case isFalse other =>
              exact induction _ (by omega) (visits.part member named among part_listed other) inner

theorem redactField_plain (plain : isSensitiveKey key = false)
    (other : isAttachmentsKey key = false) (value : Json) :
    redactField key value = redact value := by
  rw [redactField, plain, if_neg (by simp), other, if_neg (by simp)]

theorem redactField_attachments (named : isAttachmentsKey key = true) (value : Json) :
    redactField key value = redactAttachments value := by
  rw [redactField, not_sensitive_of_attachments named, if_neg (by simp), if_pos named]

theorem mem_redactFields_list {fields : List (String × Json)} {items : List Json}
    (listed : (key, .arr items) ∈ fields) (named : isAttachmentsKey key = true) :
    (key, .arr (items.map redactAttachment)) ∈ redactFields fields := by
  refine mem_redactFields.mpr ⟨_, listed, ?_⟩
  rw [redactField_attachments named, redactAttachments, redactAttachmentItems_eq_map]

/-- What occurs in the redaction of a visited part, occurs in the redaction of the whole. -/
theorem Visits.occurs {root part stored : Json} (visits : Visits root part) {level : Nat}
    (occurs : Occurs level (redact part) key stored) :
    ∃ level, Occurs level (redact root) key stored := by
  induction visits generalizing level with
  | root => exact ⟨level, occurs⟩
  | @field _ _ value within listed plain other induction =>
      refine induction (.field (mem_redactFields.mpr ⟨value, listed, ?_⟩) occurs)
      exact redactField_plain plain other value
  | item within listed induction =>
      refine induction (.item ?_ occurs)
      rw [redactItems_eq_map]
      exact List.mem_map_of_mem listed
  | @single _ _ value within listed named single induction =>
      refine induction (.field (mem_redactFields.mpr ⟨value, listed, ?_⟩) occurs)
      rw [redactField_attachments named, redactAttachments_single single]
  | loose within listed named among loose induction =>
      have found := List.mem_map_of_mem (f := redactAttachment) among
      rw [redactAttachment_loose loose] at found
      exact induction (.field (mem_redactFields_list listed named) (.item found occurs))
  | @part _ _ _ name _ value within listed named among part other induction =>
      have found : (name, redact value) ∈ redactAttachmentFields _ :=
        mem_redactAttachmentFields.mpr ⟨value, part, if_neg other⟩
      exact induction (.field (mem_redactFields_list listed named)
        (.item (List.mem_map_of_mem among) (.field found occurs)))

theorem screened_of_hidden {root : Json}
    (hidden : ∀ level key stored, Occurs level (redact root) key stored → Hidden key stored) :
    Screened root := by
  intro fields key items attachment name part visits listed named among part_listed
  by_cases data : name = "data"
  · rw [data]
    exact hidden_data part
  have found : (name, redact part) ∈ redactAttachmentFields attachment :=
    mem_redactAttachmentFields.mpr ⟨part, part_listed, if_neg data⟩
  obtain ⟨level, occurs⟩ := visits.occurs (.field (mem_redactFields_list listed named)
    (.item (List.mem_map_of_mem among) (.here found)))
  exact (hidden_redact_iff part).mp (hidden level name _ occurs)

end Secrets

/-! ## What is kept -/

section Kept

theorem outline_redact (value : Json) : outline (redact value) = outline value := by
  cases value with
  | obj fields => simp [redact, outline, redactFields_eq_map]
  | arr items => simp [redact, outline, redactItems_eq_map]
  | _ => rfl

theorem outline_redactAttachment (value : Json) :
    outline (redactAttachment value) = outline value := by
  cases value with
  | obj fields => simp [redactAttachment, outline, redactAttachmentFields_eq_map]
  | _ => exact outline_redact _

theorem Covered.cons {place : Place} {path : List Place} (covered : Covered path) :
    Covered (place :: path) := by
  obtain ⟨name, listed, sensitive⟩ | ⟨name, position, named, inner⟩ := covered
  · exact .inl ⟨name, List.mem_cons_of_mem _ listed, sensitive⟩
  · exact .inr ⟨name, position, named, List.infix_cons inner⟩

/-- Two values have the same at the end of a path. -/
def Alike (path : List Place) (first second : Json) : Prop :=
  (at? first path).map outline = (at? second path).map outline

/-- The same at the end of a path on both sides, if there is anything there. -/
theorem alike_bind {path : List Place} {found : Option Json} {change : Json → Json}
    (alike : ∀ value, found = some value → Alike path (change value) value) :
    ((found.map change).bind (at? · path)).map outline = (found.bind (at? · path)).map outline := by
  cases found with
  | none => rfl
  | some value => exact alike value rfl

theorem alike_redactAttachment {path : List Place} {name : String} {position : Nat} {value : Json}
    (named : isAttachmentsKey name = true)
    (open_path : ¬ Covered (.key name :: .index position :: path))
    (shorter : ∀ path', path'.length ≤ path.length → ¬ Covered path' → ∀ value,
      Alike path' (redact value) value) : Alike path (redactAttachment value) value := by
  by_cases loose : ∀ attachment, value ≠ .obj attachment
  · rw [redactAttachment_loose loose]
    exact shorter path (Nat.le_refl _) (fun covered => open_path covered.cons.cons) value
  push Not at loose
  obtain ⟨attachment, rfl⟩ := loose
  cases path with
  | nil => exact congrArg some (outline_redactAttachment _)
  | cons place path =>
  cases place with
  | index position => rfl
  | key part =>
      have other : part ≠ "data" := by
        rintro rfl
        exact open_path (.inr ⟨name, position, named, [], path, rfl⟩)
      rw [Alike, redactAttachment, at?, at?, redactAttachmentFields_eq_map, get?_map_fields]
      refine alike_bind fun value _ => ?_
      rw [redactAttachmentField, if_neg other]
      exact shorter path (Nat.le_succ _) (fun covered => open_path covered.cons.cons.cons) value

/-- Off the covered paths everything is where it was. -/
theorem alike_redact (path : List Place) (open_path : ¬ Covered path) (value : Json) :
    Alike path (redact value) value := by
  induction size : path.length using Nat.strong_induction_on generalizing path value with
  | _ size induction =>
  cases path with
  | nil => exact congrArg some (outline_redact value)
  | cons place path =>
  have shorter (path' : List Place) (short : path'.length ≤ path.length)
      (open_path : ¬ Covered path') (value : Json) : Alike path' (redact value) value :=
    induction path'.length (by simp at size; omega) path' open_path value rfl
  have plain (value : Json) : Alike path (redact value) value :=
    shorter path (Nat.le_refl _) (fun covered => open_path covered.cons) value
  cases value with
  | arr items =>
      cases place with
      | key name => rfl
      | index position =>
          rw [Alike, redact, at?, at?, redactItems_eq_map, List.getElem?_map]
          exact alike_bind fun value _ => plain value
  | obj fields =>
      cases place with
      | index position => rfl
      | key name =>
          rw [Alike, redact, at?, at?, redactFields_eq_map, get?_map_fields]
          refine alike_bind fun value _ => ?_
          have bare : isSensitiveKey name = false := by
            rw [Bool.eq_false_iff]
            exact fun sensitive => open_path (.inl ⟨name, List.mem_cons_self, sensitive⟩)
          cases named : isAttachmentsKey name with
          | false =>
              rw [redactField_plain bare named]
              exact plain value
          | true =>
          rw [redactField_attachments named]
          by_cases single : ∀ items, value ≠ .arr items
          · rw [redactAttachments_single single]
            exact plain value
          push Not at single
          obtain ⟨items, rfl⟩ := single
          rw [redactAttachments, redactAttachmentItems_eq_map]
          cases path with
          | nil => simp [Alike, at?, outline]
          | cons place path =>
          cases place with
          | key name => rfl
          | index position =>
              rw [Alike, at?, at?, List.getElem?_map]
              refine alike_bind fun value _ => alike_redactAttachment named open_path ?_
              exact fun path' short => shorter path' (Nat.le_succ_of_le short)
  | _ => rfl

end Kept

/-- For every JSON value and every stack: its redaction succeeds, is idempotent, hides every secret
and every attachment, and keeps everything else, if and only if the stack has room for it and its
attachments have nothing to hide beside their data. -/
theorem redaction_lawful_iff (room : Nat) (value : Json) :
    RedactionLaw room value ↔ frames value ≤ room ∧ Screened value := by
  constructor
  · rintro ⟨result, within, -, redacted⟩
    rw [redactWithin] at within
    split at within
    case isTrue fits =>
        cases within
        exact ⟨fits, screened_of_hidden redacted.hidden⟩
    case isFalse => cases within
  · rintro ⟨fits, screened⟩
    refine ⟨redact value, if_pos fits, ?_, ?_, fun path => (alike_redact path · value)⟩
    · rw [redactWithin, redact_redact, if_pos ((frames_redact value).trans fits)]
    · exact fun _ _ _ occurs => hidden_of_occurs screened .root occurs

/-- A key beside the data of an attachment is let through. -/
theorem attachment_secret_let_through :
    ¬ RedactionLaw 1000
      (.obj [("attachments", .arr [.obj [("data", .str "aGk="), ("api_key", .str "sk-1")]])]) := by
  rw [RedactionLaw]
  rintro ⟨result, within, -, redacted⟩
  rw [redactWithin, if_pos (by decide)] at within
  cases within
  have inner : Occurs 1 (.obj [("data", marker), ("api_key", .str "sk-1")]) "api_key"
      (.str "sk-1") :=
    .here (List.mem_cons_of_mem _ List.mem_cons_self)
  have hidden := redacted.hidden 3 "api_key" (.str "sk-1")
    (.field (List.mem_singleton.mpr rfl) (.item (List.mem_singleton.mpr rfl) inner))
  exact absurd (hidden.secret (by decide)) (by simp [marker])

end Hermes.Observability
