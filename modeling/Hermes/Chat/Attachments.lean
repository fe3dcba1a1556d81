import Hermes.Library.Base64
import Hermes.Library.JsonDecoder

/-!
# Attachments

A turn may carry files in base64.  They are judged by an estimate of their size, decoded, and
compared with the type they are said to have.  The estimate is never too small for what this
interpreter decodes, but text which is JSON goes through a decoder that gives up on deep nesting
with an error no handler expects.
-/

namespace Hermes.Chat

open Encoding JsonDecoder

/-! ## Requests -/

inductive AttachmentType
  | image
  | document
  | text
  deriving DecidableEq, Repr

/-- `AttachmentMediaType`. -/
inductive MediaType
  | imageJpeg
  | imagePng
  | imageGif
  | imageWebp
  | applicationPdf
  | textPlain
  | textMarkdown
  | textCsv
  | applicationJson
  deriving DecidableEq, Repr

def MediaType.name : MediaType → String
  | imageJpeg => "image/jpeg"
  | imagePng => "image/png"
  | imageGif => "image/gif"
  | imageWebp => "image/webp"
  | applicationPdf => "application/pdf"
  | textPlain => "text/plain"
  | textMarkdown => "text/markdown"
  | textCsv => "text/csv"
  | applicationJson => "application/json"

structure AttachmentIn where
  type : AttachmentType
  mediaType : MediaType
  filename : Option (List Nat)
  data : List Nat
  deriving DecidableEq, Repr

/-- `Settings`, as far as files are concerned. -/
structure AttachmentSettings where
  maxCount : Int := 10
  maxBytesImage : Int := 5242880
  maxBytesDocument : Int := 8388608
  totalBytes : Int := 10485760
  pdfMaxPages : Int := 100
  workspaceFileMaxBytes : Int := 8388608
  deriving DecidableEq, Repr

def allowlist : AttachmentType → List MediaType
  | .image => [.imageJpeg, .imagePng, .imageGif, .imageWebp]
  | .document => [.applicationPdf]
  | .text => [.textPlain, .textMarkdown, .textCsv, .applicationJson]

/-- `_max_bytes_for`. -/
def maxBytesFor (settings : AttachmentSettings) : AttachmentType → Int
  | .document => settings.maxBytesDocument
  | _ => settings.maxBytesImage

/-! ## What the code rests on -/

inductive PdfError
  /-- `PdfReadError`, or one derived from it. -/
  | pdfRead
  | value
  | os
  /-- Any other, such as `ParseError` or `RecursionError`. -/
  | other
  deriving DecidableEq, Repr

structure Pypdf where
  /-- `PdfReader(...)` and `is_encrypted`. -/
  isEncrypted : List UInt8 → Except PdfError Bool
  /-- `len(reader.pages)`. -/
  pageCount : List UInt8 → Except PdfError Nat
  /-- `PdfReader(...)` and `extract_text()` of each page. -/
  pageTexts : List UInt8 → Except PdfError (List (Option (List Nat)))

structure Runtime where
  /-- How deep `json.loads` can go. -/
  depth : Nat
  /-- Whether a strict base64 decoding takes padding behind a complete group. -/
  excess : Bool
  pypdf : Pypdf

inductive AttachmentFault
  /-- `ValidationFailedError`. -/
  | validationFailed (message : String)
  /-- `PayloadTooLargeError`. -/
  | payloadTooLarge (message : String)
  /-- `RecursionError`. -/
  | recursion
  /-- An error of pypdf which no handler expects. -/
  | pypdf
  deriving DecidableEq, Repr

def AttachmentFault.IsClean : AttachmentFault → Prop
  | validationFailed _ => True
  | payloadTooLarge _ => True
  | recursion => False
  | pypdf => False

/-! ## Checks -/

/-- `_decoded_len_from_base64`. -/
def decodedLenFromBase64 (data : List Nat) : Int :=
  let stripped := strip data
  if stripped.length = 0 then 0
  else
    (stripped.length / 4 * 3 : Nat) -
      ((stripped.drop (stripped.length - 2)).count Base64.pad : Nat)

/-- `_decode_base64`. -/
def decodeBase64 (runtime : Runtime) (data : List Nat) : Except AttachmentFault (List UInt8) :=
  match Base64.decode (.strict runtime.excess) data with
  | some decoded => .ok decoded
  | none => .error (.validationFailed "attachment data is not valid base64")

/-- What a content of some media type begins with. -/
def magicPrefixes : MediaType → Option (List (List UInt8))
  | .imageJpeg => some [[0xff, 0xd8, 0xff]]
  | .imagePng => some [[0x89, 0x50, 0x4e, 0x47, 0x0d, 0x0a, 0x1a, 0x0a]]
  | .imageGif => some [encode "GIF87a", encode "GIF89a"]
  | .applicationPdf => some [encode "%PDF-"]
  | _ => none

def matchesMagic (mediaType : MediaType) (decoded : List UInt8) : Bool :=
  if mediaType = .imageWebp then
    decoded.take 4 == encode "RIFF" && (decoded.drop 8).take 4 == encode "WEBP"
  else
    match magicPrefixes mediaType with
    | none => true
    | some prefixes => prefixes.any (·.isPrefixOf decoded)

/-- `_check_magic_bytes`. -/
def checkMagicBytes (mediaType : MediaType) (decoded : List UInt8) : Except AttachmentFault Unit :=
  if matchesMagic mediaType decoded then .ok ()
  else .error (.validationFailed "attachment content does not match declared mediaType")

/-- `_decode_text`. -/
def decodeText (runtime : Runtime) (mediaType : MediaType) (decoded : List UInt8) :
    Except AttachmentFault (List Nat) :=
  match utf8 false decoded with
  | none => .error (.validationFailed "text attachment is not valid UTF-8")
  | some text =>
      if mediaType = .applicationJson then
        match loadsWithin runtime.depth text with
        | .ok _ => .ok text
        | .error .value =>
            .error (.validationFailed "attachment content does not match declared mediaType")
        | .error .recursion => .error .recursion
      else .ok text

/-- `except (PdfReadError, ValueError, OSError)`. -/
def parsed {α : Type} : Except PdfError α → Except AttachmentFault α
  | .ok value => .ok value
  | .error .other => .error .pypdf
  | .error _ => .error (.validationFailed "PDF could not be parsed")

/-- `_check_pdf_pages`. -/
def checkPdfPages (runtime : Runtime) (settings : AttachmentSettings) (decoded : List UInt8) :
    Except AttachmentFault Unit := do
  if ← parsed (runtime.pypdf.isEncrypted decoded) then
    .error (.validationFailed "password-protected PDF is not accepted")
  else
    let pages ← parsed (runtime.pypdf.pageCount decoded)
    if (pages : Int) > settings.pdfMaxPages then
      .error (.validationFailed "PDF exceeds the maximum allowed number of pages")
    else .ok ()

/-! ## Blocks -/

inductive ContentBlock
  /-- `{type: image, source: {type: base64, ...}}` -/
  | image (mediaType : MediaType) (data : List Nat)
  /-- `{type: document, source: {type: base64, media_type: application/pdf, ...}}` -/
  | document (data : List Nat)
  /-- `{type: image_url, image_url: {url: ...}}` -/
  | imageUrl (url : List Nat)
  /-- `{type: file, file: {...}}` -/
  | file (filename fileData : List Nat)
  | text (text : List Nat)
  deriving DecidableEq, Repr

inductive Provider
  | anthropic
  | openai
  deriving DecidableEq, Repr

/-- `att.filename or "file"`. -/
def AttachmentIn.label (att : AttachmentIn) : List Nat :=
  match att.filename with
  | some (first :: rest) => first :: rest
  | _ => codes "file"

/-- `_placeholder`. -/
def placeholder (att : AttachmentIn) (decodedSize : Nat) : List Nat :=
  codes ("[attachment: " ++ att.mediaType.name ++ " \"") ++ att.label ++
    codes ("\", " ++ toString decodedSize ++ "B — отправлено в первом обращении к модели]")

/-- `_text_block`. -/
def textBlock (att : AttachmentIn) (text : Option (List Nat)) : ContentBlock :=
  .text (att.label ++ codes "\n```\n" ++ text.getD [] ++ codes "\n```")

def AttachmentIn.dataUrl (att : AttachmentIn) : List Nat :=
  codes ("data:" ++ att.mediaType.name ++ ";base64,") ++ att.data

/-- `_anthropic_content_block`. -/
def anthropicContentBlock (att : AttachmentIn) (text : Option (List Nat)) : ContentBlock :=
  match att.type with
  | .image => .image att.mediaType att.data
  | .document => .document att.data
  | .text => textBlock att text

/-- `_openai_content_block`. -/
def openaiContentBlock (att : AttachmentIn) (text : Option (List Nat)) : ContentBlock :=
  match att.type with
  | .image => .imageUrl att.dataUrl
  | .document => .file att.label att.dataUrl
  | .text => textBlock att text

/-- `_content_block`. -/
def contentBlock (att : AttachmentIn) (text : Option (List Nat)) : Provider → ContentBlock
  | .openai => openaiContentBlock att text
  | .anthropic => anthropicContentBlock att text

/-! ## A request -/

structure PreparedAttachments where
  contentBlocks : List ContentBlock
  placeholders : List (List Nat)
  deriving DecidableEq, Repr

/-- The checks of one attachment before it is decoded; the new total is returned. -/
def admitOne (settings : AttachmentSettings) (total : Int) (att : AttachmentIn) :
    Except AttachmentFault Int :=
  if att.mediaType ∉ allowlist att.type then
    .error (.validationFailed ("unsupported_media_type: " ++ att.mediaType.name))
  else if decodedLenFromBase64 att.data > maxBytesFor settings att.type then
    .error (.validationFailed "attachment exceeds the maximum size")
  else if total + decodedLenFromBase64 att.data > settings.totalBytes then
    .error (.validationFailed "attachments exceed the total size limit")
  else .ok (total + decodedLenFromBase64 att.data)

/-- The checks of one attachment after it is decoded; a text is returned. -/
def inspect (runtime : Runtime) (settings : AttachmentSettings) (att : AttachmentIn)
    (decoded : List UInt8) : Except AttachmentFault (Option (List Nat)) :=
  match att.type with
  | .image => do
      checkMagicBytes att.mediaType decoded
      return none
  | .document => do
      checkMagicBytes att.mediaType decoded
      checkPdfPages runtime settings decoded
      return none
  | .text => do
      let text ← decodeText runtime att.mediaType decoded
      return some text

/-- The loop of `prepare_attachments`. -/
def prepareEach (runtime : Runtime) (settings : AttachmentSettings) (provider : Provider) :
    Int → List AttachmentIn → Except AttachmentFault PreparedAttachments
  | _, [] => .ok ⟨[], []⟩
  | total, att :: rest => do
      let total ← admitOne settings total att
      let decoded ← decodeBase64 runtime att.data
      let text ← inspect runtime settings att decoded
      let prepared ← prepareEach runtime settings provider total rest
      return ⟨contentBlock att text provider :: prepared.contentBlocks,
        placeholder att decoded.length :: prepared.placeholders⟩

/-- `prepare_attachments`. -/
def prepareAttachments (runtime : Runtime) (settings : AttachmentSettings)
    (attachments : List AttachmentIn) (provider : Provider := .anthropic) :
    Except AttachmentFault PreparedAttachments :=
  if (attachments.length : Int) > settings.maxCount then
    .error (.validationFailed "too many attachments")
  else prepareEach runtime settings provider 0 attachments

/-! ## The estimate -/

/-- Padding behind complete groups, too little of it to count as a group. -/
def Overpadded (data : List Nat) : Prop :=
  1 ≤ data.count Base64.pad ∧ data.count Base64.pad ≤ 3 ∧
    (data.length - data.count Base64.pad) % 4 = 0

section Estimate

variable {excess : Bool} {data characters : List Nat} {padding : Nat} {decoded : List UInt8}

theorem isSpace_of_bits {code : Nat} (known : (Base64.bits code).isSome) :
    isSpace code = false := by
  obtain ⟨value, read⟩ := Option.isSome_iff_exists.mp known
  have letters : ∀ code < 0x80, (Base64.bits code).isSome → isSpace code = false := by decide
  refine letters code ?_ known
  by_contra large
  simp only [Base64.bits] at read
  rw [if_neg (by omega), if_neg (by omega), if_neg (by omega), if_neg, if_neg] at read
  · cases read
  · rw [show '/'.toNat = 47 from rfl]
    omega
  · rw [show '+'.toNat = 43 from rfl]
    omega

theorem count_pad_eq_zero (letters : ∀ code ∈ characters, (Base64.bits code).isSome) :
    characters.count Base64.pad = 0 := by
  refine List.count_eq_zero.mpr fun listed => ?_
  have known := letters _ listed
  rw [Base64.bits_pad] at known
  cases known

theorem count_pad (letters : ∀ code ∈ characters, (Base64.bits code).isSome) :
    (characters ++ List.replicate padding Base64.pad).count Base64.pad = padding := by
  rw [List.count_append, count_pad_eq_zero letters, List.count_replicate_self, Nat.zero_add]

theorem decodedLen_append (letters : ∀ code ∈ characters, (Base64.bits code).isSome) :
    decodedLenFromBase64 (characters ++ List.replicate padding Base64.pad) =
      ((characters.length + padding) / 4 * 3 : Nat) - (min padding 2 : Nat) := by
  have solid : ∀ code ∈ characters ++ List.replicate padding Base64.pad, isSpace code = false := by
    intro code listed
    rcases List.mem_append.mp listed with letter | replicated
    · exact isSpace_of_bits (letters code letter)
    · rw [List.eq_of_mem_replicate replicated]
      rfl
  have tail : ((characters ++ List.replicate padding Base64.pad).drop
      (characters.length + padding - 2)).count Base64.pad = min padding 2 := by
    have dropped : (characters.drop (characters.length + padding - 2)).count Base64.pad = 0 :=
      count_pad_eq_zero fun code listed => letters code (List.mem_of_mem_drop listed)
    rw [List.drop_append, List.count_append, dropped, List.drop_replicate,
      List.count_replicate_self]
    omega
  rw [decodedLenFromBase64, strip, trim_of_solid solid, List.length_append, List.length_replicate,
    tail]
  split
  case isTrue empty =>
      rw [empty]
      have none : padding = 0 := by omega
      simp [none]
  case isFalse => rfl

/-- Where a text is decoded, the estimate is large enough but for padding behind complete groups. -/
theorem length_le_decodedLen_iff (accepted : Base64.decode (.strict excess) data = some decoded) :
    (decoded.length : Int) ≤ decodedLenFromBase64 data ↔ ¬ Overpadded data := by
  obtain ⟨characters, padding, rfl, letters, length, closes⟩ := Base64.shape_of_decode accepted
  rw [Overpadded, count_pad letters, decodedLen_append letters, List.length_append,
    List.length_replicate, length]
  rcases closes with ⟨whole, -⟩ | ⟨two, rfl⟩ | ⟨three, rfl⟩
  · omega
  · omega
  · omega

theorem decodedLen_eq (accepted : Base64.decode (.strict false) data = some decoded) :
    decodedLenFromBase64 data = decoded.length := by
  obtain ⟨characters, padding, rfl, letters, length, closes⟩ := Base64.shape_of_decode accepted
  rw [decodedLen_append letters, length]
  rcases closes with ⟨whole, rfl | refused⟩ | ⟨two, rfl⟩ | ⟨three, rfl⟩
  · omega
  · cases refused
  · omega
  · omega

end Estimate

/-! ## The law -/

section Law

variable (runtime : Runtime) (settings : AttachmentSettings)

def Fits (mediaType : MediaType) (decoded : List UInt8) : AttachmentType → Prop
  | .image => matchesMagic mediaType decoded = true
  | .document => matchesMagic mediaType decoded = true ∧
      runtime.pypdf.isEncrypted decoded = .ok false ∧
      ∃ pages : Nat, runtime.pypdf.pageCount decoded = .ok pages ∧
        (pages : Int) ≤ settings.pdfMaxPages
  | .text => ∃ text, utf8 false decoded = some text ∧
      (mediaType = .applicationJson → ∃ value, loadsWithin runtime.depth text = .ok value)

/-- The content is JSON nested too deep, or a PDF where pypdf raises something else than it is
expected to. -/
def Disturbs (mediaType : MediaType) (decoded : List UInt8) : AttachmentType → Prop
  | .image => False
  | .document => matchesMagic mediaType decoded = true ∧
      (runtime.pypdf.isEncrypted decoded = .error .other ∨
        runtime.pypdf.isEncrypted decoded = .ok false ∧
          runtime.pypdf.pageCount decoded = .error .other)
  | .text => mediaType = .applicationJson ∧
      ∃ text, utf8 false decoded = some text ∧ loadsWithin runtime.depth text = .error .recursion

/-- No attachment which the loop comes to disturbs it. -/
def Calm (total : Int) : List AttachmentIn → Prop
  | [] => True
  | att :: rest => ∀ decoded, att.mediaType ∈ allowlist att.type →
      decodedLenFromBase64 att.data ≤ maxBytesFor settings att.type →
      total + decodedLenFromBase64 att.data ≤ settings.totalBytes →
      Base64.decode (.strict runtime.excess) att.data = some decoded →
        ¬ Disturbs runtime att.mediaType decoded att.type ∧
          (Fits runtime settings att.mediaType decoded att.type →
            Calm (total + decodedLenFromBase64 att.data) rest)

/-- When a request is validated as it is to be. -/
structure Undisturbed (attachments : List AttachmentIn) : Prop where
  calm : (attachments.length : Int) ≤ settings.maxCount → Calm runtime settings 0 attachments
  estimated : ∀ att ∈ attachments, ∀ decoded,
    Base64.decode (.strict runtime.excess) att.data = some decoded → ¬ Overpadded att.data
  /-- Nothing at all is within the total limit. -/
  limit : attachments = [] → 0 ≤ settings.maxCount → 0 ≤ settings.totalBytes

/-- What the validation of a request promises. -/
structure Lawful (attachments : List AttachmentIn)
    (outcome : Except AttachmentFault PreparedAttachments) : Prop where
  clean : ∀ fault, outcome = .error fault → fault.IsClean
  estimated : ∀ att ∈ attachments, ∀ decoded, decodeBase64 runtime att.data = .ok decoded →
    (decoded.length : Int) ≤ decodedLenFromBase64 att.data
  sized : ∀ prepared, outcome = .ok prepared → ∃ contents : List (List UInt8),
    attachments.Forall₂ (fun att decoded => decodeBase64 runtime att.data = .ok decoded ∧
      (decoded.length : Int) ≤ maxBytesFor settings att.type) contents ∧
    ((contents.map List.length).sum : Int) ≤ settings.totalBytes ∧
    prepared.placeholders =
      List.zipWith (fun att decoded => placeholder att decoded.length) attachments contents

end Law

section Steps

variable {runtime : Runtime} {settings : AttachmentSettings} {provider : Provider}
  {att : AttachmentIn} {attachments : List AttachmentIn} {decoded : List UInt8} {total : Int}

theorem decodeBase64_eq_ok {data : List Nat} :
    decodeBase64 runtime data = .ok decoded ↔
      Base64.decode (.strict runtime.excess) data = some decoded := by
  rw [decodeBase64]
  cases Base64.decode (.strict runtime.excess) data <;> simp

theorem decodeBase64_clean {data : List Nat} {fault : AttachmentFault}
    (raised : decodeBase64 runtime data = .error fault) : fault.IsClean := by
  rw [decodeBase64] at raised
  split at raised
  · cases raised
  · cases raised
    trivial

theorem checkMagicBytes_cases (mediaType : MediaType) (decoded : List UInt8) :
    matchesMagic mediaType decoded = true ∧ checkMagicBytes mediaType decoded = .ok () ∨
      matchesMagic mediaType decoded = false ∧
        ∃ message, checkMagicBytes mediaType decoded = .error (.validationFailed message) := by
  rw [checkMagicBytes]
  cases matchesMagic mediaType decoded
  · exact .inr ⟨rfl, _, rfl⟩
  · exact .inl ⟨rfl, rfl⟩

theorem parsed_cases {α : Type} (read : Except PdfError α) :
    (∃ value, read = .ok value ∧ parsed read = .ok value) ∨
      read = .error .other ∧ parsed read = .error .pypdf ∨
      (∃ error, error ≠ .other ∧ read = .error error) ∧
        ∃ message, parsed read = .error (.validationFailed message) := by
  rcases read with error | value
  · cases error
    case other => exact .inr (.inl ⟨rfl, rfl⟩)
    all_goals exact .inr (.inr ⟨⟨_, by simp, rfl⟩, _, rfl⟩)
  · exact .inl ⟨value, rfl, rfl⟩

theorem checkPdfPages_cases (decoded : List UInt8) :
    (runtime.pypdf.isEncrypted decoded = .ok false ∧
        (∃ pages : Nat, runtime.pypdf.pageCount decoded = .ok pages ∧
          (pages : Int) ≤ settings.pdfMaxPages) ∧
        checkPdfPages runtime settings decoded = .ok ()) ∨
      ((runtime.pypdf.isEncrypted decoded = .error .other ∨
          runtime.pypdf.isEncrypted decoded = .ok false ∧
            runtime.pypdf.pageCount decoded = .error .other) ∧
        checkPdfPages runtime settings decoded = .error .pypdf) ∨
      (∃ message, checkPdfPages runtime settings decoded = .error (.validationFailed message)) := by
  rw [checkPdfPages]
  rcases parsed_cases (runtime.pypdf.isEncrypted decoded) with
    ⟨encrypted, read, same⟩ | ⟨read, same⟩ | ⟨-, message, same⟩
  · cases encrypted
    case true => exact .inr (.inr ⟨_, by rw [same]; rfl⟩)
    case false =>
        rcases parsed_cases (runtime.pypdf.pageCount decoded) with
          ⟨pages, counted, same'⟩ | ⟨counted, same'⟩ | ⟨-, message, same'⟩
        · by_cases many : (pages : Int) > settings.pdfMaxPages
          · exact .inr (.inr ⟨_, by simp only [same, same', bind, Except.bind, if_pos many]; rfl⟩)
          · refine .inl ⟨read, ⟨pages, counted, by omega⟩, ?_⟩
            simp [same, same', bind, Except.bind, many]
        · exact .inr (.inl ⟨.inr ⟨read, counted⟩, by simp [same, same', bind, Except.bind]⟩)
        · exact .inr (.inr ⟨message, by simp [same, same', bind, Except.bind]⟩)
  · exact .inr (.inl ⟨.inl read, by rw [same]; rfl⟩)
  · exact .inr (.inr ⟨message, by rw [same]; rfl⟩)

theorem decodeText_cases (mediaType : MediaType) (decoded : List UInt8) :
    (∃ text, utf8 false decoded = some text ∧
        (mediaType = .applicationJson → ∃ value, loadsWithin runtime.depth text = .ok value) ∧
        decodeText runtime mediaType decoded = .ok text) ∨
      (∃ text, utf8 false decoded = some text ∧ mediaType = .applicationJson ∧
        loadsWithin runtime.depth text = .error .recursion ∧
        decodeText runtime mediaType decoded = .error .recursion) ∨
      (∃ message, decodeText runtime mediaType decoded = .error (.validationFailed message)) := by
  rw [decodeText]
  split
  case h_1 => exact .inr (.inr ⟨_, rfl⟩)
  case h_2 text read =>
      split
      case isFalse other => exact .inl ⟨text, read, fun json => absurd json other, rfl⟩
      case isTrue json =>
          split
          case h_1 value loaded => exact .inl ⟨text, read, fun _ => ⟨value, loaded⟩, rfl⟩
          case h_2 => exact .inr (.inr ⟨_, rfl⟩)
          case h_3 raised => exact .inr (.inl ⟨text, read, json, raised, rfl⟩)

theorem inspect_cases (att : AttachmentIn) (decoded : List UInt8) :
    (Fits runtime settings att.mediaType decoded att.type ∧
        ∃ text, inspect runtime settings att decoded = .ok text) ∨
      (Disturbs runtime att.mediaType decoded att.type ∧
        ∃ fault, ¬ fault.IsClean ∧ inspect runtime settings att decoded = .error fault) ∨
      (∃ message, inspect runtime settings att decoded = .error (.validationFailed message)) := by
  obtain ⟨type, mediaType, filename, data⟩ := att
  cases type with
  | image =>
      rcases checkMagicBytes_cases mediaType decoded with ⟨magic, same⟩ | ⟨-, message, same⟩
      · exact .inl ⟨magic, none, by simp only [inspect, same]; rfl⟩
      · exact .inr (.inr ⟨message, by simp only [inspect, same]; rfl⟩)
  | document =>
      rcases checkMagicBytes_cases mediaType decoded with ⟨magic, same⟩ | ⟨-, message, same⟩
      · rcases @checkPdfPages_cases runtime settings decoded with
          ⟨opened, counted, same'⟩ | ⟨raised, same'⟩ | ⟨message, same'⟩
        · exact .inl ⟨⟨magic, opened, counted⟩, none, by simp only [inspect, same, same']; rfl⟩
        · exact .inr (.inl ⟨⟨magic, raised⟩, .pypdf, id, by simp only [inspect, same, same']; rfl⟩)
        · exact .inr (.inr ⟨message, by simp only [inspect, same, same']; rfl⟩)
      · exact .inr (.inr ⟨message, by simp only [inspect, same]; rfl⟩)
  | text =>
      rcases @decodeText_cases runtime mediaType decoded with
        ⟨text, read, loaded, same⟩ | ⟨text, read, json, raised, same⟩ | ⟨message, same⟩
      · exact .inl ⟨⟨text, read, loaded⟩, some text, by simp only [inspect, same]; rfl⟩
      · exact .inr (.inl ⟨⟨json, text, read, raised⟩, .recursion, id, by
          simp only [inspect, same]; rfl⟩)
      · exact .inr (.inr ⟨message, by simp only [inspect, same]; rfl⟩)

theorem Fits.inspect (fits : Fits runtime settings att.mediaType decoded att.type) :
    ∃ text, inspect runtime settings att decoded = .ok text := by
  obtain ⟨type, mediaType, filename, data⟩ := att
  cases type with
  | image =>
      have magic : matchesMagic mediaType decoded = true := fits
      exact ⟨none, by simp only [Chat.inspect, checkMagicBytes, if_pos magic]; rfl⟩
  | document =>
      obtain ⟨magic, opened, pages, counted, few⟩ := fits
      have within : ¬ (pages : Int) > settings.pdfMaxPages := by omega
      have checked : checkPdfPages runtime settings decoded = .ok () := by
        simp [checkPdfPages, opened, counted, parsed, bind, Except.bind, within]
      exact ⟨none, by simp only [Chat.inspect, checkMagicBytes, if_pos magic, checked]; rfl⟩
  | text =>
      obtain ⟨text, read, loaded⟩ := fits
      have same : decodeText runtime mediaType decoded = .ok text := by
        rw [decodeText, read]
        dsimp only
        split
        case isFalse => rfl
        case isTrue json =>
            obtain ⟨value, same⟩ := loaded json
            rw [same]
      exact ⟨some text, by simp only [Chat.inspect, same]; rfl⟩

theorem Disturbs.inspect (disturbs : Disturbs runtime att.mediaType decoded att.type) :
    ∃ fault, ¬ fault.IsClean ∧ inspect runtime settings att decoded = .error fault := by
  obtain ⟨type, mediaType, filename, data⟩ := att
  cases type with
  | image => exact disturbs.elim
  | document =>
      obtain ⟨magic, raised⟩ := disturbs
      have checked : checkPdfPages runtime settings decoded = .error .pypdf := by
        rcases raised with raised | ⟨opened, raised⟩
        · simp [checkPdfPages, raised, parsed, bind, Except.bind]
        · simp [checkPdfPages, opened, raised, parsed, bind, Except.bind]
      exact ⟨.pypdf, id, by simp only [Chat.inspect, checkMagicBytes, if_pos magic, checked]; rfl⟩
  | text =>
      obtain ⟨rfl, text, read, raised⟩ := disturbs
      have same : decodeText runtime .applicationJson decoded = .error .recursion := by
        rw [decodeText, read]
        simp only [if_true, raised]
      exact ⟨.recursion, id, by simp only [Chat.inspect, same]; rfl⟩

theorem admitOne_cases (settings : AttachmentSettings) (total : Int) (att : AttachmentIn) :
    (att.mediaType ∈ allowlist att.type ∧
        decodedLenFromBase64 att.data ≤ maxBytesFor settings att.type ∧
        total + decodedLenFromBase64 att.data ≤ settings.totalBytes ∧
        admitOne settings total att = .ok (total + decodedLenFromBase64 att.data)) ∨
      ∃ message, admitOne settings total att = .error (.validationFailed message) := by
  rw [admitOne]
  by_cases allowed : att.mediaType ∈ allowlist att.type
  · by_cases small : decodedLenFromBase64 att.data ≤ maxBytesFor settings att.type
    · by_cases within : total + decodedLenFromBase64 att.data ≤ settings.totalBytes
      · exact .inl ⟨allowed, small, within, by
          rw [if_neg (not_not.mpr allowed), if_neg (by omega), if_neg (by omega)]⟩
      · exact .inr ⟨_, by rw [if_neg (not_not.mpr allowed), if_neg (by omega), if_pos (by omega)]⟩
    · exact .inr ⟨_, by rw [if_neg (not_not.mpr allowed), if_pos (by omega)]⟩
  · exact .inr ⟨_, by rw [if_pos allowed]⟩

theorem admitOne_of_within (allowed : att.mediaType ∈ allowlist att.type)
    (small : decodedLenFromBase64 att.data ≤ maxBytesFor settings att.type)
    (within : total + decodedLenFromBase64 att.data ≤ settings.totalBytes) :
    admitOne settings total att = .ok (total + decodedLenFromBase64 att.data) := by
  rw [admitOne, if_neg (not_not.mpr allowed), if_neg (by omega), if_neg (by omega)]

theorem prepareEach_cons {after : Int} {text : Option (List Nat)}
    (admitted : admitOne settings total att = .ok after)
    (accepted : decodeBase64 runtime att.data = .ok decoded)
    (inspected : inspect runtime settings att decoded = .ok text) :
    prepareEach runtime settings provider total (att :: attachments) =
      (prepareEach runtime settings provider after attachments).map fun prepared =>
        ⟨contentBlock att text provider :: prepared.contentBlocks,
          placeholder att decoded.length :: prepared.placeholders⟩ := by
  simp only [prepareEach, admitted, accepted, inspected, bind, Except.bind]
  cases prepareEach runtime settings provider after attachments <;> rfl

/-- The loop raises nothing else exactly where it is calm. -/
theorem prepareEach_clean_iff :
    (∀ fault, prepareEach runtime settings provider total attachments = .error fault →
      fault.IsClean) ↔ Calm runtime settings total attachments := by
  induction attachments generalizing total with
  | nil => simp [prepareEach, Calm]
  | cons att rest induction =>
      constructor
      · intro clean decoded allowed small within accepted
        have admitted := admitOne_of_within allowed small within
        have decodes := (@decodeBase64_eq_ok runtime _ _).mpr accepted
        constructor
        · intro disturbs
          obtain ⟨fault, unclean, raised⟩ := @Disturbs.inspect _ settings _ _ disturbs
          refine unclean (clean fault ?_)
          simp only [prepareEach, admitted, decodes, raised, bind, Except.bind]
        · intro fits
          obtain ⟨text, inspected⟩ := fits.inspect
          refine induction.mp fun fault raised => clean fault ?_
          rw [prepareEach_cons admitted decodes inspected, raised]
          rfl
      · intro calm fault raised
        rcases admitOne_cases settings total att with
          ⟨allowed, small, within, admitted⟩ | ⟨message, refused⟩
        swap
        · simp only [prepareEach, refused, bind, Except.bind, Except.error.injEq] at raised
          exact raised ▸ trivial
        rcases decodes : decodeBase64 runtime att.data with fault' | decoded
        · simp only [prepareEach, admitted, decodes, bind, Except.bind, Except.error.injEq]
            at raised
          exact raised ▸ decodeBase64_clean decodes
        obtain ⟨peaceful, later⟩ :=
          calm decoded allowed small within (decodeBase64_eq_ok.mp decodes)
        rcases @inspect_cases runtime settings att decoded with
          ⟨fits, text, inspected⟩ | ⟨disturbs, -⟩ | ⟨message, refused⟩
        · rw [prepareEach_cons admitted decodes inspected] at raised
          rcases rested : prepareEach runtime settings provider
              (total + decodedLenFromBase64 att.data) rest with fault' | prepared
          · rw [rested] at raised
            cases raised
            exact induction.mpr (later fits) fault rested
          · rw [rested] at raised
            cases raised
        · exact absurd disturbs peaceful
        · simp only [prepareEach, admitted, decodes, refused, bind, Except.bind,
            Except.error.injEq] at raised
          exact raised ▸ trivial

/-- What is prepared keeps the limits and tells the sizes, where the estimates are large enough. -/
theorem prepareEach_sized {prepared : PreparedAttachments}
    (estimated : ∀ att ∈ attachments, ∀ decoded, decodeBase64 runtime att.data = .ok decoded →
      (decoded.length : Int) ≤ decodedLenFromBase64 att.data)
    (succeeded : prepareEach runtime settings provider total attachments = .ok prepared) :
    ∃ contents : List (List UInt8),
      attachments.Forall₂ (fun att decoded => decodeBase64 runtime att.data = .ok decoded ∧
        (decoded.length : Int) ≤ maxBytesFor settings att.type) contents ∧
      (attachments = [] ∨ total + ((contents.map List.length).sum : Int) ≤ settings.totalBytes) ∧
      prepared.placeholders =
        List.zipWith (fun att decoded => placeholder att decoded.length) attachments contents := by
  induction attachments generalizing total prepared with
  | nil =>
      cases succeeded
      exact ⟨[], .nil, .inl rfl, rfl⟩
  | cons att rest induction =>
      rcases admitOne_cases settings total att with
        ⟨allowed, small, within, admitted⟩ | ⟨message, refused⟩
      swap
      · simp [prepareEach, refused, bind, Except.bind] at succeeded
      rcases decodes : decodeBase64 runtime att.data with fault' | decoded
      · simp [prepareEach, admitted, decodes, bind, Except.bind] at succeeded
      rcases inspected : inspect runtime settings att decoded with fault' | text
      · simp [prepareEach, admitted, decodes, inspected, bind, Except.bind] at succeeded
      rw [prepareEach_cons admitted decodes inspected] at succeeded
      rcases rested : prepareEach runtime settings provider
          (total + decodedLenFromBase64 att.data) rest with fault' | later
      · rw [rested] at succeeded
        cases succeeded
      rw [rested] at succeeded
      cases succeeded
      obtain ⟨contents, kept, sum, told⟩ :=
        induction (fun other listed => estimated other (List.mem_cons_of_mem _ listed)) rested
      have enough := estimated att List.mem_cons_self decoded decodes
      refine ⟨decoded :: contents, .cons ⟨decodes, by omega⟩ kept, .inr ?_, ?_⟩
      · rw [List.map_cons, List.sum_cons, Nat.cast_add]
        rcases sum with rfl | sum
        · cases kept
          simp only [List.map_nil, List.sum_nil]
          omega
        · omega
      · rw [List.zipWith_cons_cons, ← told]

/-- A request is validated as it is to be exactly where nothing disturbs the validation. -/
theorem prepareAttachments_lawful_iff :
    Lawful runtime settings attachments (prepareAttachments runtime settings attachments provider) ↔
      Undisturbed runtime settings attachments := by
  have estimated : (∀ att ∈ attachments, ∀ decoded, decodeBase64 runtime att.data = .ok decoded →
        (decoded.length : Int) ≤ decodedLenFromBase64 att.data) ↔
      ∀ att ∈ attachments, ∀ decoded,
        Base64.decode (.strict runtime.excess) att.data = some decoded → ¬ Overpadded att.data := by
    refine forall₂_congr fun att _ => forall_congr' fun decoded => ?_
    rw [decodeBase64_eq_ok]
    exact imp_congr_right length_le_decodedLen_iff
  constructor
  · intro lawful
    refine ⟨fun few => ?_, estimated.mp lawful.estimated, ?_⟩
    · refine (@prepareEach_clean_iff _ _ provider _ _).mp fun fault raised => ?_
      refine lawful.clean fault ?_
      rw [prepareAttachments, if_neg (by omega), raised]
    · rintro rfl few
      obtain ⟨contents, kept, sum, -⟩ := lawful.sized ⟨[], []⟩ (by
        rw [prepareAttachments, if_neg (by simpa using few)]
        rfl)
      cases kept
      exact sum
  · intro undisturbed
    refine ⟨fun fault raised => ?_, estimated.mpr undisturbed.estimated,
      fun prepared succeeded => ?_⟩
    · rw [prepareAttachments] at raised
      split at raised
      · cases raised
        trivial
      · exact prepareEach_clean_iff.mpr (undisturbed.calm (by omega)) fault raised
    · rw [prepareAttachments] at succeeded
      split at succeeded
      · cases succeeded
      obtain ⟨contents, kept, sum, told⟩ :=
        prepareEach_sized (estimated.mpr undisturbed.estimated) succeeded
      refine ⟨contents, kept, ?_, told⟩
      rcases sum with rfl | sum
      · cases kept
        exact undisturbed.limit rfl (by simp at *; omega)
      · omega

end Steps

end Hermes.Chat
