import Hermes.Chat.Attachments

/-!
# Files of a workspace

A file given to a workspace goes through the checks of an attachment, is measured once more after it
is decoded, and its text is kept with it.  The text of a PDF is read by pypdf in a second pass,
which may fail in its own way.
-/

namespace Hermes.Workspaces

open Encoding JsonDecoder Chat

/-- `WorkspaceFileUploadRequest`, but for the name. -/
structure FileUpload where
  type : AttachmentType
  mediaType : MediaType
  data : List Nat
  deriving DecidableEq, Repr

structure ExtractedFile where
  content : List UInt8
  extractedText : Option (List Nat)
  size : Nat
  deriving DecidableEq, Repr

/-- `_extract_pdf_text`. -/
def extractPdfText (runtime : Runtime) (decoded : List UInt8) :
    Except AttachmentFault (List Nat) := do
  let parts ← parsed (runtime.pypdf.pageTexts decoded)
  let texts := parts.map (·.getD [])
  return strip ((codes "\n\n").intercalate (texts.filter (· ≠ [])))

/-- The checks of a decoded file; its text is returned. -/
def extract (runtime : Runtime) (settings : AttachmentSettings) (req : FileUpload)
    (decoded : List UInt8) : Except AttachmentFault (Option (List Nat)) :=
  match req.type with
  | .image => do
      checkMagicBytes req.mediaType decoded
      return none
  | .document => do
      checkMagicBytes req.mediaType decoded
      checkPdfPages runtime settings decoded
      let text ← extractPdfText runtime decoded
      return some text
  | .text => do
      let text ← decodeText runtime req.mediaType decoded
      return some text

/-- `validate_and_extract`. -/
def validateAndExtract (runtime : Runtime) (settings : AttachmentSettings) (req : FileUpload) :
    Except AttachmentFault ExtractedFile :=
  if req.mediaType ∉ allowlist req.type then
    .error (.validationFailed ("unsupported_media_type: " ++ req.mediaType.name))
  else if decodedLenFromBase64 req.data > settings.workspaceFileMaxBytes then
    .error (.payloadTooLarge "file exceeds the maximum allowed size")
  else do
    let decoded ← decodeBase64 runtime req.data
    if (decoded.length : Int) > settings.workspaceFileMaxBytes then
      .error (.payloadTooLarge "file exceeds the maximum allowed size")
    else
      let text ← extract runtime settings req decoded
      return ⟨decoded, text, decoded.length⟩

/-! ## The law -/

section Law

variable (runtime : Runtime) (settings : AttachmentSettings)

/-- The content is JSON nested too deep, or a PDF where pypdf raises something else than it is
expected to, while it counts the pages or while it reads them. -/
def DisturbsUpload (mediaType : MediaType) (decoded : List UInt8) (type : AttachmentType) : Prop :=
  Disturbs runtime mediaType decoded type ∨
    type = .document ∧ Fits runtime settings mediaType decoded type ∧
      runtime.pypdf.pageTexts decoded = .error .other

structure UndisturbedUpload (req : FileUpload) : Prop where
  calm : ∀ decoded, req.mediaType ∈ allowlist req.type →
    decodedLenFromBase64 req.data ≤ settings.workspaceFileMaxBytes →
    Base64.decode (.strict runtime.excess) req.data = some decoded →
    (decoded.length : Int) ≤ settings.workspaceFileMaxBytes →
      ¬ DisturbsUpload runtime settings req.mediaType decoded req.type
  estimated : ∀ decoded, Base64.decode (.strict runtime.excess) req.data = some decoded →
    ¬ Overpadded req.data

structure LawfulUpload (req : FileUpload) (outcome : Except AttachmentFault ExtractedFile) :
    Prop where
  clean : ∀ fault, outcome = .error fault → fault.IsClean
  estimated : ∀ decoded, decodeBase64 runtime req.data = .ok decoded →
    (decoded.length : Int) ≤ decodedLenFromBase64 req.data
  sized : ∀ extracted, outcome = .ok extracted →
    decodeBase64 runtime req.data = .ok extracted.content ∧
      extracted.size = extracted.content.length ∧
      (extracted.content.length : Int) ≤ settings.workspaceFileMaxBytes

end Law

section Steps

variable {runtime : Runtime} {settings : AttachmentSettings} {req : FileUpload}
  {decoded : List UInt8}

theorem extract_eq (att : AttachmentIn) (type : att.type = req.type)
    (mediaType : att.mediaType = req.mediaType) :
    (extract runtime settings req decoded).map (fun _ => ()) =
      (inspect runtime settings att decoded).bind fun _ =>
        if req.type = .document then (extractPdfText runtime decoded).map (fun _ => ())
        else .ok () := by
  obtain ⟨kind, media, data⟩ := req
  obtain ⟨kind', media', filename, data'⟩ := att
  obtain rfl : kind' = kind := type
  obtain rfl : media' = media := mediaType
  cases kind' with
  | image =>
      rw [extract, inspect]
      cases checkMagicBytes media' decoded <;> rfl
  | document =>
      simp only [extract, inspect, bind, Except.bind]
      cases checkMagicBytes media' decoded with
      | error fault => rfl
      | ok checked =>
          cases checkPdfPages runtime settings decoded with
          | error fault => rfl
          | ok counted => cases extractPdfText runtime decoded <;> rfl
  | text =>
      simp only [extract, inspect, bind, Except.bind]
      cases decodeText runtime media' decoded <;> rfl

theorem extractPdfText_cases (decoded : List UInt8) :
    (∃ text, extractPdfText runtime decoded = .ok text) ∨
      runtime.pypdf.pageTexts decoded = .error .other ∧
        extractPdfText runtime decoded = .error .pypdf ∨
      ∃ message, extractPdfText runtime decoded = .error (.validationFailed message) := by
  rw [extractPdfText]
  rcases parsed_cases (runtime.pypdf.pageTexts decoded) with
    ⟨parts, read, same⟩ | ⟨read, same⟩ | ⟨-, message, same⟩
  · exact .inl ⟨_, by rw [same]; rfl⟩
  · exact .inr (.inl ⟨read, by rw [same]; rfl⟩)
  · exact .inr (.inr ⟨message, by rw [same]; rfl⟩)

theorem extract_clean_iff :
    (∀ fault, extract runtime settings req decoded = .error fault → fault.IsClean) ↔
      ¬ DisturbsUpload runtime settings req.mediaType decoded req.type := by
  let att : AttachmentIn := ⟨req.type, req.mediaType, none, req.data⟩
  have same :=
    @extract_eq runtime settings _ decoded att rfl rfl
  have raises (fault : AttachmentFault) : extract runtime settings req decoded = .error fault ↔
      (extract runtime settings req decoded).map (fun _ => ()) = .error fault := by
    cases extract runtime settings req decoded <;> simp [Except.map]
  simp only [raises, same]
  constructor
  · rintro clean (disturbs | ⟨document, fits, raised⟩)
    · obtain ⟨fault, unclean, stopped⟩ :=
        @Disturbs.inspect _ settings att _ disturbs
      exact unclean (clean fault (by rw [stopped]; rfl))
    · obtain ⟨text, passed⟩ := @Fits.inspect _ _ att _ fits
      refine clean .pypdf ?_
      rw [passed, Except.bind, if_pos document, extractPdfText, raised]
      rfl
  · intro calm fault raised
    rcases @inspect_cases runtime settings att decoded with
      ⟨fits, text, passed⟩ | ⟨disturbs, -⟩ | ⟨message, refused⟩
    · rw [passed, Except.bind] at raised
      split at raised
      case isFalse => cases raised
      case isTrue document =>
          rcases @extractPdfText_cases runtime decoded with
            ⟨text, read⟩ | ⟨other, -⟩ | ⟨message, refused⟩
          · rw [read] at raised
            cases raised
          · exact absurd (.inr ⟨document, fits, other⟩) calm
          · rw [refused] at raised
            cases raised
            trivial
    · exact absurd (.inl disturbs) calm
    · rw [refused] at raised
      cases raised
      trivial

theorem validateAndExtract_of_decoded (allowed : req.mediaType ∈ allowlist req.type)
    (small : decodedLenFromBase64 req.data ≤ settings.workspaceFileMaxBytes)
    (decodes : decodeBase64 runtime req.data = .ok decoded)
    (fits : (decoded.length : Int) ≤ settings.workspaceFileMaxBytes) :
    validateAndExtract runtime settings req =
      (extract runtime settings req decoded).map (⟨decoded, ·, decoded.length⟩) := by
  rw [validateAndExtract, if_neg (not_not.mpr allowed), if_neg (by omega), decodes]
  simp only [bind, Except.bind]
  rw [if_neg (by omega)]
  cases extract runtime settings req decoded <;> rfl

theorem validateAndExtract_cases :
    (∃ fault, fault.IsClean ∧ validateAndExtract runtime settings req = .error fault) ∨
      ∃ decoded, req.mediaType ∈ allowlist req.type ∧
        decodedLenFromBase64 req.data ≤ settings.workspaceFileMaxBytes ∧
        decodeBase64 runtime req.data = .ok decoded ∧
        (decoded.length : Int) ≤ settings.workspaceFileMaxBytes := by
  by_cases allowed : req.mediaType ∈ allowlist req.type
  swap
  · exact .inl ⟨.validationFailed _, trivial, by rw [validateAndExtract, if_pos allowed]⟩
  by_cases small : decodedLenFromBase64 req.data ≤ settings.workspaceFileMaxBytes
  swap
  · exact .inl ⟨.payloadTooLarge _, trivial, by
      rw [validateAndExtract, if_neg (not_not.mpr allowed), if_pos (by omega)]⟩
  rcases decodes : decodeBase64 runtime req.data with fault | decoded
  · refine .inl ⟨fault, decodeBase64_clean decodes, ?_⟩
    rw [validateAndExtract, if_neg (not_not.mpr allowed), if_neg (by omega), decodes]
    rfl
  by_cases fits : (decoded.length : Int) ≤ settings.workspaceFileMaxBytes
  · exact .inr ⟨decoded, allowed, small, rfl, fits⟩
  · refine .inl ⟨.payloadTooLarge "file exceeds the maximum allowed size", trivial, ?_⟩
    rw [validateAndExtract, if_neg (not_not.mpr allowed), if_neg (by omega), decodes]
    simp only [bind, Except.bind]
    rw [if_pos (by omega)]

theorem validateAndExtract_lawful_iff :
    LawfulUpload runtime settings req (validateAndExtract runtime settings req) ↔
      UndisturbedUpload runtime settings req := by
  have estimated : (∀ decoded, decodeBase64 runtime req.data = .ok decoded →
        (decoded.length : Int) ≤ decodedLenFromBase64 req.data) ↔
      ∀ decoded, Base64.decode (.strict runtime.excess) req.data = some decoded →
        ¬ Overpadded req.data := by
    refine forall_congr' fun decoded => ?_
    rw [decodeBase64_eq_ok]
    exact imp_congr_right length_le_decodedLen_iff
  constructor
  · intro lawful
    refine ⟨fun decoded allowed small accepted fits => ?_, estimated.mp lawful.estimated⟩
    refine extract_clean_iff.mp fun fault raised => lawful.clean fault ?_
    rw [validateAndExtract_of_decoded allowed small (decodeBase64_eq_ok.mpr accepted) fits, raised]
    rfl
  · intro undisturbed
    rcases @validateAndExtract_cases runtime settings req with
      ⟨fault, clean, refused⟩ | ⟨decoded, allowed, small, decodes, fits⟩
    · rw [refused]
      refine ⟨fun _ raised => ?_, estimated.mpr undisturbed.estimated, fun _ succeeded => ?_⟩
      · cases raised
        exact clean
      · cases succeeded
    · rw [validateAndExtract_of_decoded allowed small decodes fits]
      have calm := extract_clean_iff.mpr
        (undisturbed.calm decoded allowed small (decodeBase64_eq_ok.mp decodes) fits)
      rcases read : extract runtime settings req decoded with fault | text
      · refine ⟨fun _ raised => ?_, estimated.mpr undisturbed.estimated, fun _ succeeded => ?_⟩
        · cases raised
          exact calm fault read
        · cases succeeded
      · refine ⟨fun _ raised => ?_, estimated.mpr undisturbed.estimated, fun _ succeeded => ?_⟩
        · cases raised
        · cases succeeded
          exact ⟨decodes, rfl, fits⟩

end Steps

/-- Requests and files are validated as they are to be exactly where nothing disturbs it. -/
theorem validation_lawful_iff (runtime : Runtime) (settings : AttachmentSettings) :
    (∀ attachments provider,
      Lawful runtime settings attachments
          (prepareAttachments runtime settings attachments provider) ↔
        Undisturbed runtime settings attachments) ∧
      ∀ req, LawfulUpload runtime settings req (validateAndExtract runtime settings req) ↔
        UndisturbedUpload runtime settings req :=
  ⟨fun _ _ => prepareAttachments_lawful_iff, fun _ => validateAndExtract_lawful_iff⟩

/-! ## JSON nested too deep -/

/-- Arrays, one deeper than the decoder goes, as an attachment. -/
def nestedAttachment (depth : Nat) : AttachmentIn where
  type := .text
  mediaType := .applicationJson
  filename := none
  data := Base64.encode (List.replicate (depth + 1) 0x5b)

theorem nestedAttachment_disturbs (depth : Nat) (excess : Bool) (pypdf : Pypdf) :
    Disturbs ⟨depth, excess, pypdf⟩ .applicationJson (List.replicate (depth + 1) 0x5b) .text := by
  have ascii : ∀ byte ∈ List.replicate (depth + 1) (0x5b : UInt8), byte.toNat < 0x80 := by
    intro byte listed
    rw [List.eq_of_mem_replicate listed]
    decide
  refine ⟨rfl, List.replicate (depth + 1) '['.toNat, ?_, ?_⟩
  · rw [utf8_ascii ascii, List.map_replicate]
    rfl
  · rw [loadsWithin, trim_replicate (by decide), scanOnce_nested]
    rw [List.length_replicate]
    change 2 * depth + 1 ≤ 2 * (depth + 1) + 2
    omega

/-- With the limits as they are set up, a request of one nested attachment is not validated as it
is to be, whatever pypdf does. -/
theorem nested_attachment_escapes :
    ¬ ∀ (runtime : Runtime) (attachments : List AttachmentIn),
      Lawful runtime {} attachments (prepareAttachments runtime {} attachments) := by
  intro law
  let pypdf : Pypdf :=
    ⟨fun _ => .error .pdfRead, fun _ => .error .pdfRead, fun _ => .error .pdfRead⟩
  have decodes : Base64.decode (.strict false) (nestedAttachment 10000).data =
      some (List.replicate 10001 0x5b) := Base64.decode_encode _ _
  have estimate : decodedLenFromBase64 (nestedAttachment 10000).data = 10001 := by
    rw [decodedLen_eq decodes, List.length_replicate]
    rfl
  have undisturbed :=
    prepareAttachments_lawful_iff.mp (law ⟨10000, false, pypdf⟩ [nestedAttachment 10000])
  refine (undisturbed.calm (by simp) _ (by decide) ?_ ?_ decodes).1
    (nestedAttachment_disturbs 10000 false pypdf)
  · rw [estimate]
    decide
  · rw [estimate]
    decide

end Hermes.Workspaces
