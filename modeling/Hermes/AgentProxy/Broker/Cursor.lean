import Hermes.Library.Text

/-!
# The cursor of a reconnecting client

Every event goes out under the id `<epoch>-<seq>`, and a client which reconnects gives the last id
it has seen.
-/

namespace Hermes.AgentProxy.Broker

structure Cursor where
  seq : Nat := 0
  epoch : Option String := none
  deriving DecidableEq, Repr

/-- `Cursor.empty`. -/
def Cursor.empty (cursor : Cursor) : Bool := decide (cursor.seq ≤ 0)

/-- What `parse_cursor` raises. -/
inductive CursorError
  | badRequest (message : String)
  | valueError
  deriving DecidableEq, Repr

/-- `parse_cursor`. -/
def parseCursor (lastEventId afterSeq : Option String) : Except CursorError Cursor :=
  match lastEventId with
  | some header =>
      if header ≠ "" then
        let (epoch, rawSeq) := Text.rpartition '-' header.toList
        if !epoch.isEmpty && Text.isDigit rawSeq then
          match Text.toInt rawSeq with
          | some seq => .ok ⟨seq, some (String.ofList epoch)⟩
          | none => .error .valueError
        else .ok {}
      else parseAfterSeq afterSeq
  | none => parseAfterSeq afterSeq
where
  parseAfterSeq : Option String → Except CursorError Cursor
    | some query =>
        if !Text.isDigit query.toList then
          .error (.badRequest "afterSeq must be a non-negative integer")
        else
          match Text.toInt query.toList with
          | some seq => .ok ⟨seq, none⟩
          | none => .error .valueError
    | none => .ok {}

def eventId (epoch : String) (seq : Int) : String := epoch ++ "-" ++ toString seq

section Header

variable {header epoch : String} {seq : Nat} {afterSeq : Option String}

theorem parseCursor_header (filled : header ≠ "") :
    parseCursor (some header) afterSeq =
      if !(Text.rpartition '-' header.toList).1.isEmpty &&
          Text.isDigit (Text.rpartition '-' header.toList).2 then
        match Text.toInt (Text.rpartition '-' header.toList).2 with
        | some seq => .ok ⟨seq, some (String.ofList (Text.rpartition '-' header.toList).1)⟩
        | none => .error .valueError
      else .ok {} := by
  rw [parseCursor]
  simp only [filled, ne_eq, not_false_eq_true, if_true]

theorem eventId_ne_empty : eventId epoch seq ≠ "" := by
  intro blank
  have dash : '-' ∈ (eventId epoch seq).toList := by simp [eventId]
  rw [blank] at dash
  simp at dash

theorem rpartition_eventId : Text.rpartition '-' (eventId epoch seq).toList =
    (epoch.toList, Nat.toDigits 10 seq) := by
  have written : (eventId epoch seq).toList = epoch.toList ++ '-' :: Nat.toDigits 10 seq := by
    have digits : (toString (seq : Int)).toList = Nat.toDigits 10 seq := Nat.toList_repr
    simp only [eventId, String.toList_append, digits]
    simp
  rw [written, Text.rpartition_append _ _ _ Text.dash_notMem_toDigits]

theorem parseCursor_eventId (named : epoch ≠ "") (small : seq < 10 ^ Text.maxStrDigits) :
    parseCursor (some (eventId epoch seq)) afterSeq = .ok ⟨seq, some epoch⟩ := by
  have named_list : epoch.toList.isEmpty = false := by
    rw [List.isEmpty_eq_false_iff]
    exact fun blank => named (String.toList_eq_nil_iff.mp blank)
  rw [parseCursor_header eventId_ne_empty, rpartition_eventId]
  simp only [named_list, Text.isDigit_toDigits, Text.toInt_toDigits small, String.ofList_toList]
  rfl

end Header

section Total

def givenHeader (lastEventId : Option String) : Option String := lastEventId.filter (· ≠ "")

/-- A header of the form `<epoch>-<seq>`. -/
def WellFormedId (header : String) : Prop :=
  (Text.rpartition '-' header.toList).1 ≠ [] ∧
    Text.isDecimal (Text.rpartition '-' header.toList).2 = true

/-- What is asked of the parser at one header and one query. -/
structure CursorLaw (lastEventId afterSeq : Option String) : Prop where
  /-- It returns a cursor or raises `BadRequestError`. -/
  total : ∀ error, parseCursor lastEventId afterSeq = .error error →
    ∃ message, error = .badRequest message
  /-- It raises only for a malformed query without a header. -/
  refuses : ∀ error, parseCursor lastEventId afterSeq = .error error →
    givenHeader lastEventId = none ∧
      ∃ query, afterSeq = some query ∧ Text.isDecimal query.toList = false
  /-- A malformed header is the empty cursor. -/
  degrades : ∀ header, givenHeader lastEventId = some header → ¬ WellFormedId header →
    parseCursor lastEventId afterSeq = .ok {}
  /-- The id of an event is that event. -/
  inverse : ∀ (epoch : String) (seq : Nat), epoch ≠ "" → lastEventId = some (eventId epoch seq) →
    parseCursor lastEventId afterSeq = .ok ⟨seq, some epoch⟩

/-- What `isdigit` lets through `int` can convert. -/
def Convertible (text : List Char) : Prop :=
  Text.isDigit text = true → Text.isDecimal text = true ∧ text.length ≤ Text.maxStrDigits

/-- The text which is asked for its number has one. -/
def HasNumber (lastEventId afterSeq : Option String) : Prop :=
  match givenHeader lastEventId with
  | some header => (Text.rpartition '-' header.toList).1 ≠ [] →
      Convertible (Text.rpartition '-' header.toList).2
  | none => ∀ query, afterSeq = some query → Convertible query.toList

variable {lastEventId afterSeq : Option String}

theorem convertible_iff {text : List Char} (digits : Text.isDigit text = true) :
    Convertible text ↔ (Text.toInt text).isSome = true := by
  rw [Text.toInt_isSome digits, Convertible]
  exact ⟨fun convertible => convertible digits, fun both _ => both⟩

theorem parseCursor_without (missing : givenHeader lastEventId = none) :
    parseCursor lastEventId afterSeq = parseCursor.parseAfterSeq afterSeq := by
  cases lastEventId with
  | none => rfl
  | some header =>
      have blank : header = "" := by
        simpa [givenHeader, Option.filter_eq_none_iff] using missing
      rw [blank]
      rfl

theorem parseAfterSeq_cases (convertible : ∀ query, afterSeq = some query →
    Convertible query.toList) :
    (∃ cursor, parseCursor.parseAfterSeq afterSeq = .ok cursor) ∨
      ∃ query, afterSeq = some query ∧ Text.isDecimal query.toList = false ∧
        parseCursor.parseAfterSeq afterSeq =
          .error (.badRequest "afterSeq must be a non-negative integer") := by
  cases afterSeq with
  | none => exact .inl ⟨_, rfl⟩
  | some query =>
      rw [parseCursor.parseAfterSeq]
      cases digits : Text.isDigit query.toList with
      | false =>
          have malformed : Text.isDecimal query.toList = false := by
            rw [← Bool.not_eq_true]
            intro decimal
            rw [Text.isDigit_of_isDecimal decimal] at digits
            cases digits
          exact .inr ⟨query, rfl, malformed, rfl⟩
      | true =>
          have found := (convertible_iff digits).mp (convertible query rfl)
          obtain ⟨seq, read⟩ := Option.isSome_iff_exists.mp found
          rw [read]
          exact .inl ⟨⟨seq, none⟩, rfl⟩

theorem law_of_query (missing : givenHeader lastEventId = none) :
    CursorLaw lastEventId afterSeq ↔
      ∀ query, afterSeq = some query → Convertible query.toList := by
  constructor
  · rintro law query rfl digits
    refine (Text.toInt_isSome digits).mp ?_
    cases read : Text.toInt query.toList with
    | some seq => rfl
    | none =>
        have raised : parseCursor lastEventId (some query) = .error .valueError := by
          rw [parseCursor_without missing, parseCursor.parseAfterSeq, digits, read]
          rfl
        obtain ⟨message, other⟩ := law.total _ raised
        cases other
  · intro convertible
    have unnamed (epoch : String) (seq : Nat) : lastEventId ≠ some (eventId epoch seq) := by
      rintro rfl
      simp [givenHeader, eventId_ne_empty] at missing
    have ungiven (header : String) : givenHeader lastEventId ≠ some header := by simp [missing]
    have parsed := @parseCursor_without lastEventId afterSeq missing
    rcases parseAfterSeq_cases convertible with
      ⟨cursor, answered⟩ | ⟨query, asked, malformed, refused⟩
    · rw [answered] at parsed
      refine ⟨?_, ?_, fun header given _ => absurd given (ungiven header),
        fun epoch seq _ sent => absurd sent (unnamed epoch seq)⟩ <;> simp [parsed]
    · rw [refused] at parsed
      refine ⟨?_, fun error _ => ⟨missing, query, asked, malformed⟩,
        fun header given _ => absurd given (ungiven header),
        fun epoch seq _ sent => absurd sent (unnamed epoch seq)⟩
      intro error raised
      rw [parsed] at raised
      cases raised
      exact ⟨_, rfl⟩

theorem law_of_header {header : String} (given : givenHeader lastEventId = some header) :
    CursorLaw lastEventId afterSeq ↔ ((Text.rpartition '-' header.toList).1 ≠ [] →
      Convertible (Text.rpartition '-' header.toList).2) := by
  obtain ⟨rfl, filled⟩ : lastEventId = some header ∧ header ≠ "" := by
    simpa [givenHeader, Option.filter_eq_some_iff] using given
  have parsed := @parseCursor_header header afterSeq filled
  constructor
  · intro law named digits
    refine (Text.toInt_isSome digits).mp ?_
    cases read : Text.toInt (Text.rpartition '-' header.toList).2 with
    | some seq => rfl
    | none =>
        rw [read, List.isEmpty_eq_false_iff.mpr named, digits] at parsed
        obtain ⟨message, other⟩ := law.total _ parsed
        cases other
  · intro convertible
    have same {other : String} (other_given : givenHeader (some header) = some other) :
        other = header := Option.some.inj (other_given.symm.trans given)
    by_cases shaped : (Text.rpartition '-' header.toList).1 ≠ [] ∧
        Text.isDigit (Text.rpartition '-' header.toList).2 = true
    · obtain ⟨named, digits⟩ := shaped
      obtain ⟨decimal, short⟩ := convertible named digits
      obtain ⟨seq, read⟩ := Option.isSome_iff_exists.mp
        ((convertible_iff digits).mp (convertible named))
      rw [read, List.isEmpty_eq_false_iff.mpr named, digits] at parsed
      refine ⟨?_, ?_, ?_, ?_⟩
      · simp [parsed]
      · simp [parsed]
      · intro other other_given malformed
        rw [same other_given] at malformed
        exact absurd ⟨named, decimal⟩ malformed
      · intro epoch number epoch_named sent
        cases sent
        rw [rpartition_eventId] at short
        exact parseCursor_eventId epoch_named
          ((Nat.length_toDigits_le_iff (by decide) (by decide)).mp short)
    · have answered : parseCursor (some header) afterSeq = .ok {} := by
        rw [parsed, if_neg]
        simpa [Bool.and_eq_true, List.isEmpty_eq_false_iff] using shaped
      refine ⟨?_, ?_, fun _ _ _ => answered, ?_⟩
      · simp [answered]
      · simp [answered]
      · intro epoch number epoch_named sent
        cases sent
        rw [rpartition_eventId] at shaped
        exact absurd ⟨fun blank => epoch_named (String.toList_eq_nil_iff.mp blank),
          Text.isDigit_toDigits⟩ shaped

/-- For every header and query: the parser is total and inverse to the ids exactly where the text
which has passed `isdigit` has decimal digits only, and no more than `int` converts. -/
theorem parseCursor_lawful_iff (lastEventId afterSeq : Option String) :
    CursorLaw lastEventId afterSeq ↔ HasNumber lastEventId afterSeq := by
  rw [HasNumber]
  cases given : givenHeader lastEventId with
  | some header => exact law_of_header given
  | none => exact law_of_query given

/-- A superscript two passes `isdigit`, and `int` refuses it. -/
theorem superscript_raises : ¬ CursorLaw (some "5f-²") none := by
  intro law
  obtain ⟨message, raised⟩ := law.total .valueError (by decide)
  cases raised

end Total

end Hermes.AgentProxy.Broker
