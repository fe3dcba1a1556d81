import Mathlib
import Hermes.AgentProxy.Broker.Gaps
import Hermes.AgentProxy.Broker.Ring
import Hermes.Library.JsonEncoder
import Hermes.Library.Uuid

/-!
# The elements of the ring

The publish script writes an element by joining strings around the data, which are one JSON string
of ASCII letters; the reader decodes all of it as JSON.  The event read is the event written, byte
for byte.  The byte counter goes with the lengths of the elements which the ring holds.
-/

namespace Hermes.AgentProxy.Broker

open Encoding JsonDecoder JsonEncoder

/-- `_encode_data`. -/
def encodeData (raw : Bytes) : String := ofCodes (dumpsText (decodeEscape raw))

/-- `_decode_data`; `none` is a `UnicodeEncodeError`. -/
def decodeData (value : List Nat) : Option Bytes := encodeEscape value

/-- Fourteen significant digits and an exponent of ten, as `%.14g` writes large numbers. -/
def scientific (value : ℚ) : String :=
  let exponent := Int.log 10 value
  let rounded := (roundHalfEven (value / 10 ^ (exponent - 13))).toNat
  let (mantissa, exponent) :=
    if rounded = 10 ^ 14 then (10 ^ 13, exponent + 1) else (rounded, exponent)
  let digits := (Nat.toDigits 10 mantissa).rdropWhile (· == '0')
  let fraction := if digits.tail.isEmpty then [] else '.' :: digits.tail
  String.ofList (digits.take 1 ++ fraction ++ ['e', '+'] ++ Nat.toDigits 10 exponent.toNat)

/-- How Lua writes a number into a string: every number is a float, and the format is `%.14g`. -/
def luaNumber (number : Nat) : String :=
  if number < 10 ^ 14 then number.repr
  else
    match nearestFloat false number with
    | .finite value => scientific value
    | _ => "inf"

example : luaNumber (10 ^ 14) = "1e+14" := by decide +kernel

/-- The element which the publish script builds. -/
def element (epoch : String) (seq : Nat) (dataJson : String) : Bytes :=
  encode ("\x7b\"epoch\":\"" ++ epoch ++ "\",\"seq\":" ++ luaNumber seq ++
    ",\"data\":" ++ dataJson ++ "\x7d")

inductive Item
  | bytes (item : Bytes)
  | str (item : List Nat)
  | other

/-- What `_parse_element` raises. -/
inductive ElementError
  | recursion
  | unicodeEncode
  deriving DecidableEq, Repr

/-- `isinstance(value, int)`: a boolean is an integer as well. -/
def integerOf : Option Parsed → Option Int
  | some (.int value) => some value
  | some (.bool value) => some (if value then 1 else 0)
  | _ => none

def Item.text : Item → Option (List Nat)
  | .bytes item => some (decodeEscape item)
  | .str item => some item
  | .other => none

/-- `_parse_element`, where the decoder may go down `depth` containers. -/
def parseElement (depth : Nat) (item : Item) : Except ElementError (Option RingEvent) :=
  match item.text with
  | none => .ok none
  | some text =>
      match loadsWithin depth text with
      | .error .value => .ok none
      | .error .recursion => .error .recursion
      | .ok (.obj payload) =>
          match Parsed.get? payload "epoch", integerOf (Parsed.get? payload "seq"),
            Parsed.get? payload "data" with
          | some (.str epoch), some seq, some (.str data) =>
              match decodeData data with
              | some data => .ok (some ⟨ofCodes epoch, seq, data⟩)
              | none => .error .unicodeEncode
          | _, _, _ => .ok none
      | .ok _ => .ok none

/-- An epoch which needs no escape; `uuid.uuid4().hex` has hexadecimal digits only. -/
def Token (epoch : String) : Prop :=
  ∀ char ∈ epoch.toList, 0x20 ≤ char.toNat ∧ char.toNat < 0x7f ∧ char ≠ '"' ∧ char ≠ '\\'

/-- `uuid.UUID.hex`. -/
def uuidHex (number : Nat) : String := String.ofList (Uuid.hexDigits 32 number)

theorem token_uuidHex (number : Nat) : Token (uuidHex number) := by
  intro char listed
  rw [uuidHex, String.toList_ofList] at listed
  obtain ⟨value, small, rfl⟩ := Uuid.mem_hexDigits listed
  have plain : ∀ value < 16, 0x20 ≤ value.digitChar.toNat ∧ value.digitChar.toNat < 0x7f ∧
      value.digitChar ≠ '"' ∧ value.digitChar ≠ '\\' := by
    decide
  exact plain value small

section Element

variable {epoch : String} {seq : Nat} {raw : Bytes}

/-- The code points of an element between its braces. -/
def elementBody (epoch : String) (seq : Nat) (raw : Bytes) : List Nat :=
  '"'.toNat :: (codes "epoch" ++ '"'.toNat :: ':'.toNat :: '"'.toNat :: (codes epoch ++
    '"'.toNat :: ','.toNat :: '"'.toNat :: (codes "seq" ++ '"'.toNat :: ':'.toNat ::
      (digitCodes seq ++ ','.toNat :: '"'.toNat :: (codes "data" ++ '"'.toNat :: ':'.toNat ::
        '"'.toNat :: ((decodeEscape raw).flatMap writeCode ++ ['"'.toNat]))))))

def elementCodes (epoch : String) (seq : Nat) (raw : Bytes) : List Nat :=
  0x7b :: (elementBody epoch seq raw ++ [0x7d])

theorem plain_decodeEscape (raw : Bytes) :
    ∀ code ∈ decodeEscape raw, code < 0x110000 ∧ isHighSurrogate code = false :=
  plain_of_encodeEscape (encodeEscape_decodeEscape raw)

theorem data_lt (raw : Bytes) :
    ∀ code ∈ (decodeEscape raw).flatMap writeCode, code < 0x80 := by
  intro code listed
  obtain ⟨read, listed, written⟩ := List.mem_flatMap.mp listed
  exact writeCode_lt (plain_decodeEscape raw read listed).1 code written

theorem codes_encodeData (raw : Bytes) : codes (encodeData raw) =
    '"'.toNat :: ((decodeEscape raw).flatMap writeCode ++ ['"'.toNat]) := by
  rw [encodeData, dumpsText, codes_ofCodes]
  · rfl
  · intro code listed
    simp only [List.cons_append, List.mem_cons, List.mem_append, List.not_mem_nil, or_false]
      at listed
    rcases listed with rfl | listed | rfl
    · decide
    · exact data_lt raw code listed
    · decide

theorem codes_luaNumber (small : seq < 10 ^ 14) : codes (luaNumber seq) = digitCodes seq := by
  rw [luaNumber, if_pos small, codes, Nat.toList_repr, digitCodes]

theorem codes_element (small : seq < 10 ^ 14) :
    codes ("\x7b\"epoch\":\"" ++ epoch ++ "\",\"seq\":" ++ luaNumber seq ++ ",\"data\":" ++
      encodeData raw ++ "\x7d") = elementCodes epoch seq raw := by
  have opening : codes "\x7b\"epoch\":\"" =
      0x7b :: '"'.toNat :: (codes "epoch" ++ ['"'.toNat, ':'.toNat, '"'.toNat]) := by
    decide
  have second : codes "\",\"seq\":" = '"'.toNat :: ','.toNat :: '"'.toNat ::
      (codes "seq" ++ ['"'.toNat, ':'.toNat]) := by
    decide
  have third : codes ",\"data\":" =
      ','.toNat :: '"'.toNat :: (codes "data" ++ ['"'.toNat, ':'.toNat]) := by
    decide
  have closing : codes "\x7d" = [0x7d] := by decide
  simp only [codes_append, opening, second, third, closing, codes_luaNumber small,
    codes_encodeData, elementCodes, elementBody, List.append_assoc, List.cons_append,
    List.nil_append]

theorem elementCodes_lt (token : Token epoch) :
    ∀ code ∈ elementCodes epoch seq raw, code < 0x80 := by
  have keys : ∀ code ∈ codes "epoch" ++ codes "seq" ++ codes "data", code < 0x80 := by
    decide
  have in_epoch : ∀ code ∈ codes epoch, code < 0x80 := by
    intro code mapped
    obtain ⟨char, listed, rfl⟩ := List.mem_map.mp mapped
    have small := (token char listed).2.1
    omega
  have in_seq : ∀ code ∈ digitCodes seq, code < 0x80 := by
    intro code listed
    have digit := isDigit_of_mem listed
    simp only [JsonDecoder.isDigit, decide_eq_true_eq] at digit
    omega
  have in_data := data_lt raw
  simp only [List.forall_mem_append] at keys
  simp only [elementCodes, elementBody, List.forall_mem_cons, List.forall_mem_append]
  exact ⟨by decide, ⟨by decide, keys.1.1, by decide, by decide, by decide, in_epoch, by decide,
    by decide, by decide, keys.1.2, by decide, by decide, in_seq, by decide, by decide, keys.2,
    by decide, by decide, by decide, in_data, by decide, List.forall_mem_nil _⟩, by decide,
    List.forall_mem_nil _⟩

def elementFields (epoch : String) (seq : Nat) (raw : Bytes) : List (List Nat × Parsed) :=
  [(codes "epoch", .str (codes epoch)), (codes "seq", .int seq),
    (codes "data", .str (decodeEscape raw))]

theorem plain_token (token : Token epoch) :
    ∀ code ∈ codes epoch, 0x20 ≤ code ∧ code ≠ '"'.toNat ∧ code ≠ '\\'.toNat := by
  intro code mapped
  obtain ⟨char, listed, rfl⟩ := List.mem_map.mp mapped
  obtain ⟨printable, -, quote, backslash⟩ := token char listed
  exact ⟨printable, fun same => quote (Char.toNat_inj.mp same),
    fun same => backslash (Char.toNat_inj.mp same)⟩

/-- The decoder takes an element apart, given room for its longest text. -/
theorem scanOnce_elementCodes {room : Nat} (depth : Nat) (token : Token epoch)
    (small : seq < 10 ^ 14) (keys_short : 5 ≤ room) (epoch_short : (codes epoch).length ≤ room)
    (data_short : (decodeEscape raw).length ≤ room) :
    scanOnce (room + 5) (depth + 1) (elementCodes epoch seq raw) =
      .ok (.obj (elementFields epoch seq raw), []) := by
  have plain : ∀ key ∈ ["epoch", "seq", "data"], (codes key).length ≤ 5 ∧
      ∀ code ∈ codes key, 0x20 ≤ code ∧ code ≠ '"'.toNat ∧ code ≠ '\\'.toNat := by
    decide
  simp only [List.forall_mem_cons] at plain
  obtain ⟨⟨epoch_key, epoch_plain⟩, ⟨seq_key, seq_plain⟩, ⟨data_key, data_plain⟩, -⟩ := plain
  have in_limit : seq < 10 ^ Text.maxStrDigits :=
    small.trans_le (Nat.pow_le_pow_right (by decide) (by decide))
  have opened : ∀ rest : List Nat,
      expect (Char.ofNat 0x7d) ('"'.toNat :: rest) = none := fun _ => rfl
  have solid : ∀ rest : List Nat, skipSpace ('"'.toNat :: rest) = '"'.toNat :: rest :=
    fun _ => rfl
  have data_read : scanString (room + 1)
      ((decodeEscape raw).flatMap writeCode ++ '"'.toNat :: [0x7d]) =
        some (decodeEscape raw, [0x7d]) :=
    scanString_flatMap (Nat.lt_succ_of_le data_short) (plain_decodeEscape raw)
  rw [elementCodes, scanOnce, if_neg (by decide), if_pos rfl, enter]
  simp only [elementBody, List.cons_append, List.append_assoc, List.nil_append, bind, Except.bind,
    opened, solid]
  rw [scanMembers_comma (epoch_key.trans (by omega)) epoch_plain (solid _) (scanOnce_quote
      (scanString_append (by omega) (plain_token token))),
    scanMembers_comma (seq_key.trans (by omega)) seq_plain skipSpace_digitCodes
      (scanOnce_digitCodes in_limit),
    scanMembers_last (data_key.trans (by omega)) data_plain (solid _) (scanOnce_quote data_read)]
  have apart : (codes "epoch" == codes "seq") = false ∧ (codes "epoch" == codes "data") = false ∧
      (codes "seq" == codes "data") = false := by
    decide
  simp [JsonDecoder.insert, elementFields, apart]

theorem loadsWithin_elementCodes (depth : Nat) (token : Token epoch) (small : seq < 10 ^ 14) :
    loadsWithin (depth + 1) (elementCodes epoch seq raw) =
      .ok (.obj (elementFields epoch seq raw)) := by
  have long : 10 + (codes epoch).length + (decodeEscape raw).length ≤
      (elementBody epoch seq raw).length := by
    have written := length_le_flatMap (decodeEscape raw)
    have keys : (codes "epoch").length = 5 ∧ (codes "seq").length = 3 := by decide
    simp only [elementBody, List.length_cons, List.length_append, keys]
    omega
  have trimmed : trim isJsonSpace (elementCodes epoch seq raw) = elementCodes epoch seq raw := by
    rw [elementCodes, trim_of_ends _ (by decide) (by decide)]
  have room : 2 * (elementCodes epoch seq raw).length + 2 =
      2 * (elementBody epoch seq raw).length + 1 + 5 := by
    rw [elementCodes, List.length_cons, List.length_append, List.length_singleton]
    omega
  rw [loadsWithin, trimmed, room, scanOnce_elementCodes depth token small (by omega) (by omega)
    (by omega)]

/-- The item a client delivers reads as the text of the element. -/
theorem element_text (token : Token epoch) (small : seq < 10 ^ 14) :
    utf8 false (element epoch seq (encodeData raw)) = some (elementCodes epoch seq raw) ∧
      decodeEscape (element epoch seq (encodeData raw)) = elementCodes epoch seq raw := by
  have written := @codes_element epoch seq raw small
  have ascii := @elementCodes_lt epoch seq raw token
  rw [← written] at ascii ⊢
  exact ⟨utf8_encode_ascii ascii, decodeEscape_encode ascii⟩

theorem parseElement_elementCodes (depth : Nat) (token : Token epoch) (small : seq < 10 ^ 14)
    {item : Item} (text : item.text = some (elementCodes epoch seq raw)) :
    parseElement (depth + 1) item = .ok (some ⟨epoch, seq, raw⟩) := by
  have apart : (codes "epoch" == codes "seq") = false ∧ (codes "epoch" == codes "data") = false ∧
      (codes "seq" == codes "data") = false := by
    decide
  have back : decodeData (decodeEscape raw) = some raw := encodeEscape_decodeEscape raw
  rw [parseElement, text]
  simp only [loadsWithin_elementCodes depth token small]
  simp [elementFields, Parsed.get?, apart, integerOf, back, ofCodes_codes]

/-- For every byte string, every epoch token and every number below `10 ^ 14`: the element which the
publish script builds is plain UTF-8, and read as text or as bytes it is the event with the same
epoch, the same number and the same bytes. -/
theorem parseElement_element (depth : Nat) (raw : Bytes) {epoch : String} (token : Token epoch)
    {seq : Nat} (small : seq < 10 ^ 14) :
    ∃ text, utf8 false (element epoch seq (encodeData raw)) = some text ∧
      parseElement (depth + 1) (.str text) = .ok (some ⟨epoch, seq, raw⟩) ∧
      parseElement (depth + 1) (.bytes (element epoch seq (encodeData raw))) =
        .ok (some ⟨epoch, seq, raw⟩) := by
  obtain ⟨read, escaped⟩ := @element_text epoch seq raw token small
  exact ⟨_, read, parseElement_elementCodes depth token small rfl,
    parseElement_elementCodes depth token small (congrArg some escaped)⟩

theorem parseElement_sample :
    parseElement 1 (.bytes (element (uuidHex 5) 7 (encodeData [0xff, 0x22, 0x00, 0x0a]))) =
      .ok (some ⟨uuidHex 5, 7, [0xff, 0x22, 0x00, 0x0a]⟩) := by
  obtain ⟨_, -, -, read⟩ := parseElement_element 0 [0xff, 0x22, 0x00, 0x0a] (token_uuidHex 5)
    (show 7 < 10 ^ 14 by decide)
  exact read

end Element

section Ring

/-- The ceilings, with the length of an element as the script counts it. -/
def scriptLimits (maxEvents maxBytes : Int) : RingLimits where
  maxEvents := maxEvents
  maxBytes := maxBytes
  elementSize := fun event =>
    (element event.epoch event.seq.toNat (encodeData event.data)).length

def RingLimits.weight (limits : RingLimits) (ring : List RingEvent) : Int :=
  (ring.map fun event => (limits.elementSize event : Int)).sum

/-- One publish after the other: the events under their numbers, and the keys afterwards. -/
def RunKeys.publishAll (limits : RingLimits) (keys : RunKeys) :
    List (String × Bytes) → List RingEvent × RunKeys
  | [] => ([], keys)
  | write :: later =>
      let first := keys.publish limits write.1 write.2
      let rest := first.2.publishAll limits later
      (first.1 :: rest.1, rest.2)

/-- The keys before a publish: the ring is an end of what was published, up to the counter, and the
byte counter goes with it. -/
structure RingReady (limits : RingLimits) (published : List RingEvent) (keys : RunKeys) : Prop where
  ring : keys.events <:+ published
  contiguous : Contiguous keys.events
  counted : ∀ last, keys.events.getLast? = some last → last.seq = keys.seq.getD 0
  weighed : keys.bytes.getD 0 = limits.weight keys.events

/-- The keys after a publish: the last events, under consecutive numbers which end at the counter,
within the ceilings. -/
structure RingKept (limits : RingLimits) (published : List RingEvent) (keys : RunKeys)
    (count : Nat) : Prop where
  some_event : 1 ≤ count
  within : count ≤ published.length
  ring : keys.events = published.drop (published.length - count)
  contiguous : Contiguous keys.events
  counted : keys.events.getLast?.map (·.seq) = keys.seq.map Int.ofNat
  weighed : keys.bytes = some (limits.weight keys.events)
  few : (count : Int) ≤ limits.maxEvents
  light : limits.weight keys.events ≤ limits.maxBytes ∨ count = 1

variable {limits : RingLimits} {published : List RingEvent} {keys : RunKeys}

theorem weight_cons (event : RingEvent) (ring : List RingEvent) :
    limits.weight (event :: ring) = limits.elementSize event + limits.weight ring := by
  rw [RingLimits.weight, List.map_cons, List.sum_cons]
  rfl

theorem weight_append (ring later : List RingEvent) :
    limits.weight (ring ++ later) = limits.weight ring + limits.weight later := by
  rw [RingLimits.weight, List.map_append, List.sum_append]
  rfl

theorem trimEvents_kept (positive : 1 ≤ limits.maxEvents) {ring : List RingEvent} {total : Int}
    (nonempty : ring ≠ []) (weighed : total = limits.weight ring) :
    (RunKeys.trimEvents limits ring total).1 ≠ [] ∧
      ((RunKeys.trimEvents limits ring total).1.length : Int) ≤ limits.maxEvents ∧
      (RunKeys.trimEvents limits ring total).2 =
        limits.weight (RunKeys.trimEvents limits ring total).1 := by
  induction ring generalizing total with
  | nil => exact absurd rfl nonempty
  | cons event ring induction =>
      rw [RunKeys.trimEvents]
      split
      case isFalse few => exact ⟨List.cons_ne_nil _ _, Int.not_lt.mp few, weighed⟩
      case isTrue many =>
          refine induction ?_ ?_
          · rintro rfl
            simp only [List.length_singleton] at many
            omega
          · rw [weighed, weight_cons]
            omega

theorem trimBytes_kept {ring : List RingEvent} {total : Int} (nonempty : ring ≠ [])
    (weighed : total = limits.weight ring) :
    (RunKeys.trimBytes limits ring total).1 ≠ [] ∧
      (RunKeys.trimBytes limits ring total).2 =
        limits.weight (RunKeys.trimBytes limits ring total).1 ∧
      (limits.weight (RunKeys.trimBytes limits ring total).1 ≤ limits.maxBytes ∨
        (RunKeys.trimBytes limits ring total).1.length = 1) := by
  induction ring generalizing total with
  | nil => exact absurd rfl nonempty
  | cons event ring induction =>
      cases ring with
      | nil => exact ⟨nonempty, weighed, .inr rfl⟩
      | cons next ring =>
          rw [RunKeys.trimBytes]
          split
          case isFalse light =>
              exact ⟨List.cons_ne_nil _ _, weighed, .inl (weighed ▸ Int.not_lt.mp light)⟩
          case isTrue heavy =>
              refine induction (List.cons_ne_nil _ _) ?_
              rw [weighed, weight_cons]
              omega

/-- The events of a ring which is ready are numbered on by the one behind them. -/
theorem RingReady.joined (ready : RingReady limits published keys) {event : RingEvent}
    (number : event.seq = keys.seq.getD 0 + 1) : Contiguous (keys.events ++ [event]) := by
  refine List.isChain_append.mpr ⟨ready.contiguous, List.isChain_singleton _, ?_⟩
  intro last is_last next is_next
  have counted := ready.counted last (Option.mem_def.mp is_last)
  obtain rfl : event = next := by simpa using is_next
  rw [number, counted]

theorem getLast?_of_suffix {ring whole : List RingEvent} (suffix : ring <:+ whole)
    (nonempty : ring ≠ []) : ring.getLast? = whole.getLast? := by
  obtain ⟨before, rfl⟩ := suffix
  rw [List.getLast?_append_of_ne_nil _ nonempty]

theorem RingReady.publish (positive : 1 ≤ limits.maxEvents)
    (ready : RingReady limits published keys) (epoch : String) (data : Bytes) :
    ∃ count, RingKept limits (published ++ [(keys.publish limits epoch data).1])
      (keys.publish limits epoch data).2 count := by
  have suffix := keys.publish_events limits epoch data
  have joined : Contiguous (keys.events ++ [(keys.publish limits epoch data).1]) :=
    ready.joined rfl
  have appended : keys.bytes.getD 0 + limits.elementSize (keys.publish limits epoch data).1 =
      limits.weight (keys.events ++ [(keys.publish limits epoch data).1]) := by
    rw [weight_append, ready.weighed, weight_cons]
    exact congrArg _ (Int.add_zero _).symm
  obtain ⟨some_counted, few, counted_weight⟩ :=
    trimEvents_kept positive (List.append_ne_nil_of_right_ne_nil _ (List.cons_ne_nil _ _)) appended
  obtain ⟨some_weighed, weighed, light⟩ := trimBytes_kept some_counted counted_weight
  have shorter := (RunKeys.trimBytes_suffix limits
    (RunKeys.trimEvents limits (keys.events ++ [(keys.publish limits epoch data).1])
      (keys.bytes.getD 0 + limits.elementSize (keys.publish limits epoch data).1)).1
    (RunKeys.trimEvents limits (keys.events ++ [(keys.publish limits epoch data).1])
      (keys.bytes.getD 0 + limits.elementSize (keys.publish limits epoch data).1)).2).length_le
  obtain ⟨before, older⟩ := ready.ring
  have kept : (keys.publish limits epoch data).2.events <:+
      published ++ [(keys.publish limits epoch data).1] := by
    refine suffix.trans ⟨before, ?_⟩
    rw [← List.append_assoc, older]
  have last := getLast?_of_suffix suffix some_weighed
  refine ⟨(keys.publish limits epoch data).2.events.length, ?_⟩
  constructor
  · exact List.length_pos_iff.mpr some_weighed
  · exact kept.length_le
  · exact List.suffix_iff_eq_drop.mp kept
  · exact joined.suffix suffix
  · rw [last, List.getLast?_concat]
    rfl
  · exact congrArg some weighed
  · exact (Int.ofNat_le.mpr shorter).trans few
  · exact light

theorem RingKept.ready {count : Nat} (kept : RingKept limits published keys count) :
    RingReady limits published keys := by
  constructor
  · rw [kept.ring]
    exact List.drop_suffix _ _
  · exact kept.contiguous
  · intro last is_last
    have counted := kept.counted
    rw [is_last] at counted
    cases counter : keys.seq with
    | none => simp [counter] at counted
    | some number => simpa [counter] using counted
  · rw [kept.weighed]
    rfl

theorem RingReady.publishAll (positive : 1 ≤ limits.maxEvents)
    (ready : RingReady limits published keys) {writes : List (String × Bytes)}
    (written : writes ≠ []) :
    ∃ count, RingKept limits (published ++ (keys.publishAll limits writes).1)
      (keys.publishAll limits writes).2 count := by
  induction writes generalizing published keys with
  | nil => exact absurd rfl written
  | cons write later induction =>
      obtain ⟨count, kept⟩ := ready.publish positive write.1 write.2
      cases later with
      | nil => exact ⟨count, kept⟩
      | cons next later =>
          obtain ⟨count, kept⟩ := induction kept.ready (List.cons_ne_nil _ _)
          rw [List.append_assoc] at kept
          exact ⟨count, kept⟩

theorem publishAll_fst (limits : RingLimits) (keys : RunKeys) (writes : List (String × Bytes)) :
    (keys.publishAll limits writes).1.map (fun event => (event.epoch, event.data)) = writes ∧
      (keys.publishAll limits writes).2.seq.getD 0 = keys.seq.getD 0 + writes.length := by
  induction writes generalizing keys with
  | nil => exact ⟨rfl, rfl⟩
  | cons write later induction =>
      obtain ⟨events, counter⟩ := induction (keys.publish limits write.1 write.2).2
      constructor
      · exact congrArg ((write.1, write.2) :: ·) events
      · refine counter.trans ?_
        simp only [RunKeys.publish, Option.getD_some, List.length_cons]
        omega

/-- From an empty ring, whatever is published and however large it is: after each publish the ring
holds the last `count` events under consecutive numbers up to the counter, at least one and no more
than `maxEvents`, the byte counter is the sum of the lengths of their elements, and these are at
most `maxBytes` unless there is only one. -/
theorem publishAll_kept {maxEvents : Int} (positive : 1 ≤ maxEvents) (maxBytes : Int)
    {keys : RunKeys} (hollow : keys.events = []) (weightless : keys.bytes.getD 0 = 0)
    {writes : List (String × Bytes)} (written : writes ≠ []) :
    let after := keys.publishAll (scriptLimits maxEvents maxBytes) writes
    (after.1.map fun event => (event.epoch, event.data)) = writes ∧
      after.2.seq.getD 0 = keys.seq.getD 0 + writes.length ∧
      ∃ count, RingKept (scriptLimits maxEvents maxBytes) after.1 after.2 count := by
  intro after
  have ready : RingReady (scriptLimits maxEvents maxBytes) [] keys := by
    constructor
    · rw [hollow]
    · rw [hollow]
      exact List.isChain_nil
    · simp [hollow]
    · rw [weightless, hollow]
      rfl
  obtain ⟨events, counter⟩ := publishAll_fst (scriptLimits maxEvents maxBytes) keys writes
  exact ⟨events, counter, ready.publishAll positive written⟩

theorem publishAll_sample :
    ∃ count, RingKept (scriptLimits 2 0)
      (({} : RunKeys).publishAll (scriptLimits 2 0) [("e", [1]), ("e", []), ("e", [2])]).1
      (({} : RunKeys).publishAll (scriptLimits 2 0) [("e", [1]), ("e", []), ("e", [2])]).2 count :=
  (publishAll_kept (by decide) 0 rfl rfl (List.cons_ne_nil _ _)).2.2

end Ring

end Hermes.AgentProxy.Broker
