import Hermes.AgentProxy.Broker.Cursor
import Hermes.AgentProxy.Events
import Hermes.Library.JsonDecoder

/-!
# The end of a run, as the broker and the billing reader see it

The reader takes a block apart by lines and asks the event's name; the broker looks for `data: ` in
the block it sends out and decodes all that follows.  The two are independent parsers of the same
bytes.  They agree on what the runtime sends: blocks with at most one data line, nothing but white
space behind it, and the name in the payload's `event` field.
-/

namespace Hermes.AgentProxy

open Encoding JsonDecoder
open Json (get?)

/-- A field of a block which the reader keeps. -/
inductive SseField
  | event (name : String)
  | data (text : List Nat)

/-- One round of the loop of `_parse_sse_block`; a line which is no UTF-8 is passed over. -/
def sseField (line : List UInt8) : Option SseField :=
  match utf8 false line with
  | none => none
  | some line =>
      if (codes ":").isPrefixOf line then none
      else if (codes "event:").isPrefixOf line then
        some (.event (ofCodes (strip (line.drop "event:".length))))
      else if (codes "data:").isPrefixOf line then
        some (.data (strip (line.drop "data:".length)))
      else none

/-- What the loop has read: the last name and all data lines. -/
structure SseFields where
  name : Option String := none
  dataLines : List (List Nat) := []

def SseFields.take (fields : SseFields) : Option SseField → SseFields
  | some (.event name) => { fields with name := some name }
  | some (.data text) => { fields with dataLines := fields.dataLines ++ [text] }
  | none => fields

/-- The decoded object of some data lines, empty where there is none. -/
def decodeData (dataLines : List (List Nat)) : Fields :=
  if dataLines = [] then []
  else
    match loads ((codes "\n").intercalate dataLines) with
    | some (.obj fields) => fields
    | _ => []

/-- `_parse_sse_block`. -/
def parseSseBlock (block : List UInt8) : SseEvent :=
  let fields := ((block.splitOn 0x0a).map sseField).foldl SseFields.take {}
  ⟨fields.name, decodeData fields.dataLines⟩

def terminalEvents : List String := ["run.completed", "run.failed", "run.paused"]

/-- `is_terminal_event`. -/
def isTerminalEvent (event : SseEvent) : Bool :=
  match eventName event with
  | some name => terminalEvents.contains name
  | none => false

/-- `sse_block`: the id of an event before its own bytes. -/
def sseBlock (epoch : String) (seq : Int) (data : List UInt8) : List UInt8 :=
  encode "id: " ++ encode (Broker.eventId epoch seq) ++ encode "\n" ++ data

/-- What follows the first occurrence of a marker. -/
def afterMarker (marker : List UInt8) : List UInt8 → Option (List UInt8)
  | [] => if marker = [] then some [] else none
  | byte :: block =>
      if marker.isPrefixOf (byte :: block) then some ((byte :: block).drop marker.length)
      else afterMarker marker block

/-- What membership in a set raises for a value which has no hash. -/
inductive Unhashable
  | typeError
  deriving DecidableEq, Repr

/-- `payload.get("event") in _TERMINAL_EVENTS`. -/
def namesTerminal (payload : Fields) : Except Unhashable Bool :=
  match get? payload "event" with
  | some (.str name) => .ok (terminalEvents.contains name)
  | some (.arr _) | some (.obj _) => .error .typeError
  | _ => .ok false

/-- `_is_terminal_block`. -/
def isTerminalBlock (block : List UInt8) : Except Unhashable Bool :=
  match afterMarker (encode "data: ") block with
  | none => .ok false
  | some rest =>
      match loadsBytes rest with
      | some (.obj payload) => namesTerminal payload
      | _ => .ok false

/-- A line in which neither parser finds anything. -/
def Idle (line : List UInt8) : Prop := sseField line = none ∧ ¬ encode "data: " <:+: line

/-- A data line whose text both parsers read alike: plain UTF-8 with JSON white space around it at
most, an object of which, if it is one, has no `type` text besides its `event`. -/
structure Payload (text after : List UInt8) (decoded : List Nat) : Prop where
  utf8 : utf8 false text = some decoded
  encoding : detectEncoding (text ++ after) = .utf8
  stripped : strip decoded = trim isJsonSpace decoded
  untyped : ∀ payload name, loads decoded = some (.obj payload) →
    get? payload "type" ≠ some (.str name)

/-- The blocks of the wire contract, line by line. -/
inductive Conforms (block : List UInt8) : Prop
  | silent (idle : ∀ line ∈ block.splitOn 0x0a, Idle line)
  | carries (before : List (List UInt8)) (text : List UInt8) (decoded : List Nat)
      (after : List (List UInt8))
      (lines : block.splitOn 0x0a = before ++ (encode "data: " ++ text) :: after)
      (idle : ∀ line ∈ before, Idle line)
      (blank : ∀ line ∈ after, ∀ byte ∈ line, isJsonSpace byte.toNat = true)
      (payload : Payload text (after.map (0x0a :: ·)).flatten decoded)

section Bytes

theorem encode_marker : encode "data: " = [100, 97, 116, 97, 58, 32] := rfl

theorem encode_idField : encode "id: " = [105, 100, 58, 32] := rfl

theorem encode_dash : encode "-" = [45] := rfl

theorem encode_feed : encode "\n" = [0x0a] := rfl

theorem marker_ne_nil : encode "data: " ≠ [] := List.cons_ne_nil _ _

theorem feed_notIn_marker : (0x0a : UInt8) ∉ encode "data: " := by
  rw [encode_marker]
  decide

theorem codes_fields : codes ":" = [58] ∧ codes "event:" = 101 :: [118, 101, 110, 116, 58] ∧
    codes "data:" = 100 :: [97, 116, 97, 58] :=
  ⟨rfl, rfl, rfl⟩

end Bytes

section Marker

variable {marker before block rest : List UInt8}

theorem infix_of_infix_lines {line : List UInt8} {feed : UInt8} (foreign : feed ∉ marker)
    (found : marker <:+: line ++ feed :: rest) : marker <:+: line ∨ marker <:+: rest := by
  induction line with
  | nil =>
      obtain at_head | later := List.infix_cons_iff.mp found
      · cases marker with
        | nil => exact .inl List.infix_rfl
        | cons first others =>
            rw [List.cons_prefix_cons] at at_head
            exact absurd (at_head.1 ▸ List.mem_cons_self ..) foreign
      · exact .inr later
  | cons byte line induction =>
      obtain at_head | later := List.infix_cons_iff.mp found
      · left
        obtain short | long := List.prefix_or_prefix_of_prefix at_head
          (show byte :: line ++ [feed] <+: byte :: line ++ feed :: rest from
            List.prefix_append_right_inj _ |>.mpr ⟨rest, rfl⟩)
        · obtain whole | part := List.prefix_concat_iff.mp short
          · exact absurd (by simp [whole]) foreign
          · exact part.isInfix
        · exact absurd (long.subset (by simp)) foreign
      · obtain in_line | in_rest := induction later
        · exact .inl (List.infix_cons in_line)
        · exact .inr in_rest

theorem afterMarker_none (nonempty : marker ≠ []) (absent : ¬ marker <:+: block) :
    afterMarker marker block = none := by
  induction block with
  | nil => rw [afterMarker, if_neg nonempty]
  | cons byte block induction =>
      rw [afterMarker, if_neg fun at_head => absent (List.isPrefixOf_iff_prefix.mp at_head).isInfix]
      exact induction fun later => absent (List.infix_cons later)

/-- The first occurrence counts, and one of a marker whose first byte does not come back cannot
begin shortly before it. -/
theorem afterMarker_append {first : UInt8} {others : List UInt8} (fresh : first ∉ others)
    (absent : ¬ first :: others <:+: before) :
    afterMarker (first :: others) (before ++ (first :: others ++ rest)) = some rest := by
  induction before with
  | nil =>
      rw [List.nil_append, List.cons_append, afterMarker, if_pos (by simp)]
      simp
  | cons byte before induction =>
      have elsewhere : ¬ (first :: others).isPrefixOf
          (byte :: (before ++ (first :: others ++ rest))) = true := by
        intro at_head
        obtain short | long := List.prefix_or_prefix_of_prefix
          (List.isPrefixOf_iff_prefix.mp at_head)
          (List.prefix_append (byte :: before) (first :: others ++ rest))
        · exact absent short.isInfix
        · obtain ⟨remaining, split⟩ := long
          cases remaining with
          | nil =>
              rw [List.append_nil] at split
              exact absent (split ▸ List.infix_rfl)
          | cons next remaining =>
              have aligned := List.isPrefixOf_iff_prefix.mp at_head
              rw [← split, ← List.cons_append, List.prefix_append_right_inj, split,
                List.cons_append, List.cons_prefix_cons] at aligned
              rw [List.cons_append, List.cons.injEq] at split
              exact fresh (aligned.1 ▸ split.2 ▸ by simp)
      rw [List.cons_append, afterMarker, if_neg elsewhere]
      exact induction fun later => absent (List.infix_cons later)

end Marker

section Lines

variable {epoch : String} {seq : Int} {block text rest : List UInt8}
  {before after : List (List UInt8)}

theorem intercalate_around (line : List UInt8) (feed : UInt8) :
    [feed].intercalate (before ++ line :: after) =
      (before.map (· ++ [feed])).flatten ++ (line ++ (after.map (feed :: ·)).flatten) := by
  induction before with
  | nil =>
      induction after generalizing line with
      | nil => simp
      | cons next after induction =>
          have later := induction next
          rw [List.nil_append] at later ⊢
          rw [List.intercalate_cons_cons, later]
          simp
  | cons first before induction =>
      have nonempty : before ++ line :: after ≠ [] := by simp
      rw [List.cons_append, List.intercalate_cons_of_ne_nil nonempty, induction]
      simp

theorem marker_notIn_id (plain : ¬ encode "data: " <:+: encode epoch) :
    ¬ encode "data: " <:+: encode "id: " ++ encode (Broker.eventId epoch seq) := by
  intro found
  have written :
      encode (Broker.eventId epoch seq) = encode epoch ++ 45 :: encode (toString seq) := by
    rw [Broker.eventId, encode_append, encode_append, encode_dash, List.append_assoc]
    rfl
  rw [written, ← List.append_assoc] at found
  have foreign : (45 : UInt8) ∉ encode "data: " := by
    rw [encode_marker]
    decide
  obtain in_epoch | in_number := infix_of_infix_lines foreign found
  · refine plain ?_
    rw [encode_idField, encode_marker] at in_epoch
    rw [encode_marker]
    simpa [List.infix_cons_iff, List.cons_prefix_cons] using in_epoch
  · have letter : (100 : UInt8) ∈ encode (toString seq) := 
      in_number.subset (by simp [encode_marker])
    cases seq with
    | ofNat number => exact notMem_encode_repr (by decide) number letter
    | negSucc number =>
        have signed : encode (toString (Int.negSucc number)) = 45 :: encode (number + 1).repr := by
          rw [show toString (Int.negSucc number) = "-" ++ (number + 1).repr from rfl, encode_append,
            encode_dash]
          rfl
        rw [signed, List.mem_cons] at letter
        obtain minus | digit := letter
        · cases minus
        · exact notMem_encode_repr (by decide) (number + 1) digit

theorem marker_notIn_lines {line : List UInt8} (plain : ¬ encode "data: " <:+: line)
    (idle : ∀ line ∈ before, ¬ encode "data: " <:+: line) :
    ¬ encode "data: " <:+: line ++ (before.map (0x0a :: ·)).flatten := by
  induction before generalizing line with
  | nil => simpa using plain
  | cons next before induction =>
      intro found
      rw [List.map_cons, List.flatten_cons, List.cons_append] at found
      obtain here | later := infix_of_infix_lines feed_notIn_marker found
      · exact plain here
      · exact induction (idle next (List.mem_cons_self ..))
          (fun other listed => idle other (List.mem_cons_of_mem _ listed)) later

theorem isTerminalBlock_silent (plain : ¬ encode "data: " <:+: encode epoch)
    (idle : ∀ line ∈ block.splitOn 0x0a, Idle line) :
    isTerminalBlock (sseBlock epoch seq block) = .ok false := by
  have whole : sseBlock epoch seq block = encode "id: " ++ encode (Broker.eventId epoch seq) ++
      ((block.splitOn 0x0a).map (0x0a :: ·)).flatten := by
    have joined := @List.intercalate_splitOn _ block _ _ (0x0a : UInt8)
    cases lines : block.splitOn 0x0a with
    | nil => exact absurd lines (List.splitOn_ne_nil _ _)
    | cons first others =>
        have around := @intercalate_around [] others first 0x0a
        rw [lines] at joined
        rw [List.nil_append, joined] at around
        rw [sseBlock, around, encode_feed]
        simp
  have absent := marker_notIn_lines (@marker_notIn_id epoch seq plain) fun line listed =>
    (idle line listed).2
  rw [isTerminalBlock, whole, afterMarker_none marker_ne_nil absent]

/-- Behind idle lines the broker reads the data line and all that follows. -/
theorem afterMarker_sseBlock (plain : ¬ encode "data: " <:+: encode epoch)
    (lines : block.splitOn 0x0a = before ++ (encode "data: " ++ text) :: after)
    (idle : ∀ line ∈ before, Idle line) :
    afterMarker (encode "data: ") (sseBlock epoch seq block) =
      some (text ++ (after.map (0x0a :: ·)).flatten) := by
  have joined := @List.intercalate_splitOn _ block _ _ (0x0a : UInt8)
  rw [lines, intercalate_around] at joined
  have shifted : ∀ lines : List (List UInt8),
      [0x0a] ++ (lines.map (· ++ [0x0a])).flatten = (lines.map (0x0a :: ·)).flatten ++ [0x0a] := by
    intro lines
    induction lines with
    | nil => rfl
    | cons line lines induction =>
        rw [List.map_cons, List.flatten_cons, List.append_assoc, induction]
        simp
  have whole : sseBlock epoch seq block = (encode "id: " ++ encode (Broker.eventId epoch seq) ++
      (before.map (0x0a :: ·)).flatten ++ [0x0a]) ++
      (encode "data: " ++ (text ++ (after.map (0x0a :: ·)).flatten)) := by
    rw [sseBlock, ← joined, encode_feed,
      List.append_assoc (encode "id: " ++ encode (Broker.eventId epoch seq)) _ [0x0a], ← shifted]
    simp
  have absent : ¬ encode "data: " <:+: encode "id: " ++ encode (Broker.eventId epoch seq) ++
      (before.map (0x0a :: ·)).flatten ++ [0x0a] := by
    intro found
    obtain here | later := infix_of_infix_lines feed_notIn_marker found
    · exact marker_notIn_lines (marker_notIn_id plain)
        (fun line listed => (idle line listed).2) here
    · simp [encode_marker] at later
  rw [whole]
  rw [encode_marker] at absent ⊢
  exact afterMarker_append (by decide) absent

end Lines

section Reader

variable {block text : List UInt8} {decoded : List Nat} {before after : List (List UInt8)}

theorem foldl_take_idle {fields : SseFields} {lines : List (List UInt8)}
    (idle : ∀ line ∈ lines, sseField line = none) :
    (lines.map sseField).foldl SseFields.take fields = fields := by
  induction lines with
  | nil => rfl
  | cons line lines induction =>
      rw [List.map_cons, List.foldl_cons, idle line (List.mem_cons_self ..)]
      exact induction fun other listed => idle other (List.mem_cons_of_mem _ listed)

theorem ascii_of_space {byte : UInt8} (space : isJsonSpace byte.toNat = true) :
    byte.toNat < 0x80 := by
  simp [isJsonSpace] at space
  omega

theorem sseField_low {line : List UInt8} (low : ∀ byte ∈ line, byte.toNat < 58) :
    sseField line = none := by
  rw [sseField, utf8_ascii fun byte listed => (low byte listed).trans (by decide)]
  cases line with
  | nil => rfl
  | cons byte line =>
      have small := low byte (List.mem_cons_self ..)
      have other : 58 ≠ byte.toNat ∧ 101 ≠ byte.toNat ∧ 100 ≠ byte.toNat := by omega
      simp [codes_fields, List.isPrefixOf, other]

theorem sseField_blank {line : List UInt8} (blank : ∀ byte ∈ line, isJsonSpace byte.toNat = true) :
    sseField line = none := by
  refine sseField_low fun byte listed => ?_
  have space := blank byte listed
  simp [isJsonSpace] at space
  omega

theorem sseField_data (utf8 : utf8 false text = some decoded) :
    sseField (encode "data: " ++ text) = some (.data (strip decoded)) := by
  have ascii : ∀ byte ∈ encode "data: ", byte.toNat < 0x80 := by simp [encode_marker]
  have skipped : "data:".length = 5 := rfl
  rw [sseField, utf8_append (utf8_ascii ascii) utf8, encode_marker]
  simp [codes_fields, List.isPrefixOf, strip, trim, skipped, show isSpace 32 = true from rfl]

theorem parseSseBlock_carries
    (lines : block.splitOn 0x0a = before ++ (encode "data: " ++ text) :: after)
    (idle : ∀ line ∈ before, Idle line)
    (blank : ∀ line ∈ after, ∀ byte ∈ line, isJsonSpace byte.toNat = true)
    (utf8 : utf8 false text = some decoded) :
    parseSseBlock block = ⟨none, decodeData [strip decoded]⟩ := by
  rw [parseSseBlock, lines, List.map_append, List.foldl_append,
    foldl_take_idle fun line listed => (idle line listed).1, List.map_cons, List.foldl_cons,
    foldl_take_idle fun line listed => sseField_blank (blank line listed), sseField_data utf8]
  rfl

theorem decodeData_text (stripped : strip decoded = trim isJsonSpace decoded) :
    decodeData [strip decoded] =
      match loads decoded with
      | some (.obj fields) => fields
      | _ => [] := by
  rw [decodeData, if_neg (List.cons_ne_nil _ _), List.intercalate_singleton, stripped, loads_trim]

end Reader

section Agreement

variable {payload : Fields}

theorem eventName_untyped (untyped : ∀ name, get? payload "type" ≠ some (.str name)) :
    isTerminalEvent ⟨none, payload⟩ = true ↔ namesTerminal payload = .ok true := by
  have name : eventName ⟨none, payload⟩ = firstString payload ["event"] := by
    rw [eventName, firstString, List.findSome?_cons]
    cases typed : get? payload "type" with
    | none => rfl
    | some value =>
        cases value with
        | str name => exact absurd typed (untyped name)
        | _ => rfl
  rw [isTerminalEvent, name, firstString, List.findSome?_cons, List.findSome?_nil, namesTerminal]
  cases get? payload "event" with
  | none => simp
  | some value => cases value <;> simp

/-- The broker and the reader agree on the end of a run, for every block of the wire contract. -/
theorem terminal_agreement (epoch : String) (seq : Int) (raw : List UInt8)
    (plain : ¬ encode "data: " <:+: encode epoch) (conforms : Conforms raw) :
    isTerminalBlock (sseBlock epoch seq raw) = .ok true ↔
      isTerminalEvent (parseSseBlock raw) = true := by
  cases conforms with
  | silent idle =>
      rw [isTerminalBlock_silent plain idle, parseSseBlock,
        foldl_take_idle fun line listed => (idle line listed).1]
      simp [isTerminalEvent, eventName, firstString, decodeData, get?]
  | carries before text decoded after lines idle blank payload =>
      have ascii : ∀ byte ∈ (after.map (0x0a :: ·)).flatten, isJsonSpace byte.toNat = true := by
        intro byte listed
        obtain ⟨line, line_listed, member⟩ := List.mem_flatten.mp listed
        obtain ⟨original, original_listed, rfl⟩ := List.mem_map.mp line_listed
        obtain rfl | within := List.mem_cons.mp member
        · decide
        · exact blank original original_listed byte within
      have read : decodeBytes (text ++ (after.map (0x0a :: ·)).flatten) =
          some (decoded ++ (after.map (0x0a :: ·)).flatten.map UInt8.toNat) := by
        rw [decodeBytes, payload.encoding]
        exact utf8_append (utf8_surrogates payload.utf8)
          (utf8_ascii fun byte listed => ascii_of_space (ascii byte listed))
      have loaded : loadsBytes (text ++ (after.map (0x0a :: ·)).flatten) = loads decoded := by
        rw [loadsBytes, read]
        refine loads_append_space decoded fun code listed => ?_
        obtain ⟨byte, byte_listed, rfl⟩ := List.mem_map.mp listed
        exact ascii byte byte_listed
      rw [isTerminalBlock, afterMarker_sseBlock plain lines idle,
        parseSseBlock_carries lines idle blank payload.utf8, decodeData_text payload.stripped]
      simp only [loaded]
      cases outcome : loads decoded with
      | none => simp [isTerminalEvent, eventName, firstString, get?]
      | some value =>
          cases value with
          | obj fields =>
              exact (eventName_untyped fun name => payload.untyped fields name outcome).symm
          | _ => simp [isTerminalEvent, eventName, firstString, get?]

/-- A block as the runtime sends it, seen as the end by both. -/
theorem completed_agreed :
    isTerminalBlock (sseBlock "5f" 7 (encode "data: \x7b\"event\": \"run.completed\"\x7d\n\n")) =
        .ok true ∧
      isTerminalEvent
        (parseSseBlock (encode "data: \x7b\"event\": \"run.completed\"\x7d\n\n")) = true := by
  have ends : isTerminalEvent
      (parseSseBlock (encode "data: \x7b\"event\": \"run.completed\"\x7d\n\n")) = true := by
    decide +kernel
  refine ⟨(terminal_agreement "5f" 7 _ (by decide +kernel) (.carries []
    (encode "\x7b\"event\": \"run.completed\"\x7d")
    (codes "\x7b\"event\": \"run.completed\"\x7d") [[], []] (by decide +kernel)
    (List.forall_mem_nil _) (by decide +kernel)
    ⟨by decide +kernel, by decide +kernel, by decide +kernel, ?_⟩)).mpr ends, ends⟩
  intro payload name loaded typed
  have named : (get? (decodeData [codes "\x7b\"event\": \"run.completed\"\x7d"]) "type").isNone =
      true := by
    decide +kernel
  rw [decodeData, if_neg (List.cons_ne_nil _ _), List.intercalate_singleton, loaded] at named
  simp [typed] at named

/-- A name in the `event:` header ends the run for the reader and not for the broker. -/
theorem header_unseen :
    ¬ ∀ (epoch : String) (seq : Int) (raw : List UInt8),
      isTerminalBlock (sseBlock epoch seq raw) = .ok true ↔
        isTerminalEvent (parseSseBlock raw) = true := by
  intro agree
  have ends : isTerminalEvent (parseSseBlock (encode "event: run.completed\ndata: \x7b\x7d\n\n")) =
      true := by
    decide +kernel
  have seen := (agree "5f" 7 (encode "event: run.completed\ndata: \x7b\x7d\n\n")).mpr ends
  revert seen
  decide +kernel

end Agreement

end Hermes.AgentProxy
