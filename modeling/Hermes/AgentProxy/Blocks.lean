import Hermes.AgentProxy.Terminal
import Hermes.Library.Splitting

/-!
# The blocks of an event stream

The reader collects what comes in, yields a block for every blank line and, at the end, what is left
unless that is white space.  Billing and the bytes sent on rest on the same split, wherever the
transport has cut the stream.  One thing stops the reader: a payload which is nested deeper than the
JSON decoder goes, for the `RecursionError` is no `ValueError` and nothing catches it.
-/

namespace Hermes.AgentProxy

open Encoding JsonDecoder Splitting

/-- A parsed event whose payload keeps the code points of its texts. -/
structure ParsedEvent where
  name : Option String
  data : List (List Nat × Parsed)

/-- The event as the readers of its fields see it. -/
def ParsedEvent.event (parsed : ParsedEvent) : SseEvent :=
  ⟨parsed.name, Parsed.fieldsToJson parsed.data⟩

/-- The decoded object of some data lines; `none` is a `RecursionError`. -/
def decodeDataWithin (depth : Nat) (dataLines : List (List Nat)) :
    Option (List (List Nat × Parsed)) :=
  if dataLines = [] then some []
  else
    match loadsWithin depth ((codes "\n").intercalate dataLines) with
    | .ok (.obj fields) => some fields
    | .ok _ => some []
    | .error .value => some []
    | .error .recursion => none

/-- `_parse_sse_block`, where the decoder may go down `depth` containers. -/
def parseSseBlockWithin (depth : Nat) (block : List UInt8) : Option ParsedEvent :=
  let fields := ((block.splitOn 0x0a).map sseField).foldl SseFields.take {}
  (decodeDataWithin depth fields.dataLines).map fun data => ⟨fields.name, data⟩

theorem parseSseBlock_of_within {depth : Nat} {block : List UInt8} {parsed : ParsedEvent}
    (read : parseSseBlockWithin depth block = some parsed) :
    parseSseBlock block = parsed.event := by
  obtain ⟨data, decoded, rfl⟩ := Option.map_eq_some_iff.mp read
  rw [parseSseBlock, ParsedEvent.event, decodeData]
  congr 1
  rw [decodeDataWithin] at decoded
  split at decoded
  case isTrue empty =>
      cases decoded
      rw [if_pos empty]
      rfl
  case isFalse nonempty =>
      rw [if_neg nonempty]
      split at decoded
      case h_1 fields loaded =>
          cases decoded
          rw [loads_of_loadsWithin loaded (by simp)]
          rfl
      case h_2 value other loaded =>
          cases decoded
          rw [loads_of_loadsWithin loaded (by simp)]
          cases value with
          | obj fields => exact absurd rfl (other fields)
          | null | bool | int | float | str | arr => rfl
      case h_3 loaded =>
          cases decoded
          rw [loads_of_loadsWithin loaded (by simp)]
          rfl
      case h_4 => cases decoded

def blankLine : List UInt8 := [0x0a, 0x0a]

theorem blankLine_ne_nil : blankLine ≠ [] := List.cons_ne_nil _ _

/-- The white space of `bytes.strip`. -/
def isByteSpace (byte : UInt8) : Bool :=
  byte.toNat == 0x20 || (decide (0x09 ≤ byte.toNat) && decide (byte.toNat ≤ 0x0d))

/-- `bytes.strip`. -/
def stripBytes (bytes : List UInt8) : List UInt8 :=
  (bytes.dropWhile isByteSpace).rdropWhile isByteSpace

/-- What a reader has yielded, and whether it has raised. -/
structure Reading where
  yielded : List (ParsedEvent × List UInt8) := []
  raised : Bool := false

variable (depth : Nat)

/-- Yield one block after the other until one raises. -/
def yieldBlocks : List (List UInt8) → Reading
  | [] => {}
  | block :: later =>
      match parseSseBlockWithin depth block with
      | none => { raised := true }
      | some event =>
          let rest := yieldBlocks later
          { rest with yielded := (event, block ++ blankLine) :: rest.yielded }

/-- The reader within the stream; one which has raised is gone. -/
structure BlockReader where
  buffer : List UInt8 := []
  reading : Reading := {}

def BlockReader.feed (reader : BlockReader) (chunk : List UInt8) : BlockReader :=
  if reader.reading.raised then reader
  else
    let split := pieces blankLine blankLine_ne_nil (reader.buffer ++ chunk)
    let read := yieldBlocks depth split.1
    ⟨if read.raised then [] else split.2, ⟨reader.reading.yielded ++ read.yielded, read.raised⟩⟩

def BlockReader.finish (reader : BlockReader) : Reading :=
  if reader.reading.raised || stripBytes reader.buffer == [] then reader.reading
  else
    match parseSseBlockWithin depth reader.buffer with
    | none => { reader.reading with raised := true }
    | some event =>
        { reader.reading with yielded := reader.reading.yielded ++ [(event, reader.buffer)] }

/-- `_iter_sse_blocks`: what is yielded for the chunks of a stream. -/
def iterSseBlocks (chunks : List (List UInt8)) : Reading :=
  (chunks.foldl (BlockReader.feed depth) {}).finish depth

section Chunks

variable {depth} (reader : BlockReader) (chunk further : List UInt8)

theorem yieldBlocks_append (blocks later : List (List UInt8)) :
    yieldBlocks depth (blocks ++ later) =
      if (yieldBlocks depth blocks).raised then yieldBlocks depth blocks
      else ⟨(yieldBlocks depth blocks).yielded ++ (yieldBlocks depth later).yielded,
        (yieldBlocks depth later).raised⟩ := by
  induction blocks with
  | nil => rfl
  | cons block blocks induction =>
      rw [List.cons_append, yieldBlocks, yieldBlocks]
      cases parseSseBlockWithin depth block with
      | none => rfl
      | some event =>
          simp only [induction]
          split <;> rfl

theorem feed_append :
    (reader.feed depth chunk).feed depth further = reader.feed depth (chunk ++ further) := by
  have split := @pieces_append _ _ blankLine blankLine_ne_nil (reader.buffer ++ chunk) further
  rw [List.append_assoc] at split
  cases gone : reader.reading.raised with
  | true => simp only [BlockReader.feed, gone, if_true]
  | false =>
      simp only [BlockReader.feed, gone, split, yieldBlocks_append, Bool.false_eq_true, if_false]
      cases raised : (yieldBlocks depth
          (pieces blankLine blankLine_ne_nil (reader.buffer ++ chunk)).1).raised with
      | true => simp [raised]
      | false => simp [List.append_assoc]

theorem foldl_feed (chunks : List (List UInt8)) :
    chunks.foldl (BlockReader.feed depth) (reader.feed depth chunk) =
      reader.feed depth (chunk ++ chunks.flatten) := by
  induction chunks generalizing chunk with
  | nil => rw [List.flatten_nil, List.append_nil, List.foldl_nil]
  | cons next chunks induction =>
      rw [List.foldl_cons, feed_append, induction, List.append_assoc, List.flatten_cons]

theorem feed_nil : BlockReader.feed depth {} [] = {} := by
  have nothing : pieces blankLine blankLine_ne_nil ([] : List UInt8) = ([], []) :=
    pieces_of_none rfl
  simp only [BlockReader.feed, List.append_nil, nothing]
  rfl

theorem iterSseBlocks_flatten (chunks : List (List UInt8)) :
    iterSseBlocks depth chunks = iterSseBlocks depth [chunks.flatten] := by
  have read := @foldl_feed depth {} [] chunks
  rw [feed_nil, List.nil_append] at read
  rw [iterSseBlocks, read]
  rfl

end Chunks

/-- The blocks of a stream, the unterminated one among them. -/
def streamBlocks (stream : List UInt8) : List (List UInt8) :=
  let split := pieces blankLine blankLine_ne_nil stream
  split.1 ++ if stripBytes split.2 == [] then [] else [split.2]

/-- What is asked of the reader for one way to cut a stream. -/
structure ChunkLaw (chunks : List (List UInt8)) : Prop where
  /-- The blocks are those of the stream in one piece. -/
  canonical : iterSseBlocks depth chunks = iterSseBlocks depth [chunks.flatten]
  /-- Their bytes are the stream but for a tail of white space. -/
  verbatim : ∃ tail, (∀ byte ∈ tail, isByteSpace byte = true) ∧
    ((iterSseBlocks depth chunks).yielded.map (·.2)).flatten ++ tail = chunks.flatten

section Cover

variable {depth} {bytes block : List UInt8}

theorem stripBytes_eq_nil :
    stripBytes bytes = [] ↔ ∀ byte ∈ bytes, isByteSpace byte = true := by
  rw [stripBytes, List.rdropWhile_eq_nil_iff]
  constructor
  · intro stripped
    have nothing : bytes.dropWhile isByteSpace = [] := by
      cases kept : bytes.dropWhile isByteSpace with
      | nil => rfl
      | cons first later =>
          have nonempty : bytes.dropWhile isByteSpace ≠ [] := by simp [kept]
          have solid := List.head_dropWhile_not isByteSpace nonempty
          simp only [kept, List.head_cons] at solid
          rw [kept] at stripped
          rw [stripped first List.mem_cons_self] at solid
          cases solid
    exact List.dropWhile_eq_nil_iff.mp nothing
  · intro blank byte listed
    exact blank byte (List.dropWhile_sublist _ |>.subset listed)

theorem parseSseBlockWithin_space (blank : ∀ byte ∈ block, isByteSpace byte = true) :
    (parseSseBlockWithin depth block).isSome = true := by
  have idle : ∀ line ∈ block.splitOn 0x0a, sseField line = none := by
    intro line listed
    refine sseField_low fun byte within => ?_
    obtain ⟨before, after, lines⟩ := List.append_of_mem listed
    have joined := @List.intercalate_splitOn _ block _ _ (0x0a : UInt8)
    rw [lines, intercalate_around] at joined
    have space := blank byte (joined ▸ by simp [within])
    simp only [isByteSpace, Bool.or_eq_true, beq_iff_eq, Bool.and_eq_true, decide_eq_true_eq]
      at space
    omega
  rw [parseSseBlockWithin, foldl_take_idle idle]
  rfl

theorem yieldBlocks_cases (blocks : List (List UInt8)) :
    ((∀ block ∈ blocks, (parseSseBlockWithin depth block).isSome = true) ∧
        (yieldBlocks depth blocks).raised = false ∧
        (yieldBlocks depth blocks).yielded.map (·.2) = blocks.map (· ++ blankLine)) ∨
      ∃ before block after, blocks = before ++ block :: after ∧
        parseSseBlockWithin depth block = none ∧ (yieldBlocks depth blocks).raised = true ∧
        (yieldBlocks depth blocks).yielded.map (·.2) = before.map (· ++ blankLine) := by
  induction blocks with
  | nil => exact .inl ⟨by simp, rfl, rfl⟩
  | cons block blocks induction =>
      rw [yieldBlocks]
      cases parsed : parseSseBlockWithin depth block with
      | none => exact .inr ⟨[], block, blocks, rfl, parsed, rfl, rfl⟩
      | some event =>
          rcases induction with
            ⟨sound, raised, yielded⟩ | ⟨before, other, after, rfl, raises, raised, yielded⟩
          · refine .inl ⟨?_, raised, congrArg ((block ++ blankLine) :: ·) yielded⟩
            rw [List.forall_mem_cons, parsed]
            exact ⟨rfl, sound⟩
          · exact .inr ⟨block :: before, other, after, rfl, raises, raised,
              congrArg ((block ++ blankLine) :: ·) yielded⟩

theorem not_blank_of_raises {tail rest : List UInt8}
    (raises : parseSseBlockWithin depth block = none) (whole : tail = block ++ rest) :
    ¬ ∀ byte ∈ tail, isByteSpace byte = true := by
  intro blank
  have sound := @parseSseBlockWithin_space depth block fun byte listed =>
    blank byte (whole ▸ List.mem_append_left rest listed)
  rw [raises] at sound
  cases sound

/-- What is yielded for a stream in one piece: the complete blocks, and the end if it is reached. -/
theorem yielded_iterSseBlocks (stream : List UInt8) :
    (iterSseBlocks depth [stream]).yielded =
      (yieldBlocks depth (pieces blankLine blankLine_ne_nil stream).1).yielded ++
        (if (yieldBlocks depth (pieces blankLine blankLine_ne_nil stream).1).raised ||
            stripBytes (pieces blankLine blankLine_ne_nil stream).2 == [] then []
          else ((parseSseBlockWithin depth (pieces blankLine blankLine_ne_nil stream).2).map
            fun event => (event, (pieces blankLine blankLine_ne_nil stream).2)).toList) := by
  simp only [iterSseBlocks, List.foldl_cons, List.foldl_nil, BlockReader.feed, List.nil_append,
    Bool.false_eq_true, if_false]
  cases raised : (yieldBlocks depth (pieces blankLine blankLine_ne_nil stream).1).raised with
  | true => simp [BlockReader.finish]
  | false =>
      simp only [BlockReader.finish, Bool.false_or, Bool.false_eq_true, if_false]
      split
      case isTrue => simp
      case isFalse =>
          cases parseSseBlockWithin depth (pieces blankLine blankLine_ne_nil stream).2 <;> simp

end Cover

/-- For every stream and every way to cut it: the blocks do not depend on the cuts and hold the
stream verbatim, exactly where the payload of no block is nested too deep for the decoder. -/
theorem iterSseBlocks_lawful_iff (chunks : List (List UInt8)) :
    ChunkLaw depth chunks ↔ ∀ block ∈ streamBlocks chunks.flatten,
      (parseSseBlockWithin depth block).isSome = true := by
  have canonical := @iterSseBlocks_flatten depth chunks
  have whole := @flatten_pieces _ _ blankLine blankLine_ne_nil chunks.flatten
  have yielded := @yielded_iterSseBlocks depth chunks.flatten
  have law : ChunkLaw depth chunks ↔ ∃ tail, (∀ byte ∈ tail, isByteSpace byte = true) ∧
      ((iterSseBlocks depth [chunks.flatten]).yielded.map (·.2)).flatten ++ tail =
        chunks.flatten :=
    ⟨fun law => canonical ▸ law.verbatim, fun verbatim => ⟨canonical, canonical.symm ▸ verbatim⟩⟩
  rw [law, yielded, streamBlocks, List.map_append, List.flatten_append]
  rcases @yieldBlocks_cases depth (pieces blankLine blankLine_ne_nil chunks.flatten).1 with
    ⟨sound, raised, complete⟩ | ⟨before, block, after, blocks, raises, raised, complete⟩
  · simp only [raised, Bool.false_or, complete, List.forall_mem_append]
    split
    case isTrue blank =>
        have spaces := stripBytes_eq_nil.mp (beq_iff_eq.mp blank)
        refine iff_of_true ⟨_, spaces, ?_⟩ ⟨sound, List.forall_mem_nil _⟩
        simpa using whole
    case isFalse solid =>
        rw [List.forall_mem_singleton]
        cases parsed : parseSseBlockWithin depth (pieces blankLine blankLine_ne_nil
            chunks.flatten).2 with
        | some event =>
            refine iff_of_true ⟨[], List.forall_mem_nil _, ?_⟩ ⟨sound, rfl⟩
            simpa using whole
        | none =>
            refine iff_of_false ?_ (by simp)
            rintro ⟨tail, blank, covered⟩
            simp only [Option.map_none, Option.toList_none, List.map_nil, List.flatten_nil,
              List.append_nil] at covered
            have left := List.append_cancel_left (covered.trans whole.symm)
            exact not_blank_of_raises parsed (left.trans (List.append_nil _).symm) blank
  · rw [raised, Bool.true_or, if_pos rfl, complete]
    refine iff_of_false ?_ ?_
    · rintro ⟨tail, blank, covered⟩
      rw [blocks] at whole
      simp only [List.map_append, List.flatten_append, List.map_cons, List.flatten_cons,
        List.map_nil, List.flatten_nil, List.append_nil, List.append_assoc] at covered whole
      exact not_blank_of_raises raises (List.append_cancel_left (covered.trans whole.symm)) blank
    · intro sound
      have raises_not := sound block (List.mem_append_left _ (by simp [blocks]))
      rw [raises] at raises_not
      cases raises_not

/-- A payload of nested arrays, one deeper than the decoder goes. -/
def nestedBlock (depth : Nat) : List UInt8 := encode "data: " ++ List.replicate (depth + 1) 0x5b

theorem feed_notMem_nestedBlock : (0x0a : UInt8) ∉ nestedBlock depth := by
  have spelled : encode "data: " = [100, 97, 116, 97, 58, 32] := by decide
  simp [nestedBlock, spelled]

theorem parseSseBlockWithin_nested : parseSseBlockWithin depth (nestedBlock depth) = none := by
  have lines : (nestedBlock depth).splitOn 0x0a = [nestedBlock depth] :=
    List.splitOn_eq_singleton (feed_notMem_nestedBlock depth)
  have ascii : ∀ byte ∈ List.replicate (depth + 1) (0x5b : UInt8), byte.toNat < 0x80 := by
    intro byte listed
    rw [List.eq_of_mem_replicate listed]
    decide
  have read : utf8 false (List.replicate (depth + 1) 0x5b) =
      some (List.replicate (depth + 1) '['.toNat) := by
    rw [utf8_ascii ascii, List.map_replicate]
    rfl
  have field : sseField (nestedBlock depth) =
      some (.data (List.replicate (depth + 1) '['.toNat)) := by
    rw [nestedBlock, sseField_data read, strip, trim_replicate (by decide)]
  have raised : loadsWithin depth (List.replicate (depth + 1) '['.toNat) = .error .recursion := by
    rw [loadsWithin, trim_replicate (by decide), scanOnce_nested]
    rw [List.length_replicate]
    omega
  rw [parseSseBlockWithin, lines]
  simp only [List.map_cons, List.map_nil, List.foldl_cons, List.foldl_nil, field, SseFields.take,
    List.nil_append, decodeDataWithin, List.cons_ne_nil, if_false, List.intercalate_singleton,
    raised, Option.map_none]

/-- However deep the decoder goes, there is a stream of which nothing is yielded. -/
theorem nested_payload_lost :
    ¬ ∃ depth, ∀ chunks : List (List UInt8), ChunkLaw depth chunks := by
  rintro ⟨depth, law⟩
  obtain ⟨tail, blank, covered⟩ := (law [nestedBlock depth]).verbatim
  have spelled : encode "data: " = [100, 97, 116, 97, 58, 32] := by decide
  have unsplit : pieces blankLine blankLine_ne_nil (nestedBlock depth) = ([], nestedBlock depth) :=
    pieces_of_none (splitOnce_of_notMem (feed_notMem_nestedBlock depth))
  have nothing : (iterSseBlocks depth [nestedBlock depth]).yielded = [] := by
    rw [yielded_iterSseBlocks, unsplit, parseSseBlockWithin_nested]
    simp [yieldBlocks]
  rw [nothing, List.flatten_singleton] at covered
  have first : (100 : UInt8) ∈ tail := by
    have head : (100 : UInt8) ∈ nestedBlock depth := by simp [nestedBlock, spelled]
    simpa [← covered] using head
  exact absurd (blank 100 first) (by decide)

end Hermes.AgentProxy
