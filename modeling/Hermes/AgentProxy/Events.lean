import Hermes.Json

/-!
# Upstream events and what is read off them

A parsed event block is a name and a decoded JSON object of unknown shape.  The readers below probe
the carriers a value has been seen under; only a float which is no number makes one of them raise.
-/

namespace Hermes.AgentProxy

open Json (get?)

/-- Exceptions of the Python builtins used by the readers. -/
inductive PyError
  | valueError
  | overflowError
  deriving DecidableEq, Repr

abbrev Fields := List (String × Json)

/-- `_SseEvent`: the optional `event:` name and the decoded `data:` object. -/
structure SseEvent where
  name : Option String
  data : Fields

/-- The first of some keys which holds a string. -/
def firstString (fields : Fields) (keys : List String) : Option String :=
  keys.findSome? fun key =>
    match get? fields key with
    | some (.str value) => some value
    | _ => none

/-- `_event_name`: the `event:` field unless it is empty, else a `type` or `event` data field. -/
def eventName (event : SseEvent) : Option String :=
  match event.name with
  | some name => if name ≠ "" then some name else firstString event.data ["type", "event"]
  | none => firstString event.data ["type", "event"]

/-- The event names which `process_event` tells apart. -/
inductive EventKind
  | messageDelta
  | tool
  | approvalRequest
  | usageDelta
  | runFailed
  | runCompleted
  | other
  deriving DecidableEq, Repr

/-- The branch of `process_event` an event takes. -/
def eventKind (event : SseEvent) : EventKind :=
  match eventName event with
  | none => .other
  | some name =>
      if name = "message.delta" then .messageDelta
      else if "tool.".toList.isPrefixOf name.toList then .tool
      else if name = "approval.request" then .approvalRequest
      else if name = "usage.delta" then .usageDelta
      else if name = "run.failed" then .runFailed
      else if name = "run.completed" then .runCompleted
      else .other

/-- `int(value)` on a float truncates towards zero and raises on what is no number. -/
def floatToInt : PyFloat → Except PyError Int
  | .finite value => .ok (value.num.tdiv value.den)
  | .nan => .error .valueError
  | .infinite _ => .error .overflowError

/-- `_as_int_or_none`. -/
def asIntOrNone : Option Json → Except PyError (Option Int)
  | some (.int value) => .ok (some value)
  | some (.float value) => some <$> floatToInt value
  | _ => .ok none

/-- `_as_int`. -/
def asInt (value : Option Json) : Except PyError Int :=
  (·.getD 0) <$> asIntOrNone value

/-- `_extract_model`. -/
def extractModel (event : SseEvent) : Option String :=
  match get? event.data "model" with
  | some (.str model) => some model
  | _ => none

/-- The string under one key, unless it is empty. -/
def textUnder (fields : Fields) (key : String) : Option String :=
  match get? fields key with
  | some (.str value) => if value ≠ "" then some value else none
  | _ => none

/-- `_as_event_text`: a bare string or a wrapper which carries one. -/
def asEventText : Option Json → Option String
  | some (.str value) => if value ≠ "" then some value else none
  | some (.obj fields) => ["text", "content", "value"].findSome? (textUnder fields)
  | _ => none

/-- `_extract_delta_text`. -/
def extractDeltaText (event : SseEvent) : String :=
  (["text", "delta", "content"].findSome? fun key => asEventText (get? event.data key)).getD ""

/-- `_extract_tool_name`: an identifier or a wrapper which names one. -/
def extractToolName (event : SseEvent) : Option String :=
  ["tool", "tool_name", "name"].findSome? fun key =>
    match get? event.data key with
    | some (.str value) => if value ≠ "" then some value else none
    | some (.obj fields) => ["name", "tool", "tool_name"].findSome? (textUnder fields)
    | _ => none

/-- `_extract_approval_preview`. -/
def extractApprovalPreview (event : SseEvent) : Option String :=
  ["preview", "description", "summary"].findSome? fun key => asEventText (get? event.data key)

/-- `_UsageCounts`. -/
structure UsageCounts where
  inputTokens : Int
  outputTokens : Int
  totalTokens : Int
  recognised : Bool
  halfRead : Bool := false
  sources : List String := []
  divergent : Bool := false
  nonMonotonic : Bool := false
  deriving DecidableEq, Repr

/-- One entry of `_USAGE_FIELD_SETS`. -/
structure FieldSet where
  label : String
  inputKey : String
  outputKey : String
  totalKey : String

/-- `_USAGE_FIELD_SETS`, the cumulative counters first. -/
def usageFieldSets : List FieldSet :=
  [⟨"cumulative", "cumulative_input_tokens", "cumulative_output_tokens",
      "cumulative_total_tokens"⟩,
    ⟨"per_step", "input_tokens", "output_tokens", "total_tokens"⟩]

/-- A place in an event where counts may be carried. -/
structure Carrier where
  label : String
  source : Fields

/-- The carriers of an event: a nested `usage` object and the top level. -/
def usageCarriers (event : SseEvent) : List Carrier :=
  (match get? event.data "usage" with
    | some (.obj fields) => [⟨"usage", fields⟩]
    | _ => []) ++ [⟨"top", event.data⟩]

/-- A carrier which holds both counts of a field set. -/
structure FullMatch where
  fieldSet : String
  label : String
  inputTokens : Int
  outputTokens : Int
  totalTokens : Int

structure UsageProbe where
  full : List FullMatch := []
  fallback : Option UsageCounts := none

def UsageProbe.look (probe : UsageProbe) (fieldSet : FieldSet) (carrier : Carrier) :
    Except PyError UsageProbe := do
  let inputTokens ← asIntOrNone (get? carrier.source fieldSet.inputKey)
  let outputTokens ← asIntOrNone (get? carrier.source fieldSet.outputKey)
  let label := carrier.label ++ "." ++ fieldSet.label
  match inputTokens, outputTokens with
  | none, none => return probe
  | some inputTokens, some outputTokens =>
      let totalTokens ← asInt (get? carrier.source fieldSet.totalKey)
      return { probe with
        full := probe.full ++ [⟨fieldSet.label, label, inputTokens, outputTokens, totalTokens⟩] }
  | _, _ =>
      match probe.fallback with
      | some _ => return probe
      | none =>
          let totalTokens ← asInt (get? carrier.source fieldSet.totalKey)
          return { probe with
            fallback := some ⟨inputTokens.getD 0, outputTokens.getD 0, totalTokens, true, true,
              [label], false, false⟩ }

/-- The largest of some numbers, of which there is at least one. -/
def largest (first : Int) (others : List Int) : Int := others.foldl max first

/-- The pairs of counts reported under one field set. -/
def countsUnder (full : List FullMatch) (fieldSet : String) : List (Int × Int) :=
  (full.filter fun found => found.fieldSet == fieldSet).map fun found =>
    (found.inputTokens, found.outputTokens)

/-- Some per-step count exceeds every cumulative one. -/
def exceedsCumulative (perStep cumulative : List (Int × Int)) : Bool :=
  match perStep, cumulative with
  | step :: steps, total :: totals =>
      decide (largest total.1 (totals.map (·.1)) < largest step.1 (steps.map (·.1))) ||
        decide (largest total.2 (totals.map (·.2)) < largest step.2 (steps.map (·.2)))
  | _, _ => false

/-- Two carriers report different counts under one field set. -/
def disagree (pairs : List (Int × Int)) : Bool :=
  match pairs with
  | [] => false
  | pair :: others => others.any (· ≠ pair)

/-- `_extract_usage_counts`: the element-wise maximum of all full matches, else the first half
match, else zeros which stand for an unrecognised shape. -/
def extractUsageCounts (event : SseEvent) : Except PyError UsageCounts := do
  let probes := usageFieldSets.flatMap fun fieldSet =>
    (usageCarriers event).map fun carrier => (fieldSet, carrier)
  let probe ← probes.foldlM (fun probe place => probe.look place.1 place.2) ({} : UsageProbe)
  match probe.full with
  | first :: others =>
      let cumulative := countsUnder probe.full "cumulative"
      let perStep := countsUnder probe.full "per_step"
      return {
        inputTokens := largest first.inputTokens (others.map (·.inputTokens))
        outputTokens := largest first.outputTokens (others.map (·.outputTokens))
        totalTokens := largest first.totalTokens (others.map (·.totalTokens))
        recognised := true
        sources := probe.full.map (·.label)
        divergent := disagree cumulative || disagree perStep
        nonMonotonic := exceedsCumulative perStep cumulative }
  | [] => return probe.fallback.getD ⟨0, 0, 0, false, false, [], false, false⟩

end Hermes.AgentProxy
