import Hermes.AgentProxy.Events
import Mathlib.Data.List.Infix
import Mathlib.Order.Bounds.Basic
import Mathlib.Order.MinMax

/-!
# The counts of an event and the gate behind them

Every carrier and field set which gives both counts goes into one maximum; the first half match is
kept for the case that there is none.  Where zero is billed, a walk over the names in the event
says whether it could have carried usage at all.  The walk covers the reader: what it lets pass as
free is unrecognised.
-/

namespace Hermes

/-- No number in a value is `NaN` or infinite. -/
inductive Json.Finite : Json → Prop
  | null : Finite .null
  | bool (value : Bool) : Finite (.bool value)
  | int (value : Int) : Finite (.int value)
  | float (value : ℚ) : Finite (.float (.finite value))
  | str (value : String) : Finite (.str value)
  | arr (items : List Json) (each : ∀ item ∈ items, Finite item) : Finite (.arr items)
  | obj (fields : List (String × Json)) (each : ∀ field ∈ fields, Finite field.2) :
      Finite (.obj fields)

namespace AgentProxy

open Json (get?)

/-- `str.lower` of one character.  Of the letters outside ASCII these two alone have letters of
ASCII in their lower case, so the others may stand for themselves in front of an ASCII marker. -/
def lowerChar (char : Char) : List Char :=
  if char.toNat = 0x212a then ['k']
  else if char.toNat = 0x130 then ['i', Char.ofNat 0x307]
  else [char.toLower]

/-- `marker in key.lower()`. -/
def mentions (marker : String) (key : String) : Bool :=
  decide (marker.toList <:+: key.toList.flatMap lowerChar)

/-- `_is_empty_value`. -/
def isEmptyValue : Json → Bool
  | .null => true
  | .str text => text == ""
  | .arr items => items.isEmpty
  | .obj fields => fields.isEmpty
  | _ => false

/-- `_mentions_usage`. -/
def mentionsUsage : Nat → Json → Bool
  | 0, _ => false
  | depth + 1, .obj fields => fields.any fun field =>
      mentions "token" field.1 || (mentions "usage" field.1 && !isEmptyValue field.2) ||
        mentionsUsage depth field.2
  | depth + 1, .arr items => items.any (mentionsUsage depth)
  | _ + 1, _ => false

/-- `_USAGE_GATE_MAX_DEPTH`. -/
def usageGateMaxDepth : Nat := 4

/-- `_is_provably_usage_free`. -/
def isProvablyUsageFree (event : SseEvent) : Bool :=
  !mentionsUsage usageGateMaxDepth (.obj event.data)

/-- The number under a key, truncated to an integer. -/
def countUnder (source : Fields) (key : String) : Option Int :=
  match get? source key with
  | some (.int value) => some value
  | some (.float (.finite value)) => some (value.num.tdiv value.den)
  | _ => none

/-- The places where a pair of counts may stand, in the order in which they are probed. -/
def usagePlaces (event : SseEvent) : List (FieldSet × Carrier) :=
  usageFieldSets.flatMap fun fieldSet =>
    (usageCarriers event).map fun carrier => (fieldSet, carrier)

def fullAt (place : FieldSet × Carrier) : Option FullMatch :=
  match countUnder place.2.source place.1.inputKey, countUnder place.2.source place.1.outputKey with
  | some inputTokens, some outputTokens =>
      some ⟨place.1.label, place.2.label ++ "." ++ place.1.label, inputTokens, outputTokens,
        (countUnder place.2.source place.1.totalKey).getD 0⟩
  | _, _ => none

/-- The one count of a place which has one only, with zero for the other. -/
def halfAt (place : FieldSet × Carrier) : Option UsageCounts :=
  let inputTokens := countUnder place.2.source place.1.inputKey
  let outputTokens := countUnder place.2.source place.1.outputKey
  if inputTokens.isSome = outputTokens.isSome then none
  else
    some ⟨inputTokens.getD 0, outputTokens.getD 0,
      (countUnder place.2.source place.1.totalKey).getD 0, true, true,
      [place.2.label ++ "." ++ place.1.label], false, false⟩

/-- A number is the largest of what some matches have. -/
def LargestOf (matched : List FullMatch) (count : FullMatch → Int) (value : Int) : Prop :=
  IsGreatest {other | ∃ found ∈ matched, count found = other} value

/-- What stands under a key is neither `NaN` nor infinite. -/
def convertible (fields : Fields) (key : String) : Bool :=
  match get? fields key with
  | some (.float .nan) => false
  | some (.float (.infinite _)) => false
  | _ => true

/-- What one place has to have for a round of the loop. -/
structure ReadablePlace (found : Bool) (place : FieldSet × Carrier) : Prop where
  input : convertible place.2.source place.1.inputKey = true
  output : convertible place.2.source place.1.outputKey = true
  pair : (fullAt place).isSome = true → convertible place.2.source place.1.totalKey = true
  half : found = false → (halfAt place).isSome = true →
    convertible place.2.source place.1.totalKey = true

/-- What the counts of an event are: the maximum of the pairs, else the first half, else nothing. -/
structure ReadAs (event : SseEvent) (counts : UsageCounts) : Prop where
  pairs : (usagePlaces event).filterMap fullAt ≠ [] →
    LargestOf ((usagePlaces event).filterMap fullAt) (·.inputTokens) counts.inputTokens ∧
      LargestOf ((usagePlaces event).filterMap fullAt) (·.outputTokens) counts.outputTokens ∧
      LargestOf ((usagePlaces event).filterMap fullAt) (·.totalTokens) counts.totalTokens ∧
      counts.recognised = true ∧ counts.halfRead = false
  half : (usagePlaces event).filterMap fullAt = [] →
    ∀ first later, (usagePlaces event).filterMap halfAt = first :: later →
      counts = first ∧ counts.recognised = true ∧ counts.halfRead = true
  unread : (usagePlaces event).filterMap fullAt = [] →
    (usagePlaces event).filterMap halfAt = [] →
      counts.inputTokens = 0 ∧ counts.outputTokens = 0 ∧ counts.totalTokens = 0 ∧
        counts.recognised = false ∧ counts.halfRead = false

/-- A key with its value, some levels down in the dictionaries and lists of a value. -/
inductive Occurs : Nat → Json → String → Json → Prop
  | here {fields : Fields} {key : String} {value : Json} (listed : (key, value) ∈ fields) :
      Occurs 1 (.obj fields) key value
  | field {fields : Fields} {name key : String} {child value : Json} {level : Nat}
      (listed : (name, child) ∈ fields) (inner : Occurs level child key value) :
      Occurs (level + 1) (.obj fields) key value
  | item {items : List Json} {child value : Json} {key : String} {level : Nat}
      (listed : child ∈ items) (inner : Occurs level child key value) :
      Occurs (level + 1) (.arr items) key value

/-- A text contains a word, whatever the case of its letters. -/
def InAnyCase (word : String) (text : String) : Prop :=
  ∃ part, part <:+: text.toList ∧ part.map Char.toLower = word.toList

/-- The value is neither null nor an empty container. -/
def Telling (value : Json) : Prop :=
  value ≠ .null ∧ value ≠ .str "" ∧ value ≠ .arr [] ∧ value ≠ .obj []

section Gate

theorem lowerChar_of_ascii {char : Char} (ascii : char.toLower.toNat < 0x80) :
    lowerChar char = [char.toLower] := by
  have apart : ∀ code : Nat, 0x80 ≤ (Char.ofNat code).toLower.toNat →
      (Char.ofNat code).toNat = code → char.toNat ≠ code := by
    intro code beyond valid same
    rw [Char.toNat_inj.mp (same.trans valid.symm)] at ascii
    omega
  rw [lowerChar, if_neg (apart _ (by decide) (by decide)),
    if_neg (apart _ (by decide) (by decide))]

theorem ascii_of_all {word : String} (all : word.toList.all (·.toNat < 0x80) = true) :
    ∀ char ∈ word.toList, char.toNat < 0x80 := by
  simpa using all

theorem mentions_of_inAnyCase {word text : String} (there : InAnyCase word text)
    (ascii : ∀ char ∈ word.toList, char.toNat < 0x80) : mentions word text = true := by
  obtain ⟨part, ⟨before, after, split_eq⟩, lowered⟩ := there
  have single : ∀ char ∈ part, lowerChar char = [char.toLower] := by
    intro char listed
    apply lowerChar_of_ascii
    apply ascii
    rw [← lowered]
    exact List.mem_map_of_mem listed
  have part_eq : part.flatMap lowerChar = word.toList := by
    rw [← lowered, List.map_eq_flatMap]
    exact List.flatMap_congr single
  apply decide_eq_true
  refine ⟨before.flatMap lowerChar, after.flatMap lowerChar, ?_⟩
  rw [← split_eq, List.flatMap_append, List.flatMap_append, part_eq]

theorem isEmptyValue_of_telling {value : Json} (telling : Telling value) :
    isEmptyValue value = false := by
  obtain ⟨not_null, not_blank, some_item, some_field⟩ := telling
  cases value with
  | null => exact absurd rfl not_null
  | bool value => rfl
  | int value => rfl
  | float value => rfl
  | str text => exact beq_eq_false_iff_ne.mpr fun blank => not_blank (congrArg Json.str blank)
  | arr items =>
      exact List.isEmpty_eq_false_iff.mpr fun none => some_item (congrArg Json.arr none)
  | obj fields =>
      exact List.isEmpty_eq_false_iff.mpr fun none => some_field (congrArg Json.obj none)

def marked (key : String) (value : Json) : Bool :=
  mentions "token" key || (mentions "usage" key && !isEmptyValue value)

/-- The walk finds a marked key at any level it reaches. -/
theorem mentionsUsage_of_occurs {level depth : Nat} {node value : Json} {key : String}
    (occurs : Occurs level node key value) (reached : level ≤ depth)
    (is_marked : marked key value = true) : mentionsUsage depth node = true := by
  induction occurs generalizing depth with
  | here listed =>
      obtain ⟨lesser, rfl⟩ := Nat.exists_eq_add_of_le' reached
      exact List.any_eq_true.mpr ⟨_, listed, Bool.or_eq_true_iff.mpr (.inl is_marked)⟩
  | field listed inner induction =>
      obtain ⟨lesser, rfl⟩ := Nat.exists_eq_add_of_le' (Nat.le_of_add_left_le reached)
      have found := induction (Nat.le_of_succ_le_succ reached) is_marked
      exact List.any_eq_true.mpr ⟨_, listed, Bool.or_eq_true_iff.mpr (.inr found)⟩
  | item listed inner induction =>
      obtain ⟨lesser, rfl⟩ := Nat.exists_eq_add_of_le' (Nat.le_of_add_left_le reached)
      have found := induction (Nat.le_of_succ_le_succ reached) is_marked
      exact List.any_eq_true.mpr ⟨_, listed, found⟩

theorem occurs_of_mentionsUsage (depth : Nat) {node : Json}
    (found : mentionsUsage depth node = true) :
    ∃ level key value, level ≤ depth ∧ Occurs level node key value ∧ marked key value = true := by
  induction depth generalizing node with
  | zero => cases found
  | succ depth induction =>
      cases node with
      | obj fields =>
          obtain ⟨⟨key, value⟩, listed, hit⟩ := List.any_eq_true.mp found
          obtain is_marked | inside := Bool.or_eq_true_iff.mp hit
          · exact ⟨1, key, value, by omega, .here listed, is_marked⟩
          · obtain ⟨level, inner, held, within, occurs, is_marked⟩ := induction inside
            exact ⟨level + 1, inner, held, by omega, .field listed occurs, is_marked⟩
      | arr items =>
          obtain ⟨child, listed, inside⟩ := List.any_eq_true.mp found
          obtain ⟨level, key, value, within, occurs, is_marked⟩ := induction inside
          exact ⟨level + 1, key, value, by omega, .item listed occurs, is_marked⟩
      | null => cases found
      | bool value => cases found
      | int value => cases found
      | float value => cases found
      | str text => cases found

/-- The order of the keys and what stands beside them make no difference to the walk. -/
theorem mentionsUsage_iff (depth : Nat) (node : Json) :
    mentionsUsage depth node = true ↔
      ∃ level key value, level ≤ depth ∧ Occurs level node key value ∧
        marked key value = true := by
  constructor
  · exact occurs_of_mentionsUsage depth
  · rintro ⟨level, key, value, reached, occurs, is_marked⟩
    exact mentionsUsage_of_occurs occurs reached is_marked

theorem marked_of_inAnyCase {key : String} {value : Json}
    (named : InAnyCase "token" key ∨ InAnyCase "usage" key ∧ Telling value) :
    marked key value = true := by
  rw [marked, Bool.or_eq_true_iff, Bool.and_eq_true_iff]
  obtain token | ⟨usage, telling⟩ := named
  · exact .inl (mentions_of_inAnyCase token (ascii_of_all (by decide)))
  · refine .inr ⟨mentions_of_inAnyCase usage (ascii_of_all (by decide)), ?_⟩
    rw [isEmptyValue_of_telling telling, Bool.not_false]

end Gate

section Reader

theorem finite_of_get? {fields : Fields} (finite : (Json.obj fields).Finite) {key : String}
    {value : Json} (found : get? fields key = some value) : value.Finite := by
  obtain ⟨field, listed, rfl⟩ := Option.map_eq_some_iff.mp found
  cases finite with
  | obj _ each => exact each field (List.mem_of_find?_eq_some listed)

theorem asIntOrNone_of_convertible {fields : Fields} {key : String}
    (sound : convertible fields key = true) :
    asIntOrNone (get? fields key) = .ok (countUnder fields key) := by
  unfold convertible at sound
  rw [countUnder]
  cases stands : get? fields key with
  | none => rfl
  | some value =>
      cases value with
      | float number =>
          cases number with
          | finite value => rfl
          | nan => simp [stands] at sound
          | infinite negative => simp [stands] at sound
      | null | bool | int | str | arr | obj => rfl

theorem convertible_of_finite {source : Fields} (finite : (Json.obj source).Finite)
    (key : String) : convertible source key = true := by
  unfold convertible
  split
  next stands => cases finite_of_get? finite stands
  next negative stands => cases finite_of_get? finite stands
  · rfl

/-- A round of the loop takes down what its place has. -/
theorem look_of_readable {probe : UsageProbe} {place : FieldSet × Carrier}
    (readable : ReadablePlace probe.fallback.isSome place) :
    probe.look place.1 place.2 =
      .ok ⟨probe.full ++ (fullAt place).toList, probe.fallback.or (halfAt place)⟩ := by
  obtain ⟨full, fallback⟩ := probe
  obtain ⟨input, output, pair, half⟩ := readable
  have total (sound : convertible place.2.source place.1.totalKey = true) :
      asInt (get? place.2.source place.1.totalKey) =
        .ok ((countUnder place.2.source place.1.totalKey).getD 0) := by
    rw [asInt, asIntOrNone_of_convertible sound]
    rfl
  rw [UsageProbe.look, asIntOrNone_of_convertible input, asIntOrNone_of_convertible output]
  cases left : countUnder place.2.source place.1.inputKey with
  | none =>
      cases right : countUnder place.2.source place.1.outputKey with
      | none => simp [fullAt, halfAt, left, right, bind, Except.bind, pure, Except.pure]
      | some outputTokens =>
          have one_half : (halfAt place).isSome = true := by simp [halfAt, left, right]
          cases fallback with
          | some half => simp [fullAt, left, right, bind, Except.bind, pure, Except.pure]
          | none =>
              have total := total (half rfl one_half)
              simp [fullAt, halfAt, left, right, total, bind, Except.bind, pure, Except.pure]
  | some inputTokens =>
      cases right : countUnder place.2.source place.1.outputKey with
      | none =>
          have one_half : (halfAt place).isSome = true := by simp [halfAt, left, right]
          cases fallback with
          | some half => simp [fullAt, left, right, bind, Except.bind, pure, Except.pure]
          | none =>
              have total := total (half rfl one_half)
              simp [fullAt, halfAt, left, right, total, bind, Except.bind, pure, Except.pure]
      | some outputTokens =>
          have total := total (pair (by simp [fullAt, left, right]))
          simp [fullAt, halfAt, left, right, total, bind, Except.bind, pure, Except.pure]

theorem readablePlace_of_finite {place : FieldSet × Carrier} (found : Bool)
    (finite : (Json.obj place.2.source).Finite) : ReadablePlace found place where
  input := convertible_of_finite finite _
  output := convertible_of_finite finite _
  pair _ := convertible_of_finite finite _
  half _ _ := convertible_of_finite finite _

/-- The loop collects the pairs of all places and the first half. -/
theorem look_all (places : List (FieldSet × Carrier)) (probe : UsageProbe)
    (finite : ∀ place ∈ places, (Json.obj place.2.source).Finite) :
    places.foldlM (fun probe place => probe.look place.1 place.2) probe =
      .ok ⟨probe.full ++ places.filterMap fullAt,
        probe.fallback.or (places.filterMap halfAt).head?⟩ := by
  induction places generalizing probe with
  | nil => simp [pure, Except.pure]
  | cons place later induction =>
      have readable := readablePlace_of_finite probe.fallback.isSome
        (finite place List.mem_cons_self)
      rw [List.foldlM_cons, look_of_readable readable]
      refine (induction _ fun other listed => finite other (List.mem_cons_of_mem _ listed)).trans ?_
      congr 2
      · rw [List.append_assoc, List.filterMap_cons]
        cases fullAt place <;> rfl
      · rw [Option.or_assoc, List.filterMap_cons]
        cases halfAt place <;> rfl

theorem usageCarriers_finite {event : SseEvent} (finite : (Json.obj event.data).Finite) :
    ∀ carrier ∈ usageCarriers event, (Json.obj carrier.source).Finite := by
  intro carrier listed
  rw [usageCarriers] at listed
  obtain nested | top := List.mem_append.mp listed
  · split at nested
    next fields found =>
      rw [List.mem_singleton.mp nested]
      exact finite_of_get? finite found
    · cases nested
  · rw [List.mem_singleton.mp top]
    exact finite

theorem usagePlaces_finite {event : SseEvent} (finite : (Json.obj event.data).Finite) :
    ∀ place ∈ usagePlaces event, (Json.obj place.2.source).Finite := by
  intro place listed
  obtain ⟨fieldSet, -, inside⟩ := List.mem_flatMap.mp listed
  obtain ⟨carrier, carried, rfl⟩ := List.mem_map.mp inside
  exact usageCarriers_finite finite carrier carried

theorem isGreatest_largest (first : Int) (others : List Int) :
    IsGreatest {value | value ∈ first :: others} (largest first others) := by
  induction others using List.reverseRecOn with
  | nil => exact ⟨List.mem_singleton_self first, fun value listed =>
      le_of_eq (List.mem_singleton.mp listed)⟩
  | append_singleton others last induction =>
      have step : largest first (others ++ [last]) = max (largest first others) last := by
        rw [largest, List.foldl_append]
        rfl
      rw [step]
      constructor
      · obtain ⟨listed, -⟩ := induction
        rcases max_choice (largest first others) last with same | same
        · rw [same]
          exact List.mem_append_left [last] listed
        · rw [same]
          exact List.mem_append_right (first :: others) (List.mem_singleton_self last)
      · intro value listed
        rw [Set.mem_ofPred_eq, ← List.cons_append, List.mem_append] at listed
        obtain earlier | new := listed
        · exact le_max_of_le_left (induction.2 earlier)
        · exact le_max_of_le_right (le_of_eq (List.mem_singleton.mp new))

theorem largestOf_largest (first : FullMatch) (others : List FullMatch) (count : FullMatch → Int) :
    LargestOf (first :: others) count (largest (count first) (others.map count)) := by
  have greatest := isGreatest_largest (count first) (others.map count)
  rw [← List.map_cons] at greatest
  have same : {other | ∃ found ∈ first :: others, count found = other} =
      {value | value ∈ (first :: others).map count} := by
    ext value
    exact List.mem_map.symm
  rw [LargestOf, same]
  exact greatest

theorem halfAt_flags {place : FieldSet × Carrier} {half : UsageCounts}
    (found : halfAt place = some half) : half.recognised = true ∧ half.halfRead = true := by
  rw [halfAt] at found
  split at found
  · cases found
  · cases found
    exact ⟨rfl, rfl⟩

/-- The reader gives the maximum of the pairs, else the first half, else nothing. -/
theorem extractUsageCounts_readAs {event : SseEvent} (finite : (Json.obj event.data).Finite) :
    ∃ counts, extractUsageCounts event = .ok counts ∧ ReadAs event counts := by
  have collected : (usageFieldSets.flatMap fun fieldSet =>
      (usageCarriers event).map fun carrier => (fieldSet, carrier)).foldlM
        (fun probe place => UsageProbe.look probe place.1 place.2) ({} : UsageProbe) =
      .ok ⟨(usagePlaces event).filterMap fullAt, ((usagePlaces event).filterMap halfAt).head?⟩ :=
    look_all (usagePlaces event) {} (usagePlaces_finite finite)
  rw [extractUsageCounts, collected]
  cases pairs : (usagePlaces event).filterMap fullAt with
  | cons first others =>
      refine ⟨_, rfl, fun _ => ?_, fun none => ?_, fun none => ?_⟩
      · rw [pairs]
        exact ⟨largestOf_largest first others (·.inputTokens),
          largestOf_largest first others (·.outputTokens),
          largestOf_largest first others (·.totalTokens), rfl, rfl⟩
      · rw [pairs] at none
        cases none
      · rw [pairs] at none
        cases none
  | nil =>
      cases halves : (usagePlaces event).filterMap halfAt with
      | nil =>
          refine ⟨_, rfl, fun some => absurd pairs some, fun _ first later both => ?_,
            fun _ _ => ⟨rfl, rfl, rfl, rfl, rfl⟩⟩
          rw [halves] at both
          cases both
      | cons half later =>
          have listed : half ∈ (usagePlaces event).filterMap halfAt := by
            rw [halves]
            exact List.mem_cons_self
          obtain ⟨place, -, found⟩ := List.mem_filterMap.mp listed
          refine ⟨_, rfl, fun some => absurd pairs some, fun _ first others both => ?_,
            fun _ none => ?_⟩
          · rw [halves] at both
            cases both
            exact ⟨rfl, halfAt_flags found⟩
          · rw [halves] at none
            cases none

theorem mem_of_get? {fields : Fields} {key : String} {value : Json}
    (found : get? fields key = some value) : (key, value) ∈ fields := by
  obtain ⟨field, first, rfl⟩ := Option.map_eq_some_iff.mp found
  have named := List.find?_some first
  rw [← beq_iff_eq.mp named]
  exact List.mem_of_find?_eq_some first

theorem mem_of_countUnder {source : Fields} {key : String}
    (there : (countUnder source key).isSome = true) : ∃ value, (key, value) ∈ source := by
  cases found : get? source key with
  | none =>
      rw [countUnder, found] at there
      cases there
  | some value => exact ⟨value, mem_of_get? found⟩

theorem usageFieldSets_named (fieldSet : FieldSet) (listed : fieldSet ∈ usageFieldSets) :
    mentions "token" fieldSet.inputKey = true ∧ mentions "token" fieldSet.outputKey = true := by
  have named : ∀ other ∈ usageFieldSets,
      mentions "token" other.inputKey = true ∧ mentions "token" other.outputKey = true := by
    decide
  exact named fieldSet listed

/-- A key of a carrier stands one or two levels down in the event. -/
theorem occurs_of_carrier {event : SseEvent} {carrier : Carrier} {key : String} {value : Json}
    (carried : carrier ∈ usageCarriers event) (listed : (key, value) ∈ carrier.source) :
    ∃ level, level ≤ 2 ∧ Occurs level (.obj event.data) key value := by
  rw [usageCarriers] at carried
  obtain nested | top := List.mem_append.mp carried
  · split at nested
    next fields found =>
      rw [List.mem_singleton.mp nested] at listed
      exact ⟨2, le_rfl, .field (mem_of_get? found) (.here listed)⟩
    · cases nested
  · rw [List.mem_singleton.mp top] at listed
    exact ⟨1, by omega, .here listed⟩

theorem mentionsUsage_of_count {event : SseEvent} {place : FieldSet × Carrier} {key : String}
    (listed : place ∈ usagePlaces event)
    (named : key = place.1.inputKey ∨ key = place.1.outputKey)
    (there : (countUnder place.2.source key).isSome = true) :
    mentionsUsage usageGateMaxDepth (.obj event.data) = true := by
  obtain ⟨fieldSet, probed, inside⟩ := List.mem_flatMap.mp listed
  obtain ⟨carrier, carried, rfl⟩ := List.mem_map.mp inside
  obtain ⟨value, stands⟩ := mem_of_countUnder there
  obtain ⟨level, reached, occurs⟩ := occurs_of_carrier carried stands
  refine mentionsUsage_of_occurs occurs (reached.trans (by decide)) ?_
  refine Bool.or_eq_true_iff.mpr (.inl ?_)
  obtain rfl | rfl := named
  · exact (usageFieldSets_named fieldSet probed).1
  · exact (usageFieldSets_named fieldSet probed).2

theorem isSome_of_fullAt {place : FieldSet × Carrier} {found : FullMatch}
    (full : fullAt place = some found) :
    (countUnder place.2.source place.1.inputKey).isSome = true := by
  rw [fullAt] at full
  cases input : countUnder place.2.source place.1.inputKey with
  | some count => rfl
  | none =>
      rw [input] at full
      cases full

theorem isSome_of_halfAt {place : FieldSet × Carrier} {found : UsageCounts}
    (half : halfAt place = some found) :
    (countUnder place.2.source place.1.inputKey).isSome = true ∨
      (countUnder place.2.source place.1.outputKey).isSome = true := by
  rw [halfAt] at half
  cases input : countUnder place.2.source place.1.inputKey with
  | some count => exact .inl rfl
  | none =>
      cases output : countUnder place.2.source place.1.outputKey with
      | some count => exact .inr rfl
      | none =>
          rw [input, output] at half
          cases half

theorem ReadAs.mentioned {event : SseEvent} {counts : UsageCounts} (read : ReadAs event counts)
    (recognised : counts.recognised = true) :
    mentionsUsage usageGateMaxDepth (.obj event.data) = true := by
  cases pairs : (usagePlaces event).filterMap fullAt with
  | cons first others =>
      have listed : first ∈ (usagePlaces event).filterMap fullAt := by
        rw [pairs]
        exact List.mem_cons_self
      obtain ⟨place, probed, full⟩ := List.mem_filterMap.mp listed
      exact mentionsUsage_of_count probed (.inl rfl) (isSome_of_fullAt full)
  | nil =>
      cases halves : (usagePlaces event).filterMap halfAt with
      | nil =>
          obtain ⟨-, -, -, unrecognised, -⟩ := read.unread pairs halves
          rw [unrecognised] at recognised
          cases recognised
      | cons half later =>
          have listed : half ∈ (usagePlaces event).filterMap halfAt := by
            rw [halves]
            exact List.mem_cons_self
          obtain ⟨place, probed, found⟩ := List.mem_filterMap.mp listed
          obtain input | output := isSome_of_halfAt found
          · exact mentionsUsage_of_count probed (.inl rfl) input
          · exact mentionsUsage_of_count probed (.inr rfl) output

end Reader

/-- Counts are read as the maximum; what passes as free is unrecognised, and nothing which names
tokens, or usage with a value, passes as free. -/
theorem usage_read_and_gated (event : SseEvent) (finite : (Json.obj event.data).Finite) :
    (∃ counts, extractUsageCounts event = .ok counts ∧ ReadAs event counts ∧
      (isProvablyUsageFree event = true → counts.recognised = false)) ∧
    ∀ level key value, level ≤ usageGateMaxDepth → Occurs level (.obj event.data) key value →
      InAnyCase "token" key ∨ InAnyCase "usage" key ∧ Telling value →
        isProvablyUsageFree event = false := by
  constructor
  · obtain ⟨counts, extracted, read⟩ := extractUsageCounts_readAs finite
    refine ⟨counts, extracted, read, fun free => ?_⟩
    rw [isProvablyUsageFree, Bool.not_eq_true'] at free
    cases recognised : counts.recognised with
    | false => rfl
    | true =>
        rw [read.mentioned recognised] at free
        cases free
  · intro level key value reached occurs named
    rw [isProvablyUsageFree, mentionsUsage_of_occurs occurs reached (marked_of_inAnyCase named),
      Bool.not_true]

/-- A nested object with both counts of a step next to zero anchors, and a name in capitals three
levels down. -/
def mixedCarriers : SseEvent where
  name := some "run.completed"
  data :=
    [("usage", .obj [("input_tokens", .int 6313), ("output_tokens", .float (.finite (1317 / 2)))]),
      ("cumulative_input_tokens", .int 0), ("cumulative_output_tokens", .int 0),
      ("result", .arr [.obj [("TOKENS", .null)]])]

theorem mixedCarriers_finite : (Json.obj mixedCarriers.data).Finite := by
  refine .obj _ fun field listed => ?_
  simp only [mixedCarriers, List.mem_cons, List.not_mem_nil, or_false] at listed
  obtain rfl | rfl | rfl | rfl := listed
  · refine .obj _ fun inner inside => ?_
    simp only [List.mem_cons, List.not_mem_nil, or_false] at inside
    obtain rfl | rfl := inside
    · exact .int 6313
    · exact .float (1317 / 2)
  · exact .int 0
  · exact .int 0
  · refine .arr _ fun item inside => ?_
    rw [List.mem_singleton.mp inside]
    refine .obj _ fun inner within => ?_
    rw [List.mem_singleton.mp within]
    exact .null

theorem mixedCarriers_read :
    (∃ counts, extractUsageCounts mixedCarriers = .ok counts ∧ ReadAs mixedCarriers counts ∧
      (isProvablyUsageFree mixedCarriers = true → counts.recognised = false)) ∧
    isProvablyUsageFree mixedCarriers = false := by
  obtain ⟨read, gated⟩ := usage_read_and_gated mixedCarriers mixedCarriers_finite
  refine ⟨read, gated 3 "TOKENS" .null (by decide) ?_ (.inl ⟨"TOKEN".toList, ?_, by decide⟩)⟩
  · exact .field (List.mem_of_getElem? (i := 3) rfl)
      (.item (List.mem_singleton_self _) (.here (List.mem_singleton_self _)))
  · exact ⟨[], ['S'], by decide⟩

end AgentProxy
end Hermes
