import Hermes.Library.JsonDecoder

/-!
# From the decoder to the database

A decoded value goes into a `JSONB` column as the text which `json.dumps` writes of it, with every
code point beyond ASCII escaped.  The languages on the way differ: the encoder writes floats which
are no numbers and goes only so deep, and the server refuses these floats, a NUL and a surrogate
which is not in a pair.  A `TEXT` parameter holds no surrogate at all.
-/

namespace Hermes.Jsonb

open JsonDecoder Encoding

/-- The code point is neither a NUL nor a surrogate. -/
def storableCode (code : Nat) : Bool :=
  code != 0 && !isHighSurrogate code && !isLowSurrogate code

/-- The text is a `TEXT` parameter. -/
def storableText (text : List Nat) : Bool := text.all storableCode

/-- The escapes of the text are a string of a `JSONB`, where a pair of surrogates is one
character. -/
def escapable (text : List Nat) : Bool := storableText (joinUnits text)

mutual

/-- The text written of a value is cast to a `JSONB`. -/
def castable : Parsed → Bool
  | .null | .bool _ | .int _ => true
  | .float (.finite _) => true
  | .float _ => false
  | .str text => escapable text
  | .arr items => castableItems items
  | .obj fields => castableFields fields

def castableItems : List Parsed → Bool
  | [] => true
  | item :: items => castable item && castableItems items

def castableFields : List (List Nat × Parsed) → Bool
  | [] => true
  | field :: fields => escapable field.1 && castable field.2 && castableFields fields

end

mutual

/-- How deep the containers of a value are nested. -/
def nesting : Parsed → Nat
  | .arr items => nestingOfItems items + 1
  | .obj fields => nestingOfFields fields + 1
  | _ => 0

def nestingOfItems : List Parsed → Nat
  | [] => 0
  | item :: items => max (nesting item) (nestingOfItems items)

def nestingOfFields : List (List Nat × Parsed) → Nat
  | [] => 0
  | field :: fields => max (nesting field.2) (nestingOfFields fields)

end

/-- How far the JSON library and the database go. -/
structure Host where
  /-- The nesting beyond which `json.loads` raises `RecursionError`. -/
  decodeDepth : Nat
  /-- The nesting beyond which `json.dumps` raises `RecursionError`. -/
  encodeDepth : Nat
  /-- The nesting `max_stack_depth` leaves to a cast. -/
  castDepth : Nat
  /-- The sizes a `JSONB` admits. -/
  roomy : Parsed → Bool
  /-- An index takes the text as an entry. -/
  indexable : String → Bool

/-- Why a value does not become a parameter which the server takes. -/
inductive Refusal
  /-- `json.dumps` raises `RecursionError`. -/
  | recursion
  /-- The driver does not encode the parameter, or the server rejects it. -/
  | parameter
  deriving DecidableEq, Repr

namespace Host

variable (host : Host)

/-- `json.loads` of a text. -/
def loadsText (text : List Nat) : Except ScanError Parsed := loadsWithin host.decodeDepth text

/-- `json.loads` of a byte string. -/
def loads (raw : List UInt8) : Except ScanError Parsed :=
  match decodeBytes raw with
  | none => .error .value
  | some text => host.loadsText text

/-- `CAST(:payload AS JSONB)` of what `json.dumps` writes. -/
def castJsonb (value : Parsed) : Except Refusal Unit :=
  if host.encodeDepth < nesting value then .error .recursion
  else if castable value && decide (nesting value ≤ host.castDepth) && host.roomy value then .ok ()
  else .error .parameter

/-- A `TEXT` parameter. -/
def sendText (text : List Nat) : Except Refusal Unit :=
  if storableText text then .ok () else .error .parameter

def enterKey (key : String) : Except Refusal Unit :=
  if host.indexable key then .ok () else .error .parameter

/-- A value which becomes a `JSONB`. -/
structure Persists (value : Parsed) : Prop where
  encodes : nesting value ≤ host.encodeDepth
  castable : castable value = true
  shallow : nesting value ≤ host.castDepth
  roomy : host.roomy value = true

end Host

section Storing

variable {host : Host} {value : Parsed} {text : List Nat} {key : String}

theorem Host.castJsonb_ok_iff : host.castJsonb value = .ok () ↔ host.Persists value := by
  rw [Host.castJsonb]
  split
  next deep =>
    constructor
    · intro cast
      cases cast
    · intro persists
      exact absurd persists.encodes (Nat.not_le.mpr deep)
  next encodes =>
    split
    next fits =>
      simp only [Bool.and_eq_true, decide_eq_true_eq] at fits
      exact iff_of_true rfl ⟨Nat.not_lt.mp encodes, fits.1.1, fits.1.2, fits.2⟩
    next refused =>
      refine iff_of_false (fun cast => by cases cast) fun persists => refused ?_
      simp [persists.castable, persists.shallow, persists.roomy]

theorem sendText_ok_iff : Host.sendText text = .ok () ↔ storableText text = true := by
  rw [Host.sendText]
  split
  next storable => exact iff_of_true rfl storable
  next refused => exact iff_of_false (fun sent => by cases sent) refused

theorem Host.enterKey_ok_iff : host.enterKey key = .ok () ↔ host.indexable key = true := by
  rw [Host.enterKey]
  split
  next fits => exact iff_of_true rfl fits
  next wide => exact iff_of_false (fun entered => by cases entered) wide

theorem Host.loads_nil (host : Host) : host.loads [] = .error .value := rfl

end Storing

section Rendering

variable {text : List Nat} {key : String}

theorem ofCodes_eq_empty_iff : ofCodes text = "" ↔ text = [] := by
  rw [ofCodes, ← String.toList_inj, String.toList_ofList]
  simp

/-- A key of plain characters is rendered by its own code points only. -/
theorem ofCodes_eq_iff
    (plain : ∀ char ∈ key.toList, char ≠ Char.ofNat 0xfffd ∧ char ≠ Char.ofNat 0) :
    ofCodes text = key ↔ text = codes key := by
  constructor
  · intro rendered
    rw [← rendered, codes, ofCodes, String.toList_ofList, List.map_map]
    refine ((List.map_congr_left fun code listed => ?_).trans (List.map_id text)).symm
    rw [← rendered, ofCodes, String.toList_ofList] at plain
    have character := plain _ (List.mem_map_of_mem listed)
    rw [Function.comp_apply, id]
    split at character
    · exact absurd rfl character.1
    next alone =>
      rw [if_neg alone]
      by_cases valid : code.isValidChar
      · rw [Char.ofNat, dif_pos valid]
        rfl
      · refine absurd ?_ character.2
        rw [Char.ofNat, dif_neg valid]
        rfl
  · rintro rfl
    exact ofCodes_codes key

theorem get?_fieldsToJson (fields : List (List Nat × Parsed))
    (plain : ∀ char ∈ key.toList, char ≠ Char.ofNat 0xfffd ∧ char ≠ Char.ofNat 0) :
    Json.get? (Parsed.fieldsToJson fields) key = (Parsed.get? fields key).map Parsed.toJson := by
  induction fields with
  | nil => rfl
  | cons field fields induction =>
      have same : (ofCodes field.1 == key) = (field.1 == codes key) := by
        rw [Bool.eq_iff_iff, beq_iff_eq, beq_iff_eq, ofCodes_eq_iff plain]
      rw [Json.get?] at induction ⊢
      rw [Parsed.get?] at induction ⊢
      rw [Parsed.fieldsToJson, List.find?_cons, List.find?_cons, same]
      cases field.1 == codes key with
      | true => rfl
      | false => exact induction

end Rendering

end Hermes.Jsonb
