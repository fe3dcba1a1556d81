import Hermes.Json
import Hermes.Library.Encoding
import Hermes.Library.Text
import Mathlib.Data.Int.Log
import Mathlib.Data.Rat.Floor

/-!
# The JSON decoder

`json.loads` as the Python library documents it: one value, with white space around it, and the
names of the floats which are no numbers.  A text keeps its code points, lone surrogates among them,
until it is rendered as a `String`.  A byte string is decoded first, by the encoding its first bytes
show.
-/

namespace Hermes.JsonDecoder

open Encoding

/-- A decoded value whose texts are lists of code points. -/
inductive Parsed
  | null
  | bool (value : Bool)
  | int (value : Int)
  | float (value : PyFloat)
  | str (text : List Nat)
  | arr (items : List Parsed)
  | obj (fields : List (List Nat × Parsed))

namespace Parsed

mutual

def toJson : Parsed → Json
  | null => .null
  | bool value => .bool value
  | int value => .int value
  | float value => .float value
  | str text => .str (ofCodes text)
  | arr items => .arr (itemsToJson items)
  | obj fields => .obj (fieldsToJson fields)

def itemsToJson : List Parsed → List Json
  | [] => []
  | item :: items => toJson item :: itemsToJson items

def fieldsToJson : List (List Nat × Parsed) → List (String × Json)
  | [] => []
  | field :: fields => (ofCodes field.1, toJson field.2) :: fieldsToJson fields

end

/-- `dict.get` on the fields of a decoded object. -/
def get? (fields : List (List Nat × Parsed)) (key : String) : Option Parsed :=
  (fields.find? fun field => field.1 == codes key).map (·.2)

end Parsed

/-- What the decoder raises: a `ValueError`, or a `RecursionError` where containers are nested too
deep. -/
inductive ScanError
  | value
  | recursion
  deriving DecidableEq, Repr

def enter : Nat → Except ScanError Nat
  | 0 => .error .recursion
  | depth + 1 => .ok depth

/-- What is not there is a `ValueError`. -/
def required {α : Type} : Option α → Except ScanError α
  | some found => .ok found
  | none => .error .value

def isJsonSpace (code : Nat) : Bool := [0x20, 0x09, 0x0a, 0x0d].contains code

def skipSpace (text : List Nat) : List Nat := text.dropWhile isJsonSpace

def hexDigits (digits : List Nat) : Option Nat :=
  digits.foldlM (fun value code =>
    if 0x30 ≤ code ∧ code ≤ 0x39 then some (16 * value + (code - 0x30))
    else if 0x61 ≤ code ∧ code ≤ 0x66 then some (16 * value + (code - 0x61 + 10))
    else if 0x41 ≤ code ∧ code ≤ 0x46 then some (16 * value + (code - 0x41 + 10))
    else none) 0

def escapes : List (Char × Nat) :=
  [('"', 0x22), ('\\', 0x5c), ('/', 0x2f), ('b', 0x08), ('f', 0x0c), ('n', 0x0a), ('r', 0x0d),
    ('t', 0x09)]

/-- The low surrogate escaped at the head of a text, with the text behind it. -/
def lowEscape : List Nat → Option (Nat × List Nat)
  | slash :: letter :: first :: second :: third :: fourth :: rest =>
      if slash = '\\'.toNat ∧ letter = 'u'.toNat then
        (hexDigits [first, second, third, fourth]).bind fun low =>
          if isLowSurrogate low then some (low, rest) else none
      else none
  | _ => none

/-- `scanstring`: the characters up to the closing quote and the text behind it.  Every character
takes at least one step of the text, which is the measure. -/
def scanString : Nat → List Nat → Option (List Nat × List Nat)
  | 0, _ => none
  | _ + 1, [] => none
  | fuel + 1, first :: rest =>
      if first = '"'.toNat then some ([], rest)
      else if first < 0x20 then none
      else if first ≠ '\\'.toNat then (scanString fuel rest).map (Prod.map (first :: ·) id)
      else
        match rest with
        | [] => none
        | letter :: rest =>
            if letter = 'u'.toNat then
              (hexDigits (rest.take 4)).bind fun code =>
                if (rest.take 4).length < 4 then none
                else
                  match if isHighSurrogate code then lowEscape (rest.drop 4) else none with
                  | some (low, rest) =>
                      (scanString fuel rest).map (Prod.map (joinSurrogates code low :: ·) id)
                  | none => (scanString fuel (rest.drop 4)).map (Prod.map (code :: ·) id)
            else
              (escapes.find? (·.1.toNat == letter)).bind fun escape =>
                (scanString fuel rest).map (Prod.map (escape.2 :: ·) id)

/-- The nearest integer, and the even one of two. -/
def roundHalfEven (value : ℚ) : Int :=
  let rest := value - value.floor
  if rest < 1 / 2 then value.floor
  else if 1 / 2 < rest then value.floor + 1
  else if value.floor % 2 = 0 then value.floor
  else value.floor + 1

/-- The binary64 float nearest to a number which is not negative. -/
def nearestFloat (negative : Bool) (value : ℚ) : PyFloat :=
  if value = 0 then .finite 0
  else
    let exponent := max (-1074) (Int.log 2 value - 52)
    let rounded := roundHalfEven (value / 2 ^ exponent) * (2 : ℚ) ^ exponent
    if 2 ^ (1024 : Int) ≤ rounded then .infinite negative
    else .finite (if negative then -rounded else rounded)

def isDigit (code : Nat) : Bool := decide (0x30 ≤ code ∧ code ≤ 0x39)

def decimal (digits : List Nat) : Nat :=
  digits.foldl (fun value code => 10 * value + (code - 0x30)) 0

/-- The fraction at the head of a text: its digits and the text behind. -/
def scanFraction : List Nat → List Nat × List Nat
  | point :: rest =>
      if point = '.'.toNat then
        match rest.takeWhile isDigit with
        | [] => ([], point :: rest)
        | digits => (digits, rest.dropWhile isDigit)
      else ([], point :: rest)
  | [] => ([], [])

/-- The exponent at the head of a text and the text behind. -/
def scanExponent : List Nat → Option Int × List Nat
  | letter :: rest =>
      let negative := rest.head? == some '-'.toNat
      let digits := if negative || rest.head? == some '+'.toNat then rest.tail else rest
      if letter = 'e'.toNat ∨ letter = 'E'.toNat then
        match digits.takeWhile isDigit with
        | [] => (none, letter :: rest)
        | taken => (some (if negative then -(decimal taken) else decimal taken),
            digits.dropWhile isDigit)
      else (none, letter :: rest)
  | [] => (none, [])

/-- A number at the head of a text: an integer unless it has a fraction or an exponent. -/
def scanNumber (text : List Nat) : Option (Parsed × List Nat) :=
  let negative := text.head? == some '-'.toNat
  let unsigned := if negative then text.tail else text
  let digits := if unsigned.head? == some '0'.toNat then ['0'.toNat] else unsigned.takeWhile isDigit
  let (fraction, afterFraction) := scanFraction (unsigned.drop digits.length)
  let (exponent, rest) := scanExponent afterFraction
  if digits = [] then none
  else if fraction = [] ∧ exponent = none then
    if Text.maxStrDigits < digits.length then none
    else some (.int (if negative then -(decimal digits) else decimal digits), rest)
  else
    let scale := exponent.getD 0 - fraction.length
    some (.float (nearestFloat negative (decimal (digits ++ fraction) * (10 : ℚ) ^ scale)), rest)

def constants : List (String × Parsed) :=
  [("null", .null), ("true", .bool true), ("false", .bool false), ("NaN", .float .nan),
    ("Infinity", .float (.infinite false)), ("-Infinity", .float (.infinite true))]

def scanConstant (text : List Nat) : Option (Parsed × List Nat) :=
  constants.findSome? fun constant =>
    if (codes constant.1).isPrefixOf text then some (constant.2, text.drop constant.1.length)
    else none

/-- Assignment to a key of a `dict`: the place of the key stays. -/
def insert (fields : List (List Nat × Parsed)) (key : List Nat) (value : Parsed) :
    List (List Nat × Parsed) :=
  if fields.any (·.1 == key) then
    fields.map fun field => if field.1 == key then (key, value) else field
  else fields ++ [(key, value)]

/-- What a text holds behind one given character. -/
def expect (char : Char) : List Nat → Option (List Nat)
  | first :: rest => if first = char.toNat then some rest else none
  | [] => none

mutual

/-- `scan_once`: the value at the head of a text and the text behind it, in containers nested no
deeper than `depth`. -/
def scanOnce : Nat → Nat → List Nat → Except ScanError (Parsed × List Nat)
  | 0, _, _ => .error .value
  | _ + 1, _, [] => .error .value
  | fuel + 1, depth, first :: rest =>
      if first = '"'.toNat then
        required ((scanString (fuel + 1) rest).map (Prod.map Parsed.str id))
      else if first = 0x7b then do
        let depth ← enter depth
        match expect (Char.ofNat 0x7d) (skipSpace rest) with
        | some rest => .ok (.obj [], rest)
        | none => scanMembers fuel depth [] (skipSpace rest)
      else if first = '['.toNat then do
        let depth ← enter depth
        match expect ']' (skipSpace rest) with
        | some rest => .ok (.arr [], rest)
        | none => scanItems fuel depth [] (skipSpace rest)
      else required ((scanNumber (first :: rest)).or (scanConstant (first :: rest)))

/-- `JSONObject` from a key on. -/
def scanMembers : Nat → Nat → List (List Nat × Parsed) → List Nat →
    Except ScanError (Parsed × List Nat)
  | 0, _, _, _ => .error .value
  | fuel + 1, depth, fields, text => do
      let rest ← required (expect '"' text)
      let (key, rest) ← required (scanString (fuel + 1) rest)
      let rest ← required (expect ':' (skipSpace rest))
      let (value, rest) ← scanOnce fuel depth (skipSpace rest)
      let fields := insert fields key value
      match expect ',' (skipSpace rest) with
      | some rest => scanMembers fuel depth fields (skipSpace rest)
      | none =>
          required ((expect (Char.ofNat 0x7d) (skipSpace rest)).map fun rest => (.obj fields, rest))

/-- `JSONArray` from an item on. -/
def scanItems : Nat → Nat → List Parsed → List Nat → Except ScanError (Parsed × List Nat)
  | 0, _, _, _ => .error .value
  | fuel + 1, depth, items, text => do
      let (value, rest) ← scanOnce fuel depth text
      match expect ',' (skipSpace rest) with
      | some rest => scanItems fuel depth (items ++ [value]) (skipSpace rest)
      | none =>
          required ((expect ']' (skipSpace rest)).map fun rest => (.arr (items ++ [value]), rest))

end

/-- `json.loads` of a text, where containers may be nested up to a depth: one value fills what is
left between the white space. -/
def loadsWithin (depth : Nat) (text : List Nat) : Except ScanError Parsed :=
  let body := trim isJsonSpace text
  match scanOnce (2 * body.length + 2) depth body with
  | .ok (value, []) => .ok value
  | .ok _ => .error .value
  | .error error => .error error

/-- `json.loads` of a text which is not nested too deep; `none` stands for its `ValueError`. -/
def loads (text : List Nat) : Option Json :=
  match loadsWithin (2 * (trim isJsonSpace text).length + 2) text with
  | .ok value => some value.toJson
  | .error _ => none

/-- What `detect_encoding` tells apart. -/
inductive ByteEncoding
  | utf8
  | utf8Sig
  | utf16 (mark bigEndian : Bool)
  | utf32 (mark bigEndian : Bool)
  deriving DecidableEq, Repr

/-- `detect_encoding`: a byte order mark, else where the first zero bytes stand. -/
def detectEncoding (bytes : List UInt8) : ByteEncoding :=
  if [0x00, 0x00, 0xfe, 0xff].isPrefixOf bytes then .utf32 true true
  else if [0xff, 0xfe, 0x00, 0x00].isPrefixOf bytes then .utf32 true false
  else if [0xfe, 0xff].isPrefixOf bytes then .utf16 true true
  else if [0xff, 0xfe].isPrefixOf bytes then .utf16 true false
  else if [0xef, 0xbb, 0xbf].isPrefixOf bytes then .utf8Sig
  else
    match bytes with
    | first :: second :: third :: fourth :: _ =>
        if first = 0 then if second ≠ 0 then .utf16 false true else .utf32 false true
        else if second = 0 then
          if third ≠ 0 ∨ fourth ≠ 0 then .utf16 false false else .utf32 false false
        else .utf8
    | [first, second] =>
        if first = 0 then .utf16 false true
        else if second = 0 then .utf16 false false
        else .utf8
    | _ => .utf8

/-- `bytes.decode(detect_encoding(bytes), "surrogatepass")`. -/
def decodeBytes (bytes : List UInt8) : Option (List Nat) :=
  match detectEncoding bytes with
  | .utf8 => utf8 true bytes
  | .utf8Sig => utf8 true (bytes.drop 3)
  | .utf16 mark bigEndian => utf16 bigEndian (if mark then bytes.drop 2 else bytes)
  | .utf32 mark bigEndian => utf32 bigEndian (if mark then bytes.drop 4 else bytes)

/-- `json.loads` of a byte string. -/
def loadsBytes (bytes : List UInt8) : Option Json := decodeBytes bytes >>= loads

section Trim

variable (text : List Nat)

theorem loads_append_space {tail : List Nat} (blank : ∀ code ∈ tail, isJsonSpace code = true) :
    loads (text ++ tail) = loads text := by
  rw [loads, loads, loadsWithin, loadsWithin, trim_append_space text blank]

theorem loads_trim : loads (trim isJsonSpace text) = loads text := by
  rw [loads, loads, loadsWithin, loadsWithin, trim_trim]

end Trim

section Depth

variable {fuel depth more : Nat} {fields : List (List Nat × Parsed)} {items : List Parsed}
  {text : List Nat} {outcome : Except ScanError (Parsed × List Nat)}

/-- A step which does not recurse too deep, and goes on in the same way with more room. -/
theorem bind_eq_of_ne {α β : Type} {first again : Except ScanError α}
    {next continued : α → Except ScanError β} (fits : first >>= next ≠ .error .recursion)
    (same : first ≠ .error .recursion → again = first)
    (same_next : ∀ value, next value ≠ .error .recursion → continued value = next value) :
    again >>= continued = first >>= next := by
  cases first with
  | error error =>
      cases error with
      | recursion => exact absurd rfl fits
      | value =>
          rw [same (by simp)]
          rfl
  | ok value =>
      rw [same (by simp)]
      exact same_next value fits

theorem enter_more {α : Type} {next : Nat → Except ScanError α}
    (fits : enter depth >>= next ≠ .error .recursion) (deeper : depth ≤ more)
    (same_next : ∀ inside outside, inside ≤ outside → next inside ≠ .error .recursion →
      next outside = next inside) : enter more >>= next = enter depth >>= next := by
  cases depth with
  | zero => exact absurd rfl fits
  | succ inside =>
      obtain ⟨outside, rfl⟩ := Nat.exists_eq_succ_of_ne_zero (Nat.ne_zero_of_lt deeper)
      exact same_next inside outside (Nat.le_of_succ_le_succ deeper) fits

theorem scan_more (fuel : Nat) (deeper : depth ≤ more) :
    (∀ text, scanOnce fuel depth text ≠ .error .recursion →
      scanOnce fuel more text = scanOnce fuel depth text) ∧
    (∀ fields text, scanMembers fuel depth fields text ≠ .error .recursion →
      scanMembers fuel more fields text = scanMembers fuel depth fields text) ∧
    (∀ items text, scanItems fuel depth items text ≠ .error .recursion →
      scanItems fuel more items text = scanItems fuel depth items text) := by
  induction fuel generalizing depth more with
  | zero => exact ⟨fun _ _ => rfl, fun _ _ _ => rfl, fun _ _ _ => rfl⟩
  | succ fuel induction =>
      obtain ⟨once, members, elements⟩ := induction deeper
      refine ⟨?_, ?_, ?_⟩
      · intro text fits
        cases text with
        | nil => rfl
        | cons first rest =>
            rw [scanOnce] at fits ⊢
            rw [scanOnce]
            split
            case isTrue => rfl
            case isFalse quote =>
                rw [if_neg quote] at fits
                split
                case isTrue brace =>
                    rw [if_pos brace] at fits
                    refine enter_more fits deeper fun inside outside nested => ?_
                    cases expect (Char.ofNat 0x7d) (skipSpace rest) with
                    | some rest => exact fun _ => rfl
                    | none => exact (induction nested).2.1 _ _
                case isFalse brace =>
                    rw [if_neg brace] at fits
                    split
                    case isTrue bracket =>
                        rw [if_pos bracket] at fits
                        refine enter_more fits deeper fun inside outside nested => ?_
                        cases expect ']' (skipSpace rest) with
                        | some rest => exact fun _ => rfl
                        | none => exact (induction nested).2.2 _ _
                    case isFalse => rfl
      · intro fields text fits
        rw [scanMembers] at fits ⊢
        rw [scanMembers]
        refine bind_eq_of_ne fits (fun _ => rfl) fun opened fits => ?_
        refine bind_eq_of_ne fits (fun _ => rfl) fun key fits => ?_
        refine bind_eq_of_ne fits (fun _ => rfl) fun colon fits => ?_
        refine bind_eq_of_ne fits (once _) fun value fits => ?_
        cases further : expect ',' (skipSpace value.2) with
        | none => simp only [further]
        | some rest =>
            simp only [further] at fits ⊢
            exact members _ _ fits
      · intro items text fits
        rw [scanItems] at fits ⊢
        rw [scanItems]
        refine bind_eq_of_ne fits (once _) fun value fits => ?_
        cases further : expect ',' (skipSpace value.2) with
        | none => simp only [further]
        | some rest =>
            simp only [further] at fits ⊢
            exact elements _ _ fits

theorem required_ne_recursion {α : Type} (found : Option α) :
    required found ≠ .error .recursion := by
  cases found <;> simp [required]

theorem bind_ne_recursion {α β : Type} {first : Except ScanError α}
    {next : α → Except ScanError β} (fits : first ≠ .error .recursion)
    (fits_next : ∀ value, next value ≠ .error .recursion) :
    first >>= next ≠ .error .recursion := by
  cases first with
  | error error =>
      intro raised
      cases raised
      exact fits rfl
  | ok value => exact fits_next value

theorem enter_ne_recursion {α : Type} {next : Nat → Except ScanError α}
    (room : fuel + 1 ≤ depth)
    (fits_next : ∀ inside, fuel ≤ inside → next inside ≠ .error .recursion) :
    enter depth >>= next ≠ .error .recursion := by
  obtain ⟨inside, rfl⟩ := Nat.exists_eq_succ_of_ne_zero (Nat.ne_zero_of_lt room)
  exact fits_next inside (Nat.le_of_succ_le_succ room)

/-- Every container takes a step of the measure, so there is room enough for all of them. -/
theorem scan_ne_recursion (fuel : Nat) (room : fuel ≤ depth) :
    (∀ text, scanOnce fuel depth text ≠ .error .recursion) ∧
    (∀ fields text, scanMembers fuel depth fields text ≠ .error .recursion) ∧
    (∀ items text, scanItems fuel depth items text ≠ .error .recursion) := by
  induction fuel generalizing depth with
  | zero => exact ⟨fun _ => by simp [scanOnce], fun _ _ => by simp [scanMembers],
      fun _ _ => by simp [scanItems]⟩
  | succ fuel induction =>
      obtain ⟨once, members, elements⟩ := induction (Nat.le_of_succ_le room)
      refine ⟨?_, ?_, ?_⟩
      · intro text
        cases text with
        | nil => simp [scanOnce]
        | cons first rest =>
            rw [scanOnce]
            split
            case isTrue => exact required_ne_recursion _
            case isFalse =>
                split
                case isTrue =>
                    refine enter_ne_recursion room fun inside nested => ?_
                    cases expect (Char.ofNat 0x7d) (skipSpace rest) with
                    | some rest => simp
                    | none => exact (induction nested).2.1 _ _
                case isFalse =>
                    split
                    case isTrue =>
                        refine enter_ne_recursion room fun inside nested => ?_
                        cases expect ']' (skipSpace rest) with
                        | some rest => simp
                        | none => exact (induction nested).2.2 _ _
                    case isFalse => exact required_ne_recursion _
      · intro fields text
        rw [scanMembers]
        refine bind_ne_recursion (required_ne_recursion _) fun opened => ?_
        refine bind_ne_recursion (required_ne_recursion _) fun key => ?_
        refine bind_ne_recursion (required_ne_recursion _) fun colon => ?_
        refine bind_ne_recursion (once _) fun value => ?_
        cases further : expect ',' (skipSpace value.2) with
        | none =>
            simp only [further]
            exact required_ne_recursion _
        | some rest =>
            simp only [further]
            exact members _ _
      · intro items text
        rw [scanItems]
        refine bind_ne_recursion (once _) fun value => ?_
        cases further : expect ',' (skipSpace value.2) with
        | none =>
            simp only [further]
            exact required_ne_recursion _
        | some rest =>
            simp only [further]
            exact elements _ _

theorem loads_of_loadsWithin {outcome : Except ScanError Parsed}
    (read : loadsWithin depth text = outcome) (fits : outcome ≠ .error .recursion) :
    loads text = outcome.toOption.map Parsed.toJson := by
  have same : scanOnce (2 * (trim isJsonSpace text).length + 2)
      (2 * (trim isJsonSpace text).length + 2) (trim isJsonSpace text) =
        scanOnce (2 * (trim isJsonSpace text).length + 2) depth (trim isJsonSpace text) := by
    rcases Nat.le_total depth (2 * (trim isJsonSpace text).length + 2) with deeper | shallower
    · refine (scan_more _ deeper).1 _ fun raised => fits ?_
      rw [← read, loadsWithin, raised]
    · exact ((scan_more _ shallower).1 _ ((scan_ne_recursion _ (Nat.le_refl _)).1 _)).symm
  have unbounded : loadsWithin (2 * (trim isJsonSpace text).length + 2) text = outcome := by
    rw [← read, loadsWithin, loadsWithin, same]
  rw [loads, unbounded]
  cases outcome <;> rfl

end Depth

theorem scanOnce_nested {depth fuel : Nat} (long : 2 * depth + 1 ≤ fuel) :
    scanOnce fuel depth (List.replicate (depth + 1) '['.toNat) = .error .recursion := by
  induction depth generalizing fuel with
  | zero =>
      obtain ⟨fuel, rfl⟩ := Nat.exists_eq_succ_of_ne_zero (Nat.ne_zero_of_lt long)
      rw [List.replicate_succ, scanOnce, if_neg (by decide), if_neg (by decide), if_pos rfl]
      rfl
  | succ depth induction =>
      obtain ⟨fuel, rfl⟩ : ∃ rest, fuel = rest + 2 := Nat.exists_eq_add_of_le' (by omega)
      have inner : List.replicate (depth + 1) '['.toNat =
          '['.toNat :: List.replicate depth '['.toNat := rfl
      have solid : skipSpace (List.replicate (depth + 1) '['.toNat) =
          List.replicate (depth + 1) '['.toNat := by
        rw [inner]
        rfl
      have opened : expect ']' (List.replicate (depth + 1) '['.toNat) = none := by
        rw [inner]
        rfl
      rw [List.replicate_succ, scanOnce, if_neg (by decide), if_neg (by decide), if_pos rfl, enter]
      have inside := induction (show 2 * depth + 1 ≤ fuel by omega)
      simp only [solid, opened, bind, Except.bind, scanItems, inside]

end Hermes.JsonDecoder
