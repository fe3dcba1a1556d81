import Hermes.Library.JsonDecoder
import Hermes.Library.Surrogateescape

/-!
# The JSON encoder

`json.dumps` of a text with `ensure_ascii`: what is no printable ASCII is written as one escape, or
as two where it is a character beyond the sixteen-bit ones.  A text without high surrogates, lone
low ones among its characters, is read back as it was.
-/

namespace Hermes.JsonEncoder

open Encoding JsonDecoder

def hexDigit (value : Nat) : Nat := if value < 10 then 0x30 + value else 0x61 + (value - 10)

/-- `\uXXXX`. -/
def escapeUnit (unit : Nat) : List Nat :=
  ['\\'.toNat, 'u'.toNat, hexDigit (unit / 4096), hexDigit (unit / 256 % 16),
    hexDigit (unit / 16 % 16), hexDigit (unit % 16)]

/-- The letters of `ESCAPE_DCT`. -/
def shortEscapes : List (Char × Nat) :=
  [('\\', 0x5c), ('"', 0x22), ('b', 0x08), ('f', 0x0c), ('n', 0x0a), ('r', 0x0d), ('t', 0x09)]

def writeCode (code : Nat) : List Nat :=
  match shortEscapes.find? (·.2 == code) with
  | some escape => ['\\'.toNat, escape.1.toNat]
  | none =>
      if 0x20 ≤ code ∧ code ≤ 0x7e then [code]
      else if code < 0x10000 then escapeUnit code
      else escapeUnit (0xd800 + (code - 0x10000) / 1024) ++
        escapeUnit (0xdc00 + (code - 0x10000) % 1024)

/-- `json.dumps` of a text. -/
def dumpsText (text : List Nat) : List Nat :=
  '"'.toNat :: text.flatMap writeCode ++ ['"'.toNat]

theorem hexDigits_append {digits : List Nat} {value number : Nat} (small : value < 16)
    (read : hexDigits digits = some number) :
    hexDigits (digits ++ [hexDigit value]) = some (16 * number + value) := by
  rw [hexDigits] at read
  rw [hexDigits, List.foldlM_append, read]
  simp only [Option.bind_eq_bind, Option.bind_some, List.foldlM_cons, List.foldlM_nil, hexDigit]
  grind

/-- An escape is read as the unit it was written for. -/
theorem hexDigits_escapeUnit {unit : Nat} (small : unit < 0x10000) :
    hexDigits [hexDigit (unit / 4096), hexDigit (unit / 256 % 16), hexDigit (unit / 16 % 16),
      hexDigit (unit % 16)] = some unit := by
  have nothing : hexDigits [] = some 0 := rfl
  have first := hexDigits_append (show unit / 4096 < 16 by omega) nothing
  have second := hexDigits_append (show unit / 256 % 16 < 16 by omega) first
  have third := hexDigits_append (show unit / 16 % 16 < 16 by omega) second
  have fourth := hexDigits_append (show unit % 16 < 16 by omega) third
  refine fourth.trans (congrArg some ?_)
  omega

theorem hexDigit_lt {value : Nat} (small : value < 16) : hexDigit value < 0x80 := by
  rw [hexDigit]
  split <;> omega

theorem escapeUnit_lt {unit : Nat} (small : unit < 0x10000) :
    ∀ code ∈ escapeUnit unit, code < 0x80 := by
  have first := hexDigit_lt (show unit / 4096 < 16 by omega)
  have second := hexDigit_lt (show unit / 256 % 16 < 16 by omega)
  have third := hexDigit_lt (show unit / 16 % 16 < 16 by omega)
  have fourth := hexDigit_lt (show unit % 16 < 16 by omega)
  simp [escapeUnit, first, second, third, fourth]

theorem writeCode_lt {code : Nat} (valid : code < 0x110000) :
    ∀ written ∈ writeCode code, written < 0x80 := by
  have short : ∀ escape ∈ shortEscapes, escape.1.toNat < 0x80 := by decide
  rw [writeCode]
  split
  case h_1 escape found =>
      have small := short escape (List.mem_of_find?_eq_some found)
      simp [small]
  case h_2 =>
      split
      case isTrue printable =>
          rw [List.forall_mem_singleton]
          omega
      case isFalse =>
          split
          case isTrue small => exact escapeUnit_lt small
          case isFalse large =>
              intro written listed
              rcases List.mem_append.mp listed with high | low
              · exact escapeUnit_lt (by omega) written high
              · exact escapeUnit_lt (by omega) written low

theorem length_le_flatMap (text : List Nat) : text.length ≤ (text.flatMap writeCode).length := by
  induction text with
  | nil => exact Nat.le_refl 0
  | cons code text induction =>
      have nonempty : 0 < (writeCode code).length := by
        rw [writeCode]
        split
        · exact Nat.succ_pos _
        · split
          · exact Nat.succ_pos _
          · split <;> exact Nat.succ_pos _
      rw [List.flatMap_cons, List.length_append, List.length_cons]
      omega

section Scan

variable {fuel code : Nat} {rest : List Nat}

theorem scanString_escapeUnit {unit : Nat} (small : unit < 0x10000)
    (single : isHighSurrogate unit = false) :
    scanString (fuel + 1) (escapeUnit unit ++ rest) =
      (scanString fuel rest).map (Prod.map (unit :: ·) id) := by
  have written := hexDigits_escapeUnit small
  simp [escapeUnit, scanString, written, single]

theorem joinSurrogates_add (high low : Nat) :
    joinSurrogates (0xd800 + high) (0xdc00 + low) = 0x10000 + (1024 * high + low) := by
  have high_back : 0xd800 + high - 0xd800 = high := Nat.add_sub_cancel_left ..
  have low_back : 0xdc00 + low - 0xdc00 = low := Nat.add_sub_cancel_left ..
  calc
    joinSurrogates (0xd800 + high) (0xdc00 + low) =
        0x10000 + 1024 * (0xd800 + high - 0xd800) + (0xdc00 + low - 0xdc00) := rfl
    _ = 0x10000 + 1024 * high + low := by rw [high_back, low_back]
    _ = 0x10000 + (1024 * high + low) := Nat.add_assoc ..

theorem scanString_pair {high low : Nat} (is_high : isHighSurrogate high = true)
    (is_low : isLowSurrogate low = true) :
    scanString (fuel + 1) (escapeUnit high ++ escapeUnit low ++ rest) =
      (scanString fuel rest).map (Prod.map (joinSurrogates high low :: ·) id) := by
  have high_small : high < 0x10000 := by
    simp only [isHighSurrogate, decide_eq_true_eq] at is_high
    omega
  have low_small : low < 0x10000 := by
    simp only [isLowSurrogate, decide_eq_true_eq] at is_low
    omega
  have high_written := hexDigits_escapeUnit high_small
  have low_written := hexDigits_escapeUnit low_small
  simp [escapeUnit, scanString, lowEscape, high_written, low_written, is_high, is_low]

theorem scanString_short {escape : Char × Nat} (listed : escape ∈ shortEscapes) :
    scanString (fuel + 1) ('\\'.toNat :: escape.1.toNat :: rest) =
      (scanString fuel rest).map (Prod.map (escape.2 :: ·) id) := by
  have known : ∀ escape ∈ shortEscapes, escape.1.toNat ≠ 'u'.toNat ∧
      escapes.find? (·.1.toNat == escape.1.toNat) = some escape := by
    decide
  obtain ⟨plain, found⟩ := known escape listed
  rw [scanString, if_neg (by decide), if_neg (by decide), if_neg (by simp)]
  simp only [if_neg plain, found, Option.bind_some]

theorem scanString_plain (quote : code ≠ '"'.toNat) (printable : ¬ code < 0x20)
    (backslash : code ≠ '\\'.toNat) :
    scanString (fuel + 1) (code :: rest) =
      (scanString fuel rest).map (Prod.map (code :: ·) id) := by
  cases rest <;> rw [scanString, if_neg quote, if_neg printable, if_pos backslash]

theorem scanString_writeCode (valid : code < 0x110000) (single : isHighSurrogate code = false) :
    scanString (fuel + 1) (writeCode code ++ rest) =
      (scanString fuel rest).map (Prod.map (code :: ·) id) := by
  rw [writeCode]
  cases found : shortEscapes.find? (·.2 == code) with
  | some escape =>
      have named : escape.2 = code := by simpa using List.find?_some found
      rw [← named]
      exact scanString_short (List.mem_of_find?_eq_some found)
  | none =>
      simp only
      split
      case isTrue printable =>
          have quote : code ≠ '"'.toNat := by
            rintro rfl
            revert found
            decide
          have backslash : code ≠ '\\'.toNat := by
            rintro rfl
            revert found
            decide
          exact scanString_plain quote (by omega) backslash
      case isFalse =>
          split
          case isTrue small => exact scanString_escapeUnit small single
          case isFalse large =>
              have is_high : isHighSurrogate (0xd800 + (code - 0x10000) / 1024) = true := by
                simp only [isHighSurrogate, decide_eq_true_eq]
                omega
              have is_low : isLowSurrogate (0xdc00 + (code - 0x10000) % 1024) = true := by
                simp only [isLowSurrogate, decide_eq_true_eq]
                omega
              have joined : joinSurrogates (0xd800 + (code - 0x10000) / 1024)
                  (0xdc00 + (code - 0x10000) % 1024) = code := by
                rw [joinSurrogates_add, Nat.div_add_mod,
                  Nat.add_sub_of_le (Nat.le_of_not_lt large)]
              rw [scanString_pair is_high is_low, joined]

/-- A text without high surrogates is read back up to the closing quote. -/
theorem scanString_flatMap {text : List Nat} (long : text.length < fuel)
    (plain : ∀ code ∈ text, code < 0x110000 ∧ isHighSurrogate code = false) :
    scanString fuel (text.flatMap writeCode ++ '"'.toNat :: rest) = some (text, rest) := by
  induction text generalizing fuel with
  | nil =>
      obtain ⟨fuel, rfl⟩ := Nat.exists_eq_succ_of_ne_zero (Nat.ne_of_gt long)
      rfl
  | cons code text induction =>
      obtain ⟨fuel, rfl⟩ := Nat.exists_eq_succ_of_ne_zero (Nat.ne_zero_of_lt long)
      obtain ⟨valid, single⟩ := plain code List.mem_cons_self
      rw [List.flatMap_cons, List.append_assoc, scanString_writeCode valid single,
        induction (Nat.lt_of_succ_lt_succ long) fun other listed =>
          plain other (List.mem_cons_of_mem _ listed)]
      rfl

/-- A text which needs no escape is read as it stands. -/
theorem scanString_append {text : List Nat} (long : text.length < fuel)
    (plain : ∀ code ∈ text, 0x20 ≤ code ∧ code ≠ '"'.toNat ∧ code ≠ '\\'.toNat) :
    scanString fuel (text ++ '"'.toNat :: rest) = some (text, rest) := by
  induction text generalizing fuel with
  | nil =>
      obtain ⟨fuel, rfl⟩ := Nat.exists_eq_succ_of_ne_zero (Nat.ne_of_gt long)
      rfl
  | cons code text induction =>
      obtain ⟨fuel, rfl⟩ := Nat.exists_eq_succ_of_ne_zero (Nat.ne_zero_of_lt long)
      obtain ⟨printable, quote, backslash⟩ := plain code List.mem_cons_self
      rw [List.cons_append, scanString_plain quote (Nat.not_lt.mpr printable) backslash,
        induction (Nat.lt_of_succ_lt_succ long) fun other listed =>
          plain other (List.mem_cons_of_mem _ listed)]
      rfl

end Scan

section Number

variable {number : Nat}

def digitCodes (number : Nat) : List Nat := (Nat.toDigits 10 number).map Char.toNat

theorem isDigit_of_mem {code : Nat} (listed : code ∈ digitCodes number) :
    isDigit code = true := by
  rw [digitCodes, List.mem_map] at listed
  obtain ⟨char, listed, rfl⟩ := listed
  have digit := Nat.isDigit_of_mem_toDigits (by decide) (by decide) listed
  simp only [Char.isDigit, Bool.and_eq_true, decide_eq_true_eq, ge_iff_le] at digit
  have low := UInt32.le_iff_toNat_le.mp digit.1
  have high := UInt32.le_iff_toNat_le.mp digit.2
  exact decide_eq_true ⟨low, high⟩

theorem decimal_digitCodes : decimal (digitCodes number) = number := by
  have value := @Nat.ofDigitChars_ten_toDigits number
  rw [Nat.ofDigitChars] at value
  rw [decimal, digitCodes, List.foldl_map]
  exact value

/-- Digits write a number below the power of their count. -/
theorem decimal_lt (digits : List Nat) (all : ∀ code ∈ digits, isDigit code = true) :
    decimal digits < 10 ^ digits.length := by
  induction digits using List.reverseRecOn with
  | nil => simp [decimal]
  | append_singleton digits code induction =>
      have before := induction fun other listed => all other (List.mem_append_left _ listed)
      have digit : isDigit code = true := all code (by simp)
      simp only [isDigit, decide_eq_true_eq] at digit
      rw [decimal] at before
      rw [decimal, List.foldl_append, List.foldl_cons, List.foldl_nil, List.length_append,
        List.length_singleton, Nat.pow_succ]
      omega

theorem head_digitCodes {first : Nat} {others : List Nat}
    (written : digitCodes number = first :: others) (nonempty : others ≠ []) :
    first ≠ '0'.toNat := by
  rintro rfl
  have length : (Nat.toDigits 10 number).length = others.length + 1 := by
    rw [← List.length_map Char.toNat, ← digitCodes, written, List.length_cons]
  have value : decimal others = number := by
    rw [← @decimal_digitCodes number, written]
    rfl
  have small := decimal_lt others fun code listed =>
    @isDigit_of_mem number code (written ▸ List.mem_cons_of_mem _ listed)
  rw [value] at small
  have short : (Nat.toDigits 10 number).length ≤ others.length :=
    (Nat.length_toDigits_le_iff (by decide) (List.length_pos_iff.mpr nonempty)).mpr small
  omega

theorem digitCodes_ne_nil : digitCodes number ≠ [] := by
  rw [digitCodes, ne_eq, List.map_eq_nil_iff]
  exact Nat.toDigits_ne_nil

/-- A number in front of a comma is read as far as its digits go. -/
theorem scanNumber_digitCodes (small : number < 10 ^ Text.maxStrDigits) (rest : List Nat) :
    scanNumber (digitCodes number ++ ','.toNat :: rest) =
      some (.int number, ','.toNat :: rest) := by
  have short : (digitCodes number).length ≤ Text.maxStrDigits := by
    rw [digitCodes, List.length_map]
    exact (Nat.length_toDigits_le_iff (by decide) (by decide)).mpr small
  have digits := @isDigit_of_mem number
  have value := @decimal_digitCodes number
  have leading := @head_digitCodes number
  cases written : digitCodes number with
  | nil => exact absurd written digitCodes_ne_nil
  | cons first others =>
      rw [written] at short digits value
      have first_digit := digits List.mem_cons_self
      have unsigned : ((first :: others ++ ','.toNat :: rest).head? == some '-'.toNat) = false := by
        simp only [isDigit, decide_eq_true_eq] at first_digit
        simp only [List.cons_append, List.head?_cons, beq_eq_false_iff_ne, ne_eq, Option.some.injEq]
        rintro rfl
        exact absurd first_digit (by decide)
      have taken : (if (first :: others ++ ','.toNat :: rest).head? == some '0'.toNat
          then ['0'.toNat] else (first :: others ++ ','.toNat :: rest).takeWhile isDigit) =
          first :: others := by
        split
        case isTrue zero =>
            have first_zero : first = '0'.toNat := by simpa using zero
            cases others with
            | nil => rw [first_zero]
            | cons second others =>
                exact absurd first_zero (leading written (List.cons_ne_nil _ _))
        case isFalse =>
            rw [List.takeWhile_append_of_pos fun _ listed => digits listed]
            simp [isDigit]
      have dropped : (first :: others ++ ','.toNat :: rest).drop (first :: others).length =
          ','.toNat :: rest := List.drop_left
      have fraction : scanFraction (','.toNat :: rest) = ([], ','.toNat :: rest) := rfl
      have exponent : scanExponent (','.toNat :: rest) = (none, ','.toNat :: rest) := rfl
      simp only [scanNumber, unsigned, Bool.false_eq_true, if_false, taken, dropped, fraction,
        exponent]
      rw [if_neg (List.cons_ne_nil _ _), if_pos ⟨trivial, trivial⟩, if_neg (Nat.not_lt.mpr short),
        value]

end Number

section Members

variable {fuel depth : Nat} {fields : List (List Nat × Parsed)} {key text rest : List Nat}
  {value : Parsed}

theorem scanOnce_quote (found : scanString (fuel + 1) text = some (key, rest)) :
    scanOnce (fuel + 1) depth ('"'.toNat :: text) = .ok (.str key, rest) := by
  rw [scanOnce, if_pos rfl, found]
  rfl

theorem scanOnce_digitCodes {number : Nat} (small : number < 10 ^ Text.maxStrDigits) :
    scanOnce (fuel + 1) depth (digitCodes number ++ ','.toNat :: rest) =
      .ok (.int number, ','.toNat :: rest) := by
  have scanned := scanNumber_digitCodes small rest
  have digits := @isDigit_of_mem number
  cases written : digitCodes number with
  | nil => exact absurd written digitCodes_ne_nil
  | cons first others =>
      rw [written] at scanned digits
      have digit := digits List.mem_cons_self
      simp only [isDigit, decide_eq_true_eq] at digit
      rw [List.cons_append] at scanned ⊢
      have bracket : '['.toNat = 91 := rfl
      have quote : '"'.toNat = 34 := rfl
      rw [scanOnce, if_neg (by omega), if_neg (by omega), if_neg (by omega), scanned]
      rfl

theorem skipSpace_digitCodes {number : Nat} :
    skipSpace (digitCodes number ++ rest) = digitCodes number ++ rest := by
  have digits := @isDigit_of_mem number
  cases written : digitCodes number with
  | nil => exact absurd written digitCodes_ne_nil
  | cons first others =>
      rw [written] at digits
      have digit := digits List.mem_cons_self
      simp only [isDigit, decide_eq_true_eq] at digit
      have solid : isJsonSpace first = false := by
        simp only [isJsonSpace, List.contains_cons, List.contains_nil, Bool.or_eq_false_iff,
          beq_eq_false_iff_ne, and_true]
        omega
      rw [List.cons_append, skipSpace, List.dropWhile_cons_of_neg (by simp [solid])]

theorem scanMembers_comma (short : key.length ≤ fuel)
    (plain : ∀ code ∈ key, 0x20 ≤ code ∧ code ≠ '"'.toNat ∧ code ≠ '\\'.toNat)
    (solid : skipSpace text = text)
    (scanned : scanOnce fuel depth text = .ok (value, ','.toNat :: '"'.toNat :: rest)) :
    scanMembers (fuel + 1) depth fields
        ('"'.toNat :: (key ++ '"'.toNat :: ':'.toNat :: text)) =
      scanMembers fuel depth (insert fields key value) ('"'.toNat :: rest) := by
  have named : scanString (fuel + 1) (key ++ '"'.toNat :: ':'.toNat :: text) =
      some (key, ':'.toNat :: text) := scanString_append (Nat.lt_succ_of_le short) plain
  have opened : expect '"' ('"'.toNat :: (key ++ '"'.toNat :: ':'.toNat :: text)) =
      some (key ++ '"'.toNat :: ':'.toNat :: text) := rfl
  have colon : expect ':' (skipSpace (':'.toNat :: text)) = some text := rfl
  have comma : expect ',' (skipSpace (','.toNat :: '"'.toNat :: rest)) =
      some ('"'.toNat :: rest) := rfl
  have quote : skipSpace ('"'.toNat :: rest) = '"'.toNat :: rest := rfl
  rw [scanMembers, opened]
  simp only [required, named, colon, solid, scanned, comma, quote, bind, Except.bind]

theorem scanMembers_last (short : key.length ≤ fuel)
    (plain : ∀ code ∈ key, 0x20 ≤ code ∧ code ≠ '"'.toNat ∧ code ≠ '\\'.toNat)
    (solid : skipSpace text = text)
    (scanned : scanOnce fuel depth text = .ok (value, 0x7d :: rest)) :
    scanMembers (fuel + 1) depth fields
        ('"'.toNat :: (key ++ '"'.toNat :: ':'.toNat :: text)) =
      .ok (.obj (insert fields key value), rest) := by
  have named : scanString (fuel + 1) (key ++ '"'.toNat :: ':'.toNat :: text) =
      some (key, ':'.toNat :: text) := scanString_append (Nat.lt_succ_of_le short) plain
  have opened : expect '"' ('"'.toNat :: (key ++ '"'.toNat :: ':'.toNat :: text)) =
      some (key ++ '"'.toNat :: ':'.toNat :: text) := rfl
  have colon : expect ':' (skipSpace (':'.toNat :: text)) = some text := rfl
  have comma : expect ',' (skipSpace (0x7d :: rest)) = none := rfl
  have brace : expect (Char.ofNat 0x7d) (skipSpace (0x7d :: rest)) = some rest := rfl
  rw [scanMembers, opened]
  simp only [required, named, colon, solid, scanned, comma, brace, bind, Except.bind,
    Option.map_some]

end Members

end Hermes.JsonEncoder
