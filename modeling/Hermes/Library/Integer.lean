import Hermes.Library.Encoding
import Hermes.Library.Text
import Mathlib.Tactic.Ring
import Mathlib.Tactic.IntervalCases

/-!
# Integers as text

`int` of a string and of a byte string in base ten.  Both take a sign and white space at the ends,
and underscores between the digits; they differ in what is white space.
-/

namespace Hermes.Integer

/-- `int` of a text: white space around a sign and decimal digits, which single underscores may
part.  `none` is a `ValueError`. -/
def ofText (space : Nat → Bool) (text : List Nat) : Option Int :=
  let body := Encoding.trim space text
  let negative := body.head? == some '-'.toNat
  let digits := if negative || body.head? == some '+'.toNat then body.tail else body
  let groups := digits.splitOn '_'.toNat
  if groups.any List.isEmpty then none
  else
    (Text.toInt (groups.flatten.map Char.ofNat)).map fun value : Nat =>
      if negative then -(value : Int) else value

/-- `int` of a string. -/
def ofCodes (text : List Nat) : Option Int := ofText Encoding.isSpace text

def isAsciiSpace (code : Nat) : Bool := decide (0x09 ≤ code ∧ code ≤ 0x0d) || code == 0x20

/-- `int` of a byte string. -/
def ofBytes (bytes : List UInt8) : Option Int := ofText isAsciiSpace (bytes.map UInt8.toNat)

/-- `str` of an integer, as code points. -/
def digits (value : Int) : List Nat :=
  if value < 0 then '-'.toNat :: (Nat.toDigits 10 value.natAbs).map Char.toNat
  else (Nat.toDigits 10 value.natAbs).map Char.toNat

/-- `str` of an integer; `none` is the `ValueError` of one with too many digits. -/
def toCodes (value : Int) : Option (List Nat) :=
  if value.natAbs < 10 ^ Text.maxStrDigits then some (digits value) else none

section RoundTrip

variable {value : Int}

theorem digit_bounds {code number : Nat}
    (listed : code ∈ (Nat.toDigits 10 number).map Char.toNat) : 0x30 ≤ code ∧ code ≤ 0x39 := by
  obtain ⟨char, written, rfl⟩ := List.mem_map.mp listed
  have digit := Nat.isDigit_of_mem_toDigits (by decide) (by decide) written
  simp only [Char.isDigit, Bool.and_eq_true, decide_eq_true_eq, ge_iff_le] at digit
  exact ⟨UInt32.le_iff_toNat_le.mp digit.1, UInt32.le_iff_toNat_le.mp digit.2⟩

/-- An integer is written with digits, and a sign if it is negative. -/
theorem mem_digits {code : Nat} (listed : code ∈ digits value) :
    code = '-'.toNat ∨ 0x30 ≤ code ∧ code ≤ 0x39 := by
  rw [digits] at listed
  split at listed
  · exact (List.mem_cons.mp listed).imp id digit_bounds
  · exact .inr (digit_bounds listed)

theorem digits_ascii {code : Nat} (listed : code ∈ digits value) : code < 0x80 := by
  rcases mem_digits listed with rfl | bounds
  · decide
  · omega

/-- Digits without a sign are read as the number they write. -/
theorem toInt_groups {number : Nat} (small : number < 10 ^ Text.maxStrDigits) :
    let groups := ((Nat.toDigits 10 number).map Char.toNat).splitOn '_'.toNat
    groups.any List.isEmpty = false ∧
      Text.toInt (groups.flatten.map Char.ofNat) = some number := by
  have plain : '_'.toNat ∉ (Nat.toDigits 10 number).map Char.toNat := by
    intro listed
    have bounds := digit_bounds listed
    exact absurd bounds.2 (by decide)
  have nonempty : (Nat.toDigits 10 number).map Char.toNat ≠ [] := by
    simp [Nat.toDigits_ne_nil]
  have back :
      ((Nat.toDigits 10 number).map Char.toNat).map Char.ofNat = Nat.toDigits 10 number := by
    rw [List.map_map]
    exact (List.map_congr_left fun char _ => Char.ofNat_toNat char).trans (List.map_id _)
  simp only [List.splitOn_eq_singleton plain, List.any_cons, List.any_nil, Bool.or_false,
    List.flatten_cons, List.flatten_nil, List.append_nil, List.isEmpty_eq_false_iff]
  exact ⟨nonempty, by rw [back, Text.toInt_toDigits small]⟩

theorem ofCodes_digits (small : value.natAbs < 10 ^ Text.maxStrDigits) :
    ofCodes (digits value) = some value := by
  have solid : ∀ code ∈ digits value, Encoding.isSpace code = false := by
    intro code listed
    rcases mem_digits listed with rfl | ⟨low, high⟩
    · rfl
    · simp only [Encoding.isSpace]
      interval_cases code <;> rfl
  obtain ⟨filled, read⟩ := toInt_groups small
  rw [ofCodes, ofText, Encoding.trim_of_solid solid, digits]
  by_cases negative : value < 0
  · simp only [if_pos negative, List.head?_cons, beq_self_eq_true, Bool.true_or, if_true,
      List.tail_cons, filled, Bool.false_eq_true, if_false, read, Option.map_some]
    exact congrArg some (by omega)
  · obtain ⟨first, rest, spelled⟩ : ∃ first rest,
        (Nat.toDigits 10 value.natAbs).map Char.toNat = first :: rest :=
      List.exists_cons_of_ne_nil (by simp [Nat.toDigits_ne_nil])
    have bounds : 0x30 ≤ first ∧ first ≤ 0x39 := digit_bounds (by rw [spelled]; exact .head _)
    have unsigned :
        (some first == some '-'.toNat) = false ∧ (some first == some '+'.toNat) = false := by
      constructor
      · rw [beq_eq_false_iff_ne]
        rintro same
        cases same
        exact absurd bounds.1 (by decide)
      · rw [beq_eq_false_iff_ne]
        rintro same
        cases same
        exact absurd bounds.1 (by decide)
    rw [spelled] at filled read
    simp only [if_neg negative, spelled, List.head?_cons, unsigned.1, unsigned.2, Bool.or_self,
      Bool.false_eq_true, if_false, filled, read, Option.map_some]
    exact congrArg some (by omega)

end RoundTrip

section Bound

theorem decimalValue_lt {char : Char} {digit : Nat} (read : Text.decimalValue char = some digit) :
    digit < 10 := by
  obtain ⟨first, found, rfl⟩ := Option.map_eq_some_iff.mp read
  have inside := List.find?_some found
  simp only [decide_eq_true_eq] at inside
  omega

theorem digitsValue_lt {text : List Char} {number : Nat}
    (read : Text.digitsValue text = some number) : number < 10 ^ text.length := by
  have general : ∀ start, text.foldlM
      (fun value char => (Text.decimalValue char).map (10 * value + ·)) start = some number →
        number < (start + 1) * 10 ^ text.length := by
    clear read
    induction text with
    | nil =>
        intro start same
        cases same
        simp
    | cons char text induction =>
        intro start same
        rw [List.foldlM_cons] at same
        obtain ⟨next, digit_read, later⟩ := Option.bind_eq_some_iff.mp same
        obtain ⟨digit, value, rfl⟩ := Option.map_eq_some_iff.mp digit_read
        have small := decimalValue_lt value
        have bound := induction _ later
        calc number < (10 * start + digit + 1) * 10 ^ text.length := bound
          _ ≤ (10 * start + 10) * 10 ^ text.length := Nat.mul_le_mul_right _ (by omega)
          _ = (start + 1) * 10 ^ (char :: text).length := by
              rw [List.length_cons, Nat.pow_succ]
              ring
  simpa using general 0 read

theorem natAbs_lt_of_ofText {space : Nat → Bool} {text : List Nat} {value : Int}
    (read : ofText space text = some value) : value.natAbs < 10 ^ Text.maxStrDigits := by
  simp only [ofText] at read
  generalize List.splitOn '_'.toNat _ = groups at read
  generalize ((Encoding.trim space text).head? == some '-'.toNat) = negative at read
  split at read
  · cases read
  obtain ⟨number, written, same⟩ := Option.map_eq_some_iff.mp read
  have small : number < 10 ^ Text.maxStrDigits := by
    rw [Text.toInt] at written
    split at written
    · cases written
    · exact (digitsValue_lt written).trans_le (Nat.pow_le_pow_right (by decide) (by omega))
  have size : value.natAbs = number := by
    cases negative
    · simp only [Bool.false_eq_true, if_false] at same
      omega
    · simp only [if_true] at same
      omega
  rwa [size]

theorem toCodes_of_ofText {space : Nat → Bool} {text : List Nat} {value : Int}
    (read : ofText space text = some value) : toCodes value = some (digits value) :=
  if_pos (natAbs_lt_of_ofText read)

end Bound

end Hermes.Integer
