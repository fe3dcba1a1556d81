import Mathlib.Algebra.Group.Nat.Defs
import Mathlib.Data.List.Basic

/-!
# Text methods

`isdigit`, `int` and `rpartition` of character strings, as Python documents them: a digit is any
character whose numeric type is decimal or digit, and only the decimal ones have a value for `int`.
-/

namespace Hermes.Text

/-- The zeros of the blocks of ten decimal digits. -/
def decimalZeros : List Nat :=
  [0x30, 0x660, 0x6f0, 0x7c0, 0x966, 0x9e6, 0xa66, 0xae6, 0xb66, 0xbe6, 0xc66, 0xce6, 0xd66,
    0xde6, 0xe50, 0xed0, 0xf20, 0x1040, 0x1090, 0x17e0, 0x1810, 0x1946, 0x19d0, 0x1a80, 0x1a90,
    0x1b50, 0x1bb0, 0x1c40, 0x1c50, 0xa620, 0xa8d0, 0xa900, 0xa9d0, 0xa9f0, 0xaa50, 0xabf0, 0xff10,
    0x104a0, 0x10d30, 0x11066, 0x110f0, 0x11136, 0x111d0, 0x112f0, 0x11450, 0x114d0, 0x11650,
    0x116c0, 0x11730, 0x118e0, 0x11950, 0x11c50, 0x11d50, 0x11da0, 0x11f50, 0x16a60, 0x16ac0,
    0x16b50, 0x1d7ce, 0x1d7d8, 0x1d7e2, 0x1d7ec, 0x1d7f6, 0x1e140, 0x1e2f0, 0x1e4f0, 0x1e950,
    0x1fbf0]

/-- The digits which are not decimal, such as superscripts and circled digits. -/
def otherDigits : List (Nat × Nat) :=
  [(0xb2, 0xb3), (0xb9, 0xb9), (0x1369, 0x1371), (0x19da, 0x19da), (0x2070, 0x2070),
    (0x2074, 0x2079), (0x2080, 0x2089), (0x2460, 0x2468), (0x2474, 0x247c), (0x2488, 0x2490),
    (0x24ea, 0x24ea), (0x24f5, 0x24fd), (0x24ff, 0x24ff), (0x2776, 0x277e), (0x2780, 0x2788),
    (0x278a, 0x2792), (0x10a40, 0x10a43), (0x10e60, 0x10e68), (0x11052, 0x1105a),
    (0x1f100, 0x1f10a)]

def decimalValue (char : Char) : Option Nat :=
  (decimalZeros.find? fun first => decide (first ≤ char.toNat ∧ char.toNat < first + 10)).map
    (char.toNat - ·)

/-- `str.isdigit` of one character. -/
def isDigitChar (char : Char) : Bool :=
  (decimalValue char).isSome ||
    otherDigits.any fun range => decide (range.1 ≤ char.toNat ∧ char.toNat ≤ range.2)

/-- `str.isdigit`. -/
def isDigit (text : List Char) : Bool := !text.isEmpty && text.all isDigitChar

/-- How many digits `int` converts before it refuses. -/
def maxStrDigits : Nat := 4300

/-- The number a list of decimal digits writes. -/
def digitsValue (text : List Char) : Option Nat :=
  text.foldlM (fun value char => (decimalValue char).map (10 * value + ·)) 0

/-- `int` of a string of digits; `none` where it raises `ValueError`. -/
def toInt (text : List Char) : Option Nat :=
  if maxStrDigits < text.length then none else digitsValue text

/-- `text.rpartition(separator)` without the middle: all of the text is the tail when the separator
does not occur. -/
def rpartition (separator : Char) : List Char → List Char × List Char
  | [] => ([], [])
  | char :: text =>
      if separator ∈ text then
        (char :: (rpartition separator text).1, (rpartition separator text).2)
      else if char = separator then ([], text)
      else ([], char :: text)

theorem rpartition_append (separator : Char) (text tail : List Char) (absent : separator ∉ tail) :
    rpartition separator (text ++ separator :: tail) = (text, tail) := by
  induction text with
  | nil => rw [List.nil_append, rpartition, if_neg absent, if_pos rfl]
  | cons char text induction =>
      have occurs : separator ∈ text ++ separator :: tail := by simp
      rw [List.cons_append, rpartition, if_pos occurs, induction]

/-- The digits from zero to nine are the first block. -/
theorem decimalValue_of_ascii {char : Char} (digit : char.isDigit = true) :
    decimalValue char = some (char.toNat - '0'.toNat) := by
  have bounds : 0x30 ≤ char.toNat ∧ char.toNat < 0x30 + 10 := by
    simp only [Char.isDigit, Bool.and_eq_true, decide_eq_true_eq, ge_iff_le] at digit
    have low := UInt32.le_iff_toNat_le.mp digit.1
    have high := UInt32.le_iff_toNat_le.mp digit.2
    simp only [Char.toNat] at *
    change 48 ≤ char.val.toNat at low
    change char.val.toNat ≤ 57 at high
    omega
  rw [decimalValue, decimalZeros, List.find?_cons_of_pos (by simpa using bounds)]
  rfl

theorem digitsValue_ascii (text : List Char) (digits : ∀ char ∈ text, char.isDigit = true) :
    digitsValue text = some (Nat.ofDigitChars 10 text 0) := by
  have general (start : Nat) :
      text.foldlM (fun value char => (decimalValue char).map (10 * value + ·)) start =
        some (Nat.ofDigitChars 10 text start) := by
    induction text generalizing start with
    | nil => rfl
    | cons char text induction =>
        have head := decimalValue_of_ascii (digits char List.mem_cons_self)
        rw [List.foldlM_cons, head, Nat.ofDigitChars_cons]
        exact induction (fun other listed => digits other (List.mem_cons_of_mem _ listed)) _
  exact general 0

/-- `str.isdecimal`: the digits which have a value for `int`. -/
def isDecimal (text : List Char) : Bool :=
  !text.isEmpty && text.all fun char => (decimalValue char).isSome

theorem isDigit_of_isDecimal {text : List Char} (decimal : isDecimal text = true) :
    isDigit text = true := by
  simp only [isDecimal, Bool.and_eq_true, List.all_eq_true] at decimal
  simp only [isDigit, Bool.and_eq_true, List.all_eq_true]
  refine ⟨decimal.1, fun char listed => ?_⟩
  rw [isDigitChar, decimal.2 char listed, Bool.true_or]

theorem digitsValue_isSome (text : List Char) :
    (digitsValue text).isSome = text.all fun char => (decimalValue char).isSome := by
  have general (start : Nat) :
      (text.foldlM (fun value char => (decimalValue char).map (10 * value + ·)) start).isSome =
        text.all fun char => (decimalValue char).isSome := by
    induction text generalizing start with
    | nil => rfl
    | cons char text induction =>
        rw [List.foldlM_cons, List.all_cons]
        cases decimalValue char with
        | none => rfl
        | some digit => exact induction _
  exact general 0

/-- `int` refuses a digit which is not decimal, and a text which is too long. -/
theorem toInt_isSome {text : List Char} (digits : isDigit text = true) :
    (toInt text).isSome = true ↔ isDecimal text = true ∧ text.length ≤ maxStrDigits := by
  have nonempty : text.isEmpty = false := by
    simp only [isDigit, Bool.and_eq_true, Bool.not_eq_true'] at digits
    exact digits.1
  rw [toInt]
  split
  case isTrue long =>
      constructor
      · intro found
        cases found
      · intro fits
        omega
  case isFalse short =>
      rw [digitsValue_isSome, isDecimal, nonempty]
      simp only [Bool.not_false, Bool.true_and]
      constructor
      · exact fun decimal => ⟨decimal, Nat.le_of_not_lt short⟩
      · exact And.left

variable {number : Nat}

theorem toInt_toDigits (small : number < 10 ^ maxStrDigits) :
    toInt (Nat.toDigits 10 number) = some number := by
  have short : (Nat.toDigits 10 number).length ≤ maxStrDigits :=
    (Nat.length_toDigits_le_iff (by decide) (by decide)).mpr small
  rw [toInt, if_neg (by omega), digitsValue_ascii _ fun _ listed =>
    Nat.isDigit_of_mem_toDigits (by decide) (by decide) listed, Nat.ofDigitChars_ten_toDigits]

theorem isDigit_toDigits : isDigit (Nat.toDigits 10 number) = true := by
  simp only [isDigit, Bool.and_eq_true, Bool.not_eq_true', List.isEmpty_eq_false_iff,
    List.all_eq_true]
  refine ⟨Nat.toDigits_ne_nil, fun char listed => ?_⟩
  have digit := Nat.isDigit_of_mem_toDigits (by decide) (by decide) listed
  rw [isDigitChar, decimalValue_of_ascii digit]
  rfl

theorem dash_notMem_toDigits : '-' ∉ Nat.toDigits 10 number := by
  intro listed
  have digit := Nat.isDigit_of_mem_toDigits (by decide) (by decide) listed
  revert digit
  decide

end Hermes.Text
