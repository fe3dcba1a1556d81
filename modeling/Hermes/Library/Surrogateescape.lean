import Hermes.Library.Encoding

/-!
# Bytes which are no UTF-8

`errors="surrogateescape"`: a byte which belongs to no character is read as a lone low surrogate,
and the surrogate is written as that byte again.  Every byte string comes back from its text.
-/

namespace Hermes.Encoding

/-- The character at the head of a byte string, with the number of its bytes. -/
def character (bytes : List UInt8) : Option (Nat × Nat) :=
  [1, 2, 3, 4].findSome? fun width =>
    match utf8 false (bytes.take width) with
    | some [code] => some (code, width)
    | _ => none

/-- Read behind some bytes which are skipped. -/
def escapeFrom : Nat → List UInt8 → List Nat
  | _, [] => []
  | skipped + 1, _ :: rest => escapeFrom skipped rest
  | 0, byte :: rest =>
      match character (byte :: rest) with
      | some (code, width) => code :: escapeFrom (width - 1) rest
      | none => (0xdc00 + byte.toNat) :: escapeFrom 0 rest

/-- `bytes.decode("utf-8", errors="surrogateescape")`. -/
def decodeEscape (bytes : List UInt8) : List Nat := escapeFrom 0 bytes

/-- The bytes of one character; no surrogate but an escaped byte has any. -/
def encodeCode (code : Nat) : Option (List UInt8) :=
  if code < 0x80 then some [UInt8.ofNat code]
  else if code < 0x800 then
    some [UInt8.ofNat (0xc0 + code / 64), UInt8.ofNat (0x80 + code % 64)]
  else if 0xdc80 ≤ code ∧ code < 0xdd00 then some [UInt8.ofNat (code - 0xdc00)]
  else if 0xd800 ≤ code ∧ code < 0xe000 then none
  else if code < 0x10000 then
    some [UInt8.ofNat (0xe0 + code / 4096), UInt8.ofNat (0x80 + code / 64 % 64),
      UInt8.ofNat (0x80 + code % 64)]
  else if code < 0x110000 then
    some [UInt8.ofNat (0xf0 + code / 262144), UInt8.ofNat (0x80 + code / 4096 % 64),
      UInt8.ofNat (0x80 + code / 64 % 64), UInt8.ofNat (0x80 + code % 64)]
  else none

/-- `str.encode("utf-8", errors="surrogateescape")`; `none` is a `UnicodeEncodeError`. -/
def encodeEscape : List Nat → Option (List UInt8)
  | [] => some []
  | code :: text => do
      let head ← encodeCode code
      let tail ← encodeEscape text
      return head ++ tail

section Character

variable {reader after : Reader} {byte : Nat}

/-- What the first byte of a character tells of it. -/
theorem lead_cases (read : ({} : Reader).lead false byte = some after) :
    (byte < 0x80 ∧ after = { characters := [byte] }) ∨
    (0xc2 ≤ byte ∧ byte < 0xe0 ∧ after = ⟨[], byte - 0xc0, 1, 0x80, 0xbf⟩) ∨
    (0xe0 ≤ byte ∧ byte < 0xf0 ∧ ∃ low high, after = ⟨[], byte - 0xe0, 2, low, high⟩ ∧
      0x80 ≤ low ∧ high ≤ 0xbf ∧ (byte = 0xe0 → 0xa0 ≤ low) ∧ (byte = 0xed → high ≤ 0x9f)) ∨
    (0xf0 ≤ byte ∧ byte < 0xf5 ∧ ∃ low high, after = ⟨[], byte - 0xf0, 3, low, high⟩ ∧
      0x80 ≤ low ∧ high ≤ 0xbf ∧ (byte = 0xf0 → 0x90 ≤ low) ∧ (byte = 0xf4 → high ≤ 0x8f)) := by
  rw [Reader.lead] at read
  grind

/-- A reader which has read a byte has something to show for it. -/
theorem step_ne_nil {surrogates : Bool} {byte : UInt8}
    (read : reader.step surrogates byte = some after) : after.characters ≠ [] ∨ after.owed ≠ 0 := by
  simp only [Reader.step, Reader.lead, Reader.continuation] at read
  grind [List.append_eq_nil_iff]

theorem eq_nil_of_utf8 {surrogates : Bool} {bytes : List UInt8}
    (read : utf8 surrogates bytes = some []) : bytes = [] := by
  obtain ⟨last, run, finished⟩ := Option.bind_eq_some_iff.mp read
  cases bytes using List.reverseRecOn with
  | nil => rfl
  | append_singleton before byte _ =>
      rw [List.foldlM_append] at run
      obtain ⟨middle, -, stepped⟩ := Option.bind_eq_some_iff.mp run
      obtain ⟨next, stepped, ended⟩ := Option.bind_eq_some_iff.mp stepped
      cases ended
      rw [Reader.finish] at finished
      split at finished
      case isFalse => cases finished
      case isTrue between =>
          rcases step_ne_nil stepped with written | owed
          · exact absurd (Option.some.inj finished) written
          · exact absurd between owed

/-- Behind the one character there is nothing more. -/
theorem eq_nil_of_run {bytes : List UInt8} {code found : Nat}
    (run : bytes.foldlM (Reader.step false) { characters := [code] } = some reader)
    (finished : reader.finish = some [found]) : bytes = [] ∧ code = found := by
  have behind := @Reader.run_behind false bytes [code] {}
  rw [show Reader.behind [code] {} = { characters := [code] } from rfl, run] at behind
  obtain ⟨rest, run_rest, rfl⟩ := Option.map_eq_some_iff.mp behind.symm
  rw [Reader.finish] at finished
  split at finished
  case isFalse => cases finished
  case isTrue between =>
      have both : [code] ++ rest.characters = [found] := Option.some.inj finished
      simp only [List.singleton_append, List.cons.injEq] at both
      refine ⟨@eq_nil_of_utf8 false _ ?_, both.1⟩
      rw [utf8, run_rest, Option.bind_eq_bind, Option.bind_some, Reader.finish, both.2]
      exact if_pos between

theorem exists_byte {bytes : List UInt8} {found : Nat} (owed : reader.owed ≠ 0)
    (run : bytes.foldlM (Reader.step false) reader = some after)
    (finished : after.finish = some [found]) :
    ∃ byte rest next, bytes = byte :: rest ∧ reader.continuation byte.toNat = some next ∧
      rest.foldlM (Reader.step false) next = some after := by
  cases bytes with
  | nil =>
      cases run
      rw [Reader.finish, if_neg owed] at finished
      cases finished
  | cons byte rest =>
      obtain ⟨next, read, run⟩ := Option.bind_eq_some_iff.mp run
      rw [Reader.step, if_neg owed] at read
      exact ⟨byte, rest, next, rfl, read, run⟩

section Owed

variable {bytes : List UInt8} {code low high found : Nat}

theorem last_byte (run : bytes.foldlM (Reader.step false) ⟨[], code, 1, low, high⟩ = some after)
    (finished : after.finish = some [found]) :
    ∃ byte, bytes = [byte] ∧ low ≤ byte.toNat ∧ byte.toNat ≤ high ∧
      found = 64 * code + byte.toNat % 64 := by
  obtain ⟨byte, rest, next, rfl, read, run⟩ := exists_byte (Nat.one_ne_zero) run finished
  rw [Reader.continuation] at read
  split at read
  case isTrue => cases read
  case isFalse within =>
      cases read
      obtain ⟨rfl, rfl⟩ := eq_nil_of_run run finished
      simp only [not_or, not_lt] at within
      exact ⟨byte, rfl, within.1, within.2, rfl⟩

theorem further_byte {owed : Nat}
    (run : bytes.foldlM (Reader.step false) ⟨[], code, owed + 2, low, high⟩ = some after)
    (finished : after.finish = some [found]) :
    ∃ byte rest, bytes = byte :: rest ∧ low ≤ byte.toNat ∧ byte.toNat ≤ high ∧
      rest.foldlM (Reader.step false) ⟨[], 64 * code + byte.toNat % 64, owed + 1, 0x80, 0xbf⟩ =
        some after := by
  obtain ⟨byte, rest, next, rfl, read, run⟩ := exists_byte (Nat.succ_ne_zero _) run finished
  rw [Reader.continuation] at read
  split at read
  case isTrue => cases read
  case isFalse within =>
      rw [if_neg (by simp)] at read
      cases read
      simp only [not_or, not_lt] at within
      exact ⟨byte, rest, rfl, within.1, within.2, run⟩

end Owed

theorem ofNat_eq (byte : UInt8) {value : Nat} (same : value = byte.toNat) :
    UInt8.ofNat value = byte := by
  rw [same, UInt8.ofNat_toNat]

theorem encodeCode_of_utf8 {bytes : List UInt8} {code : Nat}
    (read : utf8 false bytes = some [code]) : encodeCode code = some bytes := by
  obtain ⟨last, run, finished⟩ := Option.bind_eq_some_iff.mp read
  cases bytes with
  | nil =>
      cases run
      cases finished
  | cons first others =>
      obtain ⟨head, lead, run⟩ := Option.bind_eq_some_iff.mp run
      have bound := first.toNat_lt
      rcases lead_cases lead with
        ⟨small, rfl⟩ | ⟨least, most, rfl⟩ | ⟨least, most, low, high, rfl, low_le, le_high, bounds⟩ |
          ⟨least, most, low, high, rfl, low_le, le_high, bounds⟩
      · obtain ⟨rfl, rfl⟩ := eq_nil_of_run run finished
        simp [encodeCode, small]
      · obtain ⟨second, rfl, low_second, second_high, rfl⟩ := last_byte run finished
        rw [encodeCode, if_neg (by omega), if_pos (by omega)]
        rw [ofNat_eq first (by omega), ofNat_eq second (by omega)]
      · obtain ⟨second, others, rfl, low_second, second_high, run⟩ := further_byte run finished
        obtain ⟨third, rfl, low_third, third_high, rfl⟩ := last_byte run finished
        rw [encodeCode, if_neg (by omega), if_neg (by omega), if_neg (by omega),
          if_neg (by omega), if_pos (by omega)]
        rw [ofNat_eq first (by omega), ofNat_eq second (by omega),
          ofNat_eq third (by omega)]
      · obtain ⟨second, others, rfl, low_second, second_high, run⟩ := further_byte run finished
        obtain ⟨third, others, rfl, low_third, third_high, run⟩ := further_byte run finished
        obtain ⟨fourth, rfl, low_fourth, fourth_high, rfl⟩ := last_byte run finished
        rw [encodeCode, if_neg (by omega), if_neg (by omega), if_neg (by omega),
          if_neg (by omega), if_neg (by omega), if_pos (by omega)]
        rw [ofNat_eq first (by omega), ofNat_eq second (by omega),
          ofNat_eq third (by omega), ofNat_eq fourth (by omega)]

end Character

section Escape

variable {bytes : List UInt8}

theorem character_cases (code width : Nat) (found : character bytes = some (code, width)) :
    0 < width ∧ encodeCode code = some (bytes.take width) := by
  obtain ⟨tried, listed, read⟩ := List.exists_of_findSome?_eq_some found
  cases decoded : utf8 false (bytes.take tried) with
  | none => simp [decoded] at read
  | some text =>
      cases text with
      | nil => simp [decoded] at read
      | cons head others =>
          cases others with
          | cons _ _ => simp [decoded] at read
          | nil =>
              simp only [decoded, Option.some.injEq, Prod.mk.injEq] at read
              obtain ⟨rfl, rfl⟩ := read
              refine ⟨?_, encodeCode_of_utf8 decoded⟩
              simp only [List.mem_cons, List.not_mem_nil, or_false] at listed
              omega

theorem character_ascii {byte : UInt8} {rest : List UInt8} (ascii : byte.toNat < 0x80) :
    character (byte :: rest) = some (byte.toNat, 1) := by
  have alone : utf8 false [byte] = some [byte.toNat] := utf8_ascii (by simpa using ascii)
  rw [character, List.findSome?_cons, List.take_succ_cons, List.take_zero, alone]

theorem escapeFrom_drop (skipped : Nat) :
    escapeFrom skipped bytes = escapeFrom 0 (bytes.drop skipped) := by
  induction skipped generalizing bytes with
  | zero => rfl
  | succ skipped induction =>
      cases bytes with
      | nil => rfl
      | cons byte rest => exact induction

theorem decodeEscape_ascii (ascii : ∀ byte ∈ bytes, byte.toNat < 0x80) :
    decodeEscape bytes = bytes.map UInt8.toNat := by
  induction bytes with
  | nil => rfl
  | cons byte rest induction =>
      have later := induction fun other listed => ascii other (List.mem_cons_of_mem _ listed)
      rw [decodeEscape] at later
      rw [decodeEscape, escapeFrom, character_ascii (ascii byte List.mem_cons_self)]
      exact congrArg (byte.toNat :: ·) later

theorem decodeEscape_encode {text : String} (ascii : ∀ code ∈ codes text, code < 0x80) :
    decodeEscape (encode text) = codes text := by
  rw [encode_ascii ascii, decodeEscape_ascii ?_, map_toNat_ofNat ascii]
  intro byte mapped
  obtain ⟨code, listed, rfl⟩ := List.mem_map.mp mapped
  rw [toNat_ofNat_ascii (ascii code listed)]
  exact ascii code listed

theorem encodeEscape_decodeEscape (bytes : List UInt8) :
    encodeEscape (decodeEscape bytes) = some bytes := by
  induction size : bytes.length using Nat.strong_induction_on generalizing bytes with
  | _ length induction =>
      cases bytes with
      | nil => rfl
      | cons byte rest =>
          rw [decodeEscape, escapeFrom]
          cases found : character (byte :: rest) with
          | none =>
              have high : ¬ byte.toNat < 0x80 := fun ascii => by
                simp [character_ascii ascii] at found
              have later := induction rest.length (by rw [← size]; simp) rest rfl
              have bound := byte.toNat_lt
              have escaped : encodeCode (0xdc00 + byte.toNat) = some [byte] := by
                rw [encodeCode, if_neg (by omega), if_neg (by omega), if_pos (by omega),
                  ofNat_eq byte (by omega)]
              rw [decodeEscape] at later
              simp only [encodeEscape, escaped, later, Option.bind_eq_bind, Option.bind_some]
              rfl
          | some place =>
              obtain ⟨code, width⟩ := place
              obtain ⟨positive, written⟩ := character_cases code width found
              have shorter : (rest.drop (width - 1)).length < length := by
                rw [← size, List.length_drop, List.length_cons]
                omega
              have later := induction _ shorter (rest.drop (width - 1)) rfl
              have whole : (byte :: rest).take width ++ rest.drop (width - 1) = byte :: rest := by
                obtain ⟨further, rfl⟩ := Nat.exists_eq_add_of_lt positive
                simp
              rw [decodeEscape] at later
              simp only [escapeFrom_drop (width - 1), encodeEscape, written, later,
                Option.bind_eq_bind, Option.bind_some]
              exact congrArg some whole

theorem plain_of_encodeEscape {text : List Nat} (written : encodeEscape text = some bytes) :
    ∀ code ∈ text, code < 0x110000 ∧ isHighSurrogate code = false := by
  induction text generalizing bytes with
  | nil => simp
  | cons head text induction =>
      obtain ⟨first, write_head, written⟩ := Option.bind_eq_some_iff.mp written
      obtain ⟨others, write_text, -⟩ := Option.bind_eq_some_iff.mp written
      rw [List.forall_mem_cons]
      refine ⟨?_, induction write_text⟩
      rw [encodeCode] at write_head
      simp only [isHighSurrogate, decide_eq_false_iff_not]
      grind

end Escape

end Hermes.Encoding
