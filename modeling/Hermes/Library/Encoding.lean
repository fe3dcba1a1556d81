import Mathlib.Data.List.DropRight

/-!
# Bytes and code points

The decoders a byte string is read with.  A text is the list of its code points, lone surrogates
among them, as a Python string is.  UTF-8 is read one byte at a time, so that what a longer input
decodes to is a matter of the bytes behind.
-/

namespace Hermes.Encoding

/-- How far a UTF-8 reader has come: the characters read, and of the next one the bits so far, the
bytes still owed and the bounds of the first of these. -/
structure Reader where
  characters : List Nat := []
  code : Nat := 0
  owed : Nat := 0
  low : Nat := 0x80
  high : Nat := 0xbf
  deriving DecidableEq, Repr

namespace Reader

/-- The first byte of a character; a surrogate begins with `0xed` and its second byte tells. -/
def lead (surrogates : Bool) (reader : Reader) (byte : Nat) : Option Reader :=
  if byte < 0x80 then some { characters := reader.characters ++ [byte] }
  else if byte < 0xc2 then none
  else if byte < 0xe0 then some ⟨reader.characters, byte - 0xc0, 1, 0x80, 0xbf⟩
  else if byte = 0xe0 then some ⟨reader.characters, byte - 0xe0, 2, 0xa0, 0xbf⟩
  else if byte = 0xed ∧ ¬ surrogates then some ⟨reader.characters, byte - 0xe0, 2, 0x80, 0x9f⟩
  else if byte < 0xf0 then some ⟨reader.characters, byte - 0xe0, 2, 0x80, 0xbf⟩
  else if byte = 0xf0 then some ⟨reader.characters, byte - 0xf0, 3, 0x90, 0xbf⟩
  else if byte < 0xf4 then some ⟨reader.characters, byte - 0xf0, 3, 0x80, 0xbf⟩
  else if byte = 0xf4 then some ⟨reader.characters, byte - 0xf0, 3, 0x80, 0x8f⟩
  else none

def continuation (reader : Reader) (byte : Nat) : Option Reader :=
  let code := 64 * reader.code + byte % 64
  if byte < reader.low ∨ reader.high < byte then none
  else if reader.owed = 1 then some { characters := reader.characters ++ [code] }
  else some ⟨reader.characters, code, reader.owed - 1, 0x80, 0xbf⟩

def step (surrogates : Bool) (reader : Reader) (byte : UInt8) : Option Reader :=
  if reader.owed = 0 then reader.lead surrogates byte.toNat else reader.continuation byte.toNat

/-- The text, unless the input ended within a character. -/
def finish (reader : Reader) : Option (List Nat) :=
  if reader.owed = 0 then some reader.characters else none

end Reader

/-- UTF-8, and with `surrogates` also their encodings (`errors="surrogatepass"`). -/
def utf8 (surrogates : Bool) (bytes : List UInt8) : Option (List Nat) :=
  bytes.foldlM (Reader.step surrogates) {} >>= Reader.finish

def units (bigEndian : Bool) : List UInt8 → Option (List Nat)
  | [] => some []
  | [_] => none
  | first :: second :: bytes =>
      let unit := if bigEndian then 256 * first.toNat + second.toNat
        else 256 * second.toNat + first.toNat
      (unit :: ·) <$> units bigEndian bytes

def isHighSurrogate (code : Nat) : Bool := decide (0xd800 ≤ code ∧ code < 0xdc00)

def isLowSurrogate (code : Nat) : Bool := decide (0xdc00 ≤ code ∧ code < 0xe000)

/-- The character a pair of surrogates stands for. -/
def joinSurrogates (high low : Nat) : Nat := 0x10000 + 1024 * (high - 0xd800) + (low - 0xdc00)

/-- Pairs of surrogates are joined, and a lone one stays. -/
def joinUnits : List Nat → List Nat
  | [] => []
  | [unit] => [unit]
  | first :: second :: rest =>
      if isHighSurrogate first && isLowSurrogate second then
        joinSurrogates first second :: joinUnits rest
      else first :: joinUnits (second :: rest)

def utf16 (bigEndian : Bool) (bytes : List UInt8) : Option (List Nat) :=
  joinUnits <$> units bigEndian bytes

def utf32 (bigEndian : Bool) : List UInt8 → Option (List Nat)
  | [] => some []
  | first :: second :: third :: fourth :: bytes =>
      let code := if bigEndian then
          2 ^ 24 * first.toNat + 2 ^ 16 * second.toNat + 256 * third.toNat + fourth.toNat
        else 2 ^ 24 * fourth.toNat + 2 ^ 16 * third.toNat + 256 * second.toNat + first.toNat
      if code < 0x110000 then (code :: ·) <$> utf32 bigEndian bytes else none
  | _ => none

/-- What `str.isspace` holds of. -/
def isSpace (code : Nat) : Bool :=
  decide (0x09 ≤ code ∧ code ≤ 0x0d) || decide (0x1c ≤ code ∧ code ≤ 0x20) ||
    decide (0x2000 ≤ code ∧ code ≤ 0x200a) ||
    [0x85, 0xa0, 0x1680, 0x2028, 0x2029, 0x202f, 0x205f, 0x3000].contains code

/-- A text without the characters of one kind at both ends. -/
def trim (space : Nat → Bool) (text : List Nat) : List Nat :=
  (text.dropWhile space).rdropWhile space

/-- `str.strip`. -/
def strip (text : List Nat) : List Nat := trim isSpace text

/-- The characters of a text; the replacement character stands for a surrogate, which no `String`
holds. -/
def ofCodes (text : List Nat) : String :=
  String.ofList (text.map fun code =>
    if 0xd800 ≤ code ∧ code < 0xe000 then Char.ofNat 0xfffd else Char.ofNat code)

def encode (text : String) : List UInt8 := text.toUTF8.data.toList

def codes (text : String) : List Nat := text.toList.map Char.toNat

theorem encode_append (text further : String) :
    encode (text ++ further) = encode text ++ encode further := by
  simp [encode, String.toUTF8]

theorem codes_append (text further : String) :
    codes (text ++ further) = codes text ++ codes further := by
  simp [codes]

/-- The code points of a text which has no surrogates are what it was made of. -/
theorem codes_ofCodes {text : List Nat} (ascii : ∀ code ∈ text, code < 0x80) :
    codes (ofCodes text) = text := by
  rw [codes, ofCodes, String.toList_ofList, List.map_map]
  refine (List.map_congr_left fun code listed => ?_).trans (List.map_id text)
  have small := ascii code listed
  have valid : code.isValidChar := .inl (by omega)
  rw [Function.comp_apply, if_neg (by omega), Char.ofNat, dif_pos valid]
  rfl

theorem ofCodes_codes (text : String) : ofCodes (codes text) = text := by
  rw [ofCodes, codes, List.map_map]
  refine (congrArg String.ofList ((List.map_congr_left fun char listed => ?_).trans
    (List.map_id text.toList))).trans String.ofList_toList
  have valid := char.valid
  simp only [UInt32.isValidChar, Nat.isValidChar] at valid
  rw [Function.comp_apply, if_neg ?_, Char.ofNat_toNat, id]
  rw [Char.toNat]
  omega

theorem encode_eq_flatMap (text : String) :
    encode text = text.toList.flatMap String.utf8EncodeChar := by
  obtain ⟨chars, rfl⟩ : ∃ chars, text = String.ofList chars := ⟨_, String.ofList_toList.symm⟩
  simp [encode, String.toUTF8, List.utf8Encode]

/-- A written number has decimal digits only. -/
theorem notMem_encode_repr {letter : UInt8} (high : 57 < letter.toNat) (number : Nat) :
    letter ∉ encode number.repr := by
  rw [encode_eq_flatMap, Nat.toList_repr, List.mem_flatMap]
  rintro ⟨char, listed, found⟩
  have digit := Nat.isDigit_of_mem_toDigits (by decide) (by decide) listed
  simp only [Char.isDigit, Bool.and_eq_true, decide_eq_true_eq, ge_iff_le] at digit
  have bound : char.toNat ≤ 57 := UInt32.le_iff_toNat_le.mp digit.2
  have written : String.utf8EncodeChar char = [UInt8.ofNat char.toNat] := by
    simp [String.utf8EncodeChar, show char.toNat ≤ 127 by omega]
  rw [written, List.mem_singleton] at found
  rw [found] at high
  simp at high
  omega

section Trim

variable {space : Nat → Bool}

theorem trim_append_space (text : List Nat) {tail : List Nat}
    (blank : ∀ code ∈ tail, space code = true) : trim space (text ++ tail) = trim space text := by
  have dropped : tail.reverse.dropWhile space = [] :=
    List.dropWhile_eq_nil_iff.mpr fun code listed => blank code (List.mem_reverse.mp listed)
  rw [trim, trim, List.dropWhile_append]
  split
  case isTrue empty =>
      rw [List.isEmpty_iff.mp empty, List.dropWhile_eq_nil_iff.mpr blank]
  case isFalse nonempty =>
      rw [List.rdropWhile, List.reverse_append, List.dropWhile_append, dropped]
      rfl

/-- A text with no such character at either end. -/
theorem trim_of_ends {first last : Nat} (text : List Nat) (head : space first = false)
    (tail : space last = false) :
    trim space (first :: (text ++ [last])) = first :: (text ++ [last]) := by
  rw [trim, List.dropWhile_cons_of_neg (by simp [head]), ← List.cons_append,
    List.rdropWhile_concat_neg _ _ _ (by simp [tail])]

theorem trim_of_solid {text : List Nat} (solid : ∀ code ∈ text, space code = false) :
    trim space text = text := by
  have kept : text.dropWhile space = text := by
    cases text with
    | nil => rfl
    | cons first rest =>
        exact List.dropWhile_cons_of_neg (by simp [solid first List.mem_cons_self])
  rw [trim, kept, List.rdropWhile_eq_self_iff]
  intro nonempty
  simp [solid _ (List.getLast_mem nonempty)]

theorem trim_replicate {code : Nat} (solid : space code = false) (count : Nat) :
    trim space (List.replicate count code) = List.replicate count code :=
  trim_of_solid fun _ listed => List.eq_of_mem_replicate listed ▸ solid

theorem trim_trim (text : List Nat) : trim space (trim space text) = trim space text := by
  have settled : (trim space text).dropWhile space = trim space text := by
    rw [List.dropWhile_eq_self_iff]
    intro nonempty
    have shortened : trim space text <+: text.dropWhile space := List.rdropWhile_prefix _ _
    rw [shortened.getElem nonempty]
    exact List.dropWhile_eq_self_iff.mp (List.dropWhile_idempotent _ _) _
  rw [trim, settled]
  exact List.rdropWhile_idempotent _ _

end Trim

section Utf8

variable {surrogates : Bool} {bytes : List UInt8} {text : List Nat}

/-- A reader which has read something already. -/
def Reader.behind (read : List Nat) (reader : Reader) : Reader :=
  { reader with characters := read ++ reader.characters }

theorem Reader.run_behind (read : List Nat) (reader : Reader) :
    bytes.foldlM (Reader.step surrogates) (reader.behind read) =
      (bytes.foldlM (Reader.step surrogates) reader).map (Reader.behind read) := by
  induction bytes generalizing reader with
  | nil => rfl
  | cons byte bytes induction =>
      have stepped : (reader.behind read).step surrogates byte =
          (reader.step surrogates byte).map (Reader.behind read) := by
        simp only [Reader.step, Reader.lead, Reader.continuation, Reader.behind]
        grind [Reader.behind]
      rw [List.foldlM_cons, List.foldlM_cons, stepped]
      cases reader.step surrogates byte with
      | none => rfl
      | some next => exact induction next

/-- Between two characters a reader remembers nothing of the last one. -/
def Reader.Settled (reader : Reader) : Prop :=
  reader.owed = 0 → reader = Reader.behind reader.characters {}

theorem Reader.run_settled {reader after : Reader} (settled : reader.Settled)
    (run : bytes.foldlM (Reader.step surrogates) reader = some after) : after.Settled := by
  induction bytes generalizing reader with
  | nil =>
      cases run
      exact settled
  | cons byte bytes induction =>
      obtain ⟨next, stepped, continued⟩ := Option.bind_eq_some_iff.mp run
      refine induction ?_ continued
      rw [Reader.Settled]
      simp only [Reader.step, Reader.lead, Reader.continuation] at stepped
      grind [Reader.behind]

/-- The reader behind a text which is complete. -/
theorem run_of_utf8 (decoded : utf8 surrogates bytes = some text) :
    bytes.foldlM (Reader.step surrogates) {} = some (Reader.behind text {}) := by
  obtain ⟨reader, run, finished⟩ := Option.bind_eq_some_iff.mp decoded
  rw [Reader.finish] at finished
  split at finished
  case isFalse => cases finished
  case isTrue between =>
      cases finished
      rw [run]
      exact congrArg some (Reader.run_settled (fun _ => rfl) run between)

theorem utf8_append {behind : List UInt8} {further : List Nat}
    (decoded : utf8 surrogates bytes = some text)
    (decoded_behind : utf8 surrogates behind = some further) :
    utf8 surrogates (bytes ++ behind) = some (text ++ further) := by
  have run : behind.foldlM (Reader.step surrogates) (Reader.behind text {}) =
      some (Reader.behind text (Reader.behind further {})) := by
    rw [Reader.run_behind, run_of_utf8 decoded_behind, Option.map_some]
  simp only [utf8, List.foldlM_append, run_of_utf8 decoded, Option.bind_eq_bind, Option.bind_some,
    run]
  simp [Reader.behind, Reader.finish]

theorem utf8_ascii (ascii : ∀ byte ∈ bytes, byte.toNat < 0x80) :
    utf8 surrogates bytes = some (bytes.map UInt8.toNat) := by
  induction bytes with
  | nil => rfl
  | cons byte bytes induction =>
      have first : utf8 surrogates [byte] = some [byte.toNat] := by
        have small : byte.toNat < 0x80 := ascii byte (List.mem_cons_self ..)
        simp [utf8, Reader.step, Reader.lead, Reader.finish, small]
      have others := induction fun other listed => ascii other (List.mem_cons_of_mem _ listed)
      exact utf8_append first others

theorem encode_ascii {text : String} (ascii : ∀ code ∈ codes text, code < 0x80) :
    encode text = (codes text).map UInt8.ofNat := by
  rw [encode_eq_flatMap, codes, List.map_map, List.map_eq_flatMap]
  refine List.flatMap_congr fun char listed => ?_
  have small : char.toNat < 0x80 := ascii _ (List.mem_map_of_mem listed)
  simp [String.utf8EncodeChar, show char.toNat ≤ 127 by omega]

theorem toNat_ofNat_ascii {code : Nat} (ascii : code < 0x80) : (UInt8.ofNat code).toNat = code :=
  UInt8.toNat_ofNat_of_lt' (ascii.trans (by decide))

theorem map_toNat_ofNat {text : List Nat} (ascii : ∀ code ∈ text, code < 0x80) :
    (text.map UInt8.ofNat).map UInt8.toNat = text := by
  rw [List.map_map]
  exact (List.map_congr_left fun code listed => toNat_ofNat_ascii (ascii code listed)).trans
    (List.map_id text)

theorem utf8_encode_ascii {text : String} (ascii : ∀ code ∈ codes text, code < 0x80) :
    utf8 surrogates (encode text) = some (codes text) := by
  rw [encode_ascii ascii, utf8_ascii ?_, map_toNat_ofNat ascii]
  intro byte mapped
  obtain ⟨code, listed, rfl⟩ := List.mem_map.mp mapped
  rw [toNat_ofNat_ascii (ascii code listed)]
  exact ascii code listed

/-- A reader which takes surrogates is where the strict one is, but for the bound it forgoes. -/
structure Reader.Laxer (strict lax : Reader) : Prop where
  characters : lax.characters = strict.characters
  code : lax.code = strict.code
  owed : lax.owed = strict.owed
  low : lax.low = strict.low
  high : strict.high ≤ lax.high

theorem Reader.Laxer.step {strict lax after : Reader} (laxer : strict.Laxer lax) {byte : UInt8}
    (read : strict.step false byte = some after) :
    ∃ next, lax.step true byte = some next ∧ after.Laxer next := by
  obtain ⟨characters, code, owed, low, high⟩ := laxer
  rw [Reader.step] at read ⊢
  rw [owed]
  split at read
  case isTrue =>
      rw [Reader.lead] at read ⊢
      rw [characters]
      grind [Reader.Laxer]
  case isFalse =>
      rw [Reader.continuation] at read ⊢
      rw [characters, code, owed, low]
      grind [Reader.Laxer]

/-- What is plain UTF-8 stays what it is when surrogates are taken as well. -/
theorem utf8_surrogates (decoded : utf8 false bytes = some text) : utf8 true bytes = some text := by
  have simulated {strict lax after : Reader} (laxer : strict.Laxer lax)
      (run : bytes.foldlM (Reader.step false) strict = some after) :
      ∃ next, bytes.foldlM (Reader.step true) lax = some next ∧ after.Laxer next := by
    clear decoded
    induction bytes generalizing strict lax with
    | nil =>
        cases run
        exact ⟨lax, rfl, laxer⟩
    | cons byte bytes induction =>
        obtain ⟨middle, read, continued⟩ := Option.bind_eq_some_iff.mp run
        obtain ⟨next, taken, still⟩ := laxer.step read
        rw [List.foldlM_cons, taken]
        exact induction still continued
  obtain ⟨reader, run, finished⟩ := Option.bind_eq_some_iff.mp decoded
  obtain ⟨next, run_lax, laxer⟩ := simulated ⟨rfl, rfl, rfl, rfl, le_rfl⟩ run
  rw [utf8, run_lax, Option.bind_eq_bind, Option.bind_some, Reader.finish, laxer.owed,
    laxer.characters]
  exact finished

end Utf8

end Hermes.Encoding
