import Mathlib.Data.List.DropRight
import Mathlib.Tactic.IntervalCases

/-!
# Base64

`base64.b64encode`, `base64.b64decode` and their variants for URLs.  The decoder is the one of
`binascii`: a lenient reading passes over what is not in the alphabet, a strict one refuses it and
lets nothing follow the padding.  Before release 3.12.4 of CPython the strict one took padding
behind a complete group, and both readings of it are here.
-/

namespace Hermes.Base64

/-- The six bits of a character of the alphabet. -/
def bits (code : Nat) : Option Nat :=
  if 0x41 ≤ code ∧ code ≤ 0x5a then some (code - 0x41)
  else if 0x61 ≤ code ∧ code ≤ 0x7a then some (code - 0x61 + 26)
  else if 0x30 ≤ code ∧ code ≤ 0x39 then some (code - 0x30 + 52)
  else if code = '+'.toNat then some 62
  else if code = '/'.toNat then some 63
  else none

/-- The character of the alphabet with some six bits. -/
def letter (value : Nat) : Nat :=
  if value < 26 then 0x41 + value
  else if value < 52 then 0x61 + (value - 26)
  else if value < 62 then 0x30 + (value - 52)
  else if value = 62 then '+'.toNat
  else '/'.toNat

def pad : Nat := '='.toNat

inductive Manner
  | lenient
  /-- `validate=True`; `excess` where padding behind a complete group is passed over. -/
  | strict (excess : Bool)
  deriving DecidableEq, Repr

/-- Only characters of the alphabet, and nothing behind the padding. -/
def Manner.isStrict : Manner → Bool
  | lenient => false
  | strict _ => true

/-- Padding behind a complete group is refused. -/
def Manner.refusesExcess : Manner → Bool
  | strict excess => !excess
  | lenient => false

/-- How far `a2b_base64` has come: the bytes written, the place in the open group, the bits left
over from the last character, the padding since, and whether there was any padding. -/
structure Reader where
  written : List UInt8 := []
  position : Nat := 0
  left : Nat := 0
  pads : Nat := 0
  padded : Bool := false
  deriving DecidableEq, Repr

def Reader.take (reader : Reader) (value : Nat) : Reader :=
  match reader.position with
  | 0 => ⟨reader.written, 1, value, 0, reader.padded⟩
  | 1 =>
      ⟨reader.written ++ [UInt8.ofNat (reader.left * 4 + value / 16)], 2, value % 16, 0,
        reader.padded⟩
  | 2 =>
      ⟨reader.written ++ [UInt8.ofNat (reader.left * 16 + value / 4)], 3, value % 4, 0,
        reader.padded⟩
  | _ => ⟨reader.written ++ [UInt8.ofNat (reader.left * 64 + value)], 0, 0, 0, reader.padded⟩

def Reader.skip (reader : Reader) : Reader :=
  { reader with
    pads := if 2 ≤ reader.position then reader.pads + 1 else reader.pads
    padded := true }

/-- The loop of `a2b_base64`. -/
def read (manner : Manner) : Reader → List Nat → Option (List UInt8)
  | reader, [] => if reader.position = 0 then some reader.written else none
  | reader, code :: rest =>
      if code = pad then
        if manner.refusesExcess ∧ reader.position = 0 then none
        else if 2 ≤ reader.position ∧ 4 ≤ reader.position + (reader.pads + 1) then
          -- The group is complete; what follows is ignored or refused.
          if manner.isStrict ∧ rest ≠ [] then none else some reader.written
        else read manner reader.skip rest
      else
        match bits code with
        | none => if manner.isStrict then none else read manner reader rest
        | some value =>
            if manner.isStrict ∧ reader.padded then none else read manner (reader.take value) rest

/-- `binascii.a2b_base64`. -/
def a2b (manner : Manner) (text : List Nat) : Option (List UInt8) :=
  if manner.isStrict ∧ text.head? = some pad then none else read manner {} text

/-- `base64.b64decode` of a string; none is a `ValueError`, `binascii.Error` among them. -/
def decode (manner : Manner) (text : List Nat) : Option (List UInt8) :=
  if text.all (· < 0x80) then a2b manner text else none

/-- `base64.b64encode`. -/
def encode : List UInt8 → List Nat
  | [] => []
  | [first] => [letter (first.toNat / 4), letter (first.toNat % 4 * 16), pad, pad]
  | [first, second] =>
      [letter (first.toNat / 4), letter (first.toNat % 4 * 16 + second.toNat / 16),
        letter (second.toNat % 16 * 4), pad]
  | first :: second :: third :: rest =>
      letter (first.toNat / 4) :: letter (first.toNat % 4 * 16 + second.toNat / 16) ::
        letter (second.toNat % 16 * 4 + third.toNat / 64) :: letter (third.toNat % 64) ::
        encode rest

def toUrl (code : Nat) : Nat :=
  if code = '+'.toNat then '-'.toNat else if code = '/'.toNat then '_'.toNat else code

def ofUrl (code : Nat) : Nat :=
  if code = '-'.toNat then '+'.toNat else if code = '_'.toNat then '/'.toNat else code

/-- `base64.urlsafe_b64encode`. -/
def urlsafeEncode (bytes : List UInt8) : List Nat := (encode bytes).map toUrl

/-- `base64.urlsafe_b64decode`. -/
def urlsafeDecode (text : List Nat) : Option (List UInt8) := decode .lenient (text.map ofUrl)

/-! ## The alphabet -/

section Alphabet

variable {value : Nat}

theorem bits_letter (small : value < 64) : bits (letter value) = some value := by
  have checked : ∀ value < 64, bits (letter value) = some value := by decide
  exact checked value small

theorem letter_ne_pad (small : value < 64) : letter value ≠ pad := by
  have checked : ∀ value < 64, letter value ≠ pad := by decide
  exact checked value small

theorem letter_lt (small : value < 64) : letter value < 0x80 := by
  have checked : ∀ value < 64, letter value < 0x80 := by decide
  exact checked value small

theorem ofUrl_toUrl_letter (small : value < 64) : ofUrl (toUrl (letter value)) = letter value := by
  have checked : ∀ value < 64, ofUrl (toUrl (letter value)) = letter value := by decide
  exact checked value small

theorem bits_pad : bits pad = none := rfl

end Alphabet

/-! ## Round trip -/

section RoundTrip

theorem byte_eq {byte : UInt8} {value : Nat} (same : value = byte.toNat) :
    UInt8.ofNat value = byte := by
  rw [same, UInt8.ofNat_toNat]

theorem read_letter {manner : Manner} {reader : Reader} (unpadded : reader.padded = false)
    {value : Nat} (small : value < 64) (rest : List Nat) :
    read manner reader (letter value :: rest) = read manner (reader.take value) rest := by
  rw [read, if_neg (letter_ne_pad small), bits_letter small]
  simp [unpadded]

theorem read_encode (manner : Manner) (bytes written : List UInt8) :
    read manner ⟨written, 0, 0, 0, false⟩ (encode bytes) = some (written ++ bytes) := by
  induction bytes using encode.induct generalizing written with
  | case1 => simp [encode, read]
  | case2 first =>
      have bound := first.toNat_lt
      rw [encode, read_letter rfl (by omega), read_letter rfl (by omega)]
      simp only [Reader.take]
      rw [read, if_pos rfl, if_neg (by simp), if_neg (by simp), read, if_pos rfl,
        if_neg (by simp [Reader.skip]), if_pos (by simp [Reader.skip]), if_neg (by simp),
        Reader.skip]
      have same : first.toNat / 4 * 4 + first.toNat % 4 * 16 / 16 = first.toNat := by omega
      rw [byte_eq same]
  | case3 first second =>
      have bound := first.toNat_lt
      have bound' := second.toNat_lt
      rw [encode, read_letter rfl (by omega), read_letter rfl (by omega),
        read_letter rfl (by omega)]
      simp only [Reader.take]
      rw [read, if_pos rfl, if_neg (by simp), if_pos (by simp), if_neg (by simp)]
      have same : first.toNat / 4 * 4 + (first.toNat % 4 * 16 + second.toNat / 16) / 16 =
          first.toNat := by omega
      have same' : (first.toNat % 4 * 16 + second.toNat / 16) % 16 * 16 +
          second.toNat % 16 * 4 / 4 = second.toNat := by omega
      rw [byte_eq same, byte_eq same', List.append_assoc]
      rfl
  | case4 first second third rest induction =>
      have bound := first.toNat_lt
      have bound' := second.toNat_lt
      have bound'' := third.toNat_lt
      rw [encode, read_letter rfl (by omega), read_letter rfl (by omega),
        read_letter rfl (by omega), read_letter rfl (by omega)]
      simp only [Reader.take]
      have same : first.toNat / 4 * 4 + (first.toNat % 4 * 16 + second.toNat / 16) / 16 =
          first.toNat := by omega
      have same' : (first.toNat % 4 * 16 + second.toNat / 16) % 16 * 16 +
          (second.toNat % 16 * 4 + third.toNat / 64) / 4 = second.toNat := by omega
      have same'' : (second.toNat % 16 * 4 + third.toNat / 64) % 4 * 64 + third.toNat % 64 =
          third.toNat := by omega
      rw [byte_eq same, byte_eq same', byte_eq same'', induction]
      simp

/-- An encoding is characters of the alphabet and the padding which completes the last group. -/
theorem encode_shape (bytes : List UInt8) :
    ∃ body padding, encode bytes = body ++ List.replicate padding pad ∧
      (∀ code ∈ body, ∃ value < 64, letter value = code) ∧
      (body.length + padding) % 4 = 0 ∧ padding ≤ 2 := by
  induction bytes using encode.induct with
  | case1 => exact ⟨[], 0, rfl, by simp, rfl, by omega⟩
  | case2 first =>
      have bound := first.toNat_lt
      refine ⟨[_, _], 2, rfl, ?_, by simp, by omega⟩
      simp only [List.mem_cons, List.not_mem_nil, or_false]
      rintro code (rfl | rfl)
      · exact ⟨_, by omega, rfl⟩
      · exact ⟨_, by omega, rfl⟩
  | case3 first second =>
      have bound := first.toNat_lt
      have bound' := second.toNat_lt
      refine ⟨[_, _, _], 1, rfl, ?_, by simp, by omega⟩
      simp only [List.mem_cons, List.not_mem_nil, or_false]
      rintro code (rfl | rfl | rfl)
      · exact ⟨_, by omega, rfl⟩
      · exact ⟨_, by omega, rfl⟩
      · exact ⟨_, by omega, rfl⟩
  | case4 first second third rest induction =>
      have bound := first.toNat_lt
      have bound' := second.toNat_lt
      have bound'' := third.toNat_lt
      obtain ⟨body, padding, shape, letters, whole, few⟩ := induction
      refine ⟨_ :: _ :: _ :: _ :: body, padding, by rw [encode, shape]; rfl, ?_, ?_, few⟩
      · simp only [List.mem_cons]
        rintro code (rfl | rfl | rfl | rfl | listed)
        · exact ⟨_, by omega, rfl⟩
        · exact ⟨_, by omega, rfl⟩
        · exact ⟨_, by omega, rfl⟩
        · exact ⟨_, by omega, rfl⟩
        · exact letters code listed
      · simp only [List.length_cons]
        omega

theorem mem_encode {bytes : List UInt8} {code : Nat} (listed : code ∈ encode bytes) :
    code = pad ∨ ∃ value < 64, letter value = code := by
  obtain ⟨body, padding, shape, letters, -, -⟩ := encode_shape bytes
  rw [shape, List.mem_append, List.mem_replicate] at listed
  exact listed.symm.imp (·.2) (letters code)

theorem encode_lt {bytes : List UInt8} {code : Nat} (listed : code ∈ encode bytes) :
    code < 0x80 := by
  obtain rfl | ⟨value, small, rfl⟩ := mem_encode listed
  · decide
  · exact letter_lt small

theorem head_encode (bytes : List UInt8) : (encode bytes).head? ≠ some pad := by
  obtain ⟨body, padding, shape, letters, whole, few⟩ := encode_shape bytes
  rw [shape]
  cases body with
  | nil =>
      have none : padding = 0 := by
        rw [List.length_nil] at whole
        omega
      simp [none]
  | cons first later =>
      obtain ⟨value, small, same⟩ := letters first List.mem_cons_self
      rw [List.cons_append, List.head?_cons, ← same]
      exact fun impossible => letter_ne_pad small (Option.some.inj impossible)

/-- Whatever is encoded is decoded, however the text is read. -/
theorem decode_encode (manner : Manner) (bytes : List UInt8) :
    decode manner (encode bytes) = some bytes := by
  rw [decode, if_pos (by simpa using fun code => encode_lt), a2b,
    if_neg (fun both => head_encode bytes both.2), read_encode, List.nil_append]

theorem ofUrl_toUrl {bytes : List UInt8} : ((encode bytes).map toUrl).map ofUrl = encode bytes := by
  rw [List.map_map]
  refine (List.map_congr_left fun code listed => ?_).trans (List.map_id _)
  obtain rfl | ⟨value, small, rfl⟩ := mem_encode listed
  · rfl
  · exact ofUrl_toUrl_letter small

theorem urlsafeDecode_urlsafeEncode (bytes : List UInt8) :
    urlsafeDecode (urlsafeEncode bytes) = some bytes := by
  rw [urlsafeDecode, urlsafeEncode, ofUrl_toUrl, decode_encode]

/-- The padding which a text lacks to be in groups of four. -/
def missing (text : List Nat) : List Nat := List.replicate ((4 - text.length % 4) % 4) pad

theorem restore_padding (bytes : List UInt8) :
    (urlsafeEncode bytes).rdropWhile (· == pad) ++
      missing ((urlsafeEncode bytes).rdropWhile (· == pad)) = urlsafeEncode bytes := by
  obtain ⟨body, padding, shape, letters, whole, few⟩ := encode_shape bytes
  have mapped : urlsafeEncode bytes = body.map toUrl ++ List.replicate padding pad := by
    rw [urlsafeEncode, shape, List.map_append, List.map_replicate]
    rfl
  have kept : (body.map toUrl).reverse.dropWhile (· == pad) = (body.map toUrl).reverse := by
    refine List.dropWhile_eq_self_iff.mpr fun nonempty => ?_
    have listed := List.get_mem (body.map toUrl).reverse ⟨0, nonempty⟩
    rw [List.mem_reverse, List.mem_map] at listed
    obtain ⟨code, code_listed, same⟩ := listed
    obtain ⟨value, small, rfl⟩ := letters code code_listed
    have apart : ∀ value < 64, (toUrl (letter value) == pad) = false := by decide
    change ¬ ((body.map toUrl).reverse.get ⟨0, nonempty⟩ == pad) = true
    rw [← same, apart value small]
    exact Bool.false_ne_true
  have dropped : (urlsafeEncode bytes).rdropWhile (· == pad) = body.map toUrl := by
    rw [mapped, List.rdropWhile, List.reverse_append, List.dropWhile_append_of_pos (by simp), kept,
      List.reverse_reverse]
  rw [dropped, mapped, missing, List.length_map]
  congr 2
  omega

end RoundTrip

/-! ## What a strict reading accepts -/

section Strict

variable {excess : Bool} {reader : Reader} {bytes : List UInt8}

/-- Once there was padding, only padding follows: any amount behind a complete group, and otherwise
as much as completes the group. -/
theorem shape_of_padded (text : List Nat) (padded : reader.padded = true)
    (open_group : 2 ≤ reader.position → reader.position + reader.pads ≤ 3)
    (accepted : read (.strict excess) reader text = some bytes) :
    bytes = reader.written ∧ text = List.replicate text.length pad ∧
      (reader.position = 0 ∧ (text ≠ [] → excess = true) ∨
        2 ≤ reader.position ∧ reader.position + reader.pads + text.length = 4) := by
  induction text generalizing reader with
  | nil =>
      rw [read] at accepted
      split at accepted
      case isTrue closed =>
          cases accepted
          exact ⟨rfl, rfl, .inl ⟨closed, fun nonempty => absurd rfl nonempty⟩⟩
      case isFalse => cases accepted
  | cons code rest induction =>
      rw [read] at accepted
      split at accepted
      case isFalse other =>
          split at accepted
          · simp [Manner.isStrict] at accepted
          · simp [Manner.isStrict, padded] at accepted
      case isTrue is_pad =>
      subst is_pad
      split at accepted
      · cases accepted
      next allowed =>
      split at accepted
      next full =>
          split at accepted
          · cases accepted
          next last =>
          cases accepted
          have none : rest = [] := by simpa [Manner.isStrict] using last
          subst none
          have bound := open_group full.1
          exact ⟨rfl, rfl, .inr ⟨full.1, by simp only [List.length_singleton]; omega⟩⟩
      next unfilled =>
          have later := @induction reader.skip rfl
            (by simp only [Reader.skip]; intro two; rw [if_pos two]; omega) accepted
          obtain ⟨written, padding, closes⟩ := later
          refine ⟨written, by rw [List.length_cons, List.replicate_succ, ← padding], ?_⟩
          obtain ⟨closed, -⟩ | ⟨two, sum⟩ := closes
          · refine .inl ⟨closed, fun _ => ?_⟩
            simpa [Manner.refusesExcess, show reader.position = 0 from closed] using allowed
          · simp only [Reader.skip] at two sum
            rw [if_pos two] at sum
            exact .inr ⟨two, by rw [List.length_cons]; omega⟩

/-- How many characters and how much padding a strict reading takes. -/
def Closes (excess : Bool) (characters padding : Nat) : Prop :=
  characters % 4 = 0 ∧ (padding = 0 ∨ excess = true) ∨
    characters % 4 = 2 ∧ padding = 2 ∨ characters % 4 = 3 ∧ padding = 1

/-- The count of the characters taken so far. -/
structure Counted (reader : Reader) (count : Nat) : Prop where
  position : reader.position = count % 4
  written : reader.written.length = 3 * count / 4
  pads : reader.pads = 0
  unpadded : reader.padded = false

theorem Counted.take {count : Nat} (counted : Counted reader count) (value : Nat) :
    Counted (reader.take value) (count + 1) := by
  obtain ⟨position, written, pads, unpadded⟩ := counted
  rw [Reader.take]
  split
  next zero =>
      exact ⟨by simp only; omega, by simp only; omega, rfl, unpadded⟩
  next one =>
      exact ⟨by simp only; omega, by rw [List.length_append, List.length_singleton]; omega, rfl,
        unpadded⟩
  next two =>
      exact ⟨by simp only; omega, by rw [List.length_append, List.length_singleton]; omega, rfl,
        unpadded⟩
  next zero one two =>
      have three : reader.position ≠ 0 ∧ reader.position ≠ 1 ∧ reader.position ≠ 2 :=
        ⟨zero, one, two⟩
      exact ⟨by simp only; omega, by rw [List.length_append, List.length_singleton]; omega, rfl,
        unpadded⟩

/-- What a strict reading accepts is characters and then padding, and three bytes are written for
four characters. -/
theorem shape_of_counted {count : Nat} (text : List Nat) (counted : Counted reader count)
    (accepted : read (.strict excess) reader text = some bytes) :
    ∃ characters padding, text = characters ++ List.replicate padding pad ∧
      (∀ code ∈ characters, (bits code).isSome) ∧
      bytes.length = 3 * (count + characters.length) / 4 ∧
      Closes excess (count + characters.length) padding := by
  induction text generalizing reader count with
  | nil =>
      rw [read] at accepted
      split at accepted
      case isFalse => cases accepted
      case isTrue closed =>
          cases accepted
          have whole : count % 4 = 0 := counted.position ▸ closed
          exact ⟨[], 0, rfl, by simp, counted.written, .inl ⟨whole, .inl rfl⟩⟩
  | cons code rest induction =>
      by_cases is_pad : code = pad
      case neg =>
          rw [read, if_neg is_pad] at accepted
          split at accepted
          · simp [Manner.isStrict] at accepted
          next value known =>
          rw [if_neg (by simp [counted.unpadded])] at accepted
          obtain ⟨characters, padding, shape, legal, length, closes⟩ :=
            induction (counted.take value) accepted
          refine ⟨code :: characters, padding, by rw [shape]; rfl, ?_, ?_, ?_⟩
          · intro other listed
            rcases List.mem_cons.mp listed with rfl | later
            · rw [known]
              rfl
            · exact legal other later
          · rw [length, List.length_cons, Nat.add_assoc, Nat.add_comm 1]
          · rwa [List.length_cons, Nat.add_comm characters.length, ← Nat.add_assoc]
      case pos =>
          subst is_pad
          have entry := counted.position
          have marked : read (.strict excess) { reader with padded := true } (pad :: rest) =
              some bytes := by
            rw [read] at accepted ⊢
            exact accepted
          obtain ⟨written, padding, closes⟩ :=
            @shape_of_padded _ { reader with padded := true } _ (pad :: rest) rfl
              (fun _ => by simp only [counted.pads]; omega) marked
          refine ⟨[], (pad :: rest).length, padding, by simp, ?_, ?_⟩
          · rw [written, List.length_nil]
            exact counted.written
          · rw [List.length_nil, Nat.add_zero, Closes, ← entry]
            obtain ⟨closed, excess⟩ | ⟨two, sum⟩ := closes
            · exact .inl ⟨closed, .inr (excess (List.cons_ne_nil _ _))⟩
            · simp only [counted.pads] at two sum
              omega

theorem shape_of_decode {text : List Nat} (accepted : decode (.strict excess) text = some bytes) :
    ∃ characters padding, text = characters ++ List.replicate padding pad ∧
      (∀ code ∈ characters, (bits code).isSome) ∧ bytes.length = 3 * characters.length / 4 ∧
      Closes excess characters.length padding := by
  rw [decode] at accepted
  split at accepted
  case isFalse => cases accepted
  rw [a2b] at accepted
  split at accepted
  case isTrue => cases accepted
  obtain ⟨characters, padding, shape, legal, length, closes⟩ :=
    @shape_of_counted _ _ _ 0 text ⟨rfl, rfl, rfl, rfl⟩ accepted
  exact ⟨characters, padding, shape, legal, by simpa using length, by simpa using closes⟩

end Strict

end Hermes.Base64
