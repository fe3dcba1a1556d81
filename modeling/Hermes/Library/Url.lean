import Hermes.Library.Encoding
import Hermes.Library.Uuid

/-!
# URLs

The path of a URL as `urllib.parse.urlsplit` takes it out, and as `unquote` reads it.  Escapes which
stand together are decoded together, and what is no UTF-8 is replaced.
-/

namespace Hermes.Url

open Encoding

/-! ## Bytes with replacement -/

def replacement : Nat := 0xfffd

/-- Read on, where a byte which does not fit ends the character before it. -/
def replaceFrom : Reader → List UInt8 → List Nat
  | reader, [] => if reader.owed = 0 then reader.characters else reader.characters ++ [replacement]
  | reader, byte :: rest =>
      match reader.step false byte with
      | some next => replaceFrom next rest
      | none =>
          let stopped : Reader := { characters := reader.characters ++ [replacement] }
          if reader.owed = 0 then replaceFrom stopped rest
          else
            match stopped.step false byte with
            | some next => replaceFrom next rest
            | none => replaceFrom { characters := stopped.characters ++ [replacement] } rest

/-- `bytes.decode("utf-8", "replace")`. -/
def decodeReplace (bytes : List UInt8) : List Nat := replaceFrom {} bytes

/-! ## Escapes -/

/-- The byte which is escaped at the head of a text. -/
def escaped : List Char → Option UInt8
  | '%' :: high :: low :: _ => do
      let high ← Uuid.hexValue high
      let low ← Uuid.hexValue low
      return UInt8.ofNat (16 * high + low)
  | _ => none

def HasEscape (text : List Char) : Prop := ∃ tail, tail <:+ text ∧ (escaped tail).isSome

/-- The characters of the bytes which stand together. -/
def flush (run : List UInt8) : List Char := (decodeReplace run).map Char.ofNat

/-- Read behind some characters which are skipped and the bytes of an open run of ASCII. -/
def unquoteFrom : Nat → List UInt8 → List Char → List Char
  | _, run, [] => flush run
  | skipped + 1, run, _ :: rest => unquoteFrom skipped run rest
  | 0, run, char :: rest =>
      if char.toNat < 0x80 then
        match escaped (char :: rest) with
        | some byte => unquoteFrom 2 (run ++ [byte]) rest
        | none => unquoteFrom 0 (run ++ [UInt8.ofNat char.toNat]) rest
      else flush run ++ char :: unquoteFrom 0 [] rest

/-- `urllib.parse.unquote`. -/
def unquote (text : List Char) : List Char := unquoteFrom 0 [] text

/-! ## Parts -/

/-- What `urlsplit` removes wherever it stands. -/
def isRemoved (char : Char) : Bool := char == '\t' || char == '\n' || char == '\r'

def endsPath (char : Char) : Bool := char == '?' || char == '#'

def isSchemeChar (char : Char) : Bool :=
  char.isAlphanum || char == '+' || char == '-' || char == '.'

def afterScheme (url : List Char) : List Char :=
  let scheme := url.takeWhile (· ≠ ':')
  if ':' ∈ url ∧ scheme.head?.any Char.isAlpha ∧ scheme.all isSchemeChar then
    url.drop (scheme.length + 1)
  else url

def afterNetloc : List Char → List Char
  | '/' :: '/' :: rest => rest.dropWhile fun char => char ≠ '/' ∧ ¬ endsPath char
  | url => url

/-- `urlsplit(url).path`. -/
def splitPath (url : List Char) : List Char :=
  let url := (url.dropWhile (·.toNat ≤ 0x20)).filter (¬ isRemoved ·)
  (afterNetloc (afterScheme url)).takeWhile (¬ endsPath ·)

def isHostChar (char : Char) : Bool := char.isAlphanum || char == '.' || char == '-' || char == ':'

/-! ## What is left of the path -/

section Split

variable {host path : List Char}

theorem splitPath_absolute (lawful : ∀ char ∈ host, isHostChar char = true) :
    splitPath ("https://".toList ++ host ++ '/' :: path) =
      '/' :: (path.filter (¬ isRemoved ·)).takeWhile (¬ endsPath ·) := by
  have kept : host.filter (¬ isRemoved ·) = host := by
    refine List.filter_eq_self.mpr fun char listed => ?_
    have host_char := lawful char listed
    simp only [isRemoved, decide_not, Bool.not_eq_true', decide_eq_false_iff_not, Bool.or_eq_true,
      beq_iff_eq]
    rintro ((rfl | rfl) | rfl) <;> exact absurd host_char (by decide)
  have dropped : (host ++ '/' :: path.filter (¬ isRemoved ·)).dropWhile
      (fun char => char ≠ '/' ∧ ¬ endsPath char) = '/' :: path.filter (¬ isRemoved ·) := by
    rw [List.dropWhile_append_of_pos, List.dropWhile_cons_of_neg (by decide)]
    intro char listed
    have host_char := lawful char listed
    simp only [endsPath, Bool.or_eq_true, beq_iff_eq, decide_eq_true_eq, ne_eq]
    refine ⟨?_, ?_⟩
    · rintro rfl
      exact absurd host_char (by decide)
    · rintro (rfl | rfl) <;> exact absurd host_char (by decide)
  have spelled : "https://".toList = ['h', 't', 't', 'p', 's', ':', '/', '/'] := rfl
  have filtered : ("https://".toList ++ host ++ '/' :: path).filter (¬ isRemoved ·) =
      "https://".toList ++ (host ++ '/' :: path.filter (¬ isRemoved ·)) := by
    rw [List.append_assoc, List.filter_append, List.filter_append, kept,
      List.filter_cons_of_pos (by decide)]
    rfl
  have started : ("https://".toList ++ host ++ '/' :: path).dropWhile (·.toNat ≤ 0x20) =
      "https://".toList ++ host ++ '/' :: path := by
    rw [spelled]
    exact List.dropWhile_cons_of_neg (by decide)
  have behind : afterScheme ("https://".toList ++ (host ++ '/' :: path.filter (¬ isRemoved ·))) =
      '/' :: '/' :: (host ++ '/' :: path.filter (¬ isRemoved ·)) := by
    have scheme : ("https://".toList ++ (host ++ '/' :: path.filter (¬ isRemoved ·))).takeWhile
        (· ≠ ':') = "https".toList := rfl
    have marked : ':' ∈ "https://".toList ++ (host ++ '/' :: path.filter (¬ isRemoved ·)) := by
      simp [spelled]
    rw [afterScheme, scheme, if_pos ⟨marked, rfl, rfl⟩]
    rfl
  rw [splitPath, started, filtered, behind, afterNetloc, dropped,
    List.takeWhile_cons_of_pos (by decide)]

/-- The path of a URL without a host, as long as it does not begin with two slashes. -/
theorem splitPath_relative {first : Char} (single : first ≠ '/') (plain : isRemoved first = false) :
    splitPath ('/' :: first :: path) =
      '/' :: ((first :: path).filter (¬ isRemoved ·)).takeWhile (¬ endsPath ·) := by
  have filtered : ('/' :: first :: path).filter (¬ isRemoved ·) =
      '/' :: first :: path.filter (¬ isRemoved ·) := by
    rw [List.filter_cons_of_pos (by decide), List.filter_cons_of_pos (by simp [plain])]
  have started : ('/' :: first :: path).dropWhile (·.toNat ≤ 0x20) = '/' :: first :: path :=
    List.dropWhile_cons_of_neg (by decide)
  have unschemed : afterScheme ('/' :: first :: path.filter (¬ isRemoved ·)) =
      '/' :: first :: path.filter (¬ isRemoved ·) := by
    rw [afterScheme]
    refine if_neg fun both => ?_
    rw [List.takeWhile_cons_of_pos (by decide), List.head?_cons] at both
    exact absurd both.2.1 (by simp)
  have hostless : afterNetloc ('/' :: first :: path.filter (¬ isRemoved ·)) =
      '/' :: first :: path.filter (¬ isRemoved ·) := by
    rw [afterNetloc]
    rintro rest same
    exact single (List.cons.inj (List.cons.inj same).2).1
  rw [splitPath, started, filtered, unschemed, hostless, List.takeWhile_cons_of_pos (by decide),
    List.filter_cons_of_pos (by simp [plain])]

end Split

/-! ## Unquoting -/

section Replace

variable {reader next : Reader} {bytes : List UInt8} {byte : UInt8}

/-- The characters which were read, and the one which is under way. -/
def weight (reader : Reader) : Nat :=
  reader.characters.length + if reader.owed = 0 then 0 else 1

/-- A byte makes one character at most. -/
theorem weight_step (read : reader.step false byte = some next) :
    weight next ≤ weight reader + 1 := by
  have one (characters : List Nat) (code owed low high : Nat) :
      weight ⟨characters, code, owed, low, high⟩ ≤ characters.length + 1 := by
    rw [weight]
    split <;> simp
  rw [Reader.step] at read
  split at read
  case isTrue settled =>
      rw [weight.eq_1 reader, if_pos settled]
      rw [Reader.lead] at read
      split at read
      · cases read
        simp [weight]
      · grind
  case isFalse owing =>
      rw [weight.eq_1 reader, if_neg owing]
      rw [Reader.continuation] at read
      split at read
      · cases read
      split at read
      · cases read
        simp [weight]
      · cases read
        exact (one _ _ _ _ _).trans (Nat.le_succ _)

theorem length_replaceFrom : (replaceFrom reader bytes).length ≤ weight reader + bytes.length := by
  induction bytes generalizing reader with
  | nil =>
      rw [replaceFrom, weight]
      split <;> simp
  | cons byte rest induction =>
      rw [replaceFrom, List.length_cons]
      split
      case h_1 next read =>
          have grown := weight_step read
          have later := @induction next
          omega
      case h_2 =>
          dsimp only
          have stopped : weight { characters := reader.characters ++ [replacement] } =
              reader.characters.length + 1 := by simp [weight]
          split
          case isTrue settled =>
              have later := @induction { characters := reader.characters ++ [replacement] }
              rw [stopped] at later
              rw [weight, if_pos settled]
              omega
          case isFalse owing =>
              rw [weight, if_neg owing]
              split
              case h_1 next read =>
                  have grown := weight_step read
                  have later := @induction next
                  rw [stopped] at grown
                  omega
              case h_2 =>
                  have later :=
                    @induction { characters := reader.characters ++ [replacement] ++ [replacement] }
                  simp only [weight, List.length_append, List.length_singleton, if_true] at later
                  omega

theorem length_flush (run : List UInt8) : (flush run).length ≤ run.length := by
  rw [flush, List.length_map]
  exact (@length_replaceFrom {} _).trans (by simp [weight])

theorem step_behind (read : List Nat) :
    (reader.behind read).step false byte = (reader.step false byte).map (Reader.behind read) := by
  simp only [Reader.step, Reader.lead, Reader.continuation, Reader.behind]
  grind [Reader.behind]

theorem replaceFrom_behind (read : List Nat) :
    replaceFrom (reader.behind read) bytes = read ++ replaceFrom reader bytes := by
  induction bytes generalizing reader with
  | nil =>
      rw [replaceFrom, replaceFrom, Reader.behind]
      split <;> simp
  | cons byte rest induction =>
      have stopped (characters : List Nat) :
          ({ characters := read ++ characters } : Reader) = Reader.behind read { characters } := rfl
      rw [replaceFrom, replaceFrom, step_behind]
      cases reader.step false byte with
      | some next => exact induction
      | none =>
          simp only [Option.map_none, Reader.behind, List.append_assoc]
          rw [stopped, stopped, step_behind, apply_ite (read ++ ·)]
          refine if_congr Iff.rfl induction ?_
          cases ({ characters := reader.characters ++ [replacement] } : Reader).step false byte with
          | some next => exact induction
          | none => exact induction

theorem decodeReplace_cons (ascii : byte.toNat < 0x80) :
    decodeReplace (byte :: bytes) = byte.toNat :: decodeReplace bytes := by
  have read : ({} : Reader).step false byte = some (Reader.behind [byte.toNat] {}) := by
    simp [Reader.step, Reader.lead, Reader.behind, ascii]
  rw [decodeReplace, replaceFrom, read]
  exact replaceFrom_behind [byte.toNat]

end Replace

section Unquote

variable {run : List UInt8} {text : List Char}

theorem flush_cons {char : Char} (ascii : char.toNat < 0x80) :
    flush (UInt8.ofNat char.toNat :: run) = char :: flush run := by
  have small := toNat_ofNat_ascii ascii
  rw [flush, decodeReplace_cons (by omega), List.map_cons, small, Char.ofNat_toNat]
  rfl

/-- ASCII in front of a run stays in front of the text. -/
theorem unquoteFrom_cons {char : Char} (ascii : char.toNat < 0x80) (skipped : Nat) :
    unquoteFrom skipped (UInt8.ofNat char.toNat :: run) text =
      char :: unquoteFrom skipped run text := by
  induction text generalizing skipped run with
  | nil => rw [unquoteFrom, unquoteFrom, flush_cons ascii]
  | cons next rest induction =>
      cases skipped with
      | succ skipped => exact induction skipped
      | zero =>
          rw [unquoteFrom, unquoteFrom]
          split
          · cases escaped (next :: rest) with
            | some byte => exact induction 2
            | none => exact induction 0
          · rw [flush_cons ascii]
            rfl

/-- A character which no escape begins with is taken as it stands. -/
theorem unquote_cons {char : Char} (plain : escaped (char :: text) = none) :
    unquote (char :: text) = char :: unquote text := by
  rw [unquote, unquoteFrom]
  split
  case isTrue ascii =>
      rw [plain]
      exact unquoteFrom_cons ascii 0
  case isFalse => rfl

theorem unquote_of_plain (plain : ¬ HasEscape text) : unquote text = text := by
  induction text with
  | nil => rfl
  | cons char rest induction =>
      have head : escaped (char :: rest) = none :=
        Option.not_isSome_iff_eq_none.mp fun found => plain ⟨_, List.suffix_refl _, found⟩
      rw [unquote_cons head, induction]
      rintro ⟨tail, suffix, found⟩
      exact plain ⟨tail, suffix.trans (List.suffix_cons _ _), found⟩

theorem escaped_eq_none {char : Char} (other : char ≠ '%') : escaped (char :: text) = none := by
  rw [escaped]
  rintro high low rest same
  exact other (List.cons.inj same).1

theorem not_hasEscape (plain : '%' ∉ text) : ¬ HasEscape text := by
  rintro ⟨tail, suffix, found⟩
  cases tail with
  | nil => cases found
  | cons char tail =>
      have other : char ≠ '%' := by
        rintro rfl
        exact plain (suffix.subset List.mem_cons_self)
      rw [escaped_eq_none other] at found
      cases found

theorem unquote_append {front : List Char} (plain : '%' ∉ front) :
    unquote (front ++ text) = front ++ unquote text := by
  induction front with
  | nil => rfl
  | cons char front induction =>
      rw [List.mem_cons, not_or] at plain
      rw [List.cons_append, unquote_cons (escaped_eq_none (Ne.symm plain.1)), induction plain.2]
      rfl

theorem length_unquoteFrom (skipped : Nat) :
    (unquoteFrom skipped run text).length ≤ run.length + (text.length - skipped) := by
  induction text generalizing skipped run with
  | nil =>
      rw [unquoteFrom]
      exact (length_flush run).trans (Nat.le_add_right _ _)
  | cons char rest induction =>
      rw [List.length_cons]
      cases skipped with
      | succ skipped =>
          have later := @induction run skipped
          rw [unquoteFrom]
          omega
      | zero =>
          rw [unquoteFrom]
          split
          · cases escaped (char :: rest) with
            | some byte =>
                have later := @induction (run ++ [byte]) 2
                rw [List.length_append, List.length_singleton] at later
                dsimp only
                omega
            | none =>
                have later := @induction (run ++ [UInt8.ofNat char.toNat]) 0
                rw [List.length_append, List.length_singleton] at later
                dsimp only
                omega
          · have later := @induction [] 0
            have flushed := length_flush run
            rw [List.length_append, List.length_cons]
            simp only [List.length_nil] at later
            omega

theorem escaped_length (found : (escaped text).isSome) : 3 ≤ text.length := by
  rcases text with _ | ⟨first, _ | ⟨second, _ | ⟨third, rest⟩⟩⟩
  · cases found
  · simp [escaped] at found
  · simp [escaped] at found
  · simp

theorem length_unquoteFrom_lt (found : HasEscape text) :
    (unquoteFrom 0 run text).length < run.length + text.length := by
  obtain ⟨tail, suffix, escape⟩ := found
  induction text generalizing run with
  | nil =>
      rw [List.suffix_nil.mp suffix] at escape
      cases escape
  | cons char rest induction =>
      rw [unquoteFrom, List.length_cons]
      rcases List.suffix_cons_iff.mp suffix with rfl | later
      · have long := escaped_length escape
        rw [List.length_cons] at long
        obtain ⟨byte, head⟩ := Option.isSome_iff_exists.mp escape
        have ascii : char.toNat < 0x80 := by
          by_contra large
          have other : char ≠ '%' := by
            rintro rfl
            exact large (by decide)
          rw [escaped_eq_none other] at head
          cases head
        rw [if_pos ascii, head]
        have bound := @length_unquoteFrom (run ++ [byte]) rest 2
        rw [List.length_append, List.length_singleton] at bound
        dsimp only
        omega
      · split
        · cases escaped (char :: rest) with
          | some byte =>
              have long : 3 ≤ rest.length := (escaped_length escape).trans later.length_le
              have bound := @length_unquoteFrom (run ++ [byte]) rest 2
              rw [List.length_append, List.length_singleton] at bound
              dsimp only
              omega
          | none =>
              have bound := @induction (run ++ [UInt8.ofNat char.toNat]) later
              rw [List.length_append, List.length_singleton] at bound
              dsimp only
              omega
        · have bound := @induction [] later
          have flushed := length_flush run
          rw [List.length_append, List.length_cons]
          simp only [List.length_nil] at bound
          omega

theorem length_unquote_le (text : List Char) : (unquote text).length ≤ text.length :=
  (length_unquoteFrom 0).trans (by simp)

theorem length_unquote_lt (found : HasEscape text) : (unquote text).length < text.length :=
  (length_unquoteFrom_lt found).trans_le (by simp)

end Unquote

end Hermes.Url
