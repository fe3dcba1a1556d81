import Mathlib

/-!
# UUIDs as text

`uuid.UUID` of a text and `str` of a UUID, with the letters from `A` to `Z` in either case.  What
the constructor accepts it accepts in lower case, as the same number.  The converse fails: it
removes its prefixes only where they are written in lower case.
-/

namespace Hermes.Uuid

/-- `str.lower`. -/
def lower (text : List Char) : List Char := text.map Char.toLower

/-- `str.replace` of a needle by nothing, once some characters are skipped. -/
def removeFrom (needle : List Char) : Nat → List Char → List Char
  | _, [] => []
  | skipped + 1, _ :: later => removeFrom needle skipped later
  | 0, head :: later =>
      if needle.isPrefixOf (head :: later) then removeFrom needle (needle.length - 1) later
      else head :: removeFrom needle 0 later

def isBrace (char : Char) : Bool := char == '\x7b' || char == '\x7d'

/-- `str.strip` of curly brackets. -/
def stripBraces (text : List Char) : List Char :=
  (text.dropWhile isBrace).rdropWhile isBrace

def hexValue (char : Char) : Option Nat :=
  (List.range 16).find? fun value => value.digitChar == char.toLower

/-- The number which digits write, with single underscores between them. -/
def digitsFrom (barred : Bool) (number : Nat) : List Char → Option Nat
  | [] => if barred then none else some number
  | char :: later =>
      if char = '_' then if barred then none else digitsFrom true number later
      else (hexValue char).bind fun value => digitsFrom false (16 * number + value) later

/-- What follows `0x` and an underscore. -/
def afterPrefix : List Char → List Char
  | zero :: mark :: later =>
      if zero = '0' ∧ mark.toLower = 'x' then
        if later.head? = some '_' then later.tail else later
      else zero :: mark :: later
  | text => text

/-- `int(text, 16)`, for a text without blanks and signs. -/
def intBase16 (text : List Char) : Option Nat := digitsFrom true 0 (afterPrefix text)

/-- What `uuid.UUID` takes as digits. -/
def digits (text : List Char) : List Char :=
  (stripBraces (removeFrom "uuid:".toList 0 (removeFrom "urn:".toList 0 text))).filter (· ≠ '-')

/-- `uuid.UUID`; `none` is a `ValueError`. -/
def ofText (text : List Char) : Option Nat :=
  if (digits text).length = 32 then (intBase16 (digits text)).filter (· < 2 ^ 128) else none

def hexDigits : Nat → Nat → List Char
  | 0, _ => []
  | width + 1, number => hexDigits width (number / 16) ++ [(number % 16).digitChar]

/-- `str` of a UUID. -/
def toText (number : Nat) : List Char :=
  let hex := hexDigits 32 number
  hex.take 8 ++ '-' :: (hex.drop 8).take 4 ++ '-' :: (hex.drop 12).take 4 ++
    '-' :: (hex.drop 16).take 4 ++ '-' :: hex.drop 20

section Letters

variable {char target : Char}

theorem isUpper_iff : char.isUpper = true ↔ 65 ≤ char.toNat ∧ char.toNat ≤ 90 := by
  simp [Char.isUpper, UInt32.le_iff_toNat_le, ← Char.toNat_val]

theorem isLower_iff : char.isLower = true ↔ 97 ≤ char.toNat ∧ char.toNat ≤ 122 := by
  simp [Char.isLower, UInt32.le_iff_toNat_le, ← Char.toNat_val]

theorem toLower_of_upper (upper : char.isUpper = true) :
    char.toLower.toNat = char.toNat + 32 := by
  have bounds := isUpper_iff.mp upper
  have between : char.val ≥ 'A'.val ∧ char.val ≤ 'Z'.val := by
    simpa [Char.isUpper] using upper
  rw [Char.toLower, dif_pos between]
  simp only [← Char.toNat_val] at bounds ⊢
  rw [UInt32.toNat_add, show ('a'.val - 'A'.val).toNat = 32 from rfl]
  omega

theorem toLower_of_not_upper (other : char.isUpper = false) : char.toLower = char := by
  have outside : ¬(char.val ≥ 'A'.val ∧ char.val ≤ 'Z'.val) := by
    simpa [Char.isUpper] using other
  rw [Char.toLower, dif_neg outside]

theorem isUpper_toLower : char.toLower.isUpper = false := by
  cases upper : char.isUpper with
  | false => rwa [toLower_of_not_upper upper]
  | true =>
      rw [Bool.eq_false_iff, ne_eq, isUpper_iff, toLower_of_upper upper]
      have bounds := isUpper_iff.mp upper
      omega

@[simp]
theorem toLower_toLower : char.toLower.toLower = char.toLower :=
  toLower_of_not_upper isUpper_toLower

/-- Only letters become other characters. -/
theorem toLower_eq_iff (apart : target.isLower = false ∧ target.isUpper = false) :
    char.toLower = target ↔ char = target := by
  cases upper : char.isUpper with
  | false => rw [toLower_of_not_upper upper]
  | true =>
      have bounds := isUpper_iff.mp upper
      constructor
      · rintro rfl
        have small : char.toLower.isLower = true := by
          rw [isLower_iff, toLower_of_upper upper]
          omega
        cases apart.1.symm.trans small
      · rintro rfl
        cases apart.2.symm.trans upper

theorem hexValue_toLower : hexValue char.toLower = hexValue char := by
  rw [hexValue, hexValue, toLower_toLower]

theorem hexValue_digitChar {value : Nat} (small : value < 16) :
    hexValue value.digitChar = some value := by
  revert small
  revert value
  decide

theorem isBrace_toLower : isBrace char.toLower = isBrace char := by
  unfold isBrace
  rw [Bool.eq_iff_iff, Bool.or_eq_true, Bool.or_eq_true]
  simp only [beq_iff_eq]
  rw [toLower_eq_iff (by decide), toLower_eq_iff (by decide)]

end Letters

section Removal

variable {marker : Char} {body segment rest text : List Char}

/-- An occurrence at the beginning ends at the first marker. -/
theorem occurs_iff (unmarked : marker ∉ body) (before : marker ∉ segment) :
    (body ++ [marker]).isPrefixOf (segment ++ marker :: rest) = true ↔ body = segment := by
  rw [List.isPrefixOf_iff_prefix]
  constructor
  · rintro ⟨later, same⟩
    rw [List.append_assoc, List.singleton_append] at same
    rcases List.append_eq_append_iff.mp same with
      ⟨between, segment_eq, later_eq⟩ | ⟨between, body_eq, rest_eq⟩
    · cases between with
      | nil => rw [segment_eq, List.append_nil]
      | cons head tail =>
          rw [List.cons_append, List.cons.injEq] at later_eq
          exact absurd (by simp [segment_eq, ← later_eq.1]) before
    · cases between with
      | nil => rw [body_eq, List.append_nil]
      | cons head tail =>
          rw [List.cons_append, List.cons.injEq] at rest_eq
          exact absurd (by simp [body_eq, ← rest_eq.1]) unmarked
  · rintro rfl
    exact ⟨rest, by simp⟩

theorem removeFrom_skip (needle : List Char) (skipped : Nat) (text : List Char) :
    removeFrom needle skipped text = removeFrom needle 0 (text.drop skipped) := by
  induction text generalizing skipped with
  | nil =>
      cases skipped with
      | zero => rfl
      | succ skipped => rfl
  | cons head later induction =>
      cases skipped with
      | zero => rfl
      | succ skipped =>
          rw [removeFrom, induction, List.drop_succ_cons]

theorem removeFrom_occurs {needle : List Char} {head : Char} {later : List Char}
    (occurs : needle.isPrefixOf (head :: later) = true) :
    removeFrom needle 0 (head :: later) = removeFrom needle 0 (later.drop (needle.length - 1)) := by
  rw [removeFrom.eq_def]
  simp only
  rw [if_pos occurs, removeFrom_skip]

theorem removeFrom_apart {needle : List Char} {head : Char} {later : List Char}
    (apart : ¬needle.isPrefixOf (head :: later) = true) :
    removeFrom needle 0 (head :: later) = head :: removeFrom needle 0 later := by
  rw [removeFrom.eq_def]
  simp only
  rw [if_neg apart]

/-- A needle which ends with a marker is not in a text without it. -/
theorem removeFrom_unmarked (absent : marker ∉ text) :
    removeFrom (body ++ [marker]) 0 text = text := by
  induction text with
  | nil => rfl
  | cons head later induction =>
      have apart : ¬(body ++ [marker]).isPrefixOf (head :: later) = true := by
        rw [List.isPrefixOf_iff_prefix]
        intro occurs
        exact absent (occurs.subset (by simp))
      rw [removeFrom_apart apart, induction (List.not_mem_of_not_mem_cons absent)]

/-- Up to its first marker, a text which ends with the needle loses it. -/
theorem removeFrom_suffix (unmarked : marker ∉ body) (before : marker ∉ segment) :
    removeFrom (body ++ [marker]) 0 (segment ++ body ++ marker :: rest) =
      segment ++ removeFrom (body ++ [marker]) 0 rest := by
  induction segment with
  | nil =>
      have occurs : (body ++ [marker]).isPrefixOf (body ++ marker :: rest) = true :=
        (occurs_iff unmarked unmarked).mpr rfl
      rw [List.nil_append, List.nil_append]
      cases body with
      | nil =>
          rw [List.nil_append] at occurs ⊢
          exact removeFrom_occurs occurs
      | cons head later =>
          simp only [List.cons_append] at occurs ⊢
          rw [removeFrom_occurs occurs]
          simp
  | cons head later induction =>
      have absent := List.not_mem_of_not_mem_cons before
      have apart : ¬(body ++ [marker]).isPrefixOf
          (head :: (later ++ body ++ marker :: rest)) = true := by
        intro occurs
        have whole : marker ∉ head :: later ++ body := by
          rw [List.mem_append, not_or]
          exact ⟨before, unmarked⟩
        have same := congrArg List.length ((occurs_iff unmarked whole).mp occurs)
        simp at same
        omega
      rw [List.cons_append, List.cons_append, removeFrom_apart apart, induction absent,
        List.cons_append]

theorem removeFrom_segment (unmarked : marker ∉ body) (before : marker ∉ segment)
    (apart : ¬body <:+ segment) :
    removeFrom (body ++ [marker]) 0 (segment ++ marker :: rest) =
      segment ++ marker :: removeFrom (body ++ [marker]) 0 rest := by
  have differs : ¬(body ++ [marker]).isPrefixOf (segment ++ marker :: rest) = true := by
    rw [occurs_iff unmarked before]
    rintro rfl
    exact apart List.suffix_rfl
  induction segment with
  | nil => exact removeFrom_apart differs
  | cons head later induction =>
      have absent := List.not_mem_of_not_mem_cons before
      have apart_later : ¬body <:+ later := fun suffix =>
        apart (suffix.trans (List.suffix_cons head later))
      have differs_later : ¬(body ++ [marker]).isPrefixOf (later ++ marker :: rest) = true := by
        rw [occurs_iff unmarked absent]
        rintro rfl
        exact apart_later List.suffix_rfl
      rw [List.cons_append] at differs ⊢
      rw [removeFrom_apart differs, induction absent apart_later differs_later, List.cons_append]

/-- After its last character, a marker which no needle ends with stays. -/
theorem marker_kept {last : Char} (unmarked : marker ∉ body) (other : last ≠ marker)
    (ending : body.getLast? ≠ some last) (nonempty : body ≠ []) (text rest : List Char) :
    marker ∈ removeFrom (body ++ [marker]) 0 (text ++ last :: marker :: rest) := by
  by_cases marked : marker ∈ text
  · obtain ⟨segment, later, text_eq, before⟩ := List.eq_append_cons_of_mem marked
    have shorter : later.length < text.length := by
      rw [text_eq, List.length_append, List.length_cons]
      omega
    rw [text_eq, List.append_assoc, List.cons_append]
    by_cases suffix : body <:+ segment
    · obtain ⟨start, rfl⟩ := suffix
      rw [removeFrom_suffix unmarked fun listed => before (List.mem_append_left _ listed)]
      apply List.mem_append_right
      exact marker_kept unmarked other ending nonempty later rest
    · rw [removeFrom_segment unmarked before suffix]
      simp
  · have before : marker ∉ text ++ [last] := by
      simp [marked, other.symm]
    have apart : ¬body <:+ text ++ [last] := by
      intro suffix
      obtain ⟨start, same⟩ := suffix
      apply ending
      have lasts := congrArg List.getLast? same
      rwa [List.getLast?_append_of_ne_nil _ nonempty, List.getLast?_concat] at lasts
    rw [List.append_cons text, removeFrom_segment unmarked before apart]
    simp
termination_by text.length

/-- A needle in lower case is removed alike in lower case, unless something like it stays. -/
theorem removeFrom_lower {marker : Char} {body : List Char} (unmarked : marker ∉ body)
    (apart : marker.isLower = false ∧ marker.isUpper = false) (small : lower body = body)
    (text : List Char) :
    removeFrom (body ++ [marker]) 0 (lower text) = lower (removeFrom (body ++ [marker]) 0 text) ∨
      ∃ start spelled rest, lower spelled = body ∧
        removeFrom (body ++ [marker]) 0 text = start ++ spelled ++ marker :: rest := by
  have absent_lower {part : List Char} (absent : marker ∉ part) : marker ∉ lower part := by
    simp only [lower, List.mem_map, not_exists, not_and]
    intro char listed same
    rw [toLower_eq_iff apart] at same
    exact absent (same ▸ listed)
  have marker_lower : marker.toLower = marker := (toLower_eq_iff apart).mpr rfl
  by_cases marked : marker ∈ text
  · obtain ⟨segment, later, text_eq, before⟩ := List.eq_append_cons_of_mem marked
    have shorter : later.length < text.length := by
      rw [text_eq, List.length_append, List.length_cons]
      omega
    have lower_eq : lower text = lower segment ++ marker :: lower later := by
      rw [text_eq, lower, List.map_append, List.map_cons, marker_lower]
      rfl
    have tail := removeFrom_lower unmarked apart small later
    by_cases suffix : body <:+ segment
    · obtain ⟨start, rfl⟩ := suffix
      have absent : marker ∉ start := fun listed => before (List.mem_append_left _ listed)
      rw [lower_eq, text_eq, removeFrom_suffix unmarked absent, lower, List.map_append]
      change removeFrom _ 0 (lower start ++ lower body ++ marker :: lower later) = _ ∨ _
      rw [small, removeFrom_suffix unmarked (absent_lower absent)]
      rcases tail with same | ⟨first, spelled, rest, spells, tail_eq⟩
      · left
        rw [same]
        exact List.map_append.symm
      · right
        refine ⟨start ++ first, spelled, rest, spells, ?_⟩
        rw [tail_eq, List.append_assoc, List.append_assoc]
        simp
    · rw [text_eq, removeFrom_segment unmarked before suffix, ← text_eq, lower_eq]
      by_cases spelled : body <:+ lower segment
      · right
        obtain ⟨first, same⟩ := spelled
        obtain ⟨start, spelled, segment_eq, -, spells⟩ := List.map_eq_append_iff.mp same.symm
        exact ⟨start, spelled, _, spells, by rw [segment_eq]⟩
      · rw [removeFrom_segment unmarked (absent_lower before) spelled]
        rcases tail with same | ⟨first, spelled, rest, spells, tail_eq⟩
        · left
          rw [same, lower, lower, lower, List.map_append, List.map_cons, marker_lower]
        · right
          refine ⟨segment ++ marker :: first, spelled, rest, spells, ?_⟩
          rw [tail_eq]
          simp
  · left
    rw [removeFrom_unmarked marked, removeFrom_unmarked (absent_lower marked)]
termination_by text.length

end Removal

section Reading

variable {char : Char} {text : List Char} {number : Nat}

theorem digitsFrom_lower (barred : Bool) (number : Nat) (text : List Char) :
    digitsFrom barred number (lower text) = digitsFrom barred number text := by
  induction text generalizing barred number with
  | nil => rfl
  | cons head later induction =>
      change digitsFrom barred number (head.toLower :: lower later) = _
      simp only [digitsFrom, induction, hexValue_toLower]
      simp only [toLower_eq_iff (show '_'.isLower = false ∧ '_'.isUpper = false by decide)]

theorem afterPrefix_lower (text : List Char) :
    afterPrefix (lower text) = lower (afterPrefix text) := by
  have barred (later : List Char) : (lower later).head? = some '_' ↔ later.head? = some '_' := by
    cases later with
    | nil => rfl
    | cons head later => simp [lower, toLower_eq_iff]
  cases text with
  | nil => rfl
  | cons zero text =>
      cases text with
      | nil => rfl
      | cons mark later =>
          change afterPrefix (zero.toLower :: mark.toLower :: lower later) = _
          simp only [afterPrefix, toLower_toLower, barred,
            toLower_eq_iff (show '0'.isLower = false ∧ '0'.isUpper = false by decide)]
          split
          · split
            · exact List.map_tail.symm
            · rfl
          · rfl

theorem intBase16_lower (text : List Char) : intBase16 (lower text) = intBase16 text := by
  rw [intBase16, afterPrefix_lower, digitsFrom_lower]
  rfl

theorem digitsFrom_colon (barred : Bool) (number : Nat) (listed : ':' ∈ text) :
    digitsFrom barred number text = none := by
  induction text generalizing barred number with
  | nil => cases listed
  | cons head later induction =>
      rw [digitsFrom]
      rcases List.mem_cons.mp listed with rfl | later_listed
      · rfl
      · simp [induction _ _ later_listed]

theorem afterPrefix_colon (listed : ':' ∈ text) : ':' ∈ afterPrefix text := by
  cases text with
  | nil => cases listed
  | cons zero text =>
      cases text with
      | nil => exact listed
      | cons mark later =>
          rw [afterPrefix]
          split
          next marked =>
            have later_listed : ':' ∈ later := by
              rcases List.mem_cons.mp listed with rfl | rest
              · exact absurd marked.1 (by decide)
              · rcases List.mem_cons.mp rest with rfl | rest
                · exact absurd marked.2 (by decide)
                · exact rest
            split
            next barred =>
              cases later with
              | nil => cases later_listed
              | cons head later =>
                  rw [List.head?_cons, Option.some.injEq] at barred
                  subst barred
                  exact (List.mem_cons.mp later_listed).resolve_left (by decide)
            next => exact later_listed
          next => exact listed

theorem intBase16_colon (listed : ':' ∈ text) : intBase16 text = none :=
  digitsFrom_colon _ _ (afterPrefix_colon listed)

theorem stripBraces_lower (text : List Char) :
    stripBraces (lower text) = lower (stripBraces text) := by
  have alike : isBrace ∘ Char.toLower = isBrace := funext fun char => isBrace_toLower
  simp only [stripBraces, List.rdropWhile, lower, List.dropWhile_map, alike, ← List.map_reverse]

theorem mem_stripBraces (listed : char ∈ text) (other : isBrace char = false) :
    char ∈ stripBraces text := by
  have kept {text : List Char} (listed : char ∈ text) : char ∈ text.dropWhile isBrace := by
    rw [← List.takeWhile_append_dropWhile (p := isBrace) (l := text)] at listed
    rcases List.mem_append.mp listed with taken | dropped
    · have brace := List.mem_takeWhile_imp taken
      rw [other] at brace
      cases brace
    · exact dropped
  rw [stripBraces, List.rdropWhile, List.mem_reverse]
  exact kept (List.mem_reverse.mpr (kept listed))

theorem stripBraces_of_none (plain : ∀ char ∈ text, isBrace char = false) :
    stripBraces text = text := by
  have kept {text : List Char} (plain : ∀ char ∈ text, isBrace char = false) :
      text.dropWhile isBrace = text := by
    cases text with
    | nil => rfl
    | cons head later =>
        apply List.dropWhile_cons_of_neg
        simp [plain head List.mem_cons_self]
  rw [stripBraces, kept plain, List.rdropWhile, kept, List.reverse_reverse]
  intro char listed
  exact plain char (List.mem_reverse.mp listed)

theorem dash_toLower :
    (fun char : Char => decide (char ≠ '-')) ∘ Char.toLower = fun char => decide (char ≠ '-') := by
  funext char
  simp [toLower_eq_iff]

/-- Without a colon left over, the digits are those of the text in lower case. -/
theorem digits_lower (read : ':' ∉ digits text) : digits (lower text) = lower (digits text) := by
  have kept {part : List Char} (listed : ':' ∈ part) :
      ':' ∈ (stripBraces part).filter (· ≠ '-') := by
    rw [List.mem_filter]
    exact ⟨mem_stripBraces listed rfl, rfl⟩
  unfold digits at read ⊢
  rw [show "uuid:".toList = "uuid".toList ++ [':'] from rfl,
    show "urn:".toList = "urn".toList ++ [':'] from rfl] at read ⊢
  have first : removeFrom ("urn".toList ++ [':']) 0 (lower text) =
      lower (removeFrom ("urn".toList ++ [':']) 0 text) := by
    refine (removeFrom_lower (by decide) (by decide) (by decide) text).resolve_right ?_
    rintro ⟨start, spelled, rest, spells, left⟩
    obtain ⟨first, second, third, rfl⟩ : ∃ first second third, spelled = [first, second, third] :=
      List.length_eq_three.mp (by simpa [lower] using congrArg List.length spells)
    have third_eq : third.toLower = 'n' := by
      simp [lower] at spells
      exact spells.2.2
    apply read
    apply kept
    rw [left, List.append_assoc, show [first, second, third] ++ ':' :: rest =
      [first, second] ++ third :: ':' :: rest from rfl, ← List.append_assoc]
    apply marker_kept (by decide)
    · rintro rfl
      cases third_eq
    · intro last
      obtain rfl : 'd' = third := Option.some.inj last
      cases third_eq
    · decide
  have second : removeFrom ("uuid".toList ++ [':']) 0
      (lower (removeFrom ("urn".toList ++ [':']) 0 text)) =
        lower (removeFrom ("uuid".toList ++ [':']) 0
          (removeFrom ("urn".toList ++ [':']) 0 text)) := by
    refine (removeFrom_lower (by decide) (by decide) (by decide) _).resolve_right ?_
    rintro ⟨start, spelled, rest, spells, left⟩
    apply read
    apply kept
    rw [left]
    simp
  rw [first, second, stripBraces_lower, lower, List.filter_map, dash_toLower]
  rfl

theorem ofText_lower (read : ofText text = some number) : ofText (lower text) = some number := by
  have colonless : ':' ∉ digits text := by
    intro listed
    rw [ofText, intBase16_colon listed] at read
    simp at read
  rw [ofText, digits_lower colonless, intBase16_lower, lower, List.length_map]
  exact read

end Reading

section RoundTrip

variable {char : Char} {text : List Char} {number width : Nat}

@[simp]
theorem length_hexDigits : (hexDigits width number).length = width := by
  induction width generalizing number with
  | zero => rfl
  | succ width induction => simp [hexDigits, induction]

theorem mem_hexDigits (listed : char ∈ hexDigits width number) :
    ∃ value < 16, char = value.digitChar := by
  induction width generalizing number with
  | zero => cases listed
  | succ width induction =>
      rw [hexDigits, List.mem_append, List.mem_singleton] at listed
      rcases listed with earlier | rfl
      · exact induction earlier
      · exact ⟨number % 16, Nat.mod_lt _ (by decide), rfl⟩

theorem digitChar_plain {value : Nat} (small : value < 16) :
    value.digitChar ≠ '_' ∧ value.digitChar ≠ '-' ∧ value.digitChar ≠ ':' ∧
      value.digitChar.toLower ≠ 'x' ∧ isBrace value.digitChar = false := by
  revert small
  revert value
  decide

theorem digitsFrom_hexDigits (barred : Bool) (start : Nat) (rest : List Char) :
    digitsFrom barred start (hexDigits (width + 1) number ++ rest) =
      digitsFrom false (16 ^ (width + 1) * start + number % 16 ^ (width + 1)) rest := by
  have digit (barred : Bool) (start number : Nat) (rest : List Char) :
      digitsFrom barred start ((number % 16).digitChar :: rest) =
        digitsFrom false (16 * start + number % 16) rest := by
    have small := Nat.mod_lt number (show 0 < 16 by decide)
    rw [digitsFrom, if_neg (digitChar_plain small).1, hexValue_digitChar small]
    rfl
  induction width generalizing number rest with
  | zero => exact digit barred start number rest
  | succ width induction =>
      rw [hexDigits, List.append_assoc, induction, List.singleton_append, digit]
      have split_eq : number % 16 ^ (width + 1 + 1) =
          number % 16 + 16 * (number / 16 % 16 ^ (width + 1)) := by
        rw [Nat.pow_succ', Nat.mod_mul]
      congr 1
      rw [split_eq]
      ring

theorem afterPrefix_hexDigits : afterPrefix (hexDigits width number) = hexDigits width number := by
  cases written : hexDigits width number with
  | nil => rfl
  | cons zero text =>
      cases text with
      | nil => rfl
      | cons mark later =>
          have listed : mark ∈ hexDigits width number := by simp [written]
          obtain ⟨value, small, rfl⟩ := mem_hexDigits listed
          rw [afterPrefix, if_neg fun marked => (digitChar_plain small).2.2.2.1 marked.2]

theorem filter_toText (number : Nat) : (toText number).filter (· ≠ '-') = hexDigits 32 number := by
  have plain {part : List Char} (within : part ⊆ hexDigits 32 number) :
      part.filter (· ≠ '-') = part := by
    rw [List.filter_eq_self]
    intro char listed
    obtain ⟨value, small, rfl⟩ := mem_hexDigits (within listed)
    simp [(digitChar_plain small).2.1]
  have joined (count more : Nat) : ((hexDigits 32 number).drop count).take more ++
      (hexDigits 32 number).drop (count + more) = (hexDigits 32 number).drop count := by
    rw [← List.drop_drop]
    exact List.take_append_drop _ _
  have dash (later : List Char) : ('-' :: later).filter (· ≠ '-') = later.filter (· ≠ '-') := rfl
  simp only [toText, List.filter_append, dash]
  have within (count more : Nat) : ((hexDigits 32 number).drop count).take more ⊆
      hexDigits 32 number := fun _ listed =>
    List.drop_subset _ _ (List.take_subset _ _ listed)
  rw [plain (List.take_subset _ _), plain (within 8 4), plain (within 12 4), plain (within 16 4),
    plain (List.drop_subset _ _)]
  simp only [List.append_assoc]
  rw [joined 16 4, joined 12 4, joined 8 4]
  exact List.take_append_drop _ _

theorem mem_toText (listed : char ∈ toText number) :
    char = '-' ∨ ∃ value < 16, char = value.digitChar := by
  by_cases dash : char = '-'
  · exact .inl dash
  · right
    have kept : char ∈ (toText number).filter (· ≠ '-') := by
      rw [List.mem_filter]
      exact ⟨listed, by simpa using dash⟩
    rw [filter_toText] at kept
    exact mem_hexDigits kept

theorem lower_toText (number : Nat) : lower (toText number) = toText number := by
  have plain : ∀ value < 16, value.digitChar.toLower = value.digitChar := by decide
  refine (List.map_congr_left ?_).trans (List.map_id _)
  intro char listed
  rcases mem_toText listed with rfl | ⟨value, small, rfl⟩
  · rfl
  · exact plain value small

/-- A text in any letter case is the UUID which is written like it. -/
theorem ofText_toText (small : number < 2 ^ 128) (spells : lower text = toText number) :
    ofText text = some number := by
  have written {char : Char} (listed : char ∈ text) : char ≠ ':' ∧ isBrace char = false := by
    have lower_listed : char.toLower ∈ toText number := by
      rw [← spells]
      exact List.mem_map_of_mem listed
    rw [← isBrace_toLower, ne_eq, ← toLower_eq_iff (show _ ∧ ':'.isUpper = false by decide)]
    rcases mem_toText lower_listed with dash | ⟨value, below, digit⟩
    · rw [dash]
      decide
    · rw [digit]
      exact ⟨(digitChar_plain below).2.2.1, (digitChar_plain below).2.2.2.2⟩
  have colonless : ':' ∉ text := fun listed => (written listed).1 rfl
  have digits_eq : digits text = text.filter (· ≠ '-') := by
    rw [digits, show "uuid:".toList = "uuid".toList ++ [':'] from rfl,
      show "urn:".toList = "urn".toList ++ [':'] from rfl, removeFrom_unmarked colonless,
      removeFrom_unmarked colonless, stripBraces_of_none fun _ listed => (written listed).2]
  have spelled : lower (digits text) = hexDigits 32 number := by
    rw [digits_eq, ← filter_toText, ← spells, lower, lower, List.filter_map, dash_toLower]
  have length_eq : (digits text).length = 32 := by
    rw [← List.length_map (f := Char.toLower), ← lower, spelled, length_hexDigits]
  have number_eq : intBase16 (digits text) = some number := by
    rw [← intBase16_lower, spelled, intBase16, afterPrefix_hexDigits,
      ← List.append_nil (hexDigits 32 number), digitsFrom_hexDigits,
      Nat.mod_eq_of_lt (by norm_num at small ⊢; exact small), Nat.mul_zero, Nat.zero_add]
    rfl
  rw [ofText, if_pos length_eq, number_eq]
  simpa using small

end RoundTrip

end Hermes.Uuid
