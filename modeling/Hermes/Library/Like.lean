import Mathlib.Data.List.Infix

/-!
# The `LIKE` operator

`LIKE` matches a text against a pattern in which `%` stands for any text, `_` for any character, and
the escape character makes the character after it stand for itself.  A text in which every special
character is escaped matches itself alone, whatever it consists of.
-/

namespace Hermes.Like

inductive Token
  | literal (char : Char)
  | anyChar
  | anyText
  deriving DecidableEq, Repr

/-- A character of a pattern which is not escaped. -/
def token (char : Char) : Token :=
  if char = '%' then .anyText else if char = '_' then .anyChar else .literal char

/-- Read a pattern; `none` where it ends with the escape character, which is an error. -/
def parse (escape : Char) : List Char → Option (List Token)
  | [] => some []
  | [char] => if char = escape then none else some [token char]
  | char :: next :: later =>
      if char = escape then (parse escape later).map (.literal next :: ·)
      else (parse escape (next :: later)).map (token char :: ·)

def accepts : List Token → List Char → Bool
  | [], text => text.isEmpty
  | .literal _ :: _, [] => false
  | .literal char :: later, head :: text => char == head && accepts later text
  | .anyChar :: _, [] => false
  | .anyChar :: later, _ :: text => accepts later text
  | .anyText :: later, text => text.tails.any (accepts later)

/-- `text LIKE pattern ESCAPE escape`. -/
def like (escape : Char) (pattern text : List Char) : Bool :=
  (parse escape pattern).any (accepts · text)

/-- The character means something else in a pattern than itself. -/
def special (escape char : Char) : Bool :=
  char == escape || char == '%' || char == '_'

/-- Put the escape character before every special character. -/
def quote (escape : Char) (text : List Char) : List Char :=
  text.flatMap fun char => if special escape char then [escape, char] else [char]

section Quote

variable {escape : Char}

theorem quote_cons (char : Char) (text : List Char) :
    quote escape (char :: text) =
      (if special escape char then [escape, char] else [char]) ++ quote escape text := rfl

theorem token_of_ordinary {char : Char} (ordinary : special escape char = false) :
    token char = .literal char := by
  simp only [special, Bool.or_eq_false_iff, beq_eq_false_iff_ne] at ordinary
  rw [token, if_neg ordinary.1.2, if_neg ordinary.2]

theorem parse_escaped (char : Char) (pattern : List Char) :
    parse escape (escape :: char :: pattern) =
      (parse escape pattern).map (.literal char :: ·) := by
  rw [parse, if_pos rfl]

theorem parse_ordinary {char : Char} (ordinary : special escape char = false)
    (pattern : List Char) (nonempty : pattern ≠ []) :
    parse escape (char :: pattern) = (parse escape pattern).map (.literal char :: ·) := by
  have differs : char ≠ escape := by
    simp only [special, Bool.or_eq_false_iff, beq_eq_false_iff_ne] at ordinary
    exact ordinary.1.1
  cases pattern with
  | nil => exact absurd rfl nonempty
  | cons next later => rw [parse, if_neg differs, token_of_ordinary ordinary]

/-- A quoted text is read as that text, up to the pattern which follows it. -/
theorem parse_quote (text pattern : List Char) (nonempty : pattern ≠ []) :
    parse escape (quote escape text ++ pattern) =
      (parse escape pattern).map (text.map .literal ++ ·) := by
  induction text with
  | nil => simp [quote]
  | cons char text induction =>
      have rest_nonempty : quote escape text ++ pattern ≠ [] := by simp [nonempty]
      rw [quote_cons, List.append_assoc]
      cases meaning : special escape char with
      | true =>
          rw [if_pos rfl]
          change parse escape (escape :: char :: (quote escape text ++ pattern)) = _
          rw [parse_escaped, induction, Option.map_map]
          rfl
      | false =>
          rw [if_neg Bool.false_ne_true, List.singleton_append,
            parse_ordinary meaning _ rest_nonempty, induction, Option.map_map]
          rfl

theorem accepts_literals (text : List Char) (later : List Token) (input : List Char) :
    accepts (text.map .literal ++ later) input = true ↔
      ∃ tail, input = text ++ tail ∧ accepts later tail = true := by
  induction text generalizing input with
  | nil => simp
  | cons char text induction =>
      cases input with
      | nil => simp [accepts]
      | cons head input =>
          simp only [List.map_cons, List.cons_append, accepts, Bool.and_eq_true, beq_iff_eq,
            induction, List.cons.injEq]
          constructor
          · rintro ⟨rfl, tail, rfl, accepted⟩
            exact ⟨tail, ⟨rfl, rfl⟩, accepted⟩
          · rintro ⟨tail, ⟨rfl, rfl⟩, accepted⟩
            exact ⟨rfl, tail, rfl, accepted⟩

theorem accepts_anyText (text : List Char) : accepts [.anyText] text = true := by
  rw [accepts, List.any_eq_true]
  exact ⟨[], (List.mem_tails [] text).mpr List.nil_suffix, rfl⟩

/-- A quoted text followed by `%` is matched by what begins with the text. -/
theorem like_quote_anyText (text input : List Char) (unescaped : escape ≠ '%') :
    like escape (quote escape text ++ ['%']) input = text.isPrefixOf input := by
  have read : parse escape ['%'] = some [.anyText] := by
    rw [parse, if_neg (Ne.symm unescaped)]
    rfl
  rw [like, parse_quote text ['%'] (by simp), read]
  apply Bool.eq_iff_iff.mpr
  rw [List.isPrefixOf_iff_prefix]
  change accepts (text.map .literal ++ [.anyText]) input = true ↔ _
  rw [accepts_literals]
  constructor
  · rintro ⟨tail, rfl, -⟩
    exact List.prefix_append text tail
  · rintro ⟨tail, rfl⟩
    exact ⟨tail, rfl, accepts_anyText tail⟩

end Quote

end Hermes.Like
