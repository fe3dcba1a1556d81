import Mathlib.Data.List.DropRight

/-!
# Words and their separators

A text is split into words at its blanks and put together again with one separator between two
words.  Blanks at the ends make no difference, and what is put together from more words begins with
what is put together from the first of them.
-/

namespace Hermes.Words

variable {α : Type} (blank : α → Bool)

def words (text : List α) : List (List α) :=
  (text.splitOnP blank).filter fun word => !word.isEmpty

def strip (text : List α) : List α := (text.dropWhile blank).rdropWhile blank

section Splitting

variable {blank} {text : List α}

@[simp] theorem words_nil : words blank ([] : List α) = [] := rfl

theorem words_append {separator : α} (isBlank : blank separator = true) (text later : List α) :
    words blank (text ++ separator :: later) = words blank text ++ words blank later := by
  rw [words, List.splitOnP_append_cons text later isBlank, List.filter_append]
  rfl

theorem words_cons {separator : α} (isBlank : blank separator = true) (later : List α) :
    words blank (separator :: later) = words blank later :=
  words_append isBlank [] later

theorem words_concat {separator : α} (isBlank : blank separator = true) (text : List α) :
    words blank (text ++ [separator]) = words blank text := by
  rw [words_append isBlank text [], words_nil, List.append_nil]

theorem mem_words {word : List α} (listed : word ∈ words blank text) :
    word ≠ [] ∧ ∀ char ∈ word, blank char = false := by
  constructor
  · rintro rfl
    exact absurd (List.mem_filter.mp listed).2 (by simp)
  · replace listed := (List.mem_filter.mp listed).1
    induction text generalizing word with
    | nil =>
        rw [List.splitOnP_nil, List.mem_singleton] at listed
        subst listed
        exact fun char charIn => absurd charIn List.not_mem_nil
    | cons head text induction =>
        rw [List.splitOnP_cons_eq_if_modifyHead] at listed
        split at listed
        next =>
          rcases List.mem_cons.mp listed with rfl | later
          · exact fun char charIn => absurd charIn List.not_mem_nil
          · exact induction later
        next solid =>
          obtain ⟨first, others, split⟩ :=
            List.exists_cons_of_ne_nil (List.splitOnP_ne_nil blank text)
          rw [split, List.modifyHead_cons] at listed
          rcases List.mem_cons.mp listed with rfl | later
          · intro char charIn
            rcases List.mem_cons.mp charIn with rfl | inFirst
            · exact Bool.eq_false_iff.mpr solid
            · exact induction (split ▸ List.mem_cons_self) char inFirst
          · exact induction (split ▸ List.mem_cons_of_mem first later)

/-- A text which begins with a character that is no blank has a word. -/
theorem words_ne_nil_of_head {head : α} (solid : blank head = false) (later : List α) :
    words blank (head :: later) ≠ [] := by
  obtain ⟨first, others, split⟩ :=
    List.exists_cons_of_ne_nil (List.splitOnP_ne_nil blank later)
  rw [words, List.splitOnP_cons_eq_if_modifyHead, if_neg (by rw [solid]; exact Bool.false_ne_true),
    split, List.modifyHead_cons]
  simp

theorem words_dropWhile (text : List α) :
    words blank (text.dropWhile blank) = words blank text := by
  induction text with
  | nil => rfl
  | cons head text induction =>
      rw [List.dropWhile_cons]
      split
      next isBlank => rw [induction, words_cons isBlank]
      next => rfl

theorem words_rdropWhile (text : List α) :
    words blank (text.rdropWhile blank) = words blank text := by
  induction text using List.reverseRecOn with
  | nil => rfl
  | append_singleton text last induction =>
      rw [List.rdropWhile_concat]
      split
      next isBlank => rw [induction, words_concat isBlank]
      next => rfl

theorem words_strip (text : List α) : words blank (strip blank text) = words blank text := by
  rw [strip, words_rdropWhile, words_dropWhile]

theorem strip_eq_nil_iff : strip blank text = [] ↔ words blank text = [] := by
  constructor
  · intro empty
    rw [← words_strip, empty, words_nil]
  · intro none
    rw [← words_dropWhile] at none
    cases kept : text.dropWhile blank with
    | nil => rw [strip, kept, List.rdropWhile_nil]
    | cons head later =>
        have solid : blank head = false := by
          have first := List.head?_dropWhile_not blank text
          rw [kept] at first
          exact first
        rw [kept] at none
        exact absurd none (words_ne_nil_of_head solid later)

/-- What stands before a character which is no blank is not reached from the end. -/
theorem rdropWhile_cons_of_solid {head : α} (solid : blank head = false) (text : List α) :
    (head :: text).rdropWhile blank = head :: text.rdropWhile blank := by
  induction text using List.reverseRecOn with
  | nil => simp [List.rdropWhile_singleton, solid]
  | append_singleton text last induction =>
      rw [← List.cons_append, List.rdropWhile_concat, List.rdropWhile_concat]
      split
      · exact induction
      · rfl

theorem rdropWhile_append_of_words (front : List α) (filled : words blank text ≠ []) :
    (front ++ text).rdropWhile blank = front ++ text.rdropWhile blank := by
  induction text using List.reverseRecOn with
  | nil => exact absurd words_nil filled
  | append_singleton text last induction =>
      rw [← List.append_assoc, List.rdropWhile_concat, List.rdropWhile_concat]
      split
      next isBlank => exact induction (words_concat isBlank text ▸ filled)
      next => rw [List.append_assoc]

end Splitting

section Joining

theorem mem_intercalate {separator : List α} {lists : List (List α)} {char : α}
    (listed : char ∈ separator.intercalate lists) :
    char ∈ separator ∨ ∃ list ∈ lists, char ∈ list := by
  induction lists with
  | nil => exact absurd listed List.not_mem_nil
  | cons first rest induction =>
      by_cases empty : rest = []
      · subst empty
        rw [List.intercalate_singleton] at listed
        exact .inr ⟨first, List.mem_cons_self, listed⟩
      · rw [List.intercalate_cons_of_ne_nil empty, List.mem_append, List.mem_append] at listed
        rcases listed with (inFirst | inSeparator) | inRest
        · exact .inr ⟨first, List.mem_cons_self, inFirst⟩
        · exact .inl inSeparator
        · rcases induction inRest with inSeparator | ⟨list, listIn, charIn⟩
          · exact .inl inSeparator
          · exact .inr ⟨list, List.mem_cons_of_mem first listIn, charIn⟩

theorem mem_intercalate_of_mem {separator : List α} {lists : List (List α)} {list : List α}
    {char : α} (listIn : list ∈ lists) (charIn : char ∈ list) :
    char ∈ separator.intercalate lists := by
  induction lists with
  | nil => exact absurd listIn List.not_mem_nil
  | cons first rest induction =>
      by_cases empty : rest = []
      · subst empty
        rw [List.intercalate_singleton]
        rwa [List.mem_singleton.mp listIn] at charIn
      · rw [List.intercalate_cons_of_ne_nil empty, List.mem_append, List.mem_append]
        rcases List.mem_cons.mp listIn with rfl | inRest
        · exact .inl (.inl charIn)
        · exact .inr (induction inRest)

variable {separator : α} {lists later : List (List α)}

theorem intercalate_append (filled : lists ≠ []) (others : later ≠ []) :
    [separator].intercalate (lists ++ later) =
      [separator].intercalate lists ++ separator :: [separator].intercalate later := by
  induction lists with
  | nil => exact absurd rfl filled
  | cons first rest induction =>
      by_cases empty : rest = []
      · subst empty
        rw [List.singleton_append, List.intercalate_cons_of_ne_nil others,
          List.intercalate_singleton, List.append_assoc, List.singleton_append]
      · rw [List.cons_append, List.intercalate_cons_of_ne_nil (by simp [empty]),
          List.intercalate_cons_of_ne_nil empty, induction empty]
        simp

theorem intercalate_cons_append (front text : List α) (later : List (List α)) :
    [separator].intercalate ((front ++ text) :: later) =
      front ++ [separator].intercalate (text :: later) := by
  cases later with
  | nil => simp
  | cons next later => simp

theorem intercalate_eq_nil_iff (solid : ∀ list ∈ lists, list ≠ []) :
    [separator].intercalate lists = [] ↔ lists = [] := by
  constructor
  · intro empty
    cases lists with
    | nil => rfl
    | cons first rest =>
        obtain ⟨char, others, rfl⟩ := List.exists_cons_of_ne_nil (solid first List.mem_cons_self)
        rw [List.intercalate_cons_cons_left] at empty
        cases empty
  · rintro rfl
    rfl

/-- Where more words follow, the beginning is the same only if it is no longer than what the first
words make. -/
theorem take_intercalate_append {limit : Nat} (solid : ∀ list ∈ lists ++ later, list ≠ []) :
    ([separator].intercalate (lists ++ later)).take limit =
        ([separator].intercalate lists).take limit ↔
      later = [] ∨ limit ≤ ([separator].intercalate lists).length := by
  by_cases others : later = []
  · simp [others]
  · by_cases filled : lists = []
    · subst filled
      rw [List.nil_append, List.intercalate_nil, List.take_nil, List.take_eq_nil_iff,
        intercalate_eq_nil_iff (by simpa using solid)]
      simp [others]
    · rw [intercalate_append filled others]
      constructor
      · intro same
        have lengths := congrArg List.length same
        simp only [List.length_take, List.length_append, List.length_cons] at lengths
        exact .inr (by omega)
      · rintro (none | short)
        · exact absurd none others
        · rw [List.take_append_of_le_length short]

/-- The words of texts with a blank between two are the words of the texts. -/
theorem words_intercalate {blank : α → Bool} (isBlank : blank separator = true)
    (lists : List (List α)) :
    words blank ([separator].intercalate lists) = lists.flatMap (words blank) := by
  induction lists with
  | nil => rfl
  | cons first rest induction =>
      by_cases empty : rest = []
      · subst empty
        rw [List.intercalate_singleton, List.flatMap_singleton]
      · rw [List.intercalate_cons_of_ne_nil empty, List.append_assoc, List.singleton_append,
          words_append isBlank, induction, List.flatMap_cons]

end Joining

end Hermes.Words
