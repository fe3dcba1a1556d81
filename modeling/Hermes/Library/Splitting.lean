import Mathlib.Data.List.Infix

/-!
# Splitting a stream at a delimiter

A reader keeps what follows the last delimiter and splits it again with what comes in.  Where the
stream is cut makes no difference: what has been split off stays split off, and a delimiter which
straddles a cut is found as soon as its end is there.
-/

namespace Hermes.Splitting

variable {α : Type} [DecidableEq α]

/-- What stands before the first delimiter, and what follows it. -/
def splitOnce (delimiter : List α) : List α → Option (List α × List α)
  | [] => if delimiter = [] then some ([], []) else none
  | first :: later =>
      if delimiter.isPrefixOf (first :: later) then
        some ([], (first :: later).drop delimiter.length)
      else (splitOnce delimiter later).map (Prod.map (first :: ·) id)

variable {delimiter buffer block rest : List α}

theorem eq_of_splitOnce (split : splitOnce delimiter buffer = some (block, rest)) :
    buffer = block ++ (delimiter ++ rest) := by
  induction buffer generalizing block with
  | nil =>
      rw [splitOnce] at split
      split at split
      case isTrue empty =>
          cases split
          rw [empty]
          rfl
      case isFalse => cases split
  | cons first later induction =>
      rw [splitOnce] at split
      split at split
      case isTrue found =>
          cases split
          obtain ⟨tail, whole⟩ := List.isPrefixOf_iff_prefix.mp found
          rw [← whole, List.drop_left]
          rfl
      case isFalse =>
          obtain ⟨⟨others, _⟩, found, same⟩ := Option.map_eq_some_iff.mp split
          cases same
          rw [induction found]
          rfl

theorem splitOnce_of_notMem {first : α} {others : List α} (absent : first ∉ buffer) :
    splitOnce (first :: others) buffer = none := by
  induction buffer with
  | nil => rfl
  | cons head later induction =>
      rw [List.mem_cons, not_or] at absent
      have elsewhere : ¬ (first :: others).isPrefixOf (head :: later) = true := by
        simp [List.isPrefixOf, absent.1]
      rw [splitOnce, if_neg elsewhere, induction absent.2]
      rfl

theorem length_of_splitOnce (nonempty : delimiter ≠ [])
    (split : splitOnce delimiter buffer = some (block, rest)) : rest.length < buffer.length := by
  have positive := List.length_pos_iff.mpr nonempty
  rw [eq_of_splitOnce split, List.length_append, List.length_append]
  omega

theorem splitOnce_append (nonempty : delimiter ≠ [])
    (split : splitOnce delimiter buffer = some (block, rest)) (further : List α) :
    splitOnce delimiter (buffer ++ further) = some (block, rest ++ further) := by
  induction buffer generalizing block with
  | nil => simp [splitOnce, nonempty] at split
  | cons first later induction =>
      rw [splitOnce] at split
      rw [List.cons_append, splitOnce]
      split at split
      case isTrue found =>
          cases split
          have shown := List.isPrefixOf_iff_prefix.mp found
          have still : delimiter.isPrefixOf (first :: (later ++ further)) = true :=
            List.isPrefixOf_iff_prefix.mpr (shown.trans (List.prefix_append (first :: later) _))
          rw [if_pos still, ← List.cons_append, List.drop_append_of_le_length shown.length_le]
      case isFalse absent =>
          obtain ⟨⟨others, _⟩, found, same⟩ := Option.map_eq_some_iff.mp split
          cases same
          have longer := eq_of_splitOnce found
          have still : ¬ delimiter.isPrefixOf (first :: (later ++ further)) = true := by
            intro shown
            refine absent (List.isPrefixOf_iff_prefix.mpr ?_)
            refine List.prefix_of_prefix_length_le (List.isPrefixOf_iff_prefix.mp shown)
              (List.prefix_append (first :: later) further) ?_
            rw [longer, List.length_cons, List.length_append, List.length_append]
            omega
          rw [if_neg still, induction found]
          rfl

/-- Split off one block after the other, as long as there is a delimiter. -/
def pieces (delimiter : List α) (nonempty : delimiter ≠ []) (buffer : List α) :
    List (List α) × List α :=
  match _ : splitOnce delimiter buffer with
  | none => ([], buffer)
  | some (block, rest) =>
      let later := pieces delimiter nonempty rest
      (block :: later.1, later.2)
termination_by buffer.length
decreasing_by exact length_of_splitOnce nonempty ‹_›

section Pieces

variable {nonempty : delimiter ≠ []}

theorem pieces_of_none (absent : splitOnce delimiter buffer = none) :
    pieces delimiter nonempty buffer = ([], buffer) := by
  rw [pieces]
  split
  case h_1 => rfl
  case h_2 found => simp [absent] at found

theorem pieces_of_some (split : splitOnce delimiter buffer = some (block, rest)) :
    pieces delimiter nonempty buffer =
      (block :: (pieces delimiter nonempty rest).1, (pieces delimiter nonempty rest).2) := by
  rw [pieces]
  split
  case h_1 absent => simp [absent] at split
  case h_2 found =>
      rw [split] at found
      cases found
      rfl

/-- What is split off now and what is split off later are split off in one go. -/
theorem pieces_append (buffer further : List α) :
    pieces delimiter nonempty (buffer ++ further) =
      ((pieces delimiter nonempty buffer).1 ++
          (pieces delimiter nonempty ((pieces delimiter nonempty buffer).2 ++ further)).1,
        (pieces delimiter nonempty ((pieces delimiter nonempty buffer).2 ++ further)).2) := by
  induction length : buffer.length using Nat.strong_induction_on generalizing buffer with
  | _ size induction =>
      cases split : splitOnce delimiter buffer with
      | none =>
          rw [pieces_of_none split]
          rfl
      | some found =>
          obtain ⟨block, rest⟩ := found
          have shorter := length_of_splitOnce nonempty split
          rw [pieces_of_some (splitOnce_append nonempty split further), pieces_of_some split,
            induction rest.length (length ▸ shorter) rest rfl]
          rfl

/-- The blocks with their delimiters, and what follows them, are all there was. -/
theorem flatten_pieces (buffer : List α) :
    ((pieces delimiter nonempty buffer).1.map (· ++ delimiter)).flatten ++
      (pieces delimiter nonempty buffer).2 = buffer := by
  induction length : buffer.length using Nat.strong_induction_on generalizing buffer with
  | _ size induction =>
      cases split : splitOnce delimiter buffer with
      | none =>
          rw [pieces_of_none split]
          rfl
      | some found =>
          obtain ⟨block, rest⟩ := found
          have shorter := length_of_splitOnce nonempty split
          have later := induction rest.length (length ▸ shorter) rest rfl
          rw [pieces_of_some split, List.map_cons, List.flatten_cons, List.append_assoc, later,
            List.append_assoc]
          exact (eq_of_splitOnce split).symm

end Pieces

end Hermes.Splitting
