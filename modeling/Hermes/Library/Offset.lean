import Mathlib.Data.List.Sort
import Mathlib.Logic.Equiv.Basic

/-!
# Pages by limit and offset

A query with `ORDER BY … DESC LIMIT … OFFSET …` arranges its rows anew each time it runs, and rows
with equal keys may come in any order.  The pages give every row once, whatever the limit and the
arrangements, exactly if no two rows have equal keys.
-/

namespace Hermes.Offset

variable {α : Type} {β : Type} [LinearOrder β]

/-- A way to arrange rows, those with greater keys first. -/
structure Arranges (key : α → β) (arrange : List α → List α) : Prop where
  perm : ∀ rows, (arrange rows).Perm rows
  sorted : ∀ rows, (arrange rows).Pairwise fun first second => key second ≤ key first

/-- `LIMIT … OFFSET …` on arranged rows. -/
def page (limit offset : Nat) (rows : List α) : List α := (rows.drop offset).take limit

/-- The number of pages it takes to list a number of rows. -/
def pageCount (limit total : Nat) : Nat := (total + limit - 1) / limit

/-- All pages, each with an arrangement of its own. -/
def pages (arrange : Nat → List α → List α) (limit : Nat) (rows : List α) : List α :=
  (List.range (pageCount limit rows.length)).flatMap fun index =>
    page limit (index * limit) (arrange index rows)

/-- Rows with equal keys stay in the order they have. -/
def byKey (key : α → β) (rows : List α) : List α :=
  rows.insertionSort fun first second => key second ≤ key first

section Arranging

variable {key : α → β} {rows : List α}

theorem byKey_arranges : Arranges key (byKey key) where
  perm := List.perm_insertionSort _
  sorted rows := by
    have : Std.Total fun first second : α => key second ≤ key first :=
      ⟨fun first second => le_total (key second) (key first)⟩
    have : IsTrans α fun first second => key second ≤ key first :=
      ⟨fun _ _ _ former latter => le_trans latter former⟩
    exact List.pairwise_insertionSort _ rows

/-- Where no two rows have equal keys there is one arrangement only. -/
theorem Arranges.unique {arrange other : List α → List α} (former : Arranges key arrange)
    (latter : Arranges key other) (untied : Set.InjOn key {row | row ∈ rows}) :
    arrange rows = other rows := by
  apply List.Perm.eq_of_pairwise
  · intro first second firstIn secondIn later earlier
    have firstRow : first ∈ rows := (former.perm rows).mem_iff.mp firstIn
    have secondRow : second ∈ rows := (latter.perm rows).mem_iff.mp secondIn
    exact untied firstRow secondRow (le_antisymm earlier later)
  · exact former.sorted rows
  · exact latter.sorted rows
  · exact (former.perm rows).trans (latter.perm rows).symm

theorem flatMap_page (list : List α) (limit count : Nat) :
    ((List.range count).flatMap fun index => page limit (index * limit) list) =
      list.take (count * limit) := by
  induction count with
  | zero => simp
  | succ count induction =>
      rw [List.range_succ, List.flatMap_append, induction, List.flatMap_singleton, page,
        Nat.succ_mul, List.take_add]

theorem le_pageCount_mul {limit : Nat} (positive : 1 ≤ limit) (total : Nat) :
    total ≤ pageCount limit total * limit := by
  have split := Nat.div_add_mod (total + limit - 1) limit
  have short := Nat.mod_lt (total + limit - 1) positive
  rw [Nat.mul_comm] at split
  unfold pageCount
  omega

theorem mem_page_one {row : α} {offset : Nat} {list : List α} :
    row ∈ page 1 offset list ↔ list[offset]? = some row := by
  rw [page, List.take_one, List.head?_drop, Option.mem_toList]

/-- If every query arranges the rows alike, the pages give every row once. -/
theorem pages_const_perm {arrange : List α → List α} {limit : Nat} (positive : 1 ≤ limit)
    (arranges : Arranges key arrange) : (pages (fun _ => arrange) limit rows).Perm rows := by
  have perm := arranges.perm rows
  have whole : (arrange rows).length ≤ pageCount limit rows.length * limit := by
    rw [perm.length_eq]
    exact le_pageCount_mul positive rows.length
  rw [pages, flatMap_page, List.take_of_length_le whole]
  exact perm

theorem pages_perm {arrange : Nat → List α → List α} {limit : Nat} (positive : 1 ≤ limit)
    (arranges : ∀ index, Arranges key (arrange index))
    (untied : Set.InjOn key {row | row ∈ rows}) : (pages arrange limit rows).Perm rows := by
  have same : ∀ index, arrange index rows = arrange 0 rows := fun index =>
    (arranges index).unique (arranges 0) untied
  have constant : pages arrange limit rows = pages (fun _ => arrange 0) limit rows := by
    simp only [pages, same]
  rw [constant]
  exact pages_const_perm positive (arranges 0)

end Arranging

section Tied

variable [DecidableEq α] {key : α → β} {rows : List α} {first second : α}

def exchange (first second : α) (rows : List α) : List α := rows.map (Equiv.swap first second)

theorem exchange_perm (distinct : rows.Nodup) (firstIn : first ∈ rows) (secondIn : second ∈ rows) :
    (exchange first second rows).Perm rows := by
  apply (List.perm_ext_iff_of_nodup (distinct.map (Equiv.injective _)) distinct).mpr
  intro row
  rw [List.mem_map]
  have stays : ∀ row ∈ rows, Equiv.swap first second row ∈ rows := by
    intro row rowIn
    by_cases isFirst : row = first
    · rwa [isFirst, Equiv.swap_apply_left]
    · by_cases isSecond : row = second
      · rwa [isSecond, Equiv.swap_apply_right]
      · rwa [Equiv.swap_apply_of_ne_of_ne isFirst isSecond]
  constructor
  · rintro ⟨origin, originIn, rfl⟩
    exact stays origin originIn
  · intro rowIn
    exact ⟨Equiv.swap first second row, stays row rowIn, Equiv.swap_apply_self first second row⟩

omit [LinearOrder β] in
theorem key_swap (tied : key first = key second) (row : α) :
    key (Equiv.swap first second row) = key row := by
  rw [Equiv.swap_apply_def]
  split
  next isFirst => rw [isFirst, tied]
  next =>
    split
    next isSecond => rw [isSecond, tied]
    next => rfl

/-- The arrangement which tells two tied rows of one list the other way round. -/
def exchanged (key : α → β) (first second : α) (rows list : List α) : List α :=
  if list = rows then exchange first second (byKey key list) else byKey key list

theorem exchanged_arranges (tied : key first = key second) (distinct : rows.Nodup)
    (firstIn : first ∈ rows) (secondIn : second ∈ rows) :
    Arranges key (exchanged key first second rows) where
  perm list := by
    unfold exchanged
    split
    next same =>
      subst same
      have perm := (@byKey_arranges _ _ _ key).perm list
      exact (exchange_perm (perm.nodup_iff.mpr distinct) (perm.mem_iff.mpr firstIn)
        (perm.mem_iff.mpr secondIn)).trans perm
    next => exact byKey_arranges.perm list
  sorted list := by
    unfold exchanged
    split
    next =>
      rw [exchange, List.pairwise_map]
      simp only [key_swap tied]
      exact byKey_arranges.sorted list
    next => exact byKey_arranges.sorted list

theorem exists_pages_not_perm (distinct : rows.Nodup) (firstIn : first ∈ rows)
    (secondIn : second ∈ rows) (differ : first ≠ second) (tied : key first = key second) :
    ∃ arrange : Nat → List α → List α, (∀ index, Arranges key (arrange index)) ∧
      ¬ (pages arrange 1 rows).Perm rows := by
  have perm := (@byKey_arranges _ _ _ key).perm rows
  have sortedDistinct : (byKey key rows).Nodup := perm.nodup_iff.mpr distinct
  obtain ⟨position, bound, found⟩ := List.getElem_of_mem (perm.mem_iff.mpr secondIn)
  -- The page which would give the second row finds the two exchanged.
  refine ⟨fun index => if index = position then exchanged key first second rows else byKey key,
    fun index => ?_, fun same => ?_⟩
  · beta_reduce
    split
    · exact exchanged_arranges tied distinct firstIn secondIn
    · exact byKey_arranges
  · obtain ⟨index, -, given⟩ := List.mem_flatMap.mp (same.mem_iff.mpr secondIn)
    rw [mem_page_one, Nat.mul_one] at given
    beta_reduce at given
    by_cases here : index = position
    · rw [if_pos here, here, exchanged, if_pos rfl, exchange, List.getElem?_map,
        List.getElem?_eq_getElem bound, found, Option.map_some, Equiv.swap_apply_right] at given
      exact differ (Option.some.inj given)
    · rw [if_neg here] at given
      obtain ⟨short, value⟩ := List.getElem?_eq_some_iff.mp given
      exact here ((sortedDistinct.getElem_inj_iff).mp (value.trans found.symm))

end Tied

/-- The pages give every row once, in all arrangements, exactly if no two rows are tied. -/
theorem pages_perm_iff [DecidableEq α] {key : α → β} {rows : List α} (distinct : rows.Nodup) :
    (∀ limit, 1 ≤ limit → ∀ arrange : Nat → List α → List α,
      (∀ index, Arranges key (arrange index)) → (pages arrange limit rows).Perm rows) ↔
      Set.InjOn key {row | row ∈ rows} := by
  constructor
  · intro listed first firstIn second secondIn tied
    by_contra differ
    obtain ⟨arrange, arranges, missing⟩ :=
      exists_pages_not_perm distinct firstIn secondIn differ tied
    exact missing (listed 1 le_rfl arrange arranges)
  · intro untied limit positive arrange arranges
    exact pages_perm positive arranges untied

end Hermes.Offset
