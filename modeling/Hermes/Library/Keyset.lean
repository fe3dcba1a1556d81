import Hermes.Library.Offset

/-!
# Pages after a cursor

Rows are listed by descending keys, and a page begins behind the key of the last row of the page
before.  Whatever happens to other rows in between, a row which stays as it is comes exactly once on
the way from the first page to the last.
-/

namespace Hermes.Keyset

variable {α β γ ι τ : Type}

structure Page (ι γ : Type) where
  items : List ι
  next : Option γ
  deriving DecidableEq, Repr

/-- The page with its rows and its cursor in another form. -/
def Page.map (row : ι → α) (encode : β → γ) (page : Page ι β) : Page α γ :=
  ⟨page.items.map row, page.next.map encode⟩

/-- Pages read one after the other, each from the table there is by then, until no cursor is
returned. -/
inductive Walk (read : Option γ → τ → Option (Page ι γ)) :
    Option γ → List τ → List ι → Prop
  | last {cursor : Option γ} {table : τ} {items : List ι}
      (page : read cursor table = some ⟨items, none⟩) : Walk read cursor [table] items
  | next {cursor : Option γ} {table : τ} {items : List ι} {following : γ} {tables : List τ}
      {later : List ι} (page : read cursor table = some ⟨items, some following⟩)
      (walk : Walk read (some following) tables later) :
      Walk read cursor (table :: tables) (items ++ later)

section Pages

variable [LinearOrder β] (key : α → β) (limit : Nat)

def behind (cursor : Option β) (row : α) : Bool := cursor.all fun last => decide (key row < last)

/-- The rows behind the cursor, one more than fit on a page; the page and its last key. -/
def page (cursor : Option β) (table : List α) : Page α β :=
  let rows := (Offset.byKey key (table.filter (behind key cursor))).take (limit + 1)
  ⟨rows.take limit, if limit < rows.length then (rows.take limit).getLast?.map key else none⟩

end Pages

section Spec

variable [LinearOrder β] {key : α → β} {limit : Nat} {cursor : Option β} {table : List α}

def Descending (key : α → β) (rows : List α) : Prop :=
  rows.Pairwise fun first second => key second < key first

theorem descending_byKey (distinct : (table.map key).Nodup) :
    Descending key (Offset.byKey key table) := by
  have perm := (@Offset.byKey_arranges _ _ _ key).perm table
  have apart : (Offset.byKey key table).Pairwise fun first second => key first ≠ key second := by
    rw [← List.pairwise_map (f := key) (R := fun first second => first ≠ second)]
    exact (perm.map key).nodup_iff.mpr distinct
  exact (Offset.byKey_arranges.sorted table).and apart |>.imp fun ordered =>
    lt_of_le_of_ne ordered.1 ordered.2.symm

/-- What stands on a page, and what is left behind it. -/
structure PageSpec (key : α → β) (cursor : Option β) (table : List α) (page : Page α β) : Prop where
  descending : Descending key page.items
  items : ∀ row ∈ page.items, row ∈ table ∧ behind key cursor row = true
  whole : page.next = none → ∀ row ∈ table, behind key cursor row = true → row ∈ page.items
  cut : ∀ last, page.next = some last → (∃ row ∈ page.items, key row = last) ∧
    (∀ row ∈ page.items, last ≤ key row) ∧
      ∀ row ∈ table, behind key cursor row = true → row ∈ page.items ∨ key row < last

/-- In a list with falling keys the last row of a prefix divides the prefix from the rest. -/
theorem Descending.divides {rows : List α} (descending : Descending key rows) {last : α}
    (found : (rows.take limit).getLast? = some last) :
    (∀ row ∈ rows.take limit, key last ≤ key row) ∧
      ∀ row ∈ rows, row ∈ rows.take limit ∨ key row < key last := by
  obtain ⟨front, split⟩ := List.getLast?_eq_some_iff.mp found
  have whole : rows = front ++ [last] ++ rows.drop limit := by
    rw [← split, List.take_append_drop]
  rw [Descending, whole, List.pairwise_append, List.pairwise_append] at descending
  obtain ⟨⟨-, -, earlier⟩, -, later⟩ := descending
  constructor
  · intro row rowIn
    rw [split, List.mem_append, List.mem_singleton] at rowIn
    rcases rowIn with before | rfl
    · exact (earlier row before last (List.mem_singleton_self last)).le
    · exact le_rfl
  · intro row rowIn
    rw [whole, ← split, List.mem_append] at rowIn
    rcases rowIn with before | after
    · exact .inl before
    · exact .inr (later last (List.mem_append_right front (List.mem_singleton_self last)) row after)

theorem page_spec (positive : 1 ≤ limit) (distinct : (table.map key).Nodup) :
    PageSpec key cursor table (page key limit cursor table) := by
  have selected : ((table.filter (behind key cursor)).map key).Nodup :=
    distinct.sublist (List.filter_sublist.map key)
  have sorted := descending_byKey selected
  have perm := (@Offset.byKey_arranges _ _ _ key).perm (table.filter (behind key cursor))
  have member : ∀ row, row ∈ Offset.byKey key (table.filter (behind key cursor)) ↔
      row ∈ table ∧ behind key cursor row = true := fun row =>
    perm.mem_iff.trans List.mem_filter
  have shape : page key limit cursor table =
      ⟨(Offset.byKey key (table.filter (behind key cursor))).take limit,
        if limit < (Offset.byKey key (table.filter (behind key cursor))).length then
          ((Offset.byKey key (table.filter (behind key cursor))).take limit).getLast?.map key
        else none⟩ := by
    have enough : limit < min (limit + 1)
        (Offset.byKey key (table.filter (behind key cursor))).length ↔
          limit < (Offset.byKey key (table.filter (behind key cursor))).length := by omega
    rw [page, List.take_take, Nat.min_eq_left (Nat.le_succ limit), List.length_take]
    simp only [enough]
  rw [shape]
  generalize Offset.byKey key (table.filter (behind key cursor)) = rows at sorted member
  refine ⟨sorted.sublist (List.take_sublist limit rows),
    fun row rowIn => (member row).mp (List.mem_of_mem_take rowIn), fun ends row rowIn after => ?_,
    fun last continues => ?_⟩
  · have short : rows.length ≤ limit := by
      by_contra long
      rw [if_pos (by omega), Option.map_eq_none_iff, List.getLast?_eq_none_iff,
        List.take_eq_nil_iff] at ends
      rcases ends with zero | empty
      · omega
      · rw [empty, List.length_nil] at long
        omega
    rw [List.take_of_length_le short]
    exact (member row).mpr ⟨rowIn, after⟩
  · split at continues
    next =>
      obtain ⟨lastRow, found, rfl⟩ := Option.map_eq_some_iff.mp continues
      obtain ⟨above, below⟩ := sorted.divides found
      exact ⟨⟨lastRow, List.mem_of_getLast? found, rfl⟩, above, fun row rowIn after =>
        below row ((member row).mpr ⟨rowIn, after⟩)⟩
    next => cases continues

end Spec

/-! ## From the first page to the last -/

section Walks

variable [LinearOrder β] {key : α → β} {limit : Nat} {cursor : Option β}

def reader (key : α → β) (limit : Nat) (cursor : Option β) (table : List α) :
    Option (Page α β) := some (page key limit cursor table)

theorem behind_of_lt {last : β} {row : α} (lower : key row < last) :
    behind key (some last) row = true := by
  simpa [behind] using lower

/-- What comes later on a walk has lower keys, and all keys are behind the cursor. -/
theorem Walk.descending {tables : List (List α)} {items : List α} (positive : 1 ≤ limit)
    (walk : Walk (reader key limit) cursor tables items)
    (distinct : ∀ table ∈ tables, (table.map key).Nodup) :
    Descending key items ∧ ∀ row ∈ items, behind key cursor row = true := by
  induction walk with
  | @last cursor table items page =>
      have spec := @page_spec _ _ _ _ _ cursor _ positive (distinct table List.mem_cons_self)
      rw [Option.some.inj page] at spec
      exact ⟨spec.descending, fun row rowIn => (spec.items row rowIn).2⟩
  | @next cursor table items following tables later page walk induction =>
      have spec := @page_spec _ _ _ _ _ cursor _ positive (distinct table List.mem_cons_self)
      rw [Option.some.inj page] at spec
      obtain ⟨⟨lastRow, lastIn, lastKey⟩, above, -⟩ := spec.cut following rfl
      obtain ⟨descending, after⟩ :=
        induction fun table tableIn => distinct table (List.mem_cons_of_mem _ tableIn)
      have below : ∀ row ∈ later, key row < following := fun row rowIn => by
        simpa [behind] using after row rowIn
      constructor
      · apply List.pairwise_append.mpr
        refine ⟨spec.descending, descending, fun first firstIn second secondIn => ?_⟩
        exact lt_of_lt_of_le (below second secondIn) (above first firstIn)
      · intro row rowIn
        rcases List.mem_append.mp rowIn with here | there
        · exact (spec.items row here).2
        · have lastBehind := (spec.items lastRow lastIn).2
          have lower : key row < key lastRow := lastKey ▸ below row there
          cases cursor with
          | none => rfl
          | some former =>
              have ordered : key lastRow < former := by simpa [behind] using lastBehind
              exact behind_of_lt (lower.trans ordered)

theorem Walk.finds {tables : List (List α)} {items : List α} (positive : 1 ≤ limit)
    (walk : Walk (reader key limit) cursor tables items)
    (distinct : ∀ table ∈ tables, (table.map key).Nodup) {row : α}
    (stays : ∀ table ∈ tables, row ∈ table) (after : behind key cursor row = true) :
    row ∈ items := by
  induction walk with
  | @last cursor table items page =>
      have spec := @page_spec _ _ _ _ _ cursor _ positive (distinct table List.mem_cons_self)
      rw [Option.some.inj page] at spec
      exact spec.whole rfl row (stays table List.mem_cons_self) after
  | @next cursor table items following tables later page walk induction =>
      have spec := @page_spec _ _ _ _ _ cursor _ positive (distinct table List.mem_cons_self)
      rw [Option.some.inj page] at spec
      obtain ⟨-, -, rest⟩ := spec.cut following rfl
      rcases rest row (stays table List.mem_cons_self) after with here | lower
      · exact List.mem_append_left later here
      · exact List.mem_append_right items (induction
          (fun table tableIn => distinct table (List.mem_cons_of_mem _ tableIn))
          (fun table tableIn => stays table (List.mem_cons_of_mem _ tableIn))
          (behind_of_lt lower))

/-- Behind a row which is behind a cursor there are fewer rows than behind the cursor. -/
theorem fewer_behind {table : List α} {row : α} (rowIn : row ∈ table)
    (after : behind key cursor row = true) :
    (table.filter (behind key (some (key row)))).length <
      (table.filter (behind key cursor)).length := by
  have narrower : table.filter (behind key (some (key row))) =
      (table.filter (behind key cursor)).filter (behind key (some (key row))) := by
    rw [List.filter_filter]
    apply List.filter_congr
    intro other _
    cases lower : behind key (some (key row)) other with
    | false => rfl
    | true =>
        have ordered : key other < key row := by simpa [behind] using lower
        cases cursor with
        | none => rfl
        | some last =>
            have rowBehind : key row < last := by simpa [behind] using after
            rw [behind_of_lt (ordered.trans rowBehind)]
            rfl
  rw [narrower, List.length_filter_lt_length_iff_exists]
  exact ⟨row, List.mem_filter.mpr ⟨rowIn, after⟩, by simp [behind]⟩

theorem exists_walk (positive : 1 ≤ limit) {table : List α} (distinct : (table.map key).Nodup)
    (cursor : Option β) :
    ∃ count items, Walk (reader key limit) cursor (List.replicate count table) items := by
  induction remaining : (table.filter (behind key cursor)).length using Nat.strong_induction_on
    generalizing cursor with
  | _ remaining induction =>
      subst remaining
      have spec := @page_spec _ _ _ _ _ cursor _ positive distinct
      obtain ⟨⟨items, next⟩, shape⟩ : ∃ found, page key limit cursor table = found := ⟨_, rfl⟩
      rw [shape] at spec
      cases next with
      | none => exact ⟨1, items, .last (congrArg some shape)⟩
      | some following =>
          obtain ⟨⟨lastRow, lastIn, rfl⟩, -, -⟩ := spec.cut following rfl
          obtain ⟨lastInTable, lastBehind⟩ := spec.items lastRow lastIn
          obtain ⟨count, later, walk⟩ :=
            induction _ (fewer_behind lastInTable lastBehind) (some (key lastRow)) rfl
          exact ⟨count + 1, items ++ later, .next (congrArg some shape) walk⟩

end Walks

/-! ## Cursors and rows in another form -/

section Forms

variable {δ σ : Type} {read : Option δ → τ → Option (Page ι δ)}
  {plain : Option γ → σ → Option (Page α γ)} {row : ι → α} {view : τ → σ} {encode : γ → δ}

/-- The pages are the same but for the form of rows and cursors. -/
def SamePages (read : Option δ → τ → Option (Page ι δ)) (plain : Option γ → σ → Option (Page α γ))
    (row : ι → α) (view : τ → σ) (encode : γ → δ) : Prop :=
  ∀ cursor table, (read (cursor.map encode) table).map (Page.map row id) =
    (plain cursor (view table)).map (Page.map id encode)

theorem SamePages.exists_plain (same : SamePages read plain row view encode) {cursor : Option γ}
    {table : τ} {items : List ι} {next : Option δ}
    (page : read (cursor.map encode) table = some ⟨items, next⟩) :
    ∃ following, following.map encode = next ∧
      plain cursor (view table) = some ⟨items.map row, following⟩ := by
  have forms := same cursor table
  rw [page, Option.map_some] at forms
  obtain ⟨⟨rows, following⟩, found, equal⟩ := Option.map_eq_some_iff.mp forms.symm
  obtain ⟨rows_eq, next_eq⟩ := Page.mk.inj equal
  have rows_same : rows = items.map row := (List.map_id rows).symm.trans rows_eq
  have next_same : following.map encode = next := next_eq.trans (congrFun Option.map_id next)
  exact ⟨following, next_same, by rw [found, rows_same]⟩

theorem SamePages.exists_read (same : SamePages read plain row view encode) {cursor : Option γ}
    {table : τ} {rows : List α} {following : Option γ}
    (page : plain cursor (view table) = some ⟨rows, following⟩) :
    ∃ items, items.map row = rows ∧
      read (cursor.map encode) table = some ⟨items, following.map encode⟩ := by
  have forms := same cursor table
  rw [page, Option.map_some] at forms
  obtain ⟨⟨items, next⟩, found, equal⟩ := Option.map_eq_some_iff.mp forms
  obtain ⟨rows_eq, next_eq⟩ := Page.mk.inj equal
  have rows_same : items.map row = rows := rows_eq.trans (List.map_id rows)
  have next_same : next = following.map encode :=
    (congrFun Option.map_id next).symm.trans next_eq
  exact ⟨items, rows_same, by rw [found, next_same]⟩

theorem Walk.toPlain (same : SamePages read plain row view encode) {text : Option δ}
    {tables : List τ} {items : List ι} (walk : Walk read text tables items) {cursor : Option γ}
    (written : cursor.map encode = text) :
    Walk plain cursor (tables.map view) (items.map row) := by
  induction walk generalizing cursor with
  | last page =>
      subst written
      obtain ⟨following, none_eq, found⟩ := same.exists_plain page
      rw [Option.map_eq_none_iff] at none_eq
      subst none_eq
      exact .last found
  | next page walk induction =>
      subst written
      obtain ⟨following, some_eq, found⟩ := same.exists_plain page
      obtain ⟨key, rfl, written⟩ := Option.map_eq_some_iff.mp some_eq
      rw [List.map_append]
      exact .next found (induction (congrArg some written))

theorem Walk.exists_read (same : SamePages read plain row view encode) {cursor : Option γ}
    {views : List σ} {rows : List α} (walk : Walk plain cursor views rows) {tables : List τ}
    (seen : tables.map view = views) :
    ∃ items, Walk read (cursor.map encode) tables items := by
  induction walk generalizing tables with
  | last page =>
      obtain ⟨table, rfl, rfl⟩ := List.map_eq_singleton_iff.mp seen
      obtain ⟨items, -, found⟩ := same.exists_read page
      exact ⟨items, .last found⟩
  | next page walk induction =>
      obtain ⟨table, later, rfl, rfl, others⟩ := List.map_eq_cons_iff.mp seen
      obtain ⟨items, -, found⟩ := same.exists_read page
      obtain ⟨further, walked⟩ := induction others
      exact ⟨items ++ further, .next found walked⟩

/-- Whoever reads page after page sees every row which stays exactly once, in the order of the keys,
and over a table which does not change comes to an end. -/
structure ListsOnce [DecidableEq α] [LT β] (read : Option δ → τ → Option (Page ι δ)) (row : ι → α)
    (rows : τ → List α) (key : α → β) : Prop where
  once : ∀ tables items, Walk read none tables items → ∀ kept,
    (∀ table ∈ tables, kept ∈ rows table) → (items.map row).count kept = 1
  ordered : ∀ tables items, Walk read none tables items →
    (items.map row).Pairwise fun first second => key second < key first
  ends : ∀ table, ∃ count items, Walk read none (List.replicate count table) items

theorem SamePages.listsOnce [DecidableEq α] [LinearOrder β]
    {read : Option δ → τ → Option (Page ι δ)} {rows : τ → List α} {key : α → β} {limit : Nat}
    {encode : β → δ}
    (same : SamePages read (reader key limit) row rows encode) (positive : 1 ≤ limit)
    (distinct : ∀ table, ((rows table).map key).Nodup) : ListsOnce read row rows key := by
  have apart (tables : List τ) : ∀ view ∈ tables.map rows, (view.map key).Nodup := by
    intro view viewIn
    obtain ⟨table, -, rfl⟩ := List.mem_map.mp viewIn
    exact distinct table
  have plain {tables : List τ} {items : List ι} (walk : Walk read none tables items) :
      Walk (reader key limit) none (tables.map rows) (items.map row) :=
    walk.toPlain same rfl
  have ordered {tables : List τ} {items : List ι} (walk : Walk read none tables items) :
      Descending key (items.map row) :=
    ((plain walk).descending positive (apart tables)).1
  refine ⟨fun tables items walk kept stays => ?_, fun tables items walk => ordered walk,
    fun table => ?_⟩
  · have found : kept ∈ items.map row :=
      (plain walk).finds positive (apart tables) (by simpa using stays) rfl
    have distinctItems : (items.map row).Nodup :=
      (ordered walk).imp fun lower equal => absurd (congrArg key equal) lower.ne'
    exact List.count_eq_one_of_mem distinctItems found
  · obtain ⟨count, items, walk⟩ := exists_walk positive (distinct table) none
    obtain ⟨shown, walked⟩ := walk.exists_read same (List.map_replicate (n := count))
    exact ⟨count, shown, walked⟩

end Forms

end Hermes.Keyset
