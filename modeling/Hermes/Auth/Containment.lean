import Hermes.Auth.Refresh
import Hermes.Library.Positions

/-!
# Single use and containment

A token is exchanged once and a reused one closes its chain, as long as no call reads the row of a
token which another call is exchanging, and exchange and revocation of one chain do not overlap.
-/

namespace Hermes.Auth

/-- Two commits of which the first allows the second after it: a token is not exchanged twice, and
nothing is exchanged in a chain that was revoked. -/
def Record.Allows : Record → Record → Prop
  | exchanged token _, exchanged other _ => token ≠ other
  | contained chain, exchanged _ other => chain ≠ other
  | _, _ => True

/-- A call reads a row undisturbed: one it may exchange, while no other call exchanges the token or
revokes its chain; one it finds used, while no other call exchanges a token of the chain. -/
def Vault.undisturbed (vault : Vault) : RefreshEvent → Bool
  | .select index =>
      match vault.calls[index]? with
      | some (.begun token) =>
          match vault.find token with
          | none => true
          | some row =>
              match row.verdict vault.now with
              | .refuse => true
              | .reuse => vault.calls.all fun call =>
                  (call.exchanges.map Prod.snd) != some row.chain
              | .exchange => vault.calls.all fun call =>
                  (call.exchanges.map Prod.fst) != some token && call.revokes != some row.chain
      | _ => true
  | _ => true

/-- No call is under way, nothing is recorded, and the token of every row was made before. -/
structure Vault.Fresh (vault : Vault) : Prop where
  calls : vault.calls = []
  log : vault.log = []
  made : ∀ row ∈ vault.rows, row.token < vault.minted

/-- The chain a call is revoking and the rows it has found. -/
def Rotation.covers : Rotation → Option (Chain × List Nat)
  | revoking chain candidates _ | revoked chain candidates _ => some (chain, candidates)
  | _ => none

/-- What holds between the calls, the rows and what is recorded. -/
structure Vault.Guarded (vault : Vault) : Prop where
  made : ∀ row ∈ vault.rows, row.token < vault.minted
  spent : ∀ token chain, .exchanged token chain ∈ vault.log → token < vault.minted ∧
    ∀ row ∈ vault.rows, row.token = token → row.usedAt.isSome = true
  closed : ∀ chain, .contained chain ∈ vault.log → ∀ row ∈ vault.rows, row.chain = chain →
    row.revokedAt.isSome = true
  apart : ∀ (index other : Nat) (call found : Rotation) (token : Nat) (chain chain' : Chain),
    vault.calls[index]? = some call → vault.calls[other]? = some found →
    call.exchanges = some (token, chain) → found.exchanges = some (token, chain') → index = other
  aside : ∀ call ∈ vault.calls, ∀ found ∈ vault.calls, ∀ token chain,
    call.exchanges = some (token, chain) → found.revokes ≠ some chain
  unspent : ∀ call ∈ vault.calls, ∀ token chain, call.exchanges = some (token, chain) →
    token < vault.minted ∧ (∀ other, .exchanged token other ∉ vault.log) ∧
      .contained chain ∉ vault.log
  covered : ∀ call ∈ vault.calls, ∀ chain candidates, call.covers = some (chain, candidates) →
    ∀ row ∈ vault.rows, row.chain = chain → row.revokedAt.isSome = true ∨ row.token ∈ candidates
  allowed : vault.log.Pairwise Record.Allows

/-- A row which was there, perhaps used or revoked since, or a new one of a chain which nobody has
revoked or is about to. -/
def Vault.Stems (vault : Vault) (minted : Nat) (row : TokenRow) : Prop :=
  (∃ old ∈ vault.rows, row.token = old.token ∧ row.chain = old.chain ∧
    (old.usedAt.isSome = true → row.usedAt.isSome = true) ∧
      (old.revokedAt.isSome = true → row.revokedAt.isSome = true)) ∨
  vault.minted ≤ row.token ∧ row.token < minted ∧ .contained row.chain ∉ vault.log ∧
    ∀ call ∈ vault.calls, call.revokes ≠ some row.chain

namespace Vault.Guarded

variable {vault after : Vault}

theorem mem_become {index : Nat} {next call : Rotation}
    (calls : after.calls = vault.calls.set index next) (member : call ∈ after.calls) :
    call ∈ vault.calls ∨ call = next :=
  List.mem_or_eq_of_mem_set (calls ▸ member)

theorem still_apart (guarded : vault.Guarded) {index : Nat} {call next : Rotation}
    (present : vault.calls[index]? = some call)
    (exchanges : next.exchanges = none ∨ next.exchanges = call.exchanges) :
    ∀ (first second : Nat) (found found' : Rotation) (token : Nat) (chain chain' : Chain),
      (vault.calls.set index next)[first]? = some found →
      (vault.calls.set index next)[second]? = some found' →
      found.exchanges = some (token, chain) → found'.exchanges = some (token, chain') →
        first = second := by
  intro first second found found' token chain chain' at_first at_second takes takes'
  have former {at_index : Nat} {found : Rotation} {chain : Chain}
      (at_after : (vault.calls.set index next)[at_index]? = some found)
      (takes : found.exchanges = some (token, chain)) :
      ∃ old, vault.calls[at_index]? = some old ∧ old.exchanges = some (token, chain) := by
    obtain ⟨same, rfl⟩ | ⟨-, old⟩ := getElem?_set_cases at_after
    · rcases exchanges with none | kept
      · rw [none] at takes
        cases takes
      · exact ⟨call, same ▸ present, kept ▸ takes⟩
    · exact ⟨found, old, takes⟩
  obtain ⟨old, at_old, takes⟩ := former at_first takes
  obtain ⟨old', at_old', takes'⟩ := former at_second takes'
  exact guarded.apart _ _ _ _ _ _ _ at_old at_old' takes takes'

theorem shift (guarded : vault.Guarded) {index : Nat} {call next : Rotation}
    (present : vault.calls[index]? = some call)
    (calls : after.calls = vault.calls.set index next)
    (exchanges : next.exchanges = none ∨ next.exchanges = call.exchanges)
    (revokes : next.revokes = none ∨ next.revokes = call.revokes)
    (covered : ∀ chain candidates, next.covers = some (chain, candidates) →
      ∀ row ∈ vault.rows, row.chain = chain → row.revokedAt.isSome = true ∨
        row.token ∈ candidates)
    (rows : after.rows = vault.rows) (minted : after.minted = vault.minted)
    (log : after.log = vault.log) : after.Guarded := by
  have member := List.mem_of_getElem? present
  constructor
  case made => rw [rows, minted]; exact guarded.made
  case spent => rw [rows, minted, log]; exact guarded.spent
  case closed => rw [rows, log]; exact guarded.closed
  case allowed => rw [log]; exact guarded.allowed
  case apart =>
      rw [calls]
      exact guarded.still_apart present exchanges
  case aside =>
      intro found at_after found' at_after' token chain takes revokes'
      have taker : ∃ old ∈ vault.calls, old.exchanges = some (token, chain) := by
        rcases mem_become calls at_after with old | rfl
        · exact ⟨found, old, takes⟩
        · rcases exchanges with none | kept
          · rw [none] at takes
            cases takes
          · exact ⟨call, member, kept ▸ takes⟩
      have revoker : ∃ old ∈ vault.calls, old.revokes = some chain := by
        rcases mem_become calls at_after' with old | rfl
        · exact ⟨found', old, revokes'⟩
        · rcases revokes with none | kept
          · rw [none] at revokes'
            cases revokes'
          · exact ⟨call, member, kept ▸ revokes'⟩
      obtain ⟨old, at_old, takes⟩ := taker
      obtain ⟨old', at_old', revokes'⟩ := revoker
      exact guarded.aside old at_old old' at_old' token chain takes revokes'
  case unspent =>
      intro found at_after token chain takes
      rw [minted, log]
      rcases mem_become calls at_after with old | rfl
      · exact guarded.unspent found old token chain takes
      · rcases exchanges with none | kept
        · rw [none] at takes
          cases takes
        · exact guarded.unspent call member token chain (kept ▸ takes)
  case covered =>
      intro found at_after chain candidates covers
      rw [rows]
      rcases mem_become calls at_after with old | rfl
      · exact guarded.covered found old chain candidates covers
      · exact covered chain candidates covers

theorem take (guarded : vault.Guarded) {index : Nat} {next : Rotation}
    (calls : after.calls = vault.calls.set index next)
    (rows : after.rows = vault.rows) (minted : after.minted = vault.minted)
    (log : after.log = vault.log) (covers : next.covers = none)
    (exchanges : ∀ token chain, next.exchanges = some (token, chain) →
      next.revokes = none ∧ token < vault.minted ∧ (∀ other, .exchanged token other ∉ vault.log) ∧
        .contained chain ∉ vault.log ∧
        ∀ call ∈ vault.calls, (call.exchanges.map Prod.fst) ≠ some token ∧
          call.revokes ≠ some chain)
    (revokes : ∀ chain, next.revokes = some chain →
      ∀ call ∈ vault.calls, (call.exchanges.map Prod.snd) ≠ some chain) : after.Guarded := by
  constructor
  case made => rw [rows, minted]; exact guarded.made
  case spent => rw [rows, minted, log]; exact guarded.spent
  case closed => rw [rows, log]; exact guarded.closed
  case allowed => rw [log]; exact guarded.allowed
  case apart =>
      intro first second found found' token chain chain' at_first at_second takes takes'
      have split {at_index : Nat} {found : Rotation}
          (at_after : after.calls[at_index]? = some found) :
          at_index = index ∧ found = next ∨ vault.calls[at_index]? = some found := by
        rw [calls] at at_after
        exact (getElem?_set_cases at_after).imp_right And.right
      rcases split at_first with ⟨rfl, rfl⟩ | old
      · rcases split at_second with ⟨rfl, rfl⟩ | old'
        · rfl
        · obtain ⟨-, -, -, -, free⟩ := exchanges token chain takes
          have clash := (free found' (List.mem_of_getElem? old')).1
          simp [takes'] at clash
      · rcases split at_second with ⟨rfl, rfl⟩ | old'
        · obtain ⟨-, -, -, -, free⟩ := exchanges token chain' takes'
          have clash := (free found (List.mem_of_getElem? old)).1
          simp [takes] at clash
        · exact guarded.apart _ _ _ _ _ _ _ old old' takes takes'
  case aside =>
      intro found at_after found' at_after' token chain takes revokes'
      rcases mem_become calls at_after with old | rfl
      · rcases mem_become calls at_after' with old' | rfl
        · exact guarded.aside found old found' old' token chain takes revokes'
        · have clash := revokes chain revokes' found old
          simp [takes] at clash
      · obtain ⟨idle, -, -, -, free⟩ := exchanges token chain takes
        rcases mem_become calls at_after' with old' | rfl
        · exact (free found' old').2 revokes'
        · rw [idle] at revokes'
          cases revokes'
  case unspent =>
      intro found at_after token chain takes
      rw [minted, log]
      rcases mem_become calls at_after with old | rfl
      · exact guarded.unspent found old token chain takes
      · obtain ⟨-, made, unused, open_, -⟩ := exchanges token chain takes
        exact ⟨made, unused, open_⟩
  case covered =>
      intro found at_after chain candidates covering
      rw [rows]
      rcases mem_become calls at_after with old | rfl
      · exact guarded.covered found old chain candidates covering
      · rw [covers] at covering
        cases covering

theorem select (guarded : vault.Guarded) {index token : Nat}
    (present : vault.calls[index]? = some (.begun token))
    (undisturbed : vault.undisturbed (.select index) = true) :
    (vault.select index token).Guarded := by
  unfold Vault.select
  split
  · exact guarded.shift present rfl (.inl rfl) (.inl rfl) nofun rfl rfl rfl
  next row found =>
    have member : row ∈ vault.rows := List.mem_of_find?_eq_some found
    have same : row.token = token := by simpa using List.find?_some found
    split
    next verdict =>
      refine guarded.take rfl rfl rfl rfl rfl nofun ?_
      intro chain revokes call at_call
      cases revokes
      simp only [Vault.undisturbed, present, found, verdict, List.all_eq_true, bne_iff_ne]
        at undisturbed
      exact undisturbed call at_call
    · exact guarded.shift present rfl (.inl rfl) (.inl rfl) nofun rfl rfl rfl
    next verdict =>
      have fresh : row.usedAt.isSome = false ∧ row.revokedAt.isSome = false := by
        unfold TokenRow.verdict at verdict
        split at verdict
        · cases verdict
        next unused =>
          split at verdict
          · cases verdict
          next unrevoked => exact ⟨by simpa using unused, by simpa using unrevoked⟩
      refine guarded.take rfl rfl rfl rfl rfl ?_ nofun
      intro token' chain takes
      cases takes
      refine ⟨rfl, same ▸ guarded.made row member, fun other recorded => ?_, fun recorded => ?_, ?_⟩
      · have used := (guarded.spent token other recorded).2 row member same
        rw [fresh.1] at used
        cases used
      · have revoked := guarded.closed row.chain recorded row member rfl
        rw [fresh.2] at revoked
        cases revoked
      · intro call at_call
        simp only [Vault.undisturbed, present, found, verdict, List.all_eq_true, Bool.and_eq_true,
          bne_iff_ne] at undisturbed
        exact undisturbed call at_call

/-- What a call may leave behind when it ends with an entry of the log: old rows, used or revoked at
most since, and new ones of a chain which nobody revokes. -/
theorem finish (guarded : vault.Guarded) {index : Nat} {call : Rotation} {granted : Option Nat}
    {entry : Record} (present : vault.calls[index]? = some call)
    (calls : after.calls = vault.calls.set index (.finished granted))
    (log : after.log = vault.log ++ [entry]) (minted : vault.minted ≤ after.minted)
    (stems : ∀ row ∈ after.rows, vault.Stems after.minted row)
    (spent : ∀ token chain, entry = .exchanged token chain → token < after.minted ∧
      ∀ row ∈ after.rows, row.token = token → row.usedAt.isSome = true)
    (closed : ∀ chain, entry = .contained chain →
      ∀ row ∈ after.rows, row.chain = chain → row.revokedAt.isSome = true)
    (unspent : ∀ position found token chain, vault.calls[position]? = some found →
      position ≠ index → found.exchanges = some (token, chain) →
        (∀ other, entry ≠ .exchanged token other) ∧ entry ≠ .contained chain)
    (allowed : ∀ earlier ∈ vault.log, earlier.Allows entry) : after.Guarded := by
  have earlier {position : Nat} {found : Rotation} (at_after : after.calls[position]? = some found)
      (engaged : found ≠ .finished granted) :
      position ≠ index ∧ vault.calls[position]? = some found := by
    rw [calls] at at_after
    exact (getElem?_set_cases at_after).resolve_left fun ended => engaged ended.2
  have old {found : Rotation} (at_after : found ∈ after.calls)
      (engaged : found ≠ .finished granted) : found ∈ vault.calls := by
    obtain ⟨position, at_position⟩ := List.mem_iff_getElem?.mp at_after
    exact List.mem_of_getElem? (earlier at_position engaged).2
  constructor
  case made =>
      intro row at_after
      obtain ⟨former, at_rows, same, -⟩ | ⟨-, below, -⟩ := stems row at_after
      · rw [same]
        exact Nat.lt_of_lt_of_le (guarded.made former at_rows) minted
      · exact below
  case spent =>
      intro token chain recorded
      rw [log] at recorded
      rcases List.mem_append.mp recorded with before | new
      · obtain ⟨below, used⟩ := guarded.spent token chain before
        refine ⟨Nat.lt_of_lt_of_le below minted, fun row at_after same => ?_⟩
        obtain ⟨former, at_rows, tokens, -, kept, -⟩ | ⟨above, -⟩ := stems row at_after
        · exact kept (used former at_rows (tokens.symm.trans same))
        · exact absurd (same ▸ above) (Nat.not_le.mpr below)
      · exact spent token chain (List.mem_singleton.mp new).symm
  case closed =>
      intro chain recorded row at_after same
      rw [log] at recorded
      rcases List.mem_append.mp recorded with before | new
      · obtain ⟨former, at_rows, -, chains, -, kept⟩ | ⟨-, -, uncontained, -⟩ := stems row at_after
        · exact kept (guarded.closed chain before former at_rows (chains.symm.trans same))
        · exact absurd (same ▸ before) uncontained
      · exact closed chain (List.mem_singleton.mp new).symm row at_after same
  case apart =>
      rw [calls]
      exact guarded.still_apart present (.inl rfl)
  case aside =>
      intro found at_after found' at_after' token chain takes revokes
      have before := old at_after (by rintro rfl; cases takes)
      have before' := old at_after' (by rintro rfl; cases revokes)
      exact guarded.aside found before found' before' token chain takes revokes
  case unspent =>
      intro found at_after token chain takes
      obtain ⟨position, at_position⟩ := List.mem_iff_getElem?.mp at_after
      obtain ⟨apart, before⟩ := earlier at_position (by rintro rfl; cases takes)
      obtain ⟨below, unused, open_⟩ :=
        guarded.unspent found (List.mem_of_getElem? before) token chain takes
      obtain ⟨unlike, unclosed⟩ := unspent position found token chain before apart takes
      rw [log]
      refine ⟨Nat.lt_of_lt_of_le below minted, fun other recorded => ?_, fun recorded => ?_⟩
      · rcases List.mem_append.mp recorded with former | new
        · exact unused other former
        · exact unlike other (List.mem_singleton.mp new).symm
      · rcases List.mem_append.mp recorded with former | new
        · exact open_ former
        · exact unclosed (List.mem_singleton.mp new).symm
  case covered =>
      intro found at_after chain candidates covers row at_row same
      have before := old at_after (by rintro rfl; cases covers)
      obtain ⟨former, at_rows, tokens, chains, -, kept⟩ | ⟨-, -, -, unrevoked⟩ := stems row at_row
      · rw [tokens]
        exact (guarded.covered found before chain candidates covers former at_rows
          (chains.symm.trans same)).imp_left kept
      · have revokes : found.revokes = some chain := by
          cases found <;> cases covers <;> rfl
        exact absurd (same ▸ revokes) (unrevoked found before)
  case allowed =>
      rw [log]
      refine List.pairwise_append.mpr ⟨guarded.allowed, List.pairwise_singleton _ _, ?_⟩
      intro former recorded last new
      rw [List.mem_singleton.mp new]
      exact allowed former recorded

theorem issue (guarded : vault.Guarded) {settings : RefreshSettings} {index token began : Nat}
    {chain : Chain} (present : vault.calls[index]? = some (.marked token chain began)) :
    ((((vault.spend token began).grant settings chain).record (.exchanged token chain)).become
      index (.finished (some vault.minted))).Guarded := by
  have member := List.mem_of_getElem? present
  obtain ⟨made, unused, open_⟩ := guarded.unspent _ member token chain rfl
  -- A row after the commit is an old one, perhaps marked as used, or the new one.
  have rows {row : TokenRow} (at_after : row ∈ (vault.spend token began).rows ++
      [{ token := vault.minted, chain
         expiresAt := vault.now + settings.refreshTtlSeconds * 1000000 }]) :
      vault.Stems (vault.minted + 1) row ∧ (row.token = token → row.usedAt.isSome = true) := by
    rcases List.mem_append.mp at_after with old | new
    · obtain ⟨former, at_rows, rfl⟩ := List.mem_map.mp old
      split
      · exact ⟨.inl ⟨former, at_rows, rfl, rfl, fun _ => rfl, id⟩, fun _ => rfl⟩
      next other =>
        exact ⟨.inl ⟨former, at_rows, rfl, rfl, id, id⟩, fun same => absurd same other⟩
    · rw [List.mem_singleton.mp new]
      refine ⟨.inr ⟨Nat.le_refl _, Nat.lt_succ_self _, open_, fun call listed => ?_⟩,
        fun same => ?_⟩
      · exact guarded.aside _ member call listed token chain rfl
      · exact absurd same (Nat.ne_of_gt made)
  refine guarded.finish present rfl rfl (Nat.le_succ _) (fun row at_after => (rows at_after).1) ?_
    nofun ?_ ?_
  · rintro _ _ ⟨⟩
    exact ⟨Nat.lt_succ_of_lt made, fun row at_after => (rows at_after).2⟩
  · intro position found other chain' before apart takes
    refine ⟨fun _ same => ?_, nofun⟩
    -- The token of another call under way is another one.
    cases same
    exact apart (guarded.apart _ _ _ _ _ _ _ before present takes rfl)
  · intro former recorded
    cases former with
    | exchanged other chain' =>
        rintro rfl
        exact unused chain' recorded
    | contained chain' =>
        rintro rfl
        exact open_ recorded

theorem contain (guarded : vault.Guarded) {index began : Nat} {chain : Chain}
    {candidates : List Nat}
    (present : vault.calls[index]? = some (.revoked chain candidates began)) :
    (((vault.revokeChain chain candidates began).record (.contained chain)).become index
      (.finished none)).Guarded := by
  have member := List.mem_of_getElem? present
  have rows {row : TokenRow} (at_after : row ∈ (vault.revokeChain chain candidates began).rows) :
      vault.Stems vault.minted row ∧ (row.chain = chain → row.revokedAt.isSome = true) := by
    obtain ⟨former, at_rows, rfl⟩ := List.mem_map.mp at_after
    split
    · exact ⟨.inl ⟨former, at_rows, rfl, rfl, id, fun _ => rfl⟩, fun _ => rfl⟩
    next kept =>
      refine ⟨.inl ⟨former, at_rows, rfl, rfl, id, id⟩, fun same => ?_⟩
      rcases guarded.covered _ member _ _ rfl former at_rows same with done | listed
      · exact done
      · cases unrevoked : former.revokedAt with
        | none => exact absurd ⟨same, listed, unrevoked⟩ kept
        | some time => rfl
  refine guarded.finish present rfl rfl (Nat.le_refl _) (fun row at_after => (rows at_after).1)
    nofun ?_ ?_ ?_
  · rintro _ ⟨⟩ row at_after
    exact (rows at_after).2
  · intro position found token chain' before apart takes
    refine ⟨nofun, ?_⟩
    rintro ⟨⟩
    exact guarded.aside found (List.mem_of_getElem? before) _ member token chain takes rfl
  · intro former recorded
    cases former <;> trivial

theorem fewer (guarded : vault.Guarded) {rows : List TokenRow} {calls : List Rotation} {now : Nat}
    (subset : rows ⊆ vault.rows)
    (begun : ∀ (index : Nat) (call : Rotation), calls[index]? = some call →
      vault.calls[index]? = some call ∨ ∃ token, call = .begun token) :
    Vault.Guarded { vault with rows, calls, now } := by
  have old {call : Rotation} (member : call ∈ calls) (engaged : ∀ token, call ≠ .begun token) :
      call ∈ vault.calls := by
    obtain ⟨index, present⟩ := List.mem_iff_getElem?.mp member
    rcases begun index call present with kept | ⟨token, new⟩
    · exact List.mem_of_getElem? kept
    · exact absurd new (engaged token)
  constructor
  case made => exact fun row member => guarded.made row (subset member)
  case spent =>
      intro token chain recorded
      obtain ⟨below, spent⟩ := guarded.spent token chain recorded
      exact ⟨below, fun row member => spent row (subset member)⟩
  case closed => exact fun chain recorded row member =>
    guarded.closed chain recorded row (subset member)
  case apart =>
      intro index other call found token chain chain' at_index at_other takes takes'
      rcases begun index call at_index with kept | ⟨presented, rfl⟩
      · rcases begun other found at_other with kept' | ⟨presented, rfl⟩
        · exact guarded.apart _ _ _ _ _ _ _ kept kept' takes takes'
        · cases takes'
      · cases takes
  case aside =>
      intro call at_call found at_found token chain takes revokes
      have at_call := old at_call (by rintro presented rfl; cases takes)
      have at_found := old at_found (by rintro presented rfl; cases revokes)
      exact guarded.aside call at_call found at_found token chain takes revokes
  case unspent =>
      intro call at_call token chain takes
      exact guarded.unspent call (old at_call (by rintro presented rfl; cases takes)) token chain
        takes
  case covered =>
      intro call at_call chain candidates covers row member
      exact guarded.covered call (old at_call (by rintro presented rfl; cases covers)) chain
        candidates covers row (subset member)
  case allowed => exact guarded.allowed

theorem advance (guarded : vault.Guarded) {settings : RefreshSettings} {index : Nat}
    {call : Rotation} {event : RefreshEvent} (present : vault.calls[index]? = some call)
    (undisturbed : ∀ which, event = .select which → vault.undisturbed (.select index) = true)
    (advanced : vault.advance settings index call event = some after) : after.Guarded := by
  have drop (drops : after = vault.become index (.finished none)) : after.Guarded := by
    subst drops
    exact guarded.shift present rfl (.inl rfl) (.inl rfl) nofun rfl rfl rfl
  cases event with
  | select which =>
      cases call with
      | begun token =>
          cases advanced
          exact guarded.select present (undisturbed which rfl)
      | passed | marked | reused | revoking | revoked | finished => cases advanced
  | mark which =>
      cases call with
      | passed token chain began =>
          simp only [Vault.advance] at advanced
          split at advanced <;> cases advanced
          exact guarded.shift present rfl (.inr rfl) (.inl rfl) nofun rfl rfl rfl
      | begun | marked | reused | revoking | revoked | finished => cases advanced
  | issue which =>
      cases call with
      | marked token chain began =>
          cases advanced
          exact guarded.issue present
      | begun | passed | reused | revoking | revoked | finished => cases advanced
  | revoke which =>
      cases call with
      | reused chain began =>
          cases advanced
          refine guarded.shift present rfl (.inl rfl) (.inr rfl) ?_ rfl rfl rfl
          intro chain' candidates covers row member same
          cases covers
          cases revoked : row.revokedAt with
          | some time => exact .inl rfl
          | none =>
              right
              refine List.mem_map.mpr ⟨row, List.mem_filter.mpr ⟨member, ?_⟩, rfl⟩
              simp [same, revoked]
      | begun | passed | marked | revoking | revoked | finished => cases advanced
  | seize which =>
      cases call with
      | revoking chain candidates began =>
          simp only [Vault.advance] at advanced
          split at advanced <;> cases advanced
          have member := List.mem_of_getElem? present
          refine guarded.shift present rfl (.inl rfl) (.inr rfl) ?_ rfl rfl rfl
          intro chain' candidates' covers
          exact guarded.covered _ member chain' candidates' covers
      | begun | passed | marked | reused | revoked | finished => cases advanced
  | contain which =>
      cases call with
      | revoked chain candidates began =>
          cases advanced
          exact guarded.contain present
      | begun | passed | marked | reused | revoking | finished => cases advanced
  | die which =>
      cases call with
      | begun | passed | marked | reused | revoking | revoked =>
          cases advanced
          exact drop rfl
      | finished => cases advanced
  | pass | present | cleanup => cases call <;> cases advanced

theorem step (guarded : vault.Guarded) {settings : RefreshSettings} {event : RefreshEvent}
    (undisturbed : vault.undisturbed event = true)
    (stepped : vault.step settings event = some after) : after.Guarded := by
  cases event with
  | pass microseconds =>
      cases stepped
      exact guarded.fewer (List.Subset.refl _) fun _ _ present => .inl present
  | present token =>
      cases stepped
      refine guarded.fewer (List.Subset.refl _) fun index call present => ?_
      exact (getElem?_snoc present).imp_right fun new => ⟨token, new.2⟩
  | cleanup began =>
      simp only [Vault.step] at stepped
      split at stepped <;> cases stepped
      exact guarded.fewer (fun row member => (List.mem_filter.mp member).1)
        fun _ _ present => .inl present
  | select index =>
      obtain ⟨call, present, advanced⟩ := Option.bind_eq_some_iff.mp stepped
      exact guarded.advance present (fun _ _ => undisturbed) advanced
  | mark index | issue index | revoke index | seize index | contain index | die index =>
      obtain ⟨call, present, advanced⟩ := Option.bind_eq_some_iff.mp stepped
      refine guarded.advance present ?_ advanced
      exact nofun

theorem of_fresh (fresh : vault.Fresh) : vault.Guarded := by
  constructor
  case made => exact fresh.made
  case spent | closed | unspent | covered | apart | aside | allowed =>
      simp [fresh.calls, fresh.log]

end Vault.Guarded

/-- While no call reads the row of a token that another call is exchanging, and no exchange overlaps
a revocation of its chain, each token is exchanged at most once, and after a used token was
presented again nothing is exchanged in its chain. -/
theorem tokens_single_use_and_contained (settings : RefreshSettings) (start vault : Vault)
    (fresh : start.Fresh)
    (reached : Reachable (Vault.step settings) (fun vault event => vault.undisturbed event = true)
      start vault) :
    vault.log.Pairwise Record.Allows := by
  have guarded : vault.Guarded := by
    apply reached.invariant Vault.Guarded (.of_fresh fresh)
    intro before event after guarded undisturbed stepped
    exact guarded.step undisturbed stepped
  exact guarded.allowed

namespace Sample

/-- A month for each token, and a day before used ones are deleted. -/
def settings : RefreshSettings := ⟨2592000, 86400⟩

/-- One token of one device. -/
def registered : Vault :=
  { rows := [{ token := 0, chain := ⟨1, "phone"⟩, expiresAt := 2592000000000 }]
    minted := 1
    now := 1000000 }

theorem registered_fresh : registered.Fresh := by
  constructor
  case calls => rfl
  case log => rfl
  case made =>
      intro row member
      rw [registered, List.mem_singleton] at member
      rw [member]
      exact Nat.one_pos

/-- A token is exchanged, stolen and presented again; the one issued for it is worth nothing
after that. -/
def theft : List RefreshEvent :=
  [.present 0, .select 0, .mark 0, .issue 0, .present 0, .select 1, .revoke 1, .seize 1,
    .contain 1, .present 1, .select 2]

/-- The theft is contained. -/
theorem theft_contained :
    ∃ vault, Reachable (Vault.step settings) (fun vault event => vault.undisturbed event = true)
        registered vault ∧
      (vault.log == [.exchanged 0 ⟨1, "phone"⟩, .contained ⟨1, "phone"⟩] &&
        vault.calls[2]? == some (.finished none)) = true ∧
      vault.log.Pairwise Record.Allows := by
  obtain ⟨vault, reached, tested⟩ := reachable_of_any (Vault.step settings)
    (fun vault event => vault.undisturbed event = true) registered
    (fun vault => vault.log == [.exchanged 0 ⟨1, "phone"⟩, .contained ⟨1, "phone"⟩] &&
      vault.calls[2]? == some (.finished none)) theft (by decide)
  exact ⟨vault, reached, tested,
    tokens_single_use_and_contained settings registered vault registered_fresh reached⟩

/-- Two calls present one token and both read its row before either has marked it. -/
def doubled : List RefreshEvent :=
  [.present 0, .present 0, .select 0, .select 1, .mark 0, .issue 0, .mark 1, .issue 1]

/-- The token is exchanged twice. -/
theorem doubled_exchange :
    ¬ ∀ (settings : RefreshSettings) (start vault : Vault), start.Fresh →
      Reachable (Vault.step settings) (fun _ _ => True) start vault →
      vault.log.Pairwise Record.Allows := by
  intro always
  obtain ⟨vault, reached, tested⟩ := reachable_of_any (Vault.step settings) (fun _ _ => True)
    registered
    (fun vault => vault.log == [.exchanged 0 ⟨1, "phone"⟩, .exchanged 0 ⟨1, "phone"⟩]) doubled
    (by decide)
  have allowed := always settings registered vault registered_fresh reached
  rw [beq_iff_eq] at tested
  rw [tested, List.pairwise_pair] at allowed
  exact allowed rfl

end Sample

end Hermes.Auth
