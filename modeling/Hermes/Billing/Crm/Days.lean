import Mathlib.Algebra.GroupWithZero.Nat
import Hermes.Billing.Crm.Grants

/-!
# Days which add up

The expiry a call writes was computed from the row it read.  As long as that row is still there at
the write, a run of calls is a sequence of grants made in one piece, and the expiry is the one
they give one after another.
-/

namespace Hermes.Billing

/-- A grant applied in one piece to what is stored. -/
def Applied.apply (settings : Settings) (entitlement : Entitlement) (applied : Applied) :
    Entitlement :=
  entitlement.granted (setSubscription settings entitlement applied.draft.now
    applied.grant.productId applied.grant.expiresInDays applied.grant.grantId)

/-- The expiry after a grant: the days are counted from the expiry before, or from the time of the
call if that is later. -/
def Applied.prolong (expiry : Instant) (applied : Applied) : Instant :=
  max expiry applied.draft.now + applied.grant.expiresInDays * dayLength

/-- No grant is made after the subscription has lapsed. -/
def Unlapsed (expiry : Instant) : List Applied → Prop
  | [] => True
  | applied :: later => applied.draft.now ≤ expiry ∧ Unlapsed (applied.prolong expiry) later

def grantedDays (applied : List Applied) : Nat :=
  (applied.map fun applied => applied.grant.expiresInDays).sum

namespace Desk

/-- The expiry is the one before the first grant, or the time of it, and the days of all. -/
def Summed (desk start : Desk) (first : Applied) : Prop :=
  ∃ plan, desk.entitlement.row = some ⟨.active, plan, some
    (crmBase start.entitlement.row first.draft.now + grantedDays desk.applied * dayLength)⟩

/-- The grants were applied one after another, the expiry is the one they give in that order, and
nobody was refused for a grant which another call made at the same time. -/
structure Extends (settings : Settings) (desk start : Desk) : Prop where
  serial : desk.entitlement = desk.applied.foldl (Applied.apply settings) start.entitlement
  expiry : ∀ (first : Applied) (later : List Applied), desk.applied = first :: later →
    ∃ plan, desk.entitlement.row = some ⟨.active, plan, some
      (desk.applied.foldl Applied.prolong (crmBase start.entitlement.row first.draft.now))⟩
  sum : ∀ (first : Applied) (later : List Applied), desk.applied = first :: later →
    Unlapsed (crmBase start.entitlement.row first.draft.now) desk.applied →
    desk.Summed start first
  unrefused : ∀ call ∈ desk.calls, call.phase ≠ .finished .violated ∧
    call.phase ≠ .finished (.failed (.badRequest "subscription grant conflict"))

/-- At the insert of a grant nobody has recorded it with another plan or expiry since it was looked
for, and at the write the row is there or not as it was, and gives the expiry that was computed. -/
def steady (settings : Settings) (desk : Desk) : CrmEvent → Bool
  | .advance index =>
      match desk.calls[index]? with
      | some ⟨grant, .granting draft⟩ =>
          (desk.recorded grant.grantId).all fun event =>
            event.payloadHash == settings.payloadHash draft.plan draft.expiresAt false
      | some ⟨_, .selected draft present⟩ =>
          present == desk.entitlement.row.isSome &&
            crmBase desk.entitlement.row draft.now == crmBase draft.row draft.now
      | _ => true
  | _ => true

/-- The row a call has written over is still the one it computed from, only one call has written,
and the grants so far were applied one after another. -/
structure Steady (settings : Settings) (desk start : Desk) : Prop where
  serial : desk.entitlement = desk.applied.foldl (Applied.apply settings) start.entitlement
  expiry : ∀ (first : Applied) (later : List Applied), desk.applied = first :: later →
    ∃ plan, desk.entitlement.row = some ⟨.active, plan, some
      (desk.applied.foldl Applied.prolong (crmBase start.entitlement.row first.draft.now))⟩
  written : ∀ (index : Nat) (grant : Grant) (draft : Draft) (present : Bool),
    desk.calls[index]? = some ⟨grant, .written draft present⟩ →
      present = desk.entitlement.row.isSome ∧
        crmBase desk.entitlement.row draft.now = crmBase draft.row draft.now
  alone : ∀ (index other : Nat) (call rival : CrmCall), desk.calls[index]? = some call →
    desk.calls[other]? = some rival → call.phase.isWritten = true →
    rival.phase.isWritten = true → index = other
  unrefused : ∀ call ∈ desk.calls, call.phase ≠ .finished .violated ∧
    call.phase ≠ .finished (.failed (.badRequest "subscription grant conflict"))

/-- A phase in which a call has neither written the row nor been refused for another's grant. -/
structure Harmless (phase : CrmPhase) : Prop where
  unwritten : phase.isWritten = false
  unviolated : phase ≠ .finished .violated
  unrefused : phase ≠ .finished (.failed (.badRequest "subscription grant conflict"))

end Desk

theorem now_le_crmBase (row : Option SubscriptionRow) (now : Instant) :
    now ≤ crmBase row now := by
  unfold crmBase
  split
  · split
    next later => exact later.le
    · exact le_rfl
  · exact le_rfl

@[simp] theorem crmBase_active (plan : Option String) (expiry now : Instant) :
    crmBase (some ⟨.active, plan, some expiry⟩) now = max expiry now := by
  simp only [crmBase]
  split
  next later => exact (max_eq_left later.le).symm
  next lapsed => exact (max_eq_right (not_lt.mp lapsed)).symm

theorem foldl_prolong {expiry : Instant} {applied : List Applied}
    (unlapsed : Unlapsed expiry applied) :
    applied.foldl Applied.prolong expiry = expiry + grantedDays applied * dayLength := by
  induction applied generalizing expiry with
  | nil => simp [grantedDays]
  | cons first later induction =>
      obtain ⟨early, rest⟩ := unlapsed
      have prolonged : first.prolong expiry =
          expiry + first.grant.expiresInDays * dayLength := by
        rw [Applied.prolong, max_eq_left early]
      rw [List.foldl_cons, induction rest, prolonged]
      simp only [grantedDays, List.map_cons, List.sum_cons]
      rw [Int.natCast_add, Int.add_mul, Int.add_assoc]

namespace Desk

variable {settings : Settings} {start desk after : Desk}

namespace Steady

theorem become (steady : desk.Steady settings start) {index : Nat} {call : CrmCall}
    {phase : CrmPhase} (called : desk.calls[index]? = some call) (harmless : Harmless phase) :
    (desk.become index phase).Steady settings start where
  serial := steady.serial
  expiry := steady.expiry
  written := by
    intro other grant draft present found
    obtain ⟨rfl, same⟩ | ⟨-, before⟩ := calls_of_become called found
    · cases same
      exact absurd harmless.unwritten (by simp [CrmPhase.isWritten])
    · exact steady.written other grant draft present before
  alone := by
    intro first second one two foundOne foundTwo writtenOne writtenTwo
    obtain ⟨rfl, rfl⟩ | ⟨-, before⟩ := calls_of_become called foundOne
    · simp [harmless.unwritten] at writtenOne
    · obtain ⟨rfl, rfl⟩ | ⟨-, beforeTwo⟩ := calls_of_become called foundTwo
      · simp [harmless.unwritten] at writtenTwo
      · exact steady.alone first second one two before beforeTwo writtenOne writtenTwo
  unrefused := by
    intro one present
    obtain ⟨other, found⟩ := List.getElem?_of_mem present
    obtain ⟨rfl, rfl⟩ | ⟨-, before⟩ := calls_of_become called found
    · exact ⟨harmless.unviolated, harmless.unrefused⟩
    · exact steady.unrefused one (List.mem_of_getElem? before)

theorem begin (steady : desk.Steady settings start) (grant : Grant) {phase : CrmPhase}
    (harmless : Harmless phase) :
    Steady settings { desk with calls := desk.calls ++ [⟨grant, phase⟩] } start where
  serial := steady.serial
  expiry := steady.expiry
  written := by
    intro other another draft present found
    obtain before | ⟨-, same⟩ := getElem?_snoc found
    · exact steady.written other another draft present before
    · cases same
      exact absurd harmless.unwritten (by simp [CrmPhase.isWritten])
  alone := by
    intro first second one two foundOne foundTwo writtenOne writtenTwo
    obtain before | ⟨-, rfl⟩ := getElem?_snoc foundOne
    · obtain beforeTwo | ⟨-, rfl⟩ := getElem?_snoc foundTwo
      · exact steady.alone first second one two before beforeTwo writtenOne writtenTwo
      · simp [harmless.unwritten] at writtenTwo
    · simp [harmless.unwritten] at writtenOne
  unrefused := by
    intro one present
    obtain ⟨other, found⟩ := List.getElem?_of_mem present
    obtain before | ⟨-, rfl⟩ := getElem?_snoc found
    · exact steady.unrefused one (List.mem_of_getElem? before)
    · exact ⟨harmless.unviolated, harmless.unrefused⟩

theorem write (steady : desk.Steady settings start) {index : Nat} {grant : Grant} {draft : Draft}
    {present : Bool} (called : desk.calls[index]? = some ⟨grant, .selected draft present⟩)
    (free : desk.rowHeld = false) (there : present = desk.entitlement.row.isSome)
    (base : crmBase desk.entitlement.row draft.now = crmBase draft.row draft.now) :
    (desk.become index (.written draft present)).Steady settings start where
  serial := steady.serial
  expiry := steady.expiry
  written := by
    intro other another one was found
    obtain ⟨rfl, same⟩ | ⟨-, before⟩ := calls_of_become called found
    · cases same
      exact ⟨there, base⟩
    · exact steady.written other another one was before
  alone := by
    have unheld {other : Nat} {rival : CrmCall} (found : desk.calls[other]? = some rival) :
        rival.phase.isWritten ≠ true :=
      List.any_eq_false.mp free rival (List.mem_of_getElem? found)
    intro first second one two foundOne foundTwo writtenOne writtenTwo
    obtain ⟨rfl, -⟩ | ⟨-, before⟩ := calls_of_become called foundOne
    · obtain ⟨rfl, -⟩ | ⟨-, beforeTwo⟩ := calls_of_become called foundTwo
      · rfl
      · exact absurd writtenTwo (unheld beforeTwo)
    · exact absurd writtenOne (unheld before)
  unrefused := by
    intro one member
    obtain ⟨other, found⟩ := List.getElem?_of_mem member
    obtain ⟨rfl, rfl⟩ | ⟨-, before⟩ := calls_of_become called found
    · exact ⟨nofun, nofun⟩
    · exact steady.unrefused one (List.mem_of_getElem? before)

/-- A commit over the row as it was read is `set_subscription` in one piece. -/
theorem apply_eq {grant : Grant} {draft : Draft} {index : Nat}
    (known : settings.unknownProduct grant.productId = false) (computed : draft.Computed grant)
    (absent : ∀ event ∈ desk.entitlement.grantEvents, event.idempotencyKey ≠ crmKey grant.grantId)
    (base : crmBase desk.entitlement.row draft.now = crmBase draft.row draft.now) :
    Applied.apply settings desk.entitlement ⟨index, grant, draft⟩ =
      { row := some ⟨.active, some draft.plan, some draft.expiresAt⟩
        grantEvents := desk.entitlement.grantEvents ++ [draft.event settings grant.grantId] } := by
  have missing : (desk.entitlement.grantEvents.find? fun event =>
      event.idempotencyKey == crmKey grant.grantId) = none := by
    rw [List.find?_eq_none]
    intro event present
    simpa using absent event present
  unfold Settings.unknownProduct at known
  simp only [Applied.apply, setSubscription, known, missing, base, computed.expiresAt]
  simp [adminGrant, missing, computed.plan, Entitlement.granted, Draft.event, Except.mapError]

theorem expiry_commit (steady : desk.Steady settings start) {grant : Grant} {draft : Draft}
    {index : Nat} (computed : draft.Computed grant)
    (base : crmBase desk.entitlement.row draft.now = crmBase draft.row draft.now)
    (first : Applied) (later : List Applied)
    (listed : desk.applied ++ [⟨index, grant, draft⟩] = first :: later) :
    (first :: later).foldl Applied.prolong (crmBase start.entitlement.row first.draft.now) =
      draft.expiresAt := by
  obtain ⟨added, -⟩ := addDays_eq_some computed.expiresAt
  rw [added, ← base, ← listed, List.foldl_append]
  cases before : desk.applied with
  | nil =>
      rw [before] at listed
      cases listed
      have unchanged : desk.entitlement = start.entitlement := by
        rw [steady.serial, before, List.foldl_nil]
      rw [unchanged, List.foldl_nil, List.foldl_cons, List.foldl_nil, Applied.prolong,
        max_eq_left (now_le_crmBase _ _)]
  | cons earliest rest =>
      rw [before] at listed
      cases listed
      obtain ⟨plan, row⟩ := steady.expiry _ _ before
      rw [row, crmBase_active, before]
      rfl

theorem commit (steady : desk.Steady settings start) (anchored : desk.Anchored settings start)
    {index : Nat} {call : CrmCall} {balance : Option Int}
    (called : desk.calls[index]? = some call)
    (stepped : desk.commit settings index call balance = some after) :
    after.Steady settings start := by
  obtain ⟨grant, phase⟩ := call
  cases phase with
  | written draft present =>
      obtain ⟨known, -, computed, absent⟩ := anchored.fits index _ called
      obtain ⟨there, base⟩ := steady.written index grant draft present called
      cases stepped
      have upserted : draft.upsert present desk.entitlement.row =
          some ⟨.active, some draft.plan, some draft.expiresAt⟩ := by
        unfold Draft.upsert
        rw [there]
        cases desk.entitlement.row <;> rfl
      have unwritten {other : Nat} {rival : CrmCall} (differ : other ≠ index)
          (found : desk.calls[other]? = some rival) : rival.phase.isWritten ≠ true := by
        intro held
        exact differ (steady.alone other index rival _ found called held rfl)
      constructor
      case serial =>
        rw [List.foldl_append, ← steady.serial, List.foldl_cons, List.foldl_nil,
          apply_eq known computed absent base, upserted]
      case expiry =>
        intro first later listed
        rw [listed, steady.expiry_commit computed base first later listed]
        exact ⟨some draft.plan, upserted⟩
      case written =>
        intro other another one was found
        obtain ⟨-, same⟩ | ⟨differ, before⟩ := calls_of_become called found
        · cases same
        · exact absurd rfl (unwritten differ before)
      case alone =>
        intro other second one two foundOne foundTwo writtenOne writtenTwo
        obtain ⟨-, rfl⟩ | ⟨differ, before⟩ := calls_of_become called foundOne
        · cases writtenOne
        · exact absurd writtenOne (unwritten differ before)
      case unrefused =>
        intro one member
        obtain ⟨other, found⟩ := List.getElem?_of_mem member
        obtain ⟨-, rfl⟩ | ⟨-, before⟩ := calls_of_become called found
        · exact ⟨nofun, nofun⟩
        · exact steady.unrefused one (List.mem_of_getElem? before)
  | echoing draft =>
      cases stepped
      exact steady.become called ⟨rfl, nofun, nofun⟩
  | begun | read | granting | anchored | selected | finished => cases stepped

theorem advance (steady : desk.Steady settings start) {index : Nat} {call : CrmCall}
    (called : desk.calls[index]? = some call)
    (held : desk.steady settings (.advance index) = true)
    (stepped : desk.advance settings index call = some after) :
    after.Steady settings start := by
  obtain ⟨grant, phase⟩ := call
  cases phase with
  | read now balance row =>
      cases stepped
      unfold look
      cases desk.recorded grant.grantId with
      | some event => exact steady.become called ⟨rfl, by simp, by simp⟩
      | none =>
          cases addDays (crmBase row now) grant.expiresInDays with
          | none => exact steady.become called ⟨rfl, by simp, by simp⟩
          | some expiresAt => exact steady.become called ⟨rfl, by simp, by simp⟩
  | granting draft =>
      simp only [Desk.steady, called] at held
      simp only [Desk.advance, insert] at stepped
      split at stepped
      · cases stepped
      · cases there : desk.recorded grant.grantId with
        | some event =>
            simp only [there, Option.all_some, beq_iff_eq] at held
            simp only [there, held, ne_eq, not_true_eq_false, if_false, Option.some.injEq]
              at stepped
            subst stepped
            exact steady.become called ⟨rfl, by simp, by simp⟩
        | none =>
            simp only [there, Option.some.injEq] at stepped
            subst stepped
            exact steady.become called ⟨rfl, by simp, by simp⟩
  | anchored draft =>
      cases stepped
      exact steady.become called ⟨rfl, by simp, by simp⟩
  | selected draft present =>
      simp only [Desk.steady, called, Bool.and_eq_true, beq_iff_eq] at held
      simp only [Desk.advance, Desk.write, ← held.1] at stepped
      split at stepped
      · cases stepped
      next free =>
        rw [Bool.not_and_self, if_neg Bool.false_ne_true] at stepped
        cases stepped
        exact steady.write called (Bool.eq_false_iff.mpr free) held.1 held.2
  | begun | written | echoing | finished => cases stepped

theorem step (steady : desk.Steady settings start) (anchored : desk.Anchored settings start)
    {event : CrmEvent} (held : desk.steady settings event = true)
    (stepped : desk.step settings event = some after) : after.Steady settings start := by
  cases event with
  | begin grant =>
      cases stepped
      apply steady.begin
      split
      · exact ⟨rfl, by simp, by simp⟩
      · exact ⟨rfl, by simp, by simp⟩
  | read index now balance =>
      simp only [Desk.step] at stepped
      split at stepped
      next grant called =>
        cases stepped
        exact steady.become called ⟨rfl, by simp, by simp⟩
      · cases stepped
  | advance index =>
      obtain ⟨call, called, advanced⟩ := Option.bind_eq_some_iff.mp stepped
      exact steady.advance called held advanced
  | commit index balance =>
      obtain ⟨call, called, committed⟩ := Option.bind_eq_some_iff.mp stepped
      exact steady.commit anchored called committed
  | lose index =>
      simp only [Desk.step] at stepped
      split at stepped
      · cases stepped
      · cases stepped
      next call live called =>
        cases stepped
        exact steady.become called ⟨rfl, by simp, by simp⟩

theorem extends_start (steady : desk.Steady settings start) : desk.Extends settings start where
  serial := steady.serial
  expiry := steady.expiry
  sum := by
    intro first later listed unlapsed
    obtain ⟨plan, row⟩ := steady.expiry first later listed
    rw [foldl_prolong unlapsed] at row
    exact ⟨plan, row⟩
  unrefused := steady.unrefused

end Steady

/-- No call is under way, and the grants recorded are as the table and the CRM keep them. -/
structure Idle (settings : Settings) (desk : Desk) : Prop where
  calls : desk.calls = []
  applied : desk.applied = []
  kept : desk.entitlement.Kept settings

theorem Idle.anchored (idle : desk.Idle settings) : desk.Anchored settings desk where
  events := by simp [idle.applied]
  kept := idle.kept
  fits := by simp [idle.calls]
  apart := by simp [idle.calls]
  answered := by simp [idle.applied]

theorem Idle.steady (idle : desk.Idle settings) : desk.Steady settings desk where
  serial := by simp [idle.applied]
  expiry := by simp [idle.applied]
  written := by simp [idle.calls]
  alone := by simp [idle.calls]
  unrefused := by simp [idle.calls]

theorem entitlement_of_unapplied {event : CrmEvent}
    (stepped : desk.step settings event = some after) (unapplied : after.applied = desk.applied) :
    after.entitlement = desk.entitlement := by
  cases event with
  | begin grant =>
      cases stepped
      rfl
  | read index now balance =>
      simp only [step] at stepped
      split at stepped <;> cases stepped
      rfl
  | advance index =>
      obtain ⟨⟨grant, phase⟩, -, advanced⟩ := Option.bind_eq_some_iff.mp stepped
      cases phase with
      | read now balance row =>
          cases advanced
          unfold look
          split
          · rfl
          · split <;> rfl
      | granting draft =>
          simp only [advance, insert] at advanced
          split at advanced
          · cases advanced
          · split at advanced
            · split at advanced <;> cases advanced <;> rfl
            · cases advanced
              rfl
      | anchored draft =>
          cases advanced
          rfl
      | selected draft present =>
          simp only [advance, write] at advanced
          split at advanced
          · cases advanced
          · split at advanced <;> cases advanced <;> rfl
      | begun | written | echoing | finished => cases advanced
  | commit index balance =>
      obtain ⟨⟨grant, phase⟩, -, committed⟩ := Option.bind_eq_some_iff.mp stepped
      cases phase with
      | written draft present =>
          cases committed
          simp at unapplied
      | echoing draft =>
          cases committed
          rfl
      | begun | read | granting | anchored | selected | finished => cases committed
  | lose index =>
      simp only [step] at stepped
      split at stepped <;> cases stepped
      rfl

end Desk

/-- However calls interleave, no grant is applied twice or after it was recorded, a call which
succeeds returns what is recorded and says whether it applied it, and only the grants which are
applied change anything.  While no call writes over what another has committed since it read, the
grants are applied one after another, each from the expiry before or from its own time if that is
later, so that without a lapse the days are summed. -/
theorem subscription_days_add_up (settings : Settings) (start desk : Desk)
    (idle : start.Idle settings)
    (reached : Reachable (Desk.step settings) (fun _ _ => True) start desk) :
    desk.Recorded settings start ∧
      (∀ (event : CrmEvent) (after : Desk), desk.step settings event = some after →
        after.applied = desk.applied → after.entitlement = desk.entitlement) ∧
      (Reachable (Desk.step settings) (fun desk event => desk.steady settings event = true) start
        desk → desk.Extends settings start) := by
  refine ⟨?_, ?_, ?_⟩
  · have anchored : desk.Anchored settings start := by
      apply reached.invariant (fun desk => desk.Anchored settings start) idle.anchored
      intro before event after anchored _ stepped
      exact anchored.step stepped
    exact anchored.recorded
  · intro event after stepped unapplied
    exact Desk.entitlement_of_unapplied stepped unapplied
  · intro steadily
    have sound : desk.Anchored settings start ∧ desk.Steady settings start := by
      apply steadily.invariant
        (fun desk => desk.Anchored settings start ∧ desk.Steady settings start)
        ⟨idle.anchored, idle.steady⟩
      rintro before event after ⟨anchored, steady⟩ held stepped
      exact ⟨anchored.step stepped, steady.step anchored held stepped⟩
    exact sound.2.extends_start

namespace Sample

/-- Settings with no list of products; the payload stands for its hash. -/
def crmSettings : Settings where
  lower := id
  knownProductIds := []
  payloadHash := fun plan expiresAt grantCredits =>
    plan ++ "/" ++ toString expiresAt ++ "/" ++ toString grantCredits

/-- A subscription which lasts for ten days. -/
def subscribed : Desk where
  entitlement := { row := some ⟨.active, some "pro", some (10 * dayLength)⟩ }

theorem subscribed_idle : subscribed.Idle crmSettings :=
  ⟨rfl, rfl, List.nodup_nil, List.forall_mem_nil _⟩

/-- A call with nobody else around, from its beginning to its commit. -/
def alone (index : Nat) (now : Instant) (grant : Grant) : List CrmEvent :=
  [.begin grant, .read index now 0, .advance index, .advance index, .advance index,
    .advance index, .commit index (some 0)]

/-- A call for a grant which was made before. -/
def again (index : Nat) (now : Instant) (grant : Grant) : List CrmEvent :=
  [.begin grant, .read index now 0, .advance index, .advance index, .commit index (some 0)]

/-- Two grants, and the first again with other arguments. -/
def twoGrants : List CrmEvent :=
  alone 0 0 ⟨"pro", 5, "first"⟩ ++ alone 1 dayLength ⟨"pro", 3, "second"⟩ ++
    again 2 dayLength ⟨"max", 7, "first"⟩

/-- The days of both are added to the expiry. -/
theorem two_grants_add_up :
    ∃ desk, Reachable (Desk.step crmSettings)
        (fun desk event => desk.steady crmSettings event = true) subscribed desk ∧
      (desk.entitlement.row == some ⟨.active, some "pro", some (18 * dayLength)⟩) = true ∧
      desk.Extends crmSettings subscribed := by
  obtain ⟨desk, reached, tested⟩ := reachable_of_any (Desk.step crmSettings)
    (fun desk event => desk.steady crmSettings event = true) subscribed
    (fun desk => desk.entitlement.row == some ⟨.active, some "pro", some (18 * dayLength)⟩)
    twoGrants (by decide)
  have anyhow : Reachable (Desk.step crmSettings) (fun _ _ => True) subscribed desk := by
    apply reached.invariant _ .start
    intro before event after earlier _ stepped
    exact earlier.next trivial stepped
  exact ⟨desk, reached, tested,
    (subscription_days_add_up crmSettings subscribed desk subscribed_idle anyhow).2.2 reached⟩

theorem empty_idle : Desk.Idle crmSettings {} :=
  ⟨rfl, rfl, List.nodup_nil, List.forall_mem_nil _⟩

/-- What a run leaves when its two grants are not summed. -/
def unsummed (times : List Instant) (expiry : Instant) (desk : Desk) : Bool :=
  desk.entitlement.row == some ⟨.active, some "pro", some expiry⟩ &&
    desk.applied.map (fun applied => (applied.draft.now, applied.grant.expiresInDays)) ==
      times.map (·, 1) &&
    desk.calls.all fun call => call.phase matches .finished _

theorem over_of_unsummed {times : List Instant} {expiry : Instant} {desk : Desk}
    (tested : unsummed times expiry desk = true) :
    ∀ call ∈ desk.calls, ∃ ending, call.phase = .finished ending := by
  intro call present
  simp only [unsummed, Bool.and_eq_true, List.all_eq_true] at tested
  have ended := tested.2 call present
  split at ended
  next ending same => exact ⟨ending, same⟩
  · cases ended

theorem not_summed_of_unsummed {now expiry : Instant} {times : List Instant} {desk : Desk}
    (tested : unsummed (now :: times) expiry desk = true)
    (differ : expiry ≠ now + (times.length + 1) * dayLength) :
    ∃ first later, desk.applied = first :: later ∧ ¬ desk.Summed {} first := by
  simp only [unsummed, Bool.and_eq_true, beq_iff_eq] at tested
  obtain ⟨⟨row, applied⟩, -⟩ := tested
  have days : grantedDays desk.applied = times.length + 1 := by
    have mapped := congrArg (List.map Prod.snd) applied
    rw [List.map_map, List.map_map] at mapped
    have summed := congrArg List.sum mapped
    simpa [grantedDays, Function.comp_def, Nat.add_comm] using summed
  cases listed : desk.applied with
  | nil => simp [listed] at applied
  | cons first later =>
      refine ⟨first, later, rfl, ?_⟩
      rintro ⟨plan, claimed⟩
      rw [listed, List.map_cons, List.map_cons, List.cons.injEq, Prod.mk.injEq] at applied
      rw [row, days, applied.1.1] at claimed
      simp only [crmBase, Option.some.injEq, SubscriptionRow.mk.injEq] at claimed
      exact differ (by simpa using claimed.2.2)

/-- A grant of a day, and another one ten days later. -/
def lapsed : List CrmEvent :=
  alone 0 0 ⟨"pro", 1, "first"⟩ ++ alone 1 (10 * dayLength) ⟨"pro", 1, "second"⟩

/-- The second grant is counted from its own time, as the subscription had lapsed: the expiry is not
the time of the first and the days of both. -/
theorem lapsed_days_not_summed :
    ¬ ∀ (start desk : Desk), start.Idle crmSettings →
      Reachable (Desk.step crmSettings) (fun _ _ => True) start desk →
      (∀ call ∈ desk.calls, ∃ ending, call.phase = .finished ending) →
      ∀ (first : Applied) (later : List Applied), desk.applied = first :: later →
        desk.Summed start first := by
  intro always
  obtain ⟨desk, reached, tested⟩ := reachable_of_any (Desk.step crmSettings) (fun _ _ => True) {}
    (unsummed [0, 10 * dayLength] (11 * dayLength)) lapsed (by decide)
  obtain ⟨first, later, listed, differs⟩ := not_summed_of_unsummed tested (by decide)
  exact differs (always {} desk empty_idle reached (over_of_unsummed tested) first later listed)

/-- Two calls which read the row before either has written it. -/
def overlapping : List CrmEvent :=
  alone 0 0 ⟨"pro", 1, "first"⟩ ++
    [.begin ⟨"pro", 1, "second"⟩, .read 1 0 0, .begin ⟨"pro", 1, "third"⟩, .read 2 0 0,
      .advance 1, .advance 1, .advance 1, .advance 1, .commit 1 none,
      .advance 2, .advance 2, .advance 2, .advance 2, .commit 2 none]

/-- The later one writes the expiry it had computed, and the days of the other are lost. -/
theorem overlapping_grants_lose_days :
    ∃ desk first later, Reachable (Desk.step crmSettings) (fun _ _ => True) {} desk ∧
      desk.applied = first :: later ∧ ¬ desk.Summed {} first := by
  obtain ⟨desk, reached, tested⟩ := reachable_of_any (Desk.step crmSettings) (fun _ _ => True) {}
    (unsummed [0, 0, 0] (2 * dayLength)) overlapping (by decide)
  obtain ⟨first, later, listed, differs⟩ := not_summed_of_unsummed tested (by decide)
  exact ⟨desk, first, later, reached, listed, differs⟩

end Sample

end Hermes.Billing
