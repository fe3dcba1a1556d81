import Hermes.Auth.Identities

/-!
# Apple identities and users

A sign-in which finds its device known locks the row before it asks whether the user is linked
already, and one which inserts the device holds its key; two sign-ins on one device therefore ask
one after the other.  Only a call which lost the insertion asks without a lock.
-/

namespace Hermes.Auth

def Registry.Linked (registry : Registry) (user : Nat) : Prop :=
  ∃ subject, (subject, user) ∈ registry.identities

/-- A call which lost the insertion of its device does not find the user of the device unlinked. -/
def Registry.candid (registry : Registry) : AuthEvent → Bool
  | .advance index =>
      (registry.calls[index]?).all fun call =>
        match call.stage, call.purpose with
        | .settled user, .apple _ => call.locked || registry.hasApple user
        | _, _ => true
  | _ => true

def Stage.user : Stage → Option Nat
  | seen user | settled user | linking user | resolved user | bound user => some user
  | lookup | search | unseen | lost | linked | finished _ => none

namespace AuthCall

/-- A call has a user in hand, or has written one. -/
def Mentions (call : AuthCall) (user : Nat) : Prop :=
  call.stage.user = some user ∨ call.ownDevice = some user ∨ call.ownIdentity = some user

/-- The user a call is about to link to its subject, or has linked without a commit. -/
def intends (call : AuthCall) : Option Nat :=
  match call.stage with
  | .linking user => some user
  | _ => call.ownIdentity

theorem mentions_of_intends {call : AuthCall} {user : Nat} (intends : call.intends = some user) :
    call.Mentions user := by
  unfold AuthCall.intends at intends
  split at intends
  next found stage => exact .inl (by rw [stage]; exact intends)
  · exact .inr (.inr intends)

theorem intends_eq {call : AuthCall} (unlinking : ∀ user, call.stage ≠ .linking user) :
    call.intends = call.ownIdentity := by
  unfold AuthCall.intends
  split
  next user same => exact absurd same (unlinking user)
  · rfl

theorem not_mentions_ended (call : AuthCall) (result : Option Nat) (user : Nat) :
    ¬ (call.ended result).Mentions user := by
  rintro (stage | device | identity)
  · cases stage
  · cases device
  · cases identity

end AuthCall

namespace Registry

/-- A device leads to a user: by its row, or through a call at work on it. -/
def Leads (registry : Registry) (user : Nat) (device : String) : Prop :=
  registry.devices device = some user ∨
    ∃ call ∈ registry.calls, call.device = device ∧ call.Mentions user

def Sole (registry : Registry) (index user : Nat) : Prop :=
  (∀ device, registry.devices device ≠ some user) ∧
    ∀ (other : Nat) (call : AuthCall), other ≠ index → registry.calls[other]? = some call →
      ¬ call.Mentions user

/-- Tables without calls: subjects and users are paired, and a user who is not linked has one device
at most. -/
structure Settled (registry : Registry) : Prop where
  calls : registry.calls = []
  subjects : (registry.identities.map Prod.fst).Nodup
  users : (registry.identities.map Prod.snd).Nodup
  made : ∀ user, registry.Linked user → user < registry.users
  known : ∀ device user, registry.devices device = some user → user < registry.users
  led : ∀ user device other, ¬ registry.Linked user → registry.devices device = some user →
    registry.devices other = some user → device = other

/-- What holds between the tables and the calls. -/
structure Paired (registry : Registry) : Prop where
  subjects : (registry.identities.map Prod.fst).Nodup
  users : (registry.identities.map Prod.snd).Nodup
  made : ∀ user, registry.Linked user → user < registry.users
  known : ∀ user device, registry.Leads user device → user < registry.users
  led : ∀ user device other, ¬ registry.Linked user → registry.Leads user device →
    registry.Leads user other → device = other
  lock : ∀ (index other : Nat) (call found : AuthCall), registry.calls[index]? = some call →
    registry.calls[other]? = some found → call.locked = true → found.locked = true →
    call.device = found.device → index = other
  intent : ∀ (index : Nat) (call : AuthCall) (user : Nat), registry.calls[index]? = some call →
    call.intends = some user →
    ¬ registry.Linked user ∧ (call.locked = true ∨ registry.Sole index user)
  pending : ∀ (index : Nat) (call : AuthCall) (user : Nat), registry.calls[index]? = some call →
    call.ownIdentity = some user →
    ∃ subject, call.purpose = .apple subject ∧ registry.identity subject = none ∧
      ∀ (other : Nat) (found : AuthCall), other ≠ index → registry.calls[other]? = some found →
        found.purpose = .apple subject → found.ownIdentity = none
  inserted : ∀ call ∈ registry.calls, call.ownDevice ≠ none →
    call.locked = true ∧ (call.purpose = .register → registry.devices call.device = none)
  bound : ∀ call ∈ registry.calls, ∀ user, call.stage = .bound user → call.ownDevice = some user

theorem linked_of_identity {registry : Registry} {subject : String} {user : Nat}
    (found : registry.identity subject = some user) : registry.Linked user := by
  unfold identity at found
  obtain ⟨before, after, split, -⟩ := List.lookup_eq_some_iff.mp found
  exact ⟨subject, by rw [split]; simp⟩

theorem hasApple_iff {registry : Registry} {user : Nat} :
    registry.hasApple user = true ↔ registry.Linked user := by
  simp only [hasApple, List.any_eq_true, beq_iff_eq, Linked]
  constructor
  · rintro ⟨⟨subject, found⟩, member, rfl⟩
    exact ⟨subject, member⟩
  · rintro ⟨subject, member⟩
    exact ⟨(subject, user), member, rfl⟩

theorem not_locked_of_deviceLocked {registry : Registry} {index other : Nat} {device : String}
    {call : AuthCall} (free : registry.deviceLocked index device = false)
    (present : registry.calls[other]? = some call) (apart : other ≠ index)
    (same : call.device = device) : call.locked = false := by
  by_contra locked
  have found : registry.deviceLocked index device = true := by
    refine List.any_eq_true.mpr ⟨(call, other), List.mem_zipIdx_iff_getElem?.mpr present, ?_⟩
    simp [apart, same, Bool.not_eq_false _ ▸ locked]
  rw [free] at found
  cases found

theorem ownIdentity_of_subjectLocked {registry : Registry} {index other : Nat} {subject : String}
    {call : AuthCall} (free : registry.subjectLocked index subject = false)
    (present : registry.calls[other]? = some call) (apart : other ≠ index)
    (same : call.purpose = .apple subject) : call.ownIdentity = none := by
  by_contra own
  have found : registry.subjectLocked index subject = true := by
    refine List.any_eq_true.mpr ⟨(call, other), List.mem_zipIdx_iff_getElem?.mpr present, ?_⟩
    simp [apart, same, Option.isSome_iff_ne_none.mpr own]
  rw [free] at found
  cases found

/-- A call has gone on by a statement which commits nothing. -/
structure Turned (registry after : Registry) (index : Nat) (call next : AuthCall) : Prop where
  present : registry.calls[index]? = some call
  calls : after.calls = registry.calls.set index next
  devices : after.devices = registry.devices
  identities : after.identities = registry.identities
  users : registry.users ≤ after.users
  device : next.device = call.device
  purpose : next.purpose = call.purpose
  mentions : ∀ user, next.Mentions user → call.Mentions user ∨
    registry.devices call.device = some user ∨ registry.Linked user ∨
      user = registry.users ∧ registry.users < after.users
  locked : next.locked = true → call.locked = true ∨
    registry.deviceLocked index call.device = false
  intent : ∀ user, next.intends = some user →
    (call.intends = some user ∧ (call.locked = true → next.locked = true)) ∨
      ¬ registry.Linked user ∧ (next.locked = true ∨ user = registry.users)
  pending : ∀ user, next.ownIdentity = some user → call.ownIdentity = some user ∨
    ∃ subject, call.purpose = .apple subject ∧ registry.identity subject = none ∧
      registry.subjectLocked index subject = false
  inserted : next.ownDevice ≠ none →
    next.locked = true ∧ (call.purpose = .register → registry.devices call.device = none)
  bound : ∀ user, next.stage = .bound user → next.ownDevice = some user

namespace Turned

variable {registry after : Registry} {index : Nat} {call next : AuthCall}

theorem linked (turned : registry.Turned after index call next) (user : Nat) :
    after.Linked user ↔ registry.Linked user := by
  simp only [Linked, turned.identities]

theorem identity (turned : registry.Turned after index call next) (subject : String) :
    after.identity subject = registry.identity subject := by
  simp only [Registry.identity, turned.identities]

theorem calls_cases (turned : registry.Turned after index call next) {other : Nat}
    {found : AuthCall} (at_after : after.calls[other]? = some found) :
    other = index ∧ found = next ∨ other ≠ index ∧ registry.calls[other]? = some found := by
  rw [turned.calls] at at_after
  exact getElem?_set_cases at_after

/-- A device which leads to a user did so before, or the user was just made by the call. -/
theorem leads (turned : registry.Turned after index call next) {user : Nat} {device : String}
    (leading : after.Leads user device) : registry.Leads user device ∨ registry.Linked user ∨
      user = registry.users ∧ device = call.device ∧ registry.users < after.users := by
  rcases leading with row | ⟨found, at_after, same, mentioned⟩
  · rw [turned.devices] at row
    exact .inl (.inl row)
  · rcases List.mem_or_eq_of_mem_set (turned.calls ▸ at_after) with old | rfl
    · exact .inl (.inr ⟨found, old, same, mentioned⟩)
    · rcases turned.mentions user mentioned with before | row | linked | ⟨new, made⟩
      · exact .inl (.inr
          ⟨call, List.mem_of_getElem? turned.present, turned.device.symm.trans same, before⟩)
      · exact .inl (.inl (by rw [← same, turned.device]; exact row))
      · exact .inr (.inl linked)
      · exact .inr (.inr ⟨new, same.symm.trans turned.device, made⟩)

theorem led (turned : registry.Turned after index call next) (paired : registry.Paired)
    (user : Nat) (first second : String) (unlinked : ¬ after.Linked user)
    (leading : after.Leads user first) (leading' : after.Leads user second) : first = second := by
  have unlinked : ¬ registry.Linked user := fun is_linked =>
    unlinked ((turned.linked user).mpr is_linked)
  rcases turned.leads leading with old | is_linked | ⟨new, at_device, -⟩
  · rcases turned.leads leading' with old' | is_linked | ⟨new', -⟩
    · exact paired.led user first second unlinked old old'
    · exact absurd is_linked unlinked
    · exact absurd (paired.known user first old) (by rw [new']; exact Nat.lt_irrefl _)
  · exact absurd is_linked unlinked
  · rcases turned.leads leading' with old' | is_linked | ⟨-, at_device', -⟩
    · exact absurd (paired.known user second old') (by rw [new]; exact Nat.lt_irrefl _)
    · exact absurd is_linked unlinked
    · exact at_device.trans at_device'.symm

/-- While the call holds its device, no other call does. -/
theorem unheld (turned : registry.Turned after index call next) (paired : registry.Paired)
    (held : next.locked = true) {other : Nat} {found : AuthCall} (apart : other ≠ index)
    (old : registry.calls[other]? = some found) (same : found.device = call.device) :
    found.locked = false := by
  rcases turned.locked held with before | free
  · by_contra held'
    rw [Bool.not_eq_false] at held'
    exact apart (paired.lock _ _ _ _ old turned.present held' before same)
  · exact not_locked_of_deviceLocked free old apart same

theorem lock (turned : registry.Turned after index call next) (paired : registry.Paired)
    (first second : Nat) (found found' : AuthCall) (at_first : after.calls[first]? = some found)
    (at_second : after.calls[second]? = some found') (held : found.locked = true)
    (held' : found'.locked = true) (same : found.device = found'.device) : first = second := by
  rcases turned.calls_cases at_first with ⟨rfl, rfl⟩ | ⟨apart, old⟩
  · rcases turned.calls_cases at_second with ⟨rfl, rfl⟩ | ⟨apart', old'⟩
    · rfl
    · have unheld := turned.unheld paired held apart' old' (same.symm.trans turned.device)
      rw [held'] at unheld
      cases unheld
  · rcases turned.calls_cases at_second with ⟨rfl, rfl⟩ | ⟨apart', old'⟩
    · have unheld := turned.unheld paired held' apart old (same.trans turned.device)
      rw [held] at unheld
      cases unheld
    · exact paired.lock _ _ _ _ old old' held held' same

/-- A user nobody else knew of stays unknown to them. -/
theorem sole (turned : registry.Turned after index call next) {which user : Nat}
    (former : registry.Sole which user) (other : which ≠ index → ¬ next.Mentions user) :
    after.Sole which user := by
  refine ⟨fun device => by rw [turned.devices]; exact former.1 device, ?_⟩
  intro other' found apart at_other
  rcases turned.calls_cases at_other with ⟨rfl, rfl⟩ | ⟨-, old⟩
  · exact other (fun same => apart same.symm)
  · exact former.2 other' found apart old

theorem sole_new (paired : registry.Paired) : registry.Sole index registry.users := by
  have unknown (device : String) : ¬ registry.Leads registry.users device := fun leading =>
    absurd (paired.known _ device leading) (Nat.lt_irrefl _)
  refine ⟨fun device row => unknown device (.inl row), ?_⟩
  intro other found _ at_other mentioned
  exact unknown found.device (.inr ⟨found, List.mem_of_getElem? at_other, rfl, mentioned⟩)

theorem kept_intent (turned : registry.Turned after index call next) (paired : registry.Paired)
    (at_index : Nat) (found : AuthCall) (user : Nat)
    (at_after : after.calls[at_index]? = some found) (intends : found.intends = some user) :
    ¬ after.Linked user ∧ (found.locked = true ∨ after.Sole at_index user) := by
  rw [turned.linked]
  rcases turned.calls_cases at_after with ⟨rfl, rfl⟩ | ⟨apart, old⟩
  · rcases turned.intent user intends with ⟨before, kept⟩ | ⟨unlinked, hold⟩
    · obtain ⟨unlinked, hold⟩ := paired.intent _ _ _ turned.present before
      refine ⟨unlinked, hold.imp kept fun former => ?_⟩
      exact turned.sole former fun apart => absurd rfl apart
    · refine ⟨unlinked, hold.imp_right ?_⟩
      rintro rfl
      exact turned.sole (sole_new paired) fun apart => absurd rfl apart
  · obtain ⟨unlinked, hold⟩ := paired.intent _ _ _ old intends
    refine ⟨unlinked, hold.imp_right fun former => turned.sole former fun _ mentioned => ?_⟩
    rcases turned.mentions user mentioned with before | row | is_linked | ⟨new, -⟩
    · exact former.2 index call (fun same => apart same.symm) turned.present before
    · exact former.1 call.device row
    · exact unlinked is_linked
    · have leading : registry.Leads user found.device :=
        .inr ⟨found, List.mem_of_getElem? old, rfl, AuthCall.mentions_of_intends intends⟩
      exact absurd (paired.known user _ leading) (by rw [new]; exact Nat.lt_irrefl _)

/-- No other call has written an identity for the subject of the call. -/
theorem unwritten (turned : registry.Turned after index call next) (paired : registry.Paired)
    {user : Nat} (own : next.ownIdentity = some user) :
    ∃ subject, next.purpose = .apple subject ∧ registry.identity subject = none ∧
      ∀ (other : Nat) (found : AuthCall), other ≠ index → registry.calls[other]? = some found →
        found.purpose = .apple subject → found.ownIdentity = none := by
  rcases turned.pending user own with before | ⟨subject, apple, absent, free⟩
  · obtain ⟨subject, apple, absent, alone⟩ := paired.pending _ _ _ turned.present before
    exact ⟨subject, turned.purpose.trans apple, absent, alone⟩
  · exact ⟨subject, turned.purpose.trans apple, absent, fun other found apart old same =>
      ownIdentity_of_subjectLocked free old apart same⟩

theorem kept_pending (turned : registry.Turned after index call next) (paired : registry.Paired)
    (at_index : Nat) (found : AuthCall) (user : Nat)
    (at_after : after.calls[at_index]? = some found) (own : found.ownIdentity = some user) :
    ∃ subject, found.purpose = .apple subject ∧ after.identity subject = none ∧
      ∀ (other : Nat) (found' : AuthCall), other ≠ at_index → after.calls[other]? = some found' →
        found'.purpose = .apple subject → found'.ownIdentity = none := by
  rcases turned.calls_cases at_after with ⟨rfl, rfl⟩ | ⟨apart, old⟩
  · obtain ⟨subject, apple, absent, alone⟩ := turned.unwritten paired own
    refine ⟨subject, apple, (turned.identity subject).trans absent, ?_⟩
    intro other found' apart at_other same
    rcases turned.calls_cases at_other with ⟨rfl, -⟩ | ⟨-, old⟩
    · exact absurd rfl apart
    · exact alone other found' apart old same
  · obtain ⟨subject, apple, absent, alone⟩ := paired.pending _ _ _ old own
    refine ⟨subject, apple, (turned.identity subject).trans absent, ?_⟩
    intro other found' apart' at_other same
    rcases turned.calls_cases at_other with ⟨rfl, rfl⟩ | ⟨-, old'⟩
    · cases fresh : found'.ownIdentity with
      | none => rfl
      | some user' =>
          obtain ⟨subject', apple', -, alone'⟩ := turned.unwritten paired fresh
          cases apple'.symm.trans same
          have idle := alone' _ _ apart old apple
          rw [own] at idle
          cases idle
    · exact alone other found' apart' old' same

end Turned

namespace Paired

variable {registry after : Registry}

theorem turn (paired : registry.Paired) {index : Nat} {call next : AuthCall}
    (turned : registry.Turned after index call next) : after.Paired := by
  constructor
  case subjects => rw [turned.identities]; exact paired.subjects
  case users => rw [turned.identities]; exact paired.users
  case made =>
      intro user is_linked
      exact Nat.lt_of_lt_of_le (paired.made user ((turned.linked user).mp is_linked)) turned.users
  case known =>
      intro user device leading
      rcases turned.leads leading with old | is_linked | ⟨rfl, -, made⟩
      · exact Nat.lt_of_lt_of_le (paired.known user device old) turned.users
      · exact Nat.lt_of_lt_of_le (paired.made user is_linked) turned.users
      · exact made
  case led => exact turned.led paired
  case lock => exact turned.lock paired
  case intent => exact turned.kept_intent paired
  case pending => exact turned.kept_pending paired
  case inserted =>
      intro found at_after own
      rw [turned.devices]
      rcases List.mem_or_eq_of_mem_set (turned.calls ▸ at_after) with old | rfl
      · exact paired.inserted found old own
      · rw [turned.device, turned.purpose]
        exact turned.inserted own
  case bound =>
      intro found at_after
      rcases List.mem_or_eq_of_mem_set (turned.calls ▸ at_after) with old | rfl
      · exact paired.bound found old
      · exact turned.bound

theorem drop (paired : registry.Paired) {index : Nat} {call : AuthCall}
    (present : registry.calls[index]? = some call) (result : Option Nat) :
    (registry.become index (call.ended result)).Paired := by
  refine paired.turn ⟨present, rfl, rfl, rfl, Nat.le_refl _, rfl, rfl, ?_, nofun, nofun, nofun, ?_,
    nofun⟩
  · intro user mentioned
    exact absurd mentioned (call.not_mentions_ended result user)
  · intro own
    exact absurd rfl own

theorem intent_unique (paired : registry.Paired) {index other : Nat} {call found : AuthCall}
    {user : Nat} (present : registry.calls[index]? = some call)
    (at_other : registry.calls[other]? = some found) (intends : call.intends = some user)
    (intends' : found.intends = some user) : index = other := by
  by_contra apart
  have mentioned := AuthCall.mentions_of_intends intends
  have mentioned' := AuthCall.mentions_of_intends intends'
  obtain ⟨unlinked, hold⟩ := paired.intent _ _ _ present intends
  obtain ⟨-, hold'⟩ := paired.intent _ _ _ at_other intends'
  rcases hold with locked | sole
  · rcases hold' with locked' | sole'
    · have same := paired.led user call.device found.device unlinked
        (.inr ⟨call, List.mem_of_getElem? present, rfl, mentioned⟩)
        (.inr ⟨found, List.mem_of_getElem? at_other, rfl, mentioned'⟩)
      exact apart (paired.lock _ _ _ _ present at_other locked locked' same)
    · exact sole'.2 index call apart present mentioned
  · exact sole.2 other found (fun same => apart same.symm) at_other mentioned'

theorem devices_commit {call : AuthCall} {device : String} {user : Nat}
    (row : (registry.commit call).devices device = some user) :
    registry.devices device = some user ∧ (device ≠ call.device ∨ call.ownDevice = none) ∨
      device = call.device ∧ call.ownDevice = some user := by
  cases own : call.ownDevice with
  | none =>
      simp only [commit, own] at row
      exact .inl ⟨row, .inr rfl⟩
  | some written =>
      simp only [commit, own] at row
      by_cases same : device = call.device
      · subst same
        rw [Function.update_self] at row
        exact .inr ⟨rfl, row⟩
      · rw [Function.update_of_ne same] at row
        exact .inl ⟨row, .inl same⟩

theorem identities_commit (paired : registry.Paired) {index : Nat} {call : AuthCall}
    (present : registry.calls[index]? = some call) :
    (call.ownIdentity = none ∧ (registry.commit call).identities = registry.identities) ∨
      ∃ subject user, call.purpose = .apple subject ∧ call.ownIdentity = some user ∧
        (registry.commit call).identities = registry.identities ++ [(subject, user)] := by
  cases own : call.ownIdentity with
  | none =>
      left
      refine ⟨rfl, ?_⟩
      cases purpose : call.purpose <;> simp only [commit, own, purpose]
  | some user =>
      right
      obtain ⟨subject, apple, -⟩ := paired.pending _ _ _ present own
      exact ⟨subject, user, apple, rfl, by simp only [commit, own, apple]⟩

section Commit

variable {index : Nat} {call : AuthCall}

theorem linked_commit (paired : registry.Paired) (present : registry.calls[index]? = some call)
    {user : Nat} (is_linked : registry.Linked user) : (registry.commit call).Linked user := by
  obtain ⟨subject, row⟩ := is_linked
  refine ⟨subject, ?_⟩
  rcases paired.identities_commit present with ⟨-, same⟩ | ⟨subject', user', -, -, more⟩
  · rw [same]
    exact row
  · rw [more]
    exact List.mem_append_left _ row

theorem linked_or_own (paired : registry.Paired) (present : registry.calls[index]? = some call)
    {user : Nat} (is_linked : (registry.commit call).Linked user) :
    registry.Linked user ∨ call.ownIdentity = some user := by
  obtain ⟨subject, row⟩ := is_linked
  rcases paired.identities_commit present with ⟨-, same⟩ | ⟨subject', user', -, own, more⟩
  · rw [same] at row
    exact .inl ⟨subject, row⟩
  · rw [more] at row
    rcases List.mem_append.mp row with old | new
    · exact .inl ⟨subject, old⟩
    · rw [List.mem_singleton] at new
      cases new
      exact .inr own

theorem leads_of_commit (present : registry.calls[index]? = some call) {result : Option Nat}
    {user : Nat} {device : String}
    (leading : ((registry.commit call).become index (call.ended result)).Leads user device) :
    registry.Leads user device := by
  rcases leading with row | ⟨found, at_after, same, mentioned⟩
  · rcases devices_commit row with ⟨row, -⟩ | ⟨rfl, own⟩
    · exact .inl row
    · exact .inr ⟨call, List.mem_of_getElem? present, rfl, .inr (.inl own)⟩
  · rcases List.mem_or_eq_of_mem_set at_after with old | rfl
    · exact .inr ⟨found, old, same, mentioned⟩
    · exact absurd mentioned (call.not_mentions_ended result user)

theorem subjects_commit (paired : registry.Paired) (present : registry.calls[index]? = some call) :
    ((registry.commit call).identities.map Prod.fst).Nodup := by
  rcases paired.identities_commit present with ⟨-, same⟩ | ⟨subject, user, apple, own, more⟩
  · rw [same]
    exact paired.subjects
  · obtain ⟨subject', apple', absent, -⟩ := paired.pending _ _ _ present own
    cases apple.symm.trans apple'
    rw [more, List.map_append, List.map_singleton]
    refine List.nodup_append.mpr ⟨paired.subjects, List.nodup_singleton _, ?_⟩
    intro subject' listed other single
    rw [List.mem_singleton] at single
    subst single
    rintro rfl
    obtain ⟨row, at_row, rfl⟩ := List.mem_map.mp listed
    have other := List.lookup_eq_none_iff.mp absent row at_row
    simp at other

theorem users_commit (paired : registry.Paired) (present : registry.calls[index]? = some call)
    (intends : call.intends = call.ownIdentity) :
    ((registry.commit call).identities.map Prod.snd).Nodup := by
  rcases paired.identities_commit present with ⟨-, same⟩ | ⟨subject, user, apple, own, more⟩
  · rw [same]
    exact paired.users
  · obtain ⟨unlinked, -⟩ := paired.intent _ _ _ present (intends.trans own)
    rw [more, List.map_append, List.map_singleton]
    refine List.nodup_append.mpr ⟨paired.users, List.nodup_singleton _, ?_⟩
    intro user' listed other single
    rw [List.mem_singleton] at single
    subst single
    rintro rfl
    obtain ⟨row, at_row, rfl⟩ := List.mem_map.mp listed
    exact unlinked ⟨row.1, at_row⟩

/-- A subject for which another call has written an identity is not the one of the call. -/
theorem identity_commit (paired : registry.Paired) (present : registry.calls[index]? = some call)
    {subject : String} (absent : registry.identity subject = none)
    (unwritten : call.purpose = .apple subject → call.ownIdentity = none) :
    (registry.commit call).identity subject = none := by
  rcases paired.identities_commit present with ⟨-, same⟩ | ⟨subject', user, apple, own, more⟩
  · rw [identity, same]
    exact absent
  · have other : subject ≠ subject' := by
      rintro rfl
      rw [unwritten apple] at own
      cases own
    have missing : List.lookup subject registry.identities = none := absent
    rw [identity, more, List.lookup_append]
    simp [missing, other]

theorem sole_commit (present : registry.calls[index]? = some call) {result : Option Nat}
    {which user : Nat} (apart : which ≠ index) (sole : registry.Sole which user) :
    ((registry.commit call).become index (call.ended result)).Sole which user := by
  refine ⟨fun device row => ?_, fun other found apart' at_other mentioned => ?_⟩
  · rcases devices_commit row with ⟨row, -⟩ | ⟨-, own⟩
    · exact sole.1 device row
    · exact sole.2 index call (fun same => apart same.symm) present (.inr (.inl own))
  · rcases getElem?_set_cases at_other with ⟨-, rfl⟩ | ⟨-, old⟩
    · exact call.not_mentions_ended result user mentioned
    · exact sole.2 other found apart' old mentioned

/-- Two calls with the same device would both hold it, so the one which commits is at work on
another. -/
theorem devices_commit_absent (paired : registry.Paired)
    (present : registry.calls[index]? = some call) {other : Nat} {found : AuthCall}
    (apart : other ≠ index) (old : registry.calls[other]? = some found)
    (locked : found.locked = true) (absent : registry.devices found.device = none) :
    (registry.commit call).devices found.device = none := by
  by_contra row
  obtain ⟨user, row⟩ := Option.ne_none_iff_exists'.mp row
  rcases devices_commit row with ⟨row, -⟩ | ⟨same, own⟩
  · rw [absent] at row
    cases row
  · obtain ⟨locked', -⟩ := paired.inserted call (List.mem_of_getElem? present) (by simp [own])
    exact apart (paired.lock _ _ _ _ old present locked locked' same)

theorem commits (paired : registry.Paired) (present : registry.calls[index]? = some call)
    (intends : call.intends = call.ownIdentity) (result : Option Nat) :
    ((registry.commit call).become index (call.ended result)).Paired := by
  constructor
  case subjects => exact paired.subjects_commit present
  case users => exact paired.users_commit present intends
  case made =>
      intro user is_linked
      rcases paired.linked_or_own present is_linked with old | own
      · exact paired.made user old
      · exact paired.known user call.device
          (.inr ⟨call, List.mem_of_getElem? present, rfl, .inr (.inr own)⟩)
  case known =>
      exact fun user device leading => paired.known user device (leads_of_commit present leading)
  case led =>
      intro user first second unlinked leading leading'
      exact paired.led user first second
        (fun is_linked => unlinked (paired.linked_commit present is_linked))
        (leads_of_commit present leading) (leads_of_commit present leading')
  case lock =>
      intro first second found found' at_first at_second held held' same
      rcases getElem?_set_cases at_first with ⟨-, rfl⟩ | ⟨-, old⟩
      · cases held
      · rcases getElem?_set_cases at_second with ⟨-, rfl⟩ | ⟨-, old'⟩
        · cases held'
        · exact paired.lock _ _ _ _ old old' held held' same
  case intent =>
      intro at_index found user at_after intends'
      rcases getElem?_set_cases at_after with ⟨-, rfl⟩ | ⟨apart, old⟩
      · cases intends'
      · obtain ⟨unlinked, hold⟩ := paired.intent _ _ _ old intends'
        refine ⟨fun is_linked => ?_, hold.imp_right (sole_commit present apart)⟩
        rcases paired.linked_or_own present is_linked with before | own
        · exact unlinked before
        · exact apart (paired.intent_unique old present intends' (intends.trans own))
  case pending =>
      intro at_index found user at_after own
      rcases getElem?_set_cases at_after with ⟨-, rfl⟩ | ⟨apart, old⟩
      · cases own
      · obtain ⟨subject, apple, absent, alone⟩ := paired.pending _ _ _ old own
        refine ⟨subject, apple, paired.identity_commit present absent
          (alone _ _ (fun same => apart same.symm) present), ?_⟩
        intro other found' apart' at_other same
        rcases getElem?_set_cases at_other with ⟨-, rfl⟩ | ⟨-, old'⟩
        · rfl
        · exact alone other found' apart' old' same
  case inserted =>
      intro found at_after own
      obtain ⟨other, at_other⟩ := List.mem_iff_getElem?.mp at_after
      rcases getElem?_set_cases at_other with ⟨-, rfl⟩ | ⟨apart, old⟩
      · exact absurd rfl own
      · obtain ⟨locked, absent⟩ := paired.inserted found (List.mem_of_getElem? old) own
        exact ⟨locked, fun register =>
          paired.devices_commit_absent present apart old locked (absent register)⟩
  case bound =>
      intro found at_after
      rcases List.mem_or_eq_of_mem_set at_after with old | rfl
      · exact paired.bound found old
      · exact nofun

end Commit

theorem read (paired : registry.Paired) {index : Nat} {call : AuthCall} {stage : Stage}
    (present : registry.calls[index]? = some call)
    (users : registry.users ≤ after.users)
    (calls : after.calls = registry.calls.set index { call with stage })
    (devices : after.devices = registry.devices)
    (identities : after.identities = registry.identities)
    (known : ∀ user, stage.user = some user → call.Mentions user ∨
      registry.devices call.device = some user ∨ registry.Linked user ∨
        user = registry.users ∧ registry.users < after.users)
    (linking : ∀ user, stage = .linking user → ¬ registry.Linked user ∧
      (call.locked = true ∨ user = registry.users))
    (settled : ∀ user, call.stage ≠ .linking user) (bound : ∀ user, stage ≠ .bound user) :
    after.Paired := by
  have own := AuthCall.intends_eq settled
  refine paired.turn ⟨present, calls, devices, identities, users, rfl, rfl, ?_, .inl, ?_,
    fun _ => .inl, paired.inserted call (List.mem_of_getElem? present),
    fun user same => absurd same (bound user)⟩
  · rintro user (in_hand | written | linked)
    · exact known user in_hand
    · exact .inl (.inr (.inl written))
    · exact .inl (.inr (.inr linked))
  · intro user intends
    unfold AuthCall.intends at intends
    split at intends
    next found same =>
      cases intends
      exact .inr (linking _ same)
    · exact .inl ⟨own.trans intends, id⟩

section Advance

variable {index : Nat} {call : AuthCall}

theorem advance_lookup (paired : registry.Paired) (present : registry.calls[index]? = some call)
    (stage : call.stage = .lookup) (advanced : registry.advance index call = some after) :
    after.Paired := by
  have settled (user : Nat) : call.stage ≠ .linking user := by simp [stage]
  simp only [Registry.advance, stage] at advanced
  split at advanced
  · cases advanced
  · split at advanced <;> cases advanced
    next found =>
      refine paired.read present (Nat.le_refl _) rfl rfl rfl ?_ nofun settled nofun
      intro user same
      cases same
      exact .inr (.inr (.inl (linked_of_identity found)))
    · exact paired.read present (Nat.le_refl _) rfl rfl rfl nofun nofun settled nofun

theorem advance_search (paired : registry.Paired) (present : registry.calls[index]? = some call)
    (stage : call.stage = .search) (advanced : registry.advance index call = some after) :
    after.Paired := by
  have settled (user : Nat) : call.stage ≠ .linking user := by simp [stage]
  simp only [Registry.advance, stage] at advanced
  split at advanced <;> cases advanced
  next row =>
    refine paired.read present (Nat.le_refl _) rfl rfl rfl ?_ nofun settled nofun
    intro user same
    cases same
    exact .inr (.inl row)
  · exact paired.read present (Nat.le_refl _) rfl rfl rfl nofun nofun settled nofun

theorem advance_seen (paired : registry.Paired) (present : registry.calls[index]? = some call)
    {user : Nat} (stage : call.stage = .seen user)
    (advanced : registry.advance index call = some after) : after.Paired := by
  have member := List.mem_of_getElem? present
  simp only [Registry.advance, stage] at advanced
  split at advanced <;> cases advanced
  next free =>
    have own : call.intends = call.ownIdentity := by simp [AuthCall.intends, stage]
    refine paired.turn ⟨present, rfl, rfl, rfl, Nat.le_refl _, rfl, rfl, ?_,
      fun _ => .inr (by simpa using free), ?_, fun _ => .inl, ?_, nofun⟩
    · rintro other (in_hand | written | linked)
      · exact .inl (.inl (by rw [stage]; exact in_hand))
      · exact .inl (.inr (.inl written))
      · exact .inl (.inr (.inr linked))
    · exact fun other intends => .inl ⟨own.trans intends, fun _ => rfl⟩
    · exact fun written => ⟨rfl, (paired.inserted call member written).2⟩

theorem advance_unseen (paired : registry.Paired) (present : registry.calls[index]? = some call)
    (stage : call.stage = .unseen) (advanced : registry.advance index call = some after) :
    after.Paired := by
  have settled (user : Nat) : call.stage ≠ .linking user := by simp [stage]
  simp only [Registry.advance, stage] at advanced
  split at advanced
  · cases advanced
    exact paired.read present (Nat.le_succ _) rfl rfl rfl nofun nofun settled nofun
  next absent =>
    split at advanced <;> cases advanced
    next free =>
      have own : call.intends = call.ownIdentity := by simp [AuthCall.intends, stage]
      refine paired.turn ⟨present, rfl, rfl, rfl, Nat.le_succ _, rfl, rfl, ?_,
        fun _ => .inr (by simpa using free), ?_, fun _ => .inl, fun _ => ⟨rfl, fun _ => absent⟩,
        nofun⟩
      · rintro other (in_hand | written | linked)
        · cases in_hand
          exact .inr (.inr (.inr ⟨rfl, Nat.lt_succ_self _⟩))
        · cases written
          exact .inr (.inr (.inr ⟨rfl, Nat.lt_succ_self _⟩))
        · exact .inl (.inr (.inr linked))
      · exact fun other intends => .inl ⟨own.trans intends, fun _ => rfl⟩

theorem advance_lost (paired : registry.Paired) (present : registry.calls[index]? = some call)
    (stage : call.stage = .lost) (advanced : registry.advance index call = some after) :
    after.Paired := by
  have settled (user : Nat) : call.stage ≠ .linking user := by simp [stage]
  simp only [Registry.advance, stage] at advanced
  split at advanced <;> cases advanced
  next row =>
    refine paired.read present (Nat.le_refl _) rfl rfl rfl ?_ nofun settled nofun
    intro user same
    cases same
    exact .inr (.inl row)
  · exact paired.drop present none

theorem advance_settled (paired : registry.Paired) (present : registry.calls[index]? = some call)
    (candid : registry.candid (.advance index) = true) {user : Nat}
    (stage : call.stage = .settled user) (advanced : registry.advance index call = some after) :
    after.Paired := by
  have settled (user : Nat) : call.stage ≠ .linking user := by simp [stage]
  have own := AuthCall.intends_eq settled
  simp only [Registry.advance, stage] at advanced
  split at advanced
  · cases advanced
    exact paired.commits present own _
  next subject apple =>
    split at advanced <;> cases advanced
    · refine paired.read present (Nat.le_succ _) rfl rfl rfl ?_ ?_ settled nofun
      · intro other same
        cases same
        exact .inr (.inr (.inr ⟨rfl, Nat.lt_succ_self _⟩))
      · intro other same
        cases same
        refine ⟨fun is_linked => ?_, .inr rfl⟩
        exact absurd (paired.made _ is_linked) (Nat.lt_irrefl _)
    next unlinked =>
      refine paired.read present (Nat.le_refl _) rfl rfl rfl ?_ ?_ settled nofun
      · intro other same
        cases same
        exact .inl (.inl (by rw [stage]; rfl))
      · intro other same
        cases same
        refine ⟨fun is_linked => unlinked (hasApple_iff.mpr is_linked), .inl ?_⟩
        simpa [Registry.candid, present, stage, apple, unlinked] using candid

theorem advance_linking (paired : registry.Paired) (present : registry.calls[index]? = some call)
    {user : Nat} (stage : call.stage = .linking user)
    (advanced : registry.advance index call = some after) : after.Paired := by
  have member := List.mem_of_getElem? present
  have own : call.intends = some user := by simp [AuthCall.intends, stage]
  simp only [Registry.advance, stage] at advanced
  split at advanced
  · cases advanced
  next subject apple =>
    split at advanced
    next taken =>
      cases advanced
      have unwritten : call.ownIdentity = none := by
        cases written : call.ownIdentity with
        | none => rfl
        | some other =>
            obtain ⟨subject', apple', absent, -⟩ := paired.pending _ _ _ present written
            cases apple.symm.trans apple'
            rw [absent] at taken
            cases taken
      refine paired.turn ⟨present, rfl, rfl, rfl, Nat.le_refl _, rfl, rfl, ?_, .inl, ?_,
        fun _ => .inl, paired.inserted call member, nofun⟩
      · rintro other (in_hand | written | linked)
        · cases in_hand
        · exact .inl (.inr (.inl written))
        · exact .inl (.inr (.inr linked))
      · intro other intends
        have intends : call.ownIdentity = some other := intends
        rw [unwritten] at intends
        cases intends
    next free =>
      split at advanced <;> cases advanced
      next unlocked =>
        have absent : registry.identity subject = none := by simpa using free
        refine paired.turn ⟨present, rfl, rfl, rfl, Nat.le_refl _, rfl, rfl, ?_, .inl, ?_,
          fun _ _ => .inr ⟨subject, apple, absent, by simpa using unlocked⟩,
          paired.inserted call member, nofun⟩
        · rintro other (in_hand | written | linked)
          · cases in_hand
          · exact .inl (.inr (.inl written))
          · cases linked
            exact .inl (.inl (by rw [stage]; rfl))
        · intro other intends
          cases intends
          exact .inl ⟨own, id⟩

theorem advance_linked (paired : registry.Paired) (present : registry.calls[index]? = some call)
    (stage : call.stage = .linked) (advanced : registry.advance index call = some after) :
    after.Paired := by
  have settled (user : Nat) : call.stage ≠ .linking user := by simp [stage]
  simp only [Registry.advance, stage] at advanced
  split at advanced
  · cases advanced
  next subject apple =>
    split at advanced <;> cases advanced
    next user found =>
      refine paired.read present (Nat.le_refl _) rfl rfl rfl ?_ nofun settled nofun
      intro other same
      cases same
      cases written : call.ownIdentity with
      | some own =>
          rw [written] at found
          cases found
          exact .inl (.inr (.inr written))
      | none =>
          rw [written, Option.none_or] at found
          exact .inr (.inr (.inl (linked_of_identity found)))
    · exact paired.drop present none

theorem advance_resolved (paired : registry.Paired) (present : registry.calls[index]? = some call)
    {user : Nat} (stage : call.stage = .resolved user)
    (advanced : registry.advance index call = some after) : after.Paired := by
  have own : call.intends = call.ownIdentity := by simp [AuthCall.intends, stage]
  simp only [Registry.advance, stage] at advanced
  split at advanced
  · cases advanced
  next subject apple =>
    split at advanced <;> cases advanced
    next free =>
      refine paired.turn ⟨present, rfl, rfl, rfl, Nat.le_refl _, rfl, rfl, ?_,
        fun _ => .inr (by simpa using free), ?_, fun _ => .inl, ?_, ?_⟩
      · rintro other (in_hand | written | linked)
        · exact .inl (.inl (by rw [stage]; exact in_hand))
        · exact .inl (.inl (by rw [stage]; exact written))
        · exact .inl (.inr (.inr linked))
      · exact fun other intends => .inl ⟨own.trans intends, fun _ => rfl⟩
      · refine fun _ => ⟨rfl, fun register => ?_⟩
        rw [apple] at register
        cases register
      · intro other same
        cases same
        rfl

theorem advance_bound (paired : registry.Paired) (present : registry.calls[index]? = some call)
    {user : Nat} (stage : call.stage = .bound user)
    (advanced : registry.advance index call = some after) : after.Paired := by
  have own : call.intends = call.ownIdentity := by simp [AuthCall.intends, stage]
  simp only [Registry.advance, stage] at advanced
  cases advanced
  exact paired.commits present own _

/-- The next statement of a call keeps the tables paired, unless a call which lost the insertion of
its device finds the user of the device unlinked. -/
theorem advance (paired : registry.Paired) (present : registry.calls[index]? = some call)
    (candid : registry.candid (.advance index) = true)
    (advanced : registry.advance index call = some after) : after.Paired := by
  cases stage : call.stage with
  | lookup => exact paired.advance_lookup present stage advanced
  | search => exact paired.advance_search present stage advanced
  | seen user => exact paired.advance_seen present stage advanced
  | unseen => exact paired.advance_unseen present stage advanced
  | lost => exact paired.advance_lost present stage advanced
  | settled user => exact paired.advance_settled present candid stage advanced
  | linking user => exact paired.advance_linking present stage advanced
  | linked => exact paired.advance_linked present stage advanced
  | resolved user => exact paired.advance_resolved present stage advanced
  | bound user => exact paired.advance_bound present stage advanced
  | finished user =>
      simp only [Registry.advance, stage] at advanced
      cases advanced

end Advance

theorem arrive (paired : registry.Paired) {new : AuthCall} (unlocked : new.locked = false)
    (unwritten : new.ownDevice = none) (unlinked : new.ownIdentity = none)
    (empty : new.stage.user = none) :
    Registry.Paired { registry with calls := registry.calls ++ [new] } := by
  have silent (user : Nat) : ¬ new.Mentions user := by
    rintro (in_hand | written | linked)
    · rw [empty] at in_hand
      cases in_hand
    · rw [unwritten] at written
      cases written
    · rw [unlinked] at linked
      cases linked
  have old {index : Nat} {call : AuthCall}
      (present : (registry.calls ++ [new])[index]? = some call) :
      registry.calls[index]? = some call ∨ call = new := by
    exact (getElem?_snoc present).imp_right And.right
  have leads {user : Nat} {device : String}
      (leading : Registry.Leads { registry with calls := registry.calls ++ [new] } user device) :
      registry.Leads user device := by
    rcases leading with row | ⟨call, member, same, mentioned⟩
    · exact .inl row
    · rcases List.mem_append.mp member with before | added
      · exact .inr ⟨call, before, same, mentioned⟩
      · rw [List.mem_singleton] at added
        subst added
        exact absurd mentioned (silent user)
  constructor
  case subjects => exact paired.subjects
  case users => exact paired.users
  case made => exact paired.made
  case known => exact fun user device leading => paired.known user device (leads leading)
  case led => exact fun user device other unlinked leading leading' =>
    paired.led user device other unlinked (leads leading) (leads leading')
  case lock =>
      intro index other call found at_index at_other held held' same
      rcases old at_index with before | rfl
      · rcases old at_other with before' | rfl
        · exact paired.lock _ _ _ _ before before' held held' same
        · rw [unlocked] at held'
          cases held'
      · rw [unlocked] at held
        cases held
  case intent =>
      intro index call user at_index intends
      rcases old at_index with before | rfl
      · obtain ⟨free, hold⟩ := paired.intent _ _ _ before intends
        refine ⟨free, hold.imp_right fun sole => ⟨sole.1, fun other found apart at_other => ?_⟩⟩
        rcases old at_other with before' | rfl
        · exact sole.2 other found apart before'
        · exact silent user
      · exact absurd (AuthCall.mentions_of_intends intends) (silent user)
  case pending =>
      intro index call user at_index own
      rcases old at_index with before | rfl
      · obtain ⟨subject, apple, absent, alone⟩ := paired.pending _ _ _ before own
        refine ⟨subject, apple, absent, fun other found apart at_other same => ?_⟩
        rcases old at_other with before' | rfl
        · exact alone other found apart before' same
        · exact unlinked
      · rw [unlinked] at own
        cases own
  case inserted =>
      intro call member own
      rcases List.mem_append.mp member with before | added
      · exact paired.inserted call before own
      · rw [List.mem_singleton] at added
        subst added
        exact absurd unwritten own
  case bound =>
      intro call member user same
      rcases List.mem_append.mp member with before | added
      · exact paired.bound call before user same
      · rw [List.mem_singleton] at added
        subst added
        rw [same] at empty
        cases empty

/-- Every step keeps the tables paired, unless a call which lost the insertion of its device finds
the user of the device unlinked. -/
theorem step (paired : registry.Paired) {event : AuthEvent} (candid : registry.candid event = true)
    (stepped : registry.step event = some after) : after.Paired := by
  cases event with
  | call purpose device =>
      cases stepped
      apply paired.arrive rfl rfl rfl
      cases purpose <;> rfl
  | advance index =>
      obtain ⟨call, present, advanced⟩ := Option.bind_eq_some_iff.mp stepped
      exact paired.advance present candid advanced
  | die index =>
      obtain ⟨call, present, advanced⟩ := Option.bind_eq_some_iff.mp stepped
      split at advanced
      · cases advanced
      · cases advanced
        exact paired.drop present none

theorem of_settled (settled : registry.Settled) : registry.Paired := by
  have row {user : Nat} {device : String} (leading : registry.Leads user device) :
      registry.devices device = some user := by
    rcases leading with row | ⟨call, member, -⟩
    · exact row
    · simp [settled.calls] at member
  constructor
  case subjects => exact settled.subjects
  case users => exact settled.users
  case made => exact settled.made
  case known => exact fun user device leading => settled.known device user (row leading)
  case led => exact fun user device other unlinked leading leading' =>
    settled.led user device other unlinked (row leading) (row leading')
  case lock | intent | pending | inserted | bound => simp [settled.calls]

end Paired

/-- A sign-in on a device is committed by a step. -/
def SignsIn (registry after : Registry) (device : String) (user : Nat) : Prop :=
  ∃ (index : Nat) (call found : AuthCall) (subject : String),
    registry.calls[index]? = some call ∧ call.device = device ∧ call.purpose = .apple subject ∧
      call.stage ≠ .finished (some user) ∧ after.calls[index]? = some found ∧
      found.stage = .finished (some user)

/-- Subjects and users are paired one to one. -/
def OneToOne (registry : Registry) : Prop :=
  (registry.identities.map Prod.fst).Nodup ∧ (registry.identities.map Prod.snd).Nodup

/-- A step changes the user of no subject, a sign-in it commits leaves its device bound to the user,
and no device is bound anew but by a sign-in. -/
def Keeps (registry after : Registry) : Prop :=
  (∀ subject user, (subject, user) ∈ registry.identities → (subject, user) ∈ after.identities) ∧
    (∀ device user, registry.SignsIn after device user → after.devices device = some user) ∧
    ∀ device user, registry.devices device = some user →
      after.devices device = some user ∨ ∃ other, registry.SignsIn after device other

namespace Paired

variable {registry after : Registry}

theorem keeps_commit (paired : registry.Paired) {index : Nat} {call : AuthCall} {user : Nat}
    (present : registry.calls[index]? = some call)
    (stage : call.stage = .bound user ∨ call.purpose = .register ∧ call.stage = .settled user) :
    registry.Keeps ((registry.commit call).become index (call.ended (some user))) := by
  have member := List.mem_of_getElem? present
  refine ⟨fun subject other row => ?_, ?_, ?_⟩
  · show (subject, other) ∈ (registry.commit call).identities
    rcases paired.identities_commit present with ⟨-, same⟩ | ⟨subject', user', -, -, more⟩
    · rw [same]
      exact row
    · rw [more]
      exact List.mem_append_left _ row
  · rintro device other
      ⟨which, former, found, subject, at_which, rfl, apple, open_, at_after, finished⟩
    rcases getElem?_set_cases at_after with ⟨rfl, rfl⟩ | ⟨-, old⟩
    · cases at_which.symm.trans present
      cases finished
      rcases stage with bound | ⟨register, -⟩
      · have own := paired.bound call member user bound
        show (registry.commit call).devices call.device = some user
        simp only [commit, own, Function.update_self]
      · rw [apple] at register
        cases register
    · cases at_which.symm.trans old
      exact absurd finished open_
  · intro device other row
    cases own : call.ownDevice with
    | none =>
        left
        show (registry.commit call).devices device = some other
        simp only [commit, own]
        exact row
    | some written =>
        by_cases same : device = call.device
        · subst same
          rcases stage with bound | ⟨register, -⟩
          · cases purpose : call.purpose with
            | register =>
                have absent := (paired.inserted call member (by simp [own])).2 purpose
                rw [row] at absent
                cases absent
            | apple subject =>
                refine .inr ⟨user, index, call, call.ended (some user), subject, present, rfl,
                  purpose, by simp [bound], ?_, rfl⟩
                show (registry.calls.set index _)[index]? = _
                rw [List.getElem?_set_self (List.getElem?_eq_some_iff.mp present).1]
          · have absent := (paired.inserted call member (by simp [own])).2 register
            rw [row] at absent
            cases absent
        · left
          show (registry.commit call).devices device = some other
          simp only [commit, own, Function.update_of_ne same]
          exact row

theorem keeps_of_same (identities : after.identities = registry.identities)
    (devices : after.devices = registry.devices)
    (calls : ∀ (index : Nat) (call found : AuthCall) (user : Nat),
      registry.calls[index]? = some call → after.calls[index]? = some found →
      found.stage = .finished (some user) → call.stage = .finished (some user)) :
    registry.Keeps after := by
  refine ⟨fun subject user row => identities ▸ row, ?_, fun device user row => .inl (devices ▸ row)⟩
  rintro device user ⟨index, call, found, subject, present, -, -, open_, at_after, finished⟩
  exact absurd (calls index call found user present at_after finished) open_

/-- A statement either commits or leaves the tables and the results of calls alone. -/
theorem advance_cases {index : Nat} {call : AuthCall}
    (advanced : registry.advance index call = some after) :
    (∃ user, (call.stage = .bound user ∨ call.purpose = .register ∧ call.stage = .settled user) ∧
      after = (registry.commit call).become index (call.ended (some user))) ∨
    after.identities = registry.identities ∧ after.devices = registry.devices ∧
      ∃ next, after.calls = registry.calls.set index next ∧
        ∀ user, next.stage ≠ .finished (some user) := by
  cases stage : call.stage with
  | bound user =>
      simp only [Registry.advance, stage] at advanced
      cases advanced
      exact .inl ⟨user, .inl rfl, rfl⟩
  | settled user =>
      simp only [Registry.advance, stage] at advanced
      split at advanced
      next register =>
        cases advanced
        exact .inl ⟨user, .inr ⟨register, rfl⟩, rfl⟩
      · split at advanced <;> cases advanced <;> exact .inr ⟨rfl, rfl, _, rfl, nofun⟩
  | linking user =>
      simp only [Registry.advance, stage] at advanced
      split at advanced
      · cases advanced
      · split at advanced
        · cases advanced
          exact .inr ⟨rfl, rfl, _, rfl, nofun⟩
        · split at advanced <;> cases advanced
          exact .inr ⟨rfl, rfl, _, rfl, nofun⟩
  | lookup | linked | resolved user =>
      simp only [Registry.advance, stage] at advanced
      split at advanced
      · cases advanced
      · right
        split at advanced
        · cases advanced <;> exact ⟨rfl, rfl, _, rfl, nofun⟩
        · cases advanced
          exact ⟨rfl, rfl, _, rfl, nofun⟩
  | search | lost =>
      simp only [Registry.advance, stage] at advanced
      split at advanced <;> cases advanced <;> exact .inr ⟨rfl, rfl, _, rfl, nofun⟩
  | seen user =>
      simp only [Registry.advance, stage] at advanced
      split at advanced <;> cases advanced
      exact .inr ⟨rfl, rfl, _, rfl, nofun⟩
  | unseen =>
      simp only [Registry.advance, stage] at advanced
      split at advanced
      · cases advanced
        exact .inr ⟨rfl, rfl, _, rfl, nofun⟩
      · split at advanced <;> cases advanced
        exact .inr ⟨rfl, rfl, _, rfl, nofun⟩
  | finished user =>
      simp only [Registry.advance, stage] at advanced
      cases advanced

theorem keeps (paired : registry.Paired) {event : AuthEvent}
    (stepped : registry.step event = some after) : registry.Keeps after := by
  have quiet {index : Nat} {next : AuthCall} (identities : after.identities = registry.identities)
      (devices : after.devices = registry.devices)
      (calls : after.calls = registry.calls.set index next)
      (unreturned : ∀ user, next.stage ≠ .finished (some user)) : registry.Keeps after := by
    apply keeps_of_same identities devices
    intro other call found user present at_after finished
    rw [calls] at at_after
    rcases getElem?_set_cases at_after with ⟨-, rfl⟩ | ⟨-, old⟩
    · exact absurd finished (unreturned user)
    · cases present.symm.trans old
      exact finished
  cases event with
  | call purpose device =>
      cases stepped
      refine keeps_of_same rfl rfl ?_
      intro index call found user present at_after finished
      cases (getElem?_append_of_some _ present).symm.trans at_after
      exact finished
  | advance index =>
      obtain ⟨call, present, advanced⟩ := Option.bind_eq_some_iff.mp stepped
      rcases advance_cases advanced with ⟨user, stage, rfl⟩ | ⟨identities, devices, next, moved⟩
      · exact paired.keeps_commit present stage
      · exact quiet identities devices moved.1 moved.2
  | die index =>
      obtain ⟨call, present, advanced⟩ := Option.bind_eq_some_iff.mp stepped
      split at advanced
      · cases advanced
      · cases advanced
        exact quiet rfl rfl rfl nofun

end Paired

end Registry

/-- While no sign-in which lost the insertion of its device finds the user of the device unlinked,
Apple subjects and users are paired one to one, the user of a subject never changes, and a device
stays with the user of its last sign-in. -/
theorem apple_identities_one_to_one (start registry : Registry) (settled : start.Settled)
    (reached : Reachable Registry.step (fun registry event => registry.candid event = true) start
      registry) :
    registry.OneToOne ∧
      ∀ event after, registry.step event = some after → registry.Keeps after := by
  have paired : registry.Paired := by
    apply reached.invariant Registry.Paired (.of_settled settled)
    intro before event after paired candid stepped
    exact paired.step candid stepped
  exact ⟨⟨paired.subjects, paired.users⟩, fun event after stepped => paired.keeps stepped⟩

namespace Sample

theorem empty_settled : Registry.Settled {} := by
  constructor
  case calls => rfl
  case subjects | users => exact List.nodup_nil
  case made =>
      rintro user ⟨subject, row⟩
      cases row
  case known | led => exact nofun

/-- A device registers, and two people sign in on it at the same time: the second waits for the
first and gets a user of its own. -/
def shared : List AuthEvent :=
  [.call .register "phone", .advance 0, .advance 0, .advance 0, .call (.apple "ann") "phone",
    .call (.apple "bob") "phone", .advance 1, .advance 2, .advance 1, .advance 2, .advance 1,
    .advance 1, .advance 1, .advance 1, .advance 1, .advance 1, .advance 2, .advance 2, .advance 2,
    .advance 2, .advance 2, .advance 2]

/-- Both are linked to one user each. -/
theorem shared_device_paired :
    ∃ registry, Reachable Registry.step (fun registry event => registry.candid event = true) {}
        registry ∧
      (registry.identities == [("ann", 0), ("bob", 1)] &&
        registry.devices "phone" == some 1) = true ∧
      registry.OneToOne ∧
      ∀ event after, registry.step event = some after → registry.Keeps after := by
  obtain ⟨registry, reached, tested⟩ := reachable_of_any Registry.step
    (fun registry event => registry.candid event = true) {}
    (fun registry => registry.identities == [("ann", 0), ("bob", 1)] &&
      registry.devices "phone" == some 1) shared (by decide)
  exact ⟨registry, reached, tested,
    apple_identities_one_to_one {} registry empty_settled reached⟩

/-- Two sign-ins find a new device unknown; before either inserts it, a registration does and
commits. -/
def overtaken : List AuthEvent :=
  [.call (.apple "ann") "phone", .call (.apple "bob") "phone", .advance 0, .advance 0, .advance 1,
    .advance 1, .call .register "phone", .advance 2, .advance 2, .advance 2, .advance 0, .advance 0,
    .advance 1, .advance 1, .advance 0, .advance 1, .advance 0, .advance 0, .advance 0, .advance 0,
    .advance 1, .advance 1, .advance 1, .advance 1]

/-- Both are linked to the user of the registration. -/
theorem overtaken_sign_ins_share_user :
    ¬ ∀ (start registry : Registry), start.Settled →
      Reachable Registry.step (fun _ _ => True) start registry →
      registry.OneToOne ∧
        ∀ event after, registry.step event = some after → registry.Keeps after := by
  intro always
  obtain ⟨registry, reached, tested⟩ := reachable_of_any Registry.step (fun _ _ => True) {}
    (fun registry => registry.identities.map Prod.snd == [0, 0]) overtaken (by decide)
  have users := (always {} registry empty_settled reached).1.2
  rw [beq_iff_eq] at tested
  rw [tested] at users
  simp at users

end Sample

end Hermes.Auth
