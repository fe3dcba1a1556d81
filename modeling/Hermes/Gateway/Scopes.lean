import Hermes.Gateway.RateLimit
import Hermes.Library.Encoding
import Hermes.Library.Uuid
import Hermes.Library.Words
import Mathlib.Data.Finset.Card

/-!
# Requests at the gate

A request is counted for its user, its device and its address, one check after the other, and the
checks of different requests come between one another.  Each scope has a key of its own, so nothing
that a request names can use up or escape the limit of another scope.
-/

namespace Hermes.Gateway.Throttle

open SlidingWindow

/-! ## The address of a client -/

/-- What `client_ip` reads of a request. -/
structure Connection where
  /-- The host of the socket. -/
  peer : Option String
  /-- `X-Forwarded-For`. -/
  forwardedFor : Option String
  /-- `X-Real-IP`. -/
  realIp : Option String

structure GateSettings where
  /-- `_is_trusted_proxy`. -/
  isTrustedProxy : String → Bool
  /-- `TRUSTED_PROXY_HOP_COUNT`. -/
  trustedProxyHopCount : Int := 1
  /-- `RATE_LIMIT_CHAT_PER_USER`. -/
  rateLimitChatPerUser : Int := 30
  /-- `RATE_LIMIT_CHAT_PER_DEVICE`. -/
  rateLimitChatPerDevice : Int := 60
  /-- `RATE_LIMIT_CHAT_PER_IP`. -/
  rateLimitChatPerIp : Int := 120
  /-- `ADMIN_RATE_LIMIT_PER_MIN`. -/
  adminRateLimitPerMin : Int := 10
  /-- `AUTH_RATE_LIMIT_PER_IP`. -/
  authRateLimitPerIp : Int := 10
  /-- `CLOUDPAYMENTS_WEBHOOK_RATE_LIMIT_PER_IP`. -/
  cloudpaymentsWebhookRateLimitPerIp : Int := 120
  /-- `RATE_LIMIT_OTHER_PER_USER`. -/
  rateLimitOtherPerUser : Int := 60
  /-- `RATE_LIMIT_WINDOW_SECONDS`. -/
  window : Window := ⟨60, by decide⟩

/-- `str.strip`. -/
def strip (text : List Char) : List Char :=
  Words.strip (fun char => Encoding.isSpace char.toNat) text

def nonempty (text : Option String) : Option String := text.filter (· ≠ "")

/-- The entries of `X-Forwarded-For`. -/
def hops (header : String) : List String :=
  ((header.toList.splitOn ',').map strip).filterMap fun hop =>
    if hop = [] then none else some (String.ofList hop)

/-- The entry of a chain which stands before those of our own proxies, or its first one. -/
def clientHop (settings : GateSettings) (chain : List String) : Option String :=
  let index : Int := chain.length - max settings.trustedProxyHopCount 1 - 1
  chain[(max index 0).toNat]?

/-- `client_ip`. -/
def clientIp (settings : GateSettings) (connection : Connection) : Option String :=
  match connection.peer with
  | none => none
  | some peer =>
      if settings.isTrustedProxy peer then
        match (nonempty connection.forwardedFor).bind (clientHop settings ∘ hops) with
        | some hop => some hop
        | none =>
            match nonempty connection.realIp with
            | some address => some (String.ofList (strip address.toList))
            | none => some peer
      else some peer

/-- A request reaches us from an address through our proxies, which have written the chain that
`client_ip` reads, the address and one entry for each of theirs, behind whatever the client had put
into the header. -/
structure Through (settings : GateSettings) (address : String) (connection : Connection) :
    Prop where
  trusted : ∃ peer, connection.peer = some peer ∧ settings.isTrustedProxy peer = true
  written : ∃ header, connection.forwardedFor = some header ∧
    ∃ forged tail proxies, (header = tail ∨ header = forged ++ "," ++ tail) ∧
      hops tail = address :: proxies ∧ (proxies.length : Int) = max settings.trustedProxyHopCount 1

theorem hops_append (forged tail : String) :
    hops (forged ++ "," ++ tail) = hops forged ++ hops tail := by
  have split : (forged ++ "," ++ tail).toList.splitOn ',' =
      forged.toList.splitOn ',' ++ tail.toList.splitOn ',' := by
    rw [String.toList_append, String.toList_append, List.append_assoc]
    exact List.splitOnP_append_cons forged.toList tail.toList (beq_self_eq_true ',')
  rw [hops, split, List.map_append, List.filterMap_append]
  rfl

/-- Of a trusted proxy's header the entry is taken which stands before as many as there are
hops. -/
theorem clientIp_of_hops {settings : GateSettings} {connection : Connection}
    {peer header hop : String} {before behind : List String} (is_peer : connection.peer = some peer)
    (trusted : settings.isTrustedProxy peer = true)
    (is_header : connection.forwardedFor = some header)
    (chain : hops header = before ++ hop :: behind)
    (count : (behind.length : Int) = max settings.trustedProxyHopCount 1) :
    clientIp settings connection = some hop := by
  have shown : header ≠ "" := by
    rintro rfl
    exact absurd (congrArg List.length chain) (by simp [hops, strip, Words.strip])
  have found : clientHop settings (hops header) = some hop := by
    have index : (max ((hops header).length - max settings.trustedProxyHopCount 1 - 1) 0).toNat =
        before.length := by
      rw [chain, List.length_append, List.length_cons, ← count]
      omega
    rw [clientHop, index, chain, List.getElem?_append_right le_rfl, Nat.sub_self]
    rfl
  rw [clientIp, is_peer]
  dsimp only
  rw [if_pos trusted, is_header, nonempty, Option.filter_some, if_pos (by simpa using shown),
    Option.bind_some, Function.comp_apply, found]

theorem clientIp_through {settings : GateSettings} {address : String} {connection : Connection}
    (through : Through settings address connection) :
    clientIp settings connection = some address := by
  obtain ⟨peer, is_peer, trusted⟩ := through.trusted
  obtain ⟨header, is_header, forged, tail, proxies, shape, listed, count⟩ := through.written
  have chain : ∃ before, hops header = before ++ address :: proxies := by
    rcases shape with rfl | rfl
    · exact ⟨[], listed⟩
    · exact ⟨hops forged, by rw [hops_append, listed]⟩
  obtain ⟨before, chain⟩ := chain
  exact clientIp_of_hops is_peer trusted is_header chain count

/-- But behind one proxy which appends only the address it was reached from, the last entry is taken
that the client itself has sent. -/
theorem clientIp_forged {settings : GateSettings} {connection : Connection}
    {peer forged tail address hop : String} {before : List String}
    (is_peer : connection.peer = some peer) (trusted : settings.isTrustedProxy peer = true)
    (single : settings.trustedProxyHopCount ≤ 1)
    (is_header : connection.forwardedFor = some (forged ++ "," ++ tail))
    (appended : hops tail = [address]) (sent : hops forged = before ++ [hop]) :
    clientIp settings connection = some hop := by
  have chain : hops (forged ++ "," ++ tail) = before ++ hop :: [address] := by
    rw [hops_append, sent, appended, List.append_assoc]
    rfl
  refine clientIp_of_hops is_peer trusted is_header chain ?_
  rw [max_eq_right single]
  rfl

/-! ## Scopes -/

/-- `users.id`, a UUID. -/
abbrev UserId := Fin (2 ^ 128)

inductive Scope
  | user (userId : UserId)
  | device (deviceId : String)
  | address (ip : String)
  | admin (bucket : String)
  | auth (bucket : String)
  | webhook (bucket : String)
  | other (userId : UserId)
  deriving DecidableEq

/-- `str` of a UUID. -/
def UserId.text (userId : UserId) : String := String.ofList (Uuid.toText userId.val)

/-- The key under which Redis counts a scope. -/
def Scope.key : Scope → String
  | .user userId => "rl:user:" ++ userId.text
  | .device deviceId => "rl:dev:" ++ deviceId
  | .address ip => "rl:ip:" ++ ip
  | .admin bucket => "rl:admin:" ++ bucket
  | .auth bucket => "rl:auth:" ++ bucket
  | .webhook bucket => "rl:cpwh:" ++ bucket
  | .other userId => "rl:other:" ++ userId.text

/-- How many requests of a scope a window admits. -/
def Scope.limit (settings : GateSettings) : Scope → Int
  | .user _ => settings.rateLimitChatPerUser
  | .device _ => settings.rateLimitChatPerDevice
  | .address _ => settings.rateLimitChatPerIp
  | .admin _ => settings.adminRateLimitPerMin
  | .auth _ => settings.authRateLimitPerIp
  | .webhook _ => settings.cloudpaymentsWebhookRateLimitPerIp
  | .other _ => settings.rateLimitOtherPerUser

theorem UserId.text_injective : Function.Injective UserId.text := by
  intro userId other same
  have spelled : Uuid.toText userId.val = Uuid.toText other.val := by
    have letters := congrArg String.toList same
    rwa [UserId.text, UserId.text, String.toList_ofList, String.toList_ofList] at letters
  have read := Uuid.ofText_toText userId.isLt (Uuid.lower_toText userId.val)
  rw [spelled, Uuid.ofText_toText other.isLt (Uuid.lower_toText other.val)] at read
  exact Fin.ext (Option.some.inj read).symm

theorem Scope.key_injective : Function.Injective Scope.key := by
  intro scope other same
  have letters := congrArg String.toList same
  cases scope <;> cases other <;>
    simp only [Scope.key, String.toList_append] at letters <;>
    simp at letters
  case user.user | other.other => rw [UserId.text_injective (String.toList_inj.mp letters)]
  all_goals rw [String.toList_inj.mp letters]

/-! ## What is checked for a request -/

/-- The bucket of an address which may be unknown. -/
def bucket (ip : Option String) : String := (nonempty ip).getD "unknown"

/-- The checks of `enforce_chat_limits`. -/
def enforceChatLimits (userId : UserId) (deviceId ip : Option String) : List Scope :=
  [.user userId] ++ (nonempty deviceId).toList.map .device ++ (nonempty ip).toList.map .address

/-- The check of `enforce_admin_limits`. -/
def enforceAdminLimits (ip : Option String) : List Scope := [.admin (bucket ip)]

/-- The check of `enforce_auth_limits`. -/
def enforceAuthLimits (ip : Option String) : List Scope := [.auth (bucket ip)]

/-- The check of `enforce_cloudpayments_webhook_limits`. -/
def enforceCloudpaymentsWebhookLimits (ip : Option String) : List Scope := [.webhook (bucket ip)]

/-- The check of `enforce_other_limits`. -/
def enforceOtherLimits (userId : UserId) : List Scope := [.other userId]

inductive Surface
  /-- The two chat routes, with `X-Device-Id` and the device of the access token. -/
  | chat (userId : UserId) (xDeviceId deviceId : Option String)
  | admin
  | auth
  | webhook
  | other (userId : UserId)

structure Request where
  surface : Surface
  connection : Connection

/-- The scopes which a request is checked for, in their order. -/
def Request.scopes (settings : GateSettings) (request : Request) : List Scope :=
  let ip := clientIp settings request.connection
  match request.surface with
  | .chat userId xDeviceId deviceId =>
      enforceChatLimits userId ((nonempty xDeviceId).or deviceId) ip
  | .admin => enforceAdminLimits ip
  | .auth => enforceAuthLimits ip
  | .webhook => enforceCloudpaymentsWebhookLimits ip
  | .other userId => enforceOtherLimits userId

/-! ## Requests on their way -/

structure Passage where
  id : Nat
  scope : Scope
  time : ℚ
  arrival : Instant
  admits : Bool
  /-- Its answer has come back. -/
  answered : Bool
  deriving DecidableEq

structure Gate where
  redis : Redis
  /-- The scopes which a request is still to be checked for. -/
  pending : Nat → List Scope
  /-- What `enforce_*` has returned for a request. -/
  verdict : Nat → Option Bool
  log : List Passage

def Gate.initial (settings : GateSettings) (requests : Nat → Request) : Gate :=
  ⟨.empty, fun id => (requests id).scopes settings, fun _ => none, []⟩

/-- A reading of the clock, and when the call which it was made for arrives at Redis. -/
structure Trip where
  now : Reading
  arrival : Instant

inductive GateAction
  /-- The next check of a request. -/
  | check (id : Nat) (trip : Trip)
  /-- A `RedisError` in place of its answer; the call may have reached Redis. -/
  | unavailable (id : Nat) (reached : Option Trip)

def Scope.call (settings : GateSettings) (scope : Scope) (trip : Trip) : Call :=
  ⟨scope.key, scope.limit settings, settings.window, trip.now, trip.arrival⟩

def Gate.reach (settings : GateSettings) (gate : Gate) (id : Nat) (scope : Scope) (trip : Trip)
    (answered : Bool) : Bool × Gate :=
  let (admits, redis) := allow gate.redis (scope.call settings trip)
  let passage := ⟨id, scope, trip.now.seconds, trip.arrival, admits, answered⟩
  (admits, { gate with redis, log := gate.log ++ [passage] })

def Gate.close (gate : Gate) (id : Nat) (verdict : Bool) : Gate :=
  { gate with
    pending := Function.update gate.pending id []
    verdict := Function.update gate.verdict id (some verdict) }

def Gate.act (settings : GateSettings) (gate : Gate) : GateAction → Gate
  | .check id trip =>
      match gate.pending id with
      | [] => gate
      | scope :: later =>
          let (admits, reached) := gate.reach settings id scope trip true
          if admits then
            if later = [] then reached.close id true
            else { reached with pending := Function.update reached.pending id later }
          else reached.close id false
  | .unavailable id reached =>
      match gate.pending id with
      | [] => gate
      | scope :: _ =>
          -- The gate fails open, whether the call was counted or not.
          match reached with
          | none => gate.close id true
          | some trip => (gate.reach settings id scope trip false).2.close id true

/-- The trip of an action whose call reaches Redis. -/
def GateAction.trip : GateAction → Option Trip
  | .check _ trip => some trip
  | .unavailable _ reached => reached

def Gate.run (settings : GateSettings) (gate : Gate) (actions : List GateAction) : Gate :=
  actions.foldl (Gate.act settings) gate

/-- The calls of a scope which have reached Redis. -/
def Gate.passages (gate : Gate) (scope : Scope) : List Passage :=
  gate.log.filter fun passage => decide (passage.scope = scope)

/-- The times of the calls of a scope, with the answers of Redis. -/
def Gate.events (gate : Gate) (scope : Scope) : List (ℚ × Bool) :=
  (gate.passages scope).map fun passage => (passage.time, passage.admits)

/-- Where Redis has the last call of a scope. -/
def Gate.last (gate : Gate) (scope : Scope) : Option (ℚ × Instant) :=
  (gate.passages scope).getLast?.map fun passage => (passage.time, passage.arrival)

/-- A call comes behind another one by its reading, and no later than its window allows. -/
structure Punctual (window : Window) (earlier later : ℚ × Instant) : Prop where
  ordered : earlier.1 ≤ later.1
  inTime : InTime window earlier later

instance (window : Window) (earlier later : ℚ × Instant) :
    Decidable (Punctual window earlier later) :=
  decidable_of_iff (earlier.1 ≤ later.1 ∧ InTime window earlier later)
    ⟨fun both => ⟨both.1, both.2⟩, fun punctual => ⟨punctual.1, punctual.2⟩⟩

section Run

variable {settings : GateSettings} {scope : Scope} {gate : Gate}

/-- Redis decides the calls of a scope by the window behind each. -/
structure Gate.Kept (settings : GateSettings) (scope : Scope) (gate : Gate) : Prop where
  decided : Decided (scope.limit settings) (settings.window.seconds : ℚ) (gate.events scope)
  holds : Holds settings.window scope.key gate.redis (gate.events scope) (gate.last scope)

theorem Gate.Kept.congr {other : Gate} (kept : gate.Kept settings scope)
    (redis : other.redis = gate.redis) (log : other.log = gate.log) :
    other.Kept settings scope := by
  have passages : other.passages scope = gate.passages scope := by rw [passages, passages, log]
  have events : other.events scope = gate.events scope := by rw [events, events, passages]
  have last : other.last scope = gate.last scope := by rw [last, last, passages]
  constructor
  · rw [events]
    exact kept.decided
  · rw [events, last, redis]
    exact kept.holds

theorem Gate.Kept.reach (kept : gate.Kept settings scope) {trip : Trip}
    (behind : ∀ passage ∈ gate.log,
      Punctual settings.window (passage.time, passage.arrival) (trip.now.seconds, trip.arrival))
    (id : Nat) (asked : Scope) (answered : Bool) :
    (gate.reach settings id asked trip answered).2.Kept settings scope := by
  have before : ∀ event ∈ gate.events scope, event.1 ≤ (asked.call settings trip).now.seconds := by
    intro event listed
    obtain ⟨passage, chosen, rfl⟩ := List.mem_map.mp listed
    exact (behind passage (List.mem_filter.mp chosen).1).ordered
  have inTime : ∀ earlier ∈ gate.last scope,
      InTime settings.window earlier (asked.call settings trip).trip := by
    intro earlier is_last
    obtain ⟨passage, chosen, rfl⟩ := Option.map_eq_some_iff.mp is_last
    exact (behind passage (List.mem_filter.mp (List.mem_of_getLast? chosen)).1).inTime
  by_cases own : asked = scope
  · subst own
    have passages : (gate.reach settings id asked trip answered).2.passages asked =
        gate.passages asked ++ [⟨id, asked, trip.now.seconds, trip.arrival,
          (allow gate.redis (asked.call settings trip)).1, answered⟩] := by
      simp [Gate.passages, Gate.reach, List.filter_append]
    have events : (gate.reach settings id asked trip answered).2.events asked = gate.events asked ++
        [(trip.now.seconds, (allow gate.redis (asked.call settings trip)).1)] := by
      rw [Gate.events, Gate.events, passages, List.map_append]
      rfl
    have last : (gate.reach settings id asked trip answered).2.last asked =
        some (asked.call settings trip).trip := by
      rw [Gate.last, passages, List.getLast?_concat]
      rfl
    constructor
    · rw [events, kept.holds.answer rfl rfl before inTime]
      exact kept.decided.snoc trip.now.seconds
    · rw [events, last]
      exact kept.holds.step rfl rfl before inTime _
  · have passages : (gate.reach settings id asked trip answered).2.passages scope =
        gate.passages scope := by
      simp [Gate.passages, Gate.reach, List.filter_append, own]
    have events : (gate.reach settings id asked trip answered).2.events scope =
        gate.events scope := by
      rw [Gate.events, Gate.events, passages]
    have last : (gate.reach settings id asked trip answered).2.last scope = gate.last scope := by
      rw [Gate.last, Gate.last, passages]
    constructor
    · rw [events]
      exact kept.decided
    · rw [events, last]
      exact kept.holds.frame fun same => own (Scope.key_injective same)

theorem Gate.act_reaches (settings : GateSettings) (gate : Gate) (action : GateAction) :
    ((gate.act settings action).redis = gate.redis ∧ (gate.act settings action).log = gate.log) ∨
      ∃ id asked trip answered, action.trip = some trip ∧
        (gate.act settings action).redis = (gate.reach settings id asked trip answered).2.redis ∧
        (gate.act settings action).log = (gate.reach settings id asked trip answered).2.log := by
  cases action with
  | check id trip =>
      rw [act]
      split
      next => exact .inl ⟨rfl, rfl⟩
      next asked later _ =>
        refine .inr ⟨id, asked, trip, true, rfl, ?_⟩
        dsimp only
        split
        · split <;> exact ⟨rfl, rfl⟩
        · exact ⟨rfl, rfl⟩
  | unavailable id reached =>
      rw [act]
      split
      next => exact .inl ⟨rfl, rfl⟩
      next asked _ _ =>
        cases reached with
        | none => exact .inl ⟨rfl, rfl⟩
        | some trip => exact .inr ⟨id, asked, trip, false, rfl, rfl, rfl⟩

/-- The readings and arrivals of the calls which reach Redis, in the order in which they do. -/
def journeys (actions : List GateAction) : List (ℚ × Instant) :=
  (actions.filterMap GateAction.trip).map fun trip => (trip.now.seconds, trip.arrival)

theorem Gate.Kept.run {actions : List GateAction} (kept : gate.Kept settings scope)
    (punctual : (journeys actions).Pairwise (Punctual settings.window))
    (behind : ∀ passage ∈ gate.log, ∀ journey ∈ journeys actions,
      Punctual settings.window (passage.time, passage.arrival) journey) :
    (gate.run settings actions).Kept settings scope := by
  induction actions generalizing gate with
  | nil => exact kept
  | cons action later induction =>
      rw [Gate.run, List.foldl_cons]
      obtain ⟨redis, log⟩ | ⟨id, asked, trip, answered, read, redis, log⟩ :=
        gate.act_reaches settings action
      · have tail : (journeys later).Sublist (journeys (action :: later)) :=
          ((List.sublist_cons_self action later).filterMap _).map _
        refine induction (kept.congr redis log) (punctual.sublist tail) ?_
        rw [log]
        exact fun passage listed journey chosen => behind passage listed journey (tail.mem chosen)
      · have split : journeys (action :: later) =
            (trip.now.seconds, trip.arrival) :: journeys later := by
          rw [journeys, List.filterMap_cons_some read, List.map_cons, journeys]
        rw [split] at punctual behind
        obtain ⟨first, rest⟩ := List.pairwise_cons.mp punctual
        have before := fun passage listed => behind passage listed _ List.mem_cons_self
        refine induction ((kept.reach before id asked answered).congr redis log) rest ?_
        rw [log]
        intro passage listed journey chosen
        obtain earlier | last := List.mem_append.mp listed
        · exact behind passage earlier journey (List.mem_cons_of_mem _ chosen)
        · rw [List.mem_singleton.mp last]
          exact first journey chosen

/-- A request is refused once Redis has refused it, and what has its verdict is not checked
again. -/
structure Gate.Fair (gate : Gate) : Prop where
  closed : ∀ id verdict, gate.verdict id = some verdict → gate.pending id = []
  refused : ∀ passage ∈ gate.log, passage.answered = true → passage.admits = false →
    gate.verdict passage.id = some false

theorem Gate.Fair.initial (settings : GateSettings) (requests : Nat → Request) :
    (Gate.initial settings requests).Fair :=
  ⟨nofun, nofun⟩

theorem Gate.Fair.advance {after : Gate} {id : Nat} (fair : gate.Fair)
    (waits : gate.pending id ≠ [])
    (others : ∀ other ≠ id, after.pending other = gate.pending other ∧
      after.verdict other = gate.verdict other)
    (closed : ∀ verdict, after.verdict id = some verdict → after.pending id = [])
    (grown : ∀ passage ∈ after.log, passage ∈ gate.log ∨ passage.id = id ∧
      (passage.answered = true → passage.admits = false → after.verdict id = some false)) :
    after.Fair where
  closed := by
    intro other verdict given
    by_cases same : other = id
    · rw [same] at given ⊢
      exact closed verdict given
    · rw [(others other same).2] at given
      rw [(others other same).1]
      exact fair.closed other verdict given
  refused := by
    intro passage listed answered admits
    obtain before | ⟨own, refuses⟩ := grown passage listed
    · have refused := fair.refused passage before answered admits
      have other : passage.id ≠ id := by
        intro same
        rw [same] at refused
        exact waits (fair.closed id false refused)
      rw [(others _ other).2]
      exact refused
    · rw [own]
      exact refuses answered admits

theorem Gate.mem_reach {id : Nat} {asked : Scope} {trip : Trip} {answered : Bool}
    {passage : Passage} (listed : passage ∈ (gate.reach settings id asked trip answered).2.log) :
    passage ∈ gate.log ∨ passage = ⟨id, asked, trip.now.seconds, trip.arrival,
      (gate.reach settings id asked trip answered).1, answered⟩ := by
  obtain before | last := List.mem_append.mp listed
  · exact .inl before
  · exact .inr (List.mem_singleton.mp last)

theorem Gate.Fair.close_reach (fair : gate.Fair) {id : Nat} (waits : gate.pending id ≠ [])
    {asked : Scope} {trip : Trip} {answered verdict : Bool}
    (told : answered = true → (gate.reach settings id asked trip answered).1 = false →
      verdict = false) :
    ((gate.reach settings id asked trip answered).2.close id verdict).Fair := by
  refine fair.advance waits ?_ ?_ ?_
  · exact fun other apart =>
      ⟨Function.update_of_ne apart .., Function.update_of_ne apart ..⟩
  · exact fun _ _ => Function.update_self ..
  · intro passage listed
    refine (mem_reach listed).imp_right fun is_last => ?_
    subst is_last
    refine ⟨rfl, fun counted refuses => ?_⟩
    rw [← told counted refuses]
    exact Function.update_self ..

theorem Gate.Fair.act (fair : gate.Fair) (action : GateAction) :
    (gate.act settings action).Fair := by
  cases action with
  | check id trip =>
      rw [Gate.act]
      split
      next => exact fair
      next asked later waits =>
        have waiting : gate.pending id ≠ [] := by simp [waits]
        dsimp only
        split
        next admits =>
          split
          · exact fair.close_reach waiting fun _ refuses =>
              absurd (refuses.symm.trans admits) Bool.false_ne_true
          · refine fair.advance waiting ?_ ?_ ?_
            · exact fun other apart => ⟨Function.update_of_ne apart .., rfl⟩
            · exact fun verdict given => absurd (fair.closed id verdict given) waiting
            · intro passage listed
              refine (mem_reach listed).imp_right fun is_last => ?_
              subst is_last
              exact ⟨rfl, fun _ refuses =>
                absurd (refuses.symm.trans admits) Bool.false_ne_true⟩
        next => exact fair.close_reach waiting fun _ _ => rfl
  | unavailable id reached =>
      rw [Gate.act]
      split
      next => exact fair
      next asked later waits =>
        have waiting : gate.pending id ≠ [] := by simp [waits]
        cases reached with
        | none =>
            refine fair.advance waiting ?_ ?_ fun passage listed => .inl listed
            · exact fun other apart =>
                ⟨Function.update_of_ne apart .., Function.update_of_ne apart ..⟩
            · exact fun _ _ => Function.update_self ..
        | some trip =>
            exact fair.close_reach waiting fun answered => absurd answered Bool.false_ne_true

theorem Gate.Fair.run (fair : gate.Fair) (actions : List GateAction) :
    (gate.run settings actions).Fair := by
  induction actions generalizing gate with
  | nil => exact fair
  | cons action later induction => exact induction (fair.act action)

end Run

/-! ## What the gate lets through -/

/-- A request was let through, and Redis counted it for a scope within the window which begins with
a moment. -/
structure Gate.AdmittedWithin (settings : GateSettings) (scope : Scope) (start : ℚ) (gate : Gate)
    (id : Nat) : Prop where
  admitted : gate.verdict id = some true
  counted : ∃ passage ∈ gate.log, passage.id = id ∧ passage.scope = scope ∧
    passage.answered = true ∧ start ≤ passage.time ∧
    passage.time < start + settings.window.seconds

instance {settings : GateSettings} {scope : Scope} {start : ℚ} {gate : Gate} {id : Nat} :
    Decidable (gate.AdmittedWithin settings scope start id) :=
  decidable_of_iff (gate.verdict id = some true ∧ ∃ passage ∈ gate.log, passage.id = id ∧
      passage.scope = scope ∧ passage.answered = true ∧ start ≤ passage.time ∧
      passage.time < start + settings.window.seconds)
    ⟨fun admitted => ⟨admitted.1, admitted.2⟩, fun admitted => ⟨admitted.1, admitted.2⟩⟩

/-- The passages of a scope which Redis has admitted at certain times. -/
def Gate.admissions (gate : Gate) (scope : Scope) (within : ℚ → Bool) : List Passage :=
  (gate.passages scope).filter fun passage => passage.admits && within passage.time

theorem Gate.length_admissions (gate : Gate) (scope : Scope) (within : ℚ → Bool) :
    (SlidingWindow.admitted within (gate.events scope)).length =
      (gate.admissions scope within).length := by
  rw [SlidingWindow.admitted, events, List.filter_map, List.length_map]
  rfl

theorem Gate.Fair.admission {settings : GateSettings} {scope : Scope} {gate : Gate} {start : ℚ}
    {id : Nat} (fair : gate.Fair) (admitted : gate.AdmittedWithin settings scope start id) :
    id ∈ (gate.admissions scope fun time =>
      decide (start ≤ time ∧ time < start + settings.window.seconds)).map (·.id) := by
  obtain ⟨passage, listed, rfl, own, answered, after, before⟩ := admitted.counted
  have admits : passage.admits = true := by
    by_contra refuses
    have refused := fair.refused passage listed answered (Bool.eq_false_of_not_eq_true refuses)
    rw [admitted.admitted] at refused
    exact absurd refused nofun
  refine List.mem_map_of_mem (List.mem_filter.mpr ⟨List.mem_filter.mpr ⟨listed, ?_⟩, ?_⟩)
  · exact decide_eq_true own
  · rw [admits, Bool.true_and]
    exact decide_eq_true ⟨after, before⟩

/-- The scope of an address on a surface which counts addresses. -/
def Surface.ofAddress (surface : Surface) (ip : String) : Option Scope :=
  match surface with
  | .chat .. => some (.address ip)
  | .admin => some (.admin ip)
  | .auth => some (.auth ip)
  | .webhook => some (.webhook ip)
  | .other _ => none

theorem ne_empty_of_mem_hops {header hop : String} (listed : hop ∈ hops header) : hop ≠ "" := by
  obtain ⟨stripped, -, made⟩ := List.mem_filterMap.mp listed
  split at made
  case isTrue => exact absurd made nofun
  case isFalse solid =>
      rintro rfl
      exact solid (by simpa using congrArg String.toList (Option.some.inj made))

theorem mem_scopes_of_through {settings : GateSettings} {request : Request} {address : String}
    {scope : Scope} (through : Through settings address request.connection)
    (own : request.surface.ofAddress address = some scope) :
    scope ∈ request.scopes settings := by
  have known : nonempty (some address) = some address := by
    obtain ⟨_, _, _, _, _, _, listed, _⟩ := through.written
    have shown : address ≠ "" := ne_empty_of_mem_hops (listed ▸ List.mem_cons_self)
    rw [nonempty, Option.filter_some, if_pos (decide_eq_true shown)]
  rw [Request.scopes, clientIp_through through]
  cases surface : request.surface <;> rw [surface, Surface.ofAddress] at own
  case chat => simp [← Option.some.inj own, enforceChatLimits, known]
  case admin => simp [← Option.some.inj own, enforceAdminLimits, bucket, known]
  case auth => simp [← Option.some.inj own, enforceAuthLimits, bucket, known]
  case webhook => simp [← Option.some.inj own, enforceCloudpaymentsWebhookLimits, bucket, known]
  case other => exact absurd own nofun

namespace Sample

/-- One proxy, and an address may send two chat requests a minute. -/
def settings : GateSettings where
  isTrustedProxy peer := peer = "10.0.0.1"
  rateLimitChatPerIp := 2
  window := Gateway.Sample.minute

/-- Requests of one client, each under another user, another device and another forged address. -/
def request (id : Nat) : Request where
  surface := .chat ⟨id % 2 ^ 128, Nat.mod_lt _ (by decide)⟩ none (some s!"device-{id}")
  connection := ⟨some "10.0.0.1", some (s!"1.1.1.{id}" ++ "," ++ "203.0.113.7, 10.0.0.1"), none⟩

/-- A call which is on its way for 20 milliseconds. -/
def trip (seconds : Nat) (below : seconds < 2 ^ 34) : Trip :=
  ⟨Gateway.Sample.reading seconds below, ⟨1000 * seconds + 20, by omega⟩⟩

/-- Three requests whose checks come between one another. -/
def actions : List GateAction :=
  [.check 0 (trip 101 (by decide)), .check 1 (trip 102 (by decide)),
    .check 1 (trip 103 (by decide)), .check 2 (trip 104 (by decide)),
    .check 1 (trip 105 (by decide)), .check 0 (trip 106 (by decide)),
    .check 2 (trip 107 (by decide)), .check 0 (trip 108 (by decide)),
    .check 2 (trip 109 (by decide))]

theorem actions_punctual : (journeys actions).Pairwise (Punctual settings.window) := by
  decide +kernel

theorem request_through (id : Nat) : Through settings "203.0.113.7" (request id).connection where
  trusted := ⟨"10.0.0.1", rfl, rfl⟩
  written := ⟨_, rfl, s!"1.1.1.{id}", "203.0.113.7, 10.0.0.1", ["10.0.0.1"], .inr rfl,
    by decide +kernel, rfl⟩

end Sample

end Hermes.Gateway.Throttle
