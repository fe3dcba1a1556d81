import Hermes.Library.Integer

/-!
# The size limit on request bodies

A request with a `Content-Length` is judged by it.  Without one the middleware reads the body
itself, counting its bytes, and hands the application a substitute which replays them.  The
substitute says that the body is complete even where the client has gone away in the middle of it.
-/

namespace Hermes.Gateway

abbrev Header := List UInt8 × List UInt8

/-- The scope of an HTTP connection; both keys may be missing. -/
structure Scope where
  path : Option String
  headers : Option (List Header)
  deriving DecidableEq, Repr

/-- What `receive` returns for an HTTP connection; a request may come without either key. -/
inductive Message
  | request (body : Option (List UInt8)) (moreBody : Option Bool)
  | disconnect
  deriving DecidableEq, Repr

/-- The limits the middleware is set up with. -/
structure SizeLimits where
  /-- `SIZE_LIMIT_BODY`. -/
  body : Int := 524288
  /-- `ATTACHMENT_REQUEST_BODY_LIMIT`. -/
  chatRun : Int := 12582912
  /-- `WORKSPACE_REQUEST_BODY_LIMIT`. -/
  workspaceUpload : Int := 12582912
  deriving DecidableEq, Repr

/-- The answer to a request which is too large. -/
structure ErrorResponse where
  statusCode : Nat
  code : String
  message : String
  requestId : Option String
  deriving DecidableEq, Repr

inductive Outcome
  | answered (response : ErrorResponse)
  /-- The application runs, and these are the messages it may receive. -/
  | invoked (receive : List Message)
  /-- The middleware still waits for a message. -/
  | waiting
  deriving DecidableEq, Repr

namespace SizeLimits

/-- `_limit_for`. -/
def limitFor (limits : SizeLimits) (path : String) : Int :=
  if path = "/v1/chat/run" then limits.chatRun
  else if "/v1/workspaces/".toList.isPrefixOf path.toList ∧ "/files".toList.isSuffixOf path.toList
  then limits.workspaceUpload
  else limits.body

end SizeLimits

namespace Scope

/-- The value of the first header under a name. -/
def header (scope : Scope) (name : String) : Option (List UInt8) :=
  ((scope.headers.getD []).find? fun header => header.1 == Encoding.encode name).map (·.2)

/-- `_content_length`: none where there is no such header, or `int` cannot read it. -/
def contentLength (scope : Scope) : Option Int :=
  (scope.header "content-length").bind Integer.ofBytes

/-- `_request_id_from_scope`. -/
def requestId (scope : Scope) : Option String :=
  (scope.header "x-request-id").map fun value =>
    String.ofList (value.map fun byte => Char.ofNat byte.toNat)

def limit (limits : SizeLimits) (scope : Scope) : Int := limits.limitFor (scope.path.getD "")

end Scope

/-- `_send_too_large`. -/
def tooLarge (scope : Scope) : ErrorResponse :=
  ⟨413, "payload_too_large", "request body exceeds limit", scope.requestId⟩

/-- How the loop of the streaming guard ends. -/
inductive Collected
  | exceeded
  /-- The loop is left, with the chunks before and the messages still to come. -/
  | left (chunks : List (List UInt8)) (later : List Message)
  | waiting
  deriving DecidableEq, Repr

/-- The loop of the streaming guard, with the chunks and the number of bytes so far. -/
def collect (limit : Int) : List (List UInt8) → Nat → List Message → Collected
  | _, _, [] => .waiting
  | chunks, _, .disconnect :: later => .left chunks later
  | chunks, received, .request body moreBody :: later =>
      let chunk := body.getD []
      if limit < (received + chunk.length : Nat) then .exceeded
      else if moreBody.getD false then
        collect limit (chunks ++ [chunk]) (received + chunk.length) later
      else .left (chunks ++ [chunk]) later

/-- `_make_replay`: the buffered body in one message, and then the real `receive`. -/
def makeReplay (chunks : List (List UInt8)) (later : List Message) : List Message :=
  .request chunks.flatten false :: later

/-- `SizeLimitMiddleware.__call__` for an HTTP connection. -/
def sizeLimit (limits : SizeLimits) (scope : Scope) (messages : List Message) : Outcome :=
  match scope.contentLength with
  | some length =>
      if scope.limit limits < length then .answered (tooLarge scope) else .invoked messages
  | none =>
      match collect (scope.limit limits) [] 0 messages with
      | .exceeded => .answered (tooLarge scope)
      | .left chunks later => .invoked (makeReplay chunks later)
      | .waiting => .waiting

/-! ## Reading a body -/

/-- What a reader of a body has come to, with the bytes it has read. -/
inductive BodyRead
  | complete (body : List UInt8)
  | disconnected (body : List UInt8)
  | waiting (body : List UInt8)
  deriving DecidableEq, Repr

namespace BodyRead

def body : BodyRead → List UInt8
  | complete body | disconnected body | waiting body => body

def onto (chunk : List UInt8) : BodyRead → BodyRead
  | complete body => complete (chunk ++ body)
  | disconnected body => disconnected (chunk ++ body)
  | waiting body => waiting (chunk ++ body)

@[simp] theorem body_onto (chunk : List UInt8) (read : BodyRead) :
    (read.onto chunk).body = chunk ++ read.body := by
  cases read <;> rfl

end BodyRead

/-- The body in a sequence of messages: chunks up to one without more to come. -/
def readBody : List Message → BodyRead
  | [] => .waiting []
  | .disconnect :: _ => .disconnected []
  | .request body moreBody :: later =>
      if moreBody.getD false then (readBody later).onto (body.getD []) else .complete (body.getD [])

/-- The server delivers as many bytes as the `Content-Length` says, and no more where the client
has not sent the whole body. -/
def Delivers (scope : Scope) (messages : List Message) : Prop :=
  ∀ length, scope.contentLength = some length →
    ((readBody messages).body.length : Int) ≤ length ∧
      ∀ body, readBody messages = .complete body → (body.length : Int) = length

structure PassesWhole (limits : SizeLimits) (scope : Scope) (messages : List Message) : Prop where
  within : ∀ receive, sizeLimit limits scope messages = .invoked receive →
    ((readBody messages).body.length : Int) ≤ scope.limit limits
  same : ∀ receive, sizeLimit limits scope messages = .invoked receive →
    (readBody receive).body = (readBody messages).body
  uncut : ∀ receive body, sizeLimit limits scope messages = .invoked receive →
    readBody receive = .complete body → readBody messages = .complete body

/-- The client goes away in the middle of a body which has no length, before any byte of it or while
it is not too large. -/
def CutOff (limits : SizeLimits) (scope : Scope) (messages : List Message) : Prop :=
  scope.contentLength = none ∧ ∃ body, readBody messages = .disconnected body ∧
    (messages.head? = some .disconnect ∨ (body.length : Int) ≤ scope.limit limits)

section Streaming

variable {limit : Int} {chunks : List (List UInt8)}

theorem collect_cases (messages : List Message) (fits : (chunks.flatten.length : Int) ≤ limit) :
    if limit < (chunks.flatten.length + (readBody messages).body.length : Nat) then
      collect limit chunks chunks.flatten.length messages = .exceeded
    else
      match readBody messages with
      | .waiting _ => collect limit chunks chunks.flatten.length messages = .waiting
      | read => ∃ before later,
          collect limit chunks chunks.flatten.length messages = .left before later ∧
            before.flatten = chunks.flatten ++ read.body := by
  induction messages generalizing chunks with
  | nil =>
      rw [readBody, BodyRead.body, List.length_nil, Nat.add_zero, if_neg (by omega)]
      rfl
  | cons message later induction =>
      cases message with
      | disconnect =>
          rw [readBody, BodyRead.body, List.length_nil, Nat.add_zero, if_neg (by omega)]
          exact ⟨chunks, later, rfl, (List.append_nil _).symm⟩
      | request body moreBody =>
          have extended : (chunks ++ [body.getD []]).flatten = chunks.flatten ++ body.getD [] := by
            simp
          have total : (chunks ++ [body.getD []]).flatten.length =
              chunks.flatten.length + (body.getD []).length := by
            rw [extended, List.length_append]
          rw [readBody, collect]
          by_cases large : limit < (chunks.flatten.length + (body.getD []).length : Nat)
          case pos =>
              have larger : limit < (chunks.flatten.length + (if moreBody.getD false then
                  (readBody later).onto (body.getD []) else .complete (body.getD [])).body.length :
                  Nat) := by
                split
                · rw [BodyRead.body_onto, List.length_append]
                  omega
                · exact large
              rw [if_pos larger, if_pos large]
          case neg =>
              rw [if_neg large]
              cases moreBody.getD false with
              | false =>
                  have smaller : ¬ limit < (chunks.flatten.length +
                      (BodyRead.complete (body.getD [])).body.length : Nat) :=
                    large
                  simp only [Bool.false_eq_true, if_false]
                  rw [if_neg smaller]
                  exact ⟨chunks ++ [body.getD []], later, rfl, extended⟩
              | true =>
                  simp only [if_true]
                  rw [BodyRead.body_onto, List.length_append, ← Nat.add_assoc, ← total]
                  have rest := @induction (chunks ++ [body.getD []]) (by omega)
                  split
                  case isTrue larger =>
                      rwa [if_pos larger] at rest
                  case isFalse smaller =>
                      rw [if_neg smaller] at rest
                      revert rest
                      cases readBody later with
                      | waiting read => exact id
                      | complete read =>
                          rintro ⟨before, later, left, joined⟩
                          exact ⟨before, later, left, by
                            rw [joined, extended, List.append_assoc]; rfl⟩
                      | disconnected read =>
                          rintro ⟨before, later, left, joined⟩
                          exact ⟨before, later, left, by
                            rw [joined, extended, List.append_assoc]; rfl⟩

end Streaming

section Whole

variable {limits : SizeLimits} {scope : Scope} {messages : List Message}

theorem sizeLimit_of_length {length : Int} (read : scope.contentLength = some length) :
    sizeLimit limits scope messages =
      if scope.limit limits < length then .answered (tooLarge scope) else .invoked messages := by
  rw [sizeLimit, read]

theorem sizeLimit_of_unread (unread : scope.contentLength = none) :
    sizeLimit limits scope messages =
      match collect (scope.limit limits) [] 0 messages with
      | .exceeded => .answered (tooLarge scope)
      | .left chunks later => .invoked (makeReplay chunks later)
      | .waiting => .waiting := by
  rw [sizeLimit, unread]

theorem sizeLimit_of_left (unread : scope.contentLength = none) {chunks : List (List UInt8)}
    {later : List Message}
    (left : collect (scope.limit limits) [] 0 messages = .left chunks later) :
    sizeLimit limits scope messages = .invoked (makeReplay chunks later) := by
  rw [sizeLimit_of_unread unread, left]

theorem PassesWhole.of_not_invoked
    (refused : ∀ receive, sizeLimit limits scope messages ≠ .invoked receive) :
    PassesWhole limits scope messages where
  within receive invoked := absurd invoked (refused receive)
  same receive invoked := absurd invoked (refused receive)
  uncut receive _ invoked := absurd invoked (refused receive)

theorem PassesWhole.of_length {length : Int} (read : scope.contentLength = some length)
    (delivers : Delivers scope messages) : PassesWhole limits scope messages := by
  have handed (receive : List Message)
      (invoked : sizeLimit limits scope messages = .invoked receive) :
      length ≤ scope.limit limits ∧ receive = messages := by
    rw [sizeLimit_of_length read] at invoked
    split at invoked
    · cases invoked
    next small =>
      cases invoked
      exact ⟨Int.not_lt.mp small, rfl⟩
  refine ⟨fun receive invoked => ?_, fun receive invoked => ?_,
    fun receive body invoked ended => ?_⟩
  · exact Int.le_trans (delivers length read).1 (handed receive invoked).1
  · rw [(handed receive invoked).2]
  · rwa [(handed receive invoked).2] at ended

theorem PassesWhole.of_replayed (unread : scope.contentLength = none) {body : List UInt8}
    (ended : readBody messages = .complete body) (small : (body.length : Int) ≤ scope.limit limits)
    {chunks : List (List UInt8)} {later : List Message}
    (left : collect (scope.limit limits) [] 0 messages = .left chunks later)
    (joined : chunks.flatten = body) : PassesWhole limits scope messages := by
  have handed (receive : List Message)
      (invoked : sizeLimit limits scope messages = .invoked receive) :
      readBody receive = .complete body := by
    rw [sizeLimit_of_left unread left] at invoked
    cases invoked
    rw [makeReplay, readBody, ← joined]
    rfl
  refine ⟨fun receive invoked => ?_, fun receive invoked => ?_,
    fun receive read invoked whole => ?_⟩
  · rw [ended]
    exact small
  · rw [handed receive invoked, ended]
  · rw [ended, ← whole, handed receive invoked]

theorem not_passesWhole_of_left (unread : scope.contentLength = none) {body : List UInt8}
    (cut : readBody messages = .disconnected body) {chunks : List (List UInt8)}
    {later : List Message}
    (left : collect (scope.limit limits) [] 0 messages = .left chunks later) :
    ¬ PassesWhole limits scope messages := by
  intro passes
  have replayed : readBody (makeReplay chunks later) = .complete chunks.flatten := rfl
  have whole := passes.uncut _ _ (sizeLimit_of_left unread left) replayed
  rw [cut] at whole
  cases whole

/-- A client which goes away at once leaves an empty body, which is handed on as complete. -/
theorem passesWhole_iff_of_gone (unread : scope.contentLength = none)
    (first : messages.head? = some .disconnect) :
    PassesWhole limits scope messages ↔ ¬ CutOff limits scope messages := by
  obtain ⟨later, rfl⟩ := List.head?_eq_some_iff.mp first
  exact iff_of_false (not_passesWhole_of_left unread rfl rfl)
    (not_not_intro ⟨unread, [], rfl, .inl rfl⟩)

theorem passesWhole_iff_of_negative (unread : scope.contentLength = none)
    (first : messages.head? ≠ some .disconnect) (negative : scope.limit limits < 0) :
    PassesWhole limits scope messages ↔ ¬ CutOff limits scope messages := by
  refine iff_of_true (.of_not_invoked fun receive invoked => ?_) ?_
  · rw [sizeLimit_of_unread unread] at invoked
    cases messages with
    | nil => cases invoked
    | cons message later =>
        cases message with
        | disconnect => exact first rfl
        | request body moreBody =>
            rw [collect, if_pos (by omega)] at invoked
            cases invoked
  · rintro ⟨-, body, -, head | small⟩
    · exact first head
    · omega

theorem passesWhole_iff_of_unread (unread : scope.contentLength = none)
    (first : messages.head? ≠ some .disconnect) (nonneg : 0 ≤ scope.limit limits) :
    PassesWhole limits scope messages ↔ ¬ CutOff limits scope messages := by
  have collected := @collect_cases (scope.limit limits) [] messages nonneg
  rw [List.flatten_nil, List.length_nil, Nat.zero_add] at collected
  split at collected
  case isTrue large =>
      refine iff_of_true (.of_not_invoked fun receive invoked => ?_) ?_
      · rw [sizeLimit_of_unread unread, collected] at invoked
        cases invoked
      · rintro ⟨-, body, cut, head | small⟩
        · exact first head
        · rw [cut] at large
          exact absurd small (Int.not_le.mpr large)
  case isFalse fits =>
      cases ended : readBody messages with
      | waiting body =>
          rw [ended] at collected
          refine iff_of_true (.of_not_invoked fun receive invoked => ?_) ?_
          · rw [sizeLimit_of_unread unread, collected] at invoked
            cases invoked
          · rintro ⟨-, other, cut, -⟩
            rw [ended] at cut
            cases cut
      | complete body =>
          rw [ended] at collected fits
          obtain ⟨chunks, later, left, joined⟩ := collected
          refine iff_of_true (.of_replayed unread ended (Int.not_lt.mp fits) left joined) ?_
          rintro ⟨-, other, cut, -⟩
          rw [ended] at cut
          cases cut
      | disconnected body =>
          rw [ended] at collected fits
          obtain ⟨chunks, later, left, -⟩ := collected
          exact iff_of_false (not_passesWhole_of_left unread ended left)
            (not_not_intro ⟨unread, body, ended, .inr (Int.not_lt.mp fits)⟩)

/-- For all limits, headers, paths and sequences of messages: a body passes whole or not at all, if
and only if the client does not go away in the middle of a body without a length. -/
theorem bodies_pass_whole_iff (limits : SizeLimits) (scope : Scope) (messages : List Message)
    (delivers : Delivers scope messages) :
    PassesWhole limits scope messages ↔ ¬ CutOff limits scope messages := by
  cases read : scope.contentLength with
  | some length =>
      refine iff_of_true (.of_length read delivers) fun cut => ?_
      rw [CutOff, read] at cut
      cases cut.1
  | none =>
      by_cases first : messages.head? = some .disconnect
      · exact passesWhole_iff_of_gone read first
      by_cases nonneg : 0 ≤ scope.limit limits
      · exact passesWhole_iff_of_unread read first nonneg
      · exact passesWhole_iff_of_negative read first (Int.not_le.mp nonneg)

end Whole

namespace Sample

/-- A request to a chat which announces three bytes. -/
def announced : Scope := ⟨some "/v1/chat/run", some [(Encoding.encode "content-length", [51])]⟩

/-- A request to a chat without a `Content-Length`. -/
def chunked : Scope := ⟨some "/v1/chat/run", none⟩

/-- Two chunks of a body. -/
def sent : List Message := [.request (some [1, 2]) true, .request (some [3]) none]

/-- Half a body. -/
def aborted : List Message := [.request (some [1, 2]) true, .disconnect]

end Sample

theorem announced_body_passes :
    PassesWhole {} Sample.announced Sample.sent ∧ PassesWhole {} Sample.chunked Sample.sent := by
  have length : Sample.announced.contentLength = some 3 := by decide +kernel
  have whole : readBody Sample.sent = .complete [1, 2, 3] := rfl
  constructor
  · refine (bodies_pass_whole_iff {} Sample.announced Sample.sent fun announced read => ?_).mpr
      fun cut => ?_
    · rw [length] at read
      cases read
      rw [whole]
      exact ⟨le_rfl, fun body complete => by cases complete; rfl⟩
    · rw [CutOff, length] at cut
      cases cut.1
  · refine (bodies_pass_whole_iff {} Sample.chunked Sample.sent fun _ read => by cases read).mpr
      fun cut => ?_
    obtain ⟨-, body, read, -⟩ := cut
    cases read

/-- The first half of a body is handed to the application as the whole of it. -/
theorem half_body_marked_complete :
    sizeLimit {} Sample.chunked Sample.aborted = .invoked [.request (some [1, 2]) false] ∧
      ¬ PassesWhole {} Sample.chunked Sample.aborted :=
  ⟨rfl, not_passesWhole_of_left rfl rfl rfl⟩

end Hermes.Gateway
