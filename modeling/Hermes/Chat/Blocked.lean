import Hermes.Chat.History

/-!
# What a blocked request leaves

`run` stores the message of the user first and asks the policy then.  A sequence of messages is
compared with the one from which those are taken out which the policy denied or which lost the
trial to another chat: the steps that are stored and the messages that are sent.
-/

namespace Hermes.Chat

open Policy (BlockReason Decision Mode evaluate)

/-! ## Messages one after another -/

/-- What happens to a chat whose messages are never edited. -/
inductive Occasion
  /-- A message; `taken` tells that another chat takes the trial after the policy has read it. -/
  | message (near : Surroundings) (taken : Bool) (content : List Block)
  /-- What the user's other chats make of the trial and the wallet. -/
  | elsewhere (trialUsed : Bool) (account : Wallet.Account)

/-- `run` without an edit, while another chat may take the trial before it is claimed. -/
def runAmid (settings : Settings) (near : Surroundings) (taken : Bool) (world : World)
    (content : List Block) : Attempt :=
  let begun := { world with chat := RunRequest.begin ⟨content, none⟩ world.chat }
  let state := policyState near begun
  match evaluate state world.chat.mode with
  | .blocked reason => ⟨begun, .ok (blocked reason), []⟩
  | .allowed =>
      let plan := billingPlan state world.chat.mode
      if plan.markTrial then
        let raced := { begun with trialUsed := begun.trialUsed || taken }
        match claimTrial raced with
        -- `claim_trial` commits whether or not it has won.
        | none => ⟨raced, .ok (blocked .trialUsed), []⟩
        | some claimed => generate settings near true plan world.chat.next claimed claimed
      else generate settings near false plan world.chat.next world begun

def Occasion.attempt (settings : Settings) (world : World) : Occasion → Attempt
  | .message near taken content => runAmid settings near taken world content
  | .elsewhere trialUsed account => ⟨{ world with trialUsed, account }, .error .other, []⟩

/-- The world after some events, and all the messages sent on the way. -/
def proceed (settings : Settings) : World → List Occasion → World × List (List NeutralMessage)
  | world, [] => (world, [])
  | world, event :: later =>
      let attempt := event.attempt settings world
      let rest := proceed settings attempt.world later
      (rest.1, attempt.sent ++ rest.2)

theorem runAmid_false (settings : Settings) (near : Surroundings) (world : World)
    (content : List Block) :
    runAmid settings near false world content = run settings near world ⟨content, none⟩ := by
  simp only [runAmid, Bool.or_false]
  rfl

/-! ## Without the blocked requests -/

/-- The request is blocked before it generates: the policy denies it, or the trial is gone when it
claims it. -/
def Occasion.denied (world : World) : Occasion → Bool
  | .message near taken _ =>
      match evaluate (policyState near world) world.chat.mode with
      | .blocked _ => true
      | .allowed =>
          (billingPlan (policyState near world) world.chat.mode).markTrial &&
            (world.trialUsed || taken)
  | .elsewhere _ _ => false

/-- The events without the blocked requests.  What other chats did to the trial meanwhile stays. -/
def unblocked (settings : Settings) : World → List Occasion → List Occasion
  | _, [] => []
  | world, event :: later =>
      let after := (event.attempt settings world).world
      (if event.denied world then .elsewhere after.trialUsed after.account else event) ::
        unblocked settings after later

/-- No request is blocked before it generates. -/
def NoneDenied (settings : Settings) : World → List Occasion → Prop
  | _, [] => True
  | world, event :: later =>
      event.denied world = false ∧ NoneDenied settings (event.attempt settings world).world later

/-- A message without the identifier the database gave its tool call. -/
def NeutralMessage.nameless : NeutralMessage → NeutralMessage
  | .tool record => .tool { record with toolCallId := 0 }
  | message => message

/-- What a step says, apart from identifiers. -/
def Step.trace (step : Step) : NeutralMessage × Option Usage :=
  (step.message.nameless, step.usage)

/-- The steps which are stored and the messages which are sent are those of the sequence without
the blocked requests. -/
def Traceless (settings : Settings) (world : World) (events : List Occasion) : Prop :=
  let whole := proceed settings world events
  let rest := proceed settings world (unblocked settings world events)
  whole.1.chat.steps.map Step.trace = rest.1.chat.steps.map Step.trace ∧
    whole.2.map (List.map NeutralMessage.nameless) =
      rest.2.map (List.map NeutralMessage.nameless)

/-! ## Counting the messages of the user -/

namespace Session

def users (chat : Session) : Nat := chat.steps.countP Step.isUser

theorem countP_insertStep (test : Step → Bool) (step : Step) (steps : List Step) :
    (insertStep step steps).countP test = steps.countP test + if test step then 1 else 0 := by
  induction steps with
  | nil => simp [insertStep, List.countP_cons]
  | cons first later induction =>
      rw [insertStep]
      split
      · rw [List.countP_cons]
      · rw [List.countP_cons, induction, List.countP_cons]
        omega

theorem users_addStep (chat : Session) (turn : Nat) (payload : Payload) (usage : Option Usage) :
    (chat.addStep turn payload usage).users =
      chat.users + if Step.isUser ⟨chat.next, turn, payload, usage⟩ then 1 else 0 :=
  countP_insertStep ..

end Session

theorem Written.users {turn : Nat} {before after : Session} (written : Written turn before after) :
    after.users = before.users := by
  induction written with
  | refl => rfl
  | reply written content usage induction =>
      rw [Session.users_addStep, induction]
      rfl
  | handOut written tool client providerId args induction => exact induction
  | finish written use args execution induction =>
      rw [finishServerSide, Session.users_addStep]
      exact induction
  | answer written record status result done own induction =>
      rw [Session.users_addStep]
      exact induction

theorem Written.mode {turn : Nat} {before after : Session} (written : Written turn before after) :
    after.mode = before.mode := by
  induction written with
  | refl => rfl
  | reply written content usage induction => exact induction
  | handOut written tool client providerId args induction => exact induction
  | finish written use args execution induction => exact induction
  | answer written record status result done own induction => exact induction

/-- The message of a request is stored: all are but one which is allowed to use a key that is
gone. -/
def Occasion.stored (mode : Mode) : Occasion → Bool
  | .message near _ _ =>
      !(mode == .byok && !near.keyAvailable &&
        evaluate ⟨near.subscriptionStatus, false, 0, near.byokEnabled, near.byokStatus⟩ .byok ==
          .allowed)
  | .elsewhere _ _ => false

section Counting

variable {settings : Settings} {world : World}

theorem users_begin (content : List Block) (chat : Session) :
    (RunRequest.begin ⟨content, none⟩ chat).users = chat.users + 1 :=
  Session.users_addStep ..

/-- A generation writes behind the state it starts from, unless the key is gone: then everything
since the last commit is. -/
theorem generate_cases (settings : Settings) (near : Surroundings) (claimed : Bool)
    (plan : BillingPlan) (turn : Nat) (before begun : World) :
    let after := (generate settings near claimed plan turn before begun).world.chat
    (begun.chat.mode = .byok ∧ near.keyAvailable = false ∧ after = before.chat) ∨
      (¬ (begun.chat.mode = .byok ∧ near.keyAvailable = false) ∧
        Written turn begun.chat after) := by
  rw [generate]
  split
  next gone => exact .inl ⟨gone.1, by simpa using gone.2, rfl⟩
  next keyed =>
    have written := generateLoop_written settings near plan turn
      (settings.maxServerToolRounds + 1) 0 begun []
    refine .inr ⟨by simpa using keyed, ?_⟩
    rw [Attempt.reconcile]
    split <;> exact written

theorem evaluate_byok (near : Surroundings) (world : World) :
    evaluate (policyState near world) .byok =
      evaluate ⟨near.subscriptionStatus, false, 0, near.byokEnabled, near.byokStatus⟩ .byok := rfl

theorem markTrial_mode {state : Policy.PolicyState} {mode : Mode}
    (marks : (billingPlan state mode).markTrial = true) : mode = .credits := by
  cases mode with
  | credits => rfl
  | byok => cases marks

theorem Occasion.stored_of_denied {occasion : Occasion} (denied : occasion.denied world = true) :
    occasion.stored world.chat.mode = true := by
  cases occasion with
  | elsewhere trialUsed account => cases denied
  | message near taken content =>
      simp only [Occasion.denied] at denied
      split at denied
      next reason blocked =>
        cases mode : world.chat.mode with
        | credits => rfl
        | byok =>
            rw [mode, evaluate_byok] at blocked
            simp [Occasion.stored, blocked]
      · rw [Bool.and_eq_true] at denied
        rw [markTrial_mode denied.1]
        rfl

/-- What a message comes to: it is denied and stored all the same, it is lost with the key it was
to use, or it is stored and replies are written behind it. -/
theorem runAmid_cases (near : Surroundings) (taken : Bool) (content : List Block) :
    let occasion := Occasion.message near taken content
    let begun := RunRequest.begin ⟨content, none⟩ world.chat
    let after := (runAmid settings near taken world content).world.chat
    (occasion.denied world = true ∧ after = begun) ∨
      (occasion.denied world = false ∧ occasion.stored world.chat.mode = false ∧
        after = world.chat) ∨
      (occasion.denied world = false ∧ occasion.stored world.chat.mode = true ∧
        Written world.chat.next begun after) := by
  intro occasion begun after
  have policy : policyState near { world with chat := begun } = policyState near world := rfl
  simp only [after, runAmid, occasion, Occasion.denied]
  rw [show RunRequest.begin ⟨content, none⟩ world.chat = begun from rfl, policy]
  cases decided : evaluate (policyState near world) world.chat.mode with
  | blocked reason => exact .inl ⟨rfl, rfl⟩
  | allowed =>
      simp only
      split
      next marks =>
        have credits := markTrial_mode marks
        have stored : (Occasion.message near taken content).stored world.chat.mode = true := by
          rw [credits]
          rfl
        simp only [marks, Bool.true_and]
        split
        next lost => exact .inl ⟨claimTrial_eq_none.mp lost, rfl⟩
        next claimed claims =>
          have chat := claimTrial_chat claims
          have unused := (claimTrial_eq_some.mp claims).1
          refine .inr (.inr ⟨unused, stored, ?_⟩)
          obtain ⟨byok, -, -⟩ | ⟨-, written⟩ := generate_cases settings near true
            (billingPlan (policyState near world) world.chat.mode) world.chat.next claimed claimed
          · rw [chat] at byok
            exact absurd (credits.symm.trans byok) nofun
          · rw [chat] at written
            exact written
      next unmarked =>
        have undenied : ((billingPlan (policyState near world) world.chat.mode).markTrial &&
            (world.trialUsed || taken)) = false := by
          rw [Bool.eq_false_iff.mpr unmarked, Bool.false_and]
        obtain ⟨byok, gone, kept⟩ | ⟨keyed, written⟩ := generate_cases settings near false
          (billingPlan (policyState near world) world.chat.mode) world.chat.next world
          { world with chat := begun }
        · have mode : world.chat.mode = .byok := byok
          rw [mode, evaluate_byok] at decided
          refine .inr (.inl ⟨undenied, ?_, kept⟩)
          simp [Occasion.stored, mode, gone, decided]
        · refine .inr (.inr ⟨undenied, ?_, written⟩)
          have either : world.chat.mode ≠ .byok ∨ near.keyAvailable = true := by
            by_cases mode : world.chat.mode = .byok
            · exact .inr (by simpa using fun gone => keyed ⟨mode, gone⟩)
            · exact .inl mode
          obtain credits | keyed := either
          · simp [Occasion.stored, credits]
          · simp [Occasion.stored, keyed]

theorem Occasion.attempt_users (settings : Settings) (occasion : Occasion) (world : World) :
    let after := (occasion.attempt settings world).world.chat
    after.users = world.chat.users + (if occasion.stored world.chat.mode then 1 else 0) ∧
      after.mode = world.chat.mode := by
  cases occasion with
  | elsewhere trialUsed account => exact ⟨rfl, rfl⟩
  | message near taken content =>
      intro after
      have begun := users_begin content world.chat
      obtain ⟨denied, same⟩ | ⟨-, unstored, same⟩ | ⟨-, stored, written⟩ :=
        runAmid_cases near taken content
      · rw [Occasion.stored_of_denied denied, if_pos rfl, ← begun]
        exact ⟨congrArg Session.users same, (congrArg Session.mode same).trans rfl⟩
      · rw [unstored, if_neg Bool.false_ne_true]
        exact ⟨congrArg Session.users same, congrArg Session.mode same⟩
      · rw [stored, if_pos rfl, ← begun]
        exact ⟨written.users, written.mode⟩

theorem proceed_users (occasions : List Occasion) (world : World) :
    (proceed settings world occasions).1.chat.users =
      world.chat.users + occasions.countP (Occasion.stored world.chat.mode) := by
  induction occasions generalizing world with
  | nil => rfl
  | cons occasion later induction =>
      obtain ⟨counted, mode⟩ := occasion.attempt_users settings world
      rw [proceed, List.countP_cons, induction, counted, mode]
      omega

theorem countP_unblocked (occasions : List Occasion) (world : World) :
    (unblocked settings world occasions).countP (Occasion.stored world.chat.mode) ≤
        occasions.countP (Occasion.stored world.chat.mode) ∧
      ((unblocked settings world occasions).countP (Occasion.stored world.chat.mode) =
          occasions.countP (Occasion.stored world.chat.mode) →
        NoneDenied settings world occasions) := by
  induction occasions generalizing world with
  | nil => exact ⟨le_rfl, fun _ => trivial⟩
  | cons occasion later induction =>
      obtain ⟨-, mode⟩ := occasion.attempt_users settings world
      have rest := induction (occasion.attempt settings world).world
      rw [mode] at rest
      rw [unblocked, List.countP_cons, List.countP_cons]
      cases denied : occasion.denied world with
      | true =>
          rw [if_pos rfl, Occasion.stored_of_denied denied]
          simp only [Occasion.stored, Bool.false_eq_true, if_false, if_true]
          refine ⟨by omega, fun same => ?_⟩
          omega
      | false =>
          rw [if_neg Bool.false_ne_true]
          refine ⟨by omega, fun same => ⟨denied, rest.2 (by omega)⟩⟩

end Counting

theorem users_eq_of_trace {first second : Session}
    (same : first.steps.map Step.trace = second.steps.map Step.trace) :
    first.users = second.users := by
  have counted (chat : Session) : chat.users =
      (chat.steps.map Step.trace).countP fun trace => trace.1 matches .user _ := by
    rw [List.countP_map, Session.users]
    congr 1
    funext step
    rw [Function.comp_apply, Step.trace, Step.message, Step.isUser]
    cases step.payload <;> rfl
  rw [counted, counted, same]

theorem unblocked_eq {settings : Settings} {world : World} {occasions : List Occasion}
    (none : NoneDenied settings world occasions) :
    unblocked settings world occasions = occasions := by
  induction occasions generalizing world with
  | nil => rfl
  | cons occasion later induction =>
      obtain ⟨undenied, rest⟩ := none
      rw [unblocked, undenied, if_neg Bool.false_ne_true, induction rest]

/-- A sequence of messages leaves the steps and the messages of the sequence without the blocked
requests exactly when no request is blocked: each one which is leaves its message behind. -/
theorem blocked_requests_traceless_iff (settings : Settings) (world : World)
    (occasions : List Occasion) :
    Traceless settings world occasions ↔ NoneDenied settings world occasions := by
  constructor
  · rintro ⟨steps, -⟩
    have same := users_eq_of_trace steps
    rw [proceed_users, proceed_users] at same
    exact (countP_unblocked occasions world).2 (by omega)
  · intro none
    rw [Traceless, unblocked_eq none]
    exact ⟨rfl, rfl⟩

namespace Sample

/-- A message which is denied as the key of the user was found invalid. -/
def deniedMessage : Occasion :=
  .message { near finalText with byokStatus := .invalid } false [.typed (.text "first")]

/-- A message which is answered. -/
def allowedMessage : Occasion := .message (near finalText) false [.typed (.text "second")]

/-- The message which was denied is sent with the next one, and stored before it. -/
theorem denied_message_sent :
    ¬ ∀ (settings : Settings) (world : World) (occasions : List Occasion),
      Traceless settings world occasions := by
  intro always
  have lengths := congrArg List.length (always settings start [deniedMessage, allowedMessage]).1
  exact absurd lengths (by decide)

end Sample

end Hermes.Chat
