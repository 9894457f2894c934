import Buzz.Reminders.Scheduler

/-! Who holds the claim of a reminder. -/

namespace Buzz.Reminders

open Nostr Buzz.Replace

inductive Holder
  | pod (pod : ℕ)
  | detached (number : ℕ)
  deriving DecidableEq

def Phase.attempt : Phase → Option Attempt
  | .idle => none
  | .publishing _ attempt => some attempt
  | .releasing attempt => some attempt

def Statement.released : Statement → Option Attempt
  | .claimDueReminder _ => none
  | .releaseDueReminder attempt => some attempt

namespace State

def attemptOf (state : State) : Holder → Option Attempt
  | .pod pod => (state.pods pod).phase.attempt
  | .detached number => (state.detached number).bind Statement.released

structure Claims (state : State) : Prop where
  claimed : ∀ holder attempt, state.attemptOf holder = some attempt →
    state.deliveredAt attempt.key = some attempt
  single : ∀ first second attempt, state.attemptOf first = some attempt →
    state.attemptOf second = some attempt → first = second
  numbered : ∀ number attempt, state.attemptOf (.detached number) = some attempt →
    attempt.number = number
  delivered : ∀ attempt ∈ state.delivered, state.deliveredAt attempt.key = some attempt ∧
    ∀ holder, state.attemptOf holder ≠ some attempt

section shapes

variable {before after : State} {claim : Attempt}

theorem Claims.fewer (claims : before.Claims) (column : after.deliveredAt = before.deliveredAt)
    (delivered : after.delivered = before.delivered)
    (holders : ∀ holder attempt, after.attemptOf holder = some attempt →
      before.attemptOf holder = some attempt) : after.Claims where
  claimed holder attempt holds := by
    rw [column]
    exact claims.claimed holder attempt (holders holder attempt holds)
  single first second attempt one two :=
    claims.single first second attempt (holders _ _ one) (holders _ _ two)
  numbered number attempt holds := claims.numbered number attempt (holders _ _ holds)
  delivered attempt member := by
    rw [delivered] at member
    rw [column]
    obtain ⟨claimed, released⟩ := claims.delivered attempt member
    exact ⟨claimed, fun holder holds => released holder (holders holder attempt holds)⟩

theorem Claims.wins (claims : before.Claims) (pod : ℕ)
    (unclaimed : before.deliveredAt claim.key = none)
    (column : ∀ key, after.deliveredAt key =
      if key = claim.key then some claim else before.deliveredAt key)
    (delivered : after.delivered = before.delivered)
    (holders : ∀ holder attempt, after.attemptOf holder = some attempt →
      before.attemptOf holder = some attempt ∨ holder = .pod pod ∧ attempt = claim) :
    after.Claims := by
  have apart {attempt : Attempt} (isClaimed : before.deliveredAt attempt.key = some attempt) :
      attempt.key ≠ claim.key := by
    intro same
    rw [same, unclaimed] at isClaimed
    cases isClaimed
  have older {holder : Holder} {attempt : Attempt}
      (holds : before.attemptOf holder = some attempt) : attempt.key ≠ claim.key :=
    apart (claims.claimed holder attempt holds)
  refine ⟨fun holder attempt holds => ?_, fun first second attempt one two => ?_,
    fun number attempt holds => ?_, fun attempt member => ?_⟩
  · rw [column]
    cases holders holder attempt holds with
    | inl old =>
      rw [if_neg (older old)]
      exact claims.claimed holder attempt old
    | inr new => rw [new.2, if_pos rfl]
  · cases holders first attempt one with
    | inl oldOne =>
      cases holders second attempt two with
      | inl oldTwo => exact claims.single first second attempt oldOne oldTwo
      | inr newTwo => exact absurd (congrArg Attempt.key newTwo.2) (older oldOne)
    | inr newOne =>
      cases holders second attempt two with
      | inl oldTwo => exact absurd (congrArg Attempt.key newOne.2) (older oldTwo)
      | inr newTwo => exact newOne.1.trans newTwo.1.symm
  · cases holders _ attempt holds with
    | inl old => exact claims.numbered number attempt old
    | inr new => cases new.1
  · rw [delivered] at member
    obtain ⟨isClaimed, released⟩ := claims.delivered attempt member
    rw [column, if_neg (apart isClaimed)]
    refine ⟨isClaimed, fun holder holds => ?_⟩
    cases holders holder attempt holds with
    | inl old => exact released holder old
    | inr new => exact absurd (congrArg Attempt.key new.2) (apart isClaimed)

theorem Claims.clears {holder : Holder} (claims : before.Claims)
    (isHolder : before.attemptOf holder = some claim)
    (column : ∀ key, after.deliveredAt key = if key = claim.key then none else before.deliveredAt key)
    (delivered : after.delivered = before.delivered)
    (holders : ∀ other attempt, after.attemptOf other = some attempt →
      before.attemptOf other = some attempt ∧ other ≠ holder) : after.Claims := by
  have apart {attempt : Attempt} (isClaimed : before.deliveredAt attempt.key = some attempt)
      (different : attempt ≠ claim) : attempt.key ≠ claim.key := by
    intro same
    have held := claims.claimed holder claim isHolder
    rw [same] at isClaimed
    exact different (Option.some.inj (isClaimed.symm.trans held))
  have others {other : Holder} {attempt : Attempt} (holds : before.attemptOf other = some attempt)
      (elsewhere : other ≠ holder) : attempt ≠ claim := by
    intro same
    rw [same] at holds
    exact elsewhere (claims.single other holder claim holds isHolder)
  refine ⟨fun other attempt holds => ?_, fun first second attempt one two =>
    claims.single first second attempt (holders _ _ one).1 (holders _ _ two).1,
    fun number attempt holds => claims.numbered number attempt (holders _ _ holds).1,
    fun attempt member => ?_⟩
  · obtain ⟨old, elsewhere⟩ := holders other attempt holds
    have isClaimed := claims.claimed other attempt old
    rw [column, if_neg (apart isClaimed (others old elsewhere))]
    exact isClaimed
  · rw [delivered] at member
    obtain ⟨isClaimed, released⟩ := claims.delivered attempt member
    have different : attempt ≠ claim := by
      intro same
      rw [same] at released
      exact released holder isHolder
    rw [column, if_neg (apart isClaimed different)]
    exact ⟨isClaimed, fun other holds => released other (holders other attempt holds).1⟩

theorem Claims.detaches {pod : ℕ} (claims : before.Claims)
    (isHolder : before.attemptOf (.pod pod) = some claim)
    (column : after.deliveredAt = before.deliveredAt)
    (delivered : after.delivered = before.delivered)
    (holders : ∀ holder attempt, after.attemptOf holder = some attempt →
      before.attemptOf holder = some attempt ∧ holder ≠ .pod pod ∨
        holder = .detached claim.number ∧ attempt = claim) : after.Claims := by
  have source {holder : Holder} {attempt : Attempt} (holds : after.attemptOf holder = some attempt) :
      ∃ old, before.attemptOf old = some attempt := by
    cases holders holder attempt holds with
    | inl kept => exact ⟨holder, kept.1⟩
    | inr moved => exact ⟨.pod pod, moved.2 ▸ isHolder⟩
  refine ⟨fun holder attempt holds => ?_, fun first second attempt one two => ?_,
    fun number attempt holds => ?_, fun attempt member => ?_⟩
  · rw [column]
    obtain ⟨old, held⟩ := source holds
    exact claims.claimed old attempt held
  · have elsewhere {holder : Holder} (kept : before.attemptOf holder = some attempt)
        (apart : holder ≠ .pod pod) (same : attempt = claim) : False := by
      rw [same] at kept
      exact apart (claims.single holder (.pod pod) claim kept isHolder)
    cases holders first attempt one with
    | inl keptOne =>
      cases holders second attempt two with
      | inl keptTwo => exact claims.single first second attempt keptOne.1 keptTwo.1
      | inr movedTwo => exact (elsewhere keptOne.1 keptOne.2 movedTwo.2).elim
    | inr movedOne =>
      cases holders second attempt two with
      | inl keptTwo => exact (elsewhere keptTwo.1 keptTwo.2 movedOne.2).elim
      | inr movedTwo => exact movedOne.1.trans movedTwo.1.symm
  · cases holders _ attempt holds with
    | inl kept => exact claims.numbered number attempt kept.1
    | inr moved =>
      cases moved.1
      rw [moved.2]
  · rw [delivered] at member
    rw [column]
    obtain ⟨isClaimed, released⟩ := claims.delivered attempt member
    refine ⟨isClaimed, fun holder holds => ?_⟩
    obtain ⟨old, held⟩ := source holds
    exact released old held

theorem Claims.delivers {holder : Holder} (claims : before.Claims)
    (isHolder : before.attemptOf holder = some claim)
    (column : after.deliveredAt = before.deliveredAt)
    (delivered : after.delivered = claim :: before.delivered)
    (holders : ∀ other attempt, after.attemptOf other = some attempt →
      before.attemptOf other = some attempt ∧ other ≠ holder) : after.Claims := by
  refine ⟨fun other attempt holds => ?_, fun first second attempt one two =>
    claims.single first second attempt (holders _ _ one).1 (holders _ _ two).1,
    fun number attempt holds => claims.numbered number attempt (holders _ _ holds).1,
    fun attempt member => ?_⟩
  · rw [column]
    exact claims.claimed other attempt (holders other attempt holds).1
  · rw [delivered] at member
    rw [column]
    cases List.mem_cons.mp member with
    | inl same =>
      rw [same]
      refine ⟨claims.claimed holder claim isHolder, fun other holds => ?_⟩
      obtain ⟨old, elsewhere⟩ := holders other claim holds
      exact elsewhere (claims.single other holder claim old isHolder)
    | inr old =>
      obtain ⟨isClaimed, released⟩ := claims.delivered attempt old
      exact ⟨isClaimed, fun other holds => released other (holders other attempt holds).1⟩

end shapes

section steps

variable {state : State} {pod number : ℕ} {value : Pod} {holder : Holder} {attempt claim : Attempt}

theorem attemptOf_setPod (holds : (state.setPod pod value).attemptOf holder = some attempt) :
    state.attemptOf holder = some attempt ∧ holder ≠ .pod pod ∨
      holder = .pod pod ∧ value.phase.attempt = some attempt := by
  cases holder with
  | detached number => exact .inl ⟨holds, nofun⟩
  | pod other =>
    by_cases same : other = pod
    · subst same
      simp only [attemptOf, setPod, if_pos] at holds
      exact .inr ⟨rfl, holds⟩
    · simp only [attemptOf, setPod, if_neg same] at holds
      exact .inl ⟨holds, fun wrong => same (Holder.pod.inj wrong)⟩

theorem attemptOf_setDetached {statement : Option Statement}
    (holds : (state.setDetached number statement).attemptOf holder = some attempt) :
    state.attemptOf holder = some attempt ∧ holder ≠ .detached number ∨
      holder = .detached number ∧ statement.bind Statement.released = some attempt := by
  cases holder with
  | pod pod => exact .inl ⟨holds, nofun⟩
  | detached other =>
    by_cases same : other = number
    · subst same
      simp only [attemptOf, setDetached, if_pos] at holds
      exact .inr ⟨rfl, holds⟩
    · simp only [attemptOf, setDetached, if_neg same] at holds
      exact .inl ⟨holds, fun wrong => same (Holder.detached.inj wrong)⟩

theorem runStatement_attemptOf (statement : Statement) :
    (state.runStatement statement).1.attemptOf holder = state.attemptOf holder := by
  rcases state.runStatement_claims statement with ⟨deliveredAt, same⟩
  rw [same]
  cases holder <;> rfl

theorem runStatement_delivered (statement : Statement) :
    (state.runStatement statement).1.delivered = state.delivered := by
  rcases state.runStatement_claims statement with ⟨deliveredAt, same⟩
  rw [same]

theorem runStatement_claim (state : State) (claim : Attempt) :
    (state.runStatement (.claimDueReminder claim)) = (state.setDeliveredAt claim.key (some claim), true) ∧
        state.deliveredAt claim.key = none ∨
      state.runStatement (.claimDueReminder claim) = (state, false) := by
  unfold runStatement
  dsimp only
  split
  next won =>
    rw [Bool.and_eq_true, Option.isNone_iff_eq_none] at won
    exact .inl ⟨rfl, won.2⟩
  · exact .inr rfl

theorem runStatement_release (state : State) (claim : Attempt) :
    state.runStatement (.releaseDueReminder claim) = (state.setDeliveredAt claim.key none, true) ∨
      state.runStatement (.releaseDueReminder claim) = (state, false) := by
  unfold runStatement
  dsimp only
  split
  · exact .inl rfl
  · exact .inr rfl

theorem Claims.releases {after : State} (claims : state.Claims)
    (isHolder : state.attemptOf holder = some claim)
    (column : after.deliveredAt =
      (state.runStatement (.releaseDueReminder claim)).1.deliveredAt)
    (delivered : after.delivered = state.delivered)
    (holders : ∀ other attempt, after.attemptOf other = some attempt →
      state.attemptOf other = some attempt ∧ other ≠ holder) : after.Claims := by
  cases runStatement_release state claim with
  | inl cleared =>
    refine claims.clears isHolder (fun key => ?_) delivered holders
    rw [column, cleared]
    rfl
  | inr idle =>
    refine claims.fewer ?_ delivered fun other attempt holds => (holders other attempt holds).1
    rw [column, idle]

theorem Claims.step (claims : state.Claims) (step : Step) : (state.after step).Claims := by
  unfold State.after State.step
  cases step with
  | tick pod nowSecs batchLimit hosts collation =>
    dsimp only
    split
    · refine claims.fewer rfl rfl fun holder attempt holds => ?_
      cases attemptOf_setPod holds with
      | inl kept => exact kept.1
      | inr idle => cases idle.2
    · exact claims
  | claim pod deliveryStamp =>
    dsimp only
    split
    next reminder rest isDue isIdle =>
      cases runStatement_claim state ⟨state.attempts, reminder.key, deliveryStamp⟩ with
      | inl won =>
        rw [won.1]
        refine claims.wins pod won.2 (fun key => rfl) rfl fun holder attempt holds => ?_
        cases attemptOf_setPod holds with
        | inl kept =>
          refine .inl ?_
          cases holder <;> exact kept.1
        | inr taken => exact .inr ⟨taken.1, (Option.some.inj taken.2).symm⟩
      | inr lost =>
        rw [lost]
        refine claims.fewer rfl rfl fun holder attempt holds => ?_
        cases attemptOf_setPod holds with
        | inl kept => cases holder <;> exact kept.1
        | inr idle => cases idle.2
    · exact claims
  | loseClaim pod deliveryStamp =>
    dsimp only
    split
    next reminder rest isDue isIdle =>
      refine claims.fewer rfl rfl fun holder attempt holds => ?_
      cases attemptOf_setPod holds with
      | inr idle => cases idle.2
      | inl kept =>
        have holds : (state.setDetached state.attempts (some (.claimDueReminder
            ⟨state.attempts, reminder.key, deliveryStamp⟩))).attemptOf holder = some attempt := by
          cases holder <;> exact kept.1
        cases attemptOf_setDetached holds with
        | inl old => exact old.1
        | inr new => cases new.2
    · exact claims
  | publish pod =>
    dsimp only
    split
    next reminder claim isPhase =>
      have isHolder : state.attemptOf (.pod pod) = some claim := by rw [attemptOf, isPhase]; rfl
      refine claims.delivers isHolder rfl rfl fun other attempt holds => ?_
      cases attemptOf_setPod holds with
      | inl kept => cases other <;> exact kept
      | inr idle => cases idle.2
    · exact claims
    · exact claims
  | publishFails pod sent =>
    dsimp only
    split
    next reminder claim isPhase =>
      refine claims.fewer rfl rfl fun holder attempt holds => ?_
      cases attemptOf_setPod holds with
      | inl kept => exact kept.1
      | inr same =>
        rw [same.1, attemptOf, isPhase]
        exact same.2
    · exact claims
    · exact claims
  | release pod =>
    dsimp only
    split
    next claim isPhase =>
      have isHolder : state.attemptOf (.pod pod) = some claim := by rw [attemptOf, isPhase]; rfl
      refine claims.releases isHolder rfl (runStatement_delivered _) fun other attempt holds => ?_
      cases attemptOf_setPod holds with
      | inl kept =>
        rw [runStatement_attemptOf] at kept
        exact kept
      | inr idle => cases idle.2
    · exact claims
    · exact claims
  | loseRelease pod =>
    dsimp only
    split
    next claim isPhase =>
      have isHolder : state.attemptOf (.pod pod) = some claim := by rw [attemptOf, isPhase]; rfl
      refine claims.detaches isHolder rfl rfl fun other attempt holds => ?_
      cases attemptOf_setPod holds with
      | inr idle => cases idle.2
      | inl kept =>
        cases attemptOf_setDetached kept.1 with
        | inl old => exact .inl ⟨old.1, kept.2⟩
        | inr new => exact .inr ⟨new.1, (Option.some.inj new.2).symm⟩
    · exact claims
    · exact claims
  | runDetached number =>
    dsimp only
    split
    · exact claims
    next statement isDetached =>
      have holders (other : Holder) (attempt : Attempt)
          (holds : ((state.runStatement statement).1.setDetached number none).attemptOf other =
            some attempt) : state.attemptOf other = some attempt ∧ other ≠ .detached number := by
        cases attemptOf_setDetached holds with
        | inl kept =>
          rw [runStatement_attemptOf] at kept
          exact kept
        | inr gone => cases gone.2
      cases statement with
      | releaseDueReminder claim =>
        have isHolder : state.attemptOf (.detached number) = some claim := by
          rw [attemptOf, isDetached]
          rfl
        exact claims.releases isHolder rfl (runStatement_delivered _) holders
      | claimDueReminder claim =>
        cases runStatement_claim state claim with
        | inl won =>
          refine claims.wins 0 won.2 (fun key => ?_) (runStatement_delivered _)
            fun other attempt holds => .inl (holders other attempt holds).1
          rw [won.1]
          rfl
        | inr lost =>
          refine claims.fewer ?_ (runStatement_delivered _)
            fun other attempt holds => (holders other attempt holds).1
          rw [lost]
          rfl
  | crash pod =>
    refine claims.fewer rfl rfl fun holder attempt holds => ?_
    cases attemptOf_setPod holds with
    | inl kept => exact kept.1
    | inr idle => cases idle.2
  | save communityId event dTag channelId =>
    dsimp only
    unfold State.save
    split
    · split
      · exact claims.fewer rfl rfl fun holder attempt holds => by cases holder <;> exact holds
      · exact claims
      · exact claims
    · exact claims
  | softDeleteEvent communityId eventId | softDeleteByCoordinate communityId kind pubkey dTag =>
    exact claims.fewer rfl rfl fun holder attempt holds => by cases holder <;> exact holds

theorem Claims.start : State.start.Claims where
  claimed holder attempt holds := by cases holder <;> cases holds
  single first second attempt one two := by cases first <;> cases one
  numbered number attempt holds := by cases holds
  delivered attempt member := by cases member

end steps

end State

end Buzz.Reminders
