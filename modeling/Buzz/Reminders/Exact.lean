import Buzz.Reminders.Claims
import Buzz.Reminders.Versions

/-! Reminders are claimed once and released safely over any interleaving. -/

namespace Buzz.Reminders

open Nostr Buzz.Replace List

namespace State

def HoldsClaim (state : State) (pod : ℕ) (key : Key) : Prop :=
  ∃ attempt, (state.pods pod).phase.attempt = some attempt ∧ attempt.key = key

def Releases (state : State) (claim : Attempt) : Step → Prop
  | .release pod => (state.pods pod).phase = .releasing claim
  | .runDetached number => state.detached number = some (.releaseDueReminder claim)
  | _ => False

end State

structure Step.Kept (state : State) (step : Step) : Prop where
  single : ∀ key first second, (state.after step).HoldsClaim first key →
    (state.after step).HoldsClaim second key → first = second
  released : ∀ key claim, state.deliveredAt key = some claim →
    (state.after step).deliveredAt key ≠ some claim → state.Releases claim step
  offered : ∀ nowSecs batchLimit hosts collation due,
    (state.after step).queryDueReminders nowSecs batchLimit hosts collation = some due →
      ∀ reminder ∈ due, ∀ claim ∈ (state.after step).delivered, claim.key ≠ reminder.key
  current : ∀ reminder, (state.step step).2 = some reminder → state.Current reminder.key

/-- The pod that publishes has missed no newer version since its query. -/
def Step.Within (state : State) : Step → Prop
  | .publish pod | .publishFails pod true =>
    ∀ reminder claim, (state.pods pod).phase = .publishing reminder claim →
      ∀ newer ∈ (state.pods pod).savedSince, ∀ row ∈ state.store.rows,
        rowKey row = reminder.key → supersedes newer row = false
  | _ => True

def State.EachStep (holds : State → Step → Prop) (state : State) : List Step → Prop
  | [] => True
  | step :: rest => holds state step ∧ EachStep holds (state.after step) rest

section steps

variable {state : State} {key : Key} {claim : Attempt}

theorem runStatement_changed {statement : Statement} (isClaimed : state.deliveredAt key = some claim)
    (changed : (state.runStatement statement).1.deliveredAt key ≠ some claim) :
    ∃ released, statement = .releaseDueReminder released ∧ released.key = key := by
  cases statement with
  | claimDueReminder attempt =>
    cases State.runStatement_claim state attempt with
    | inr lost =>
      rw [lost] at changed
      exact absurd isClaimed changed
    | inl won =>
      rw [won.1] at changed
      by_cases same : key = attempt.key
      · rw [same, won.2] at isClaimed
        cases isClaimed
      · simp only [State.setDeliveredAt, if_neg same] at changed
        exact absurd isClaimed changed
  | releaseDueReminder attempt =>
    refine ⟨attempt, rfl, ?_⟩
    by_contra apart
    cases State.runStatement_release state attempt with
    | inr idle =>
      rw [idle] at changed
      exact changed isClaimed
    | inl cleared =>
      rw [cleared] at changed
      simp only [State.setDeliveredAt, if_neg (Ne.symm apart)] at changed
      exact changed isClaimed

variable {step : Step}

theorem State.Claims.released (claims : state.Claims)
    (isClaimed : state.deliveredAt key = some claim)
    (changed : (state.after step).deliveredAt key ≠ some claim) : state.Releases claim step := by
  have owner {holder : Holder} {attempt : Attempt} (holds : state.attemptOf holder = some attempt)
      (same : attempt.key = key) : attempt = claim := by
    have held := claims.claimed holder attempt holds
    rw [same, isClaimed] at held
    exact (Option.some.inj held).symm
  unfold State.after State.step at changed
  cases step with
  | tick pod nowSecs batchLimit hosts collation =>
    dsimp only at changed
    split at changed <;> exact absurd isClaimed changed
  | claim pod deliveryStamp =>
    dsimp only at changed
    split at changed
    · obtain ⟨attempt, isRelease, -⟩ := runStatement_changed isClaimed changed
      cases isRelease
    · exact absurd isClaimed changed
  | loseClaim pod deliveryStamp | publish pod | publishFails pod sent =>
    dsimp only at changed
    split at changed <;> exact absurd isClaimed changed
  | release pod =>
    dsimp only at changed
    split at changed
    next released isPhase =>
      obtain ⟨attempt, isRelease, same⟩ := runStatement_changed isClaimed changed
      cases isRelease
      have isHolder : state.attemptOf (.pod pod) = some released := by
        rw [State.attemptOf, isPhase]
        rfl
      exact owner isHolder same ▸ isPhase
    · exact absurd isClaimed changed
    · exact absurd isClaimed changed
  | loseRelease pod =>
    dsimp only at changed
    split at changed <;> exact absurd isClaimed changed
  | runDetached number =>
    dsimp only at changed
    split at changed
    · exact absurd isClaimed changed
    next statement isDetached =>
      obtain ⟨attempt, isRelease, same⟩ := runStatement_changed isClaimed changed
      have isHolder : state.attemptOf (.detached number) = some attempt := by
        rw [State.attemptOf, isDetached, isRelease]
        rfl
      subst isRelease
      exact owner isHolder same ▸ isDetached
  | crash pod => exact absurd isClaimed changed
  | save communityId event dTag channelId =>
    dsimp only at changed
    unfold State.save at changed
    split at changed
    · split at changed <;> exact absurd isClaimed changed
    · exact absurd isClaimed changed
  | softDeleteEvent communityId eventId | softDeleteByCoordinate communityId kind pubkey dTag =>
    exact absurd isClaimed changed

theorem State.Claims.holdsOne (claims : state.Claims) {first second : ℕ}
    (one : state.HoldsClaim first key) (two : state.HoldsClaim second key) : first = second := by
  obtain ⟨firstClaim, isFirst, firstKey⟩ := one
  obtain ⟨secondClaim, isSecond, secondKey⟩ := two
  have held := claims.claimed (.pod first) firstClaim isFirst
  have again := claims.claimed (.pod second) secondClaim isSecond
  rw [firstKey] at held
  rw [secondKey, held] at again
  cases again
  exact Holder.pod.inj (claims.single (.pod first) (.pod second) firstClaim isFirst isSecond)

variable {reminder : DueReminder}

theorem State.step_delivers (delivers : (state.step step).2 = some reminder) :
    ∃ pod attempt, (step = .publish pod ∨ step = .publishFails pod true) ∧
      (state.pods pod).phase = .publishing reminder attempt := by
  unfold State.step at delivers
  cases step with
  | publish pod =>
    dsimp only at delivers
    split at delivers
    next attempt isPhase =>
      cases delivers
      exact ⟨pod, attempt, Or.inl rfl, isPhase⟩
    · cases delivers
    · cases delivers
  | publishFails pod sent =>
    dsimp only at delivers
    split at delivers
    next attempt isPhase =>
      cases sent with
      | false => cases delivers
      | true =>
        cases delivers
        exact ⟨pod, attempt, Or.inr rfl, isPhase⟩
    · cases delivers
    · cases delivers
  | tick pod nowSecs batchLimit hosts collation | claim pod deliveryStamp
  | loseClaim pod deliveryStamp | release pod | loseRelease pod | runDetached number =>
    dsimp only at delivers
    split at delivers <;> cases delivers
  | crash pod | save communityId event dTag channelId | softDeleteEvent communityId eventId
  | softDeleteByCoordinate communityId kind pubkey dTag => cases delivers

theorem State.Versions.current_of_within (versions : state.Versions) (within : step.Within state)
    (delivers : (state.step step).2 = some reminder) : state.Current reminder.key := by
  obtain ⟨pod, attempt, isStep, isPhase⟩ := State.step_delivers delivers
  have member : reminder ∈ (state.pods pod).reminders := by
    rw [Pod.reminders, isPhase]
    exact mem_cons_self
  refine (versions.current pod reminder member).mpr ?_
  cases isStep with
  | inl publishes =>
    subst publishes
    exact within reminder attempt isPhase
  | inr fails =>
    subst fails
    exact within reminder attempt isPhase

theorem State.Versions.within_of_current (versions : state.Versions)
    (current : ∀ reminder, (state.step step).2 = some reminder → state.Current reminder.key) :
    step.Within state := by
  have missed {pod : ℕ} {reminder : DueReminder} {attempt : Attempt}
      (isPhase : (state.pods pod).phase = .publishing reminder attempt)
      (isCurrent : state.Current reminder.key) :=
    (versions.current pod reminder (by
      rw [Pod.reminders, isPhase]
      exact mem_cons_self)).mp isCurrent
  cases step with
  | publish pod =>
    intro reminder attempt isPhase
    refine missed isPhase (current reminder ?_)
    unfold State.step
    dsimp only
    rw [isPhase]
  | publishFails pod sent =>
    cases sent with
    | false => exact trivial
    | true =>
      intro reminder attempt isPhase
      refine missed isPhase (current reminder ?_)
      unfold State.step
      dsimp only
      rw [isPhase]
      rfl
  | tick pod nowSecs batchLimit hosts collation | claim pod deliveryStamp
  | loseClaim pod deliveryStamp | release pod | loseRelease pod | runDetached number | crash pod
  | save communityId event dTag channelId | softDeleteEvent communityId eventId
  | softDeleteByCoordinate communityId kind pubkey dTag => exact trivial

theorem State.Claims.kept_iff (claims : state.Claims) (versions : state.Versions) :
    step.Kept state ↔ step.Within state := by
  constructor
  · intro kept
    exact versions.within_of_current kept.current
  · intro within
    have after := claims.step step
    refine ⟨fun key first second one two => after.holdsOne one two,
      fun key claim isClaimed changed => claims.released isClaimed changed,
      fun nowSecs batchLimit hosts collation due queried reminder member claim delivered same => ?_,
      fun reminder delivers => versions.current_of_within within delivers⟩
    obtain ⟨row, -, -, -, unclaimed⟩ := State.mem_queryDueReminders queried member
    have held := (after.delivered claim delivered).1
    rw [same, unclaimed] at held
    cases held

theorem State.Claims.eachStep_iff (claims : state.Claims) (versions : state.Versions)
    (steps : List Step) : state.EachStep (fun state step => step.Kept state) steps ↔
      state.EachStep (fun state step => step.Within state) steps := by
  induction steps generalizing state with
  | nil => exact Iff.rfl
  | cons step rest ih =>
    exact and_congr (claims.kept_iff versions) (ih (claims.step step) (versions.step step))

theorem reminders_exact (steps : List Step) :
    State.start.EachStep (fun state step => step.Kept state) steps ↔
      State.start.EachStep (fun state step => step.Within state) steps :=
  State.Claims.start.eachStep_iff State.Versions.start steps

end steps

def sampleVersion (id : UInt8) (createdAt : ℕ) : Event where
  id := .fill id
  pubkey := .fill 0
  createdAt
  kind := 30300
  tags := [⟨["d", "dentist"], by simp⟩, ⟨["not_before", "50"], by simp⟩]
  content := ""
  sig := []

def sampleCommunity : CommunityId := ⟨.fill 0⟩

def sampleSave (event : Event) : Step := .save sampleCommunity event "dentist" none

def sampleRun : List Step :=
  [sampleSave (sampleVersion 1 100),
    .tick 0 60 100 (fun _ => some "relay.example") (fun _ _ => true),
    sampleSave (sampleVersion 2 101), .claim 0 7, .publish 0]

theorem superseded_delivered :
    ¬ State.start.EachStep (fun state step => step.Kept state) sampleRun := by
  intro kept
  have current := kept.2.2.2.2.1.current
    ⟨sampleCommunity, "relay.example", sampleVersion 1 100, 100, none⟩ (by decide +kernel)
  unfold State.Current at current
  revert current
  decide +kernel

end Buzz.Reminders
