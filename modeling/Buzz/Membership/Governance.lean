import Buzz.Membership.Channels

/-! Who governs a channel, over any order of the membership calls on it. -/

namespace Buzz.Membership

open Nostr Buzz.Channel Library.Results List

inductive Call
  | create (name : String) (channelType : ChannelType) (visibility : ChannelVisibility)
      (createdBy : Bytes)
  | add (pubkey : Bytes) (role : MemberRole) (invitedBy : Option Bytes)
  | remove (pubkey actor : Bytes) (actorIsAgentOwner : Bool)

/-- The channel of one id, once it has been created. -/
abbrev State := Option Channel

namespace State

variable (self : State)

def members : List MemberRow := self.elim [] Channel.members

def activeRole (key : Bytes) : Option MemberRole := self.bind (·.activeRole key)

def ownerCount : ℕ := self.elim 0 Channel.ownerCount

def Elevated (key : Bytes) : Prop := (self.activeRole key).any MemberRole.isElevated

def CreatedBy (key : Bytes) : Prop := ∃ channel, self = some channel ∧ channel.createdBy = key

end State

section calls

variable (channelId : Uuid) (state : State)

def Call.run : Call → Except DbError Channel
  | .create name channelType visibility createdBy =>
    (createChannelWithId channelId state name channelType visibility createdBy).map Prod.fst
  | .add pubkey role invitedBy => addMember channelId state pubkey role invitedBy
  | .remove pubkey actor actorIsAgentOwner =>
    removeMember channelId state pubkey actor actorIsAgentOwner

def Call.after (call : Call) : State :=
  match call.run channelId state with
  | .ok channel => some channel
  | .error _ => state

def afterAll (calls : List Call) : State :=
  calls.foldl (fun state call => call.after channelId state) state

def EachCall (holds : State → Call → Prop) (state : State) : List Call → Prop
  | [] => True
  | call :: rest => holds state call ∧ EachCall holds (call.after channelId state) rest

def Call.ElevatedInviter : Call → Prop
  | .add _ _ (some inviter) => state.Elevated inviter
  | _ => False

structure Call.Governed (call : Call) : Prop where
  ownerKept : 0 < state.ownerCount → 0 < (call.after channelId state).ownerCount
  elevation : ∀ key, ¬ state.Elevated key → (call.after channelId state).Elevated key →
    call.ElevatedInviter state ∨
      (call.after channelId state).CreatedBy key ∧ state.members = []
  roleChange : ∀ key role changed, state.activeRole key = some role →
    (call.after channelId state).activeRole key = some changed → changed ≠ role →
      call.ElevatedInviter state
  errorKept : ∀ error, call.run channelId state = .error error →
    (call.after channelId state).members = state.members

structure GovernedRun (calls : List Call) : Prop where
  each : EachCall channelId (fun state call => call.Governed channelId state) state calls
  ownerKept : 0 < state.ownerCount → 0 < (afterAll channelId state calls).ownerCount

/-- He is an active member, or the first one. -/
def Call.NoRestoration : Call → Prop
  | .add pubkey role (some inviter) => ∀ channel, state = some channel →
      channel.deleted = false → channel.visibility = .private → pubkey.length = 32 →
        inviter = pubkey → pubkey = channel.createdBy → role.isElevated →
          channel.activeRole pubkey = none → channel.members = []
  | _ => True

end calls

variable {channelId : Uuid} {next : Channel}

section specs

variable {channel : Channel} {pubkey : Bytes} {role given : MemberRole} {invitedBy : Option Bytes}

/-- An elevated role takes an elevated inviter, or the creator's own word. -/
theorem Channel.effectiveRole_ok (ok : channel.effectiveRole pubkey role invitedBy = .ok given) :
    given = role ∧ (role.isElevated →
      (invitedBy.bind channel.activeRole).any MemberRole.isElevated ∨
        channel.visibility = .private ∧ invitedBy = some pubkey ∧ pubkey = channel.createdBy) := by
  unfold Channel.effectiveRole at ok
  split at ok
  next isPrivate =>
    split at ok
    · cases ok
    next inviter =>
      split at ok
      next creator =>
        cases ok
        exact ⟨rfl, fun _ => .inr ⟨isPrivate, congrArg some creator.1, creator.1 ▸ creator.2⟩⟩
      · split at ok
        · cases ok
        next inviterRole isRole =>
          split at ok
          · cases ok
          next allowed =>
            cases ok
            refine ⟨rfl, fun elevated => .inl ?_⟩
            rw [Option.bind_some, isRole, Option.any_some]
            simpa [elevated] using allowed
  · split at ok
    · split at ok
      next isOwner =>
        cases ok
        refine ⟨rfl, fun _ => .inl ?_⟩
        rw [isOwner]
        rfl
      next isAdmin =>
        cases ok
        refine ⟨rfl, fun _ => .inl ?_⟩
        rw [isAdmin]
        rfl
      · cases ok
    next plain =>
      cases ok
      exact ⟨rfl, fun elevated => absurd elevated plain⟩

theorem Channel.checkRoleChange_ok {current : MemberRole}
    (ok : channel.checkRoleChange pubkey role invitedBy = .ok ())
    (isCurrent : channel.activeRole pubkey = some current) :
    current = role ∨ (invitedBy.bind channel.activeRole).any MemberRole.isElevated ∧
      (current = .owner → role ≠ .owner → 1 < channel.ownerCount) := by
  unfold Channel.checkRoleChange at ok
  rw [isCurrent] at ok
  dsimp only at ok
  split at ok
  next same => exact .inl same
  · split at ok
    · cases ok
    next allowed =>
      split at ok
      · cases ok
      next several =>
        refine Or.inr ⟨by simpa using allowed, fun isOwner notOwner => ?_⟩
        by_contra few
        exact several ⟨isOwner, notOwner, by omega⟩

theorem addMember_ok {state : State} (ok : addMember channelId state pubkey role invitedBy = .ok next) :
    ∃ channel, state = some channel ∧ channel.deleted = false ∧ pubkey.length = 32 ∧
      channel.effectiveRole pubkey role invitedBy = .ok role ∧
      channel.checkRoleChange pubkey role invitedBy = .ok () ∧
      next = channel.upsertMember pubkey role invitedBy := by
  obtain ⟨_, isLong, ok⟩ := bind_ok ok
  obtain ⟨channel, found, ok⟩ := bind_ok ok
  obtain ⟨given, effective, ok⟩ := bind_ok ok
  obtain ⟨_, checked, ok⟩ := bind_ok ok
  cases ok
  have same := (Channel.effectiveRole_ok effective).1
  subst same
  have length : pubkey.length = 32 := by
    by_contra short
    rw [pubkeyLength, if_pos short] at isLong
    cases isLong
  cases state with
  | none => cases found
  | some other =>
    rw [getChannel] at found
    split at found
    · cases found
    next notDeleted =>
      cases found
      exact ⟨channel, rfl, by simpa using notDeleted, length, effective, checked, rfl⟩

theorem removeMember_ok {state : State} {actor : Bytes} {actorIsAgentOwner : Bool}
    (ok : removeMember channelId state pubkey actor actorIsAgentOwner = .ok next) :
    ∃ channel, state = some channel ∧ next = channel.dropMember pubkey ∧
      (channel.activeRole pubkey = some .owner → 1 < channel.ownerCount) := by
  unfold removeMember at ok
  cases state with
  | none =>
    dsimp only at ok
    split at ok <;> cases ok
  | some channel =>
    dsimp only at ok
    obtain ⟨_, -, ok⟩ := bind_ok ok
    split at ok
    · cases ok
    next several =>
      split at ok
      · cases ok
      · cases ok
        refine ⟨channel, rfl, rfl, fun isOwner => ?_⟩
        by_contra few
        exact several ⟨isOwner, by omega⟩

theorem createChannelWithId_ok {state : State} {name : String} {channelType : ChannelType}
    {visibility : ChannelVisibility} {createdBy : Bytes} {created : Bool}
    (ok : createChannelWithId channelId state name channelType visibility createdBy =
      .ok (next, created)) :
    state = some next ∨ state = none ∧ next.createdBy = createdBy ∧
      next.members = [⟨createdBy, .owner, false, some createdBy⟩] := by
  obtain ⟨_, -, ok⟩ := bind_ok ok
  split at ok
  · cases ok
  · split at ok
    · cases ok
    · split at ok
      · cases ok
        exact .inl rfl
      · cases ok
        exact .inr ⟨rfl, rfl, rfl⟩

end specs

section after

variable {state : State} {call : Call}

theorem Call.after_ok (ok : call.run channelId state = .ok next) :
    call.after channelId state = some next := by
  rw [Call.after, ok]

variable {error : DbError}

theorem Call.after_error (failed : call.run channelId state = .error error) :
    call.after channelId state = state := by
  rw [Call.after, failed]

theorem State.ownerCount_pos :
    0 < state.ownerCount ↔ ∃ key, state.activeRole key = some .owner := by
  cases state with
  | none =>
    simp only [State.ownerCount, State.activeRole, Option.elim_none, Option.bind_none]
    simp
  | some channel => exact Channel.ownerCount_pos

theorem State.elevated_iff {key : Bytes} :
    state.Elevated key ↔ ∃ role, state.activeRole key = some role ∧ role.isElevated := by
  rw [State.Elevated, Option.any_eq_true]

theorem Call.Governed.of_same (same : ∀ key, (call.after channelId state).activeRole key =
      state.activeRole key)
    (errorKept : ∀ error, call.run channelId state = .error error →
      (call.after channelId state).members = state.members) :
    call.Governed channelId state where
  ownerKept kept := by
    obtain ⟨key, isOwner⟩ := State.ownerCount_pos.mp kept
    exact State.ownerCount_pos.mpr ⟨key, (same key).trans isOwner⟩
  elevation key plain elevated := by
    rw [State.Elevated, same key] at elevated
    exact absurd elevated plain
  roleChange key role changed before after apart := by
    rw [same key, before] at after
    cases after
    exact absurd rfl apart
  errorKept

theorem Call.governed_of_error (failed : call.run channelId state = .error error) :
    call.Governed channelId state := by
  have kept := Call.after_error failed
  refine .of_same (fun key => ?_) fun _ _ => ?_
  · rw [kept]
  · rw [kept]

theorem Call.errorKept_of_ok (ok : call.run channelId state = .ok next) (error : DbError)
    (failed : call.run channelId state = .error error) :
    (call.after channelId state).members = state.members := by
  rw [ok] at failed
  cases failed

theorem Call.governed_create {name : String} {channelType : ChannelType}
    {visibility : ChannelVisibility} {createdBy : Bytes} :
    (Call.create name channelType visibility createdBy).Governed channelId state := by
  cases run : (Call.create name channelType visibility createdBy).run channelId state with
  | error error => exact Call.governed_of_error run
  | ok next =>
    have after := Call.after_ok run
    rw [Call.run] at run
    cases created : createChannelWithId channelId state name channelType visibility createdBy with
    | error error =>
      rw [created] at run
      cases run
    | ok made =>
      rw [created] at run
      cases run
      have kept (error : DbError) (failed : (Call.create name channelType visibility
          createdBy).run channelId state = .error error) : _ :=
        Call.errorKept_of_ok (by rw [Call.run, created]; rfl) error failed
      cases createChannelWithId_ok created with
      | inl there =>
        refine .of_same (fun key => ?_) kept
        rw [after, there]
      | inr new =>
        obtain ⟨absent, isCreator, rows⟩ := new
        subst absent
        refine ⟨fun before => absurd before (Nat.lt_irrefl 0), fun key _ elevated => ?_,
          fun key role changed before => ?_, kept⟩
        · obtain ⟨role, isRole, -⟩ := State.elevated_iff.mp elevated
          rw [after] at isRole
          obtain ⟨row, member, isKey, -, -⟩ := Channel.activeRole_eq_some.mp isRole
          rw [rows, mem_singleton] at member
          rw [member] at isKey
          exact .inr ⟨⟨made.1, after, isCreator.trans isKey⟩, rfl⟩
        · cases before

theorem Call.governed_remove {pubkey actor : Bytes} {actorIsAgentOwner : Bool} :
    (Call.remove pubkey actor actorIsAgentOwner).Governed channelId state := by
  cases run : (Call.remove pubkey actor actorIsAgentOwner).run channelId state with
  | error error => exact Call.governed_of_error run
  | ok next =>
    have after := Call.after_ok run
    obtain ⟨channel, isChannel, isNext, several⟩ := removeMember_ok run
    subst isChannel isNext
    have roles (key : Bytes) : State.activeRole (some (channel.dropMember pubkey)) key =
        if key = pubkey then none else channel.activeRole key := Channel.activeRole_dropMember
    refine ⟨fun before => ?_, fun key plain elevated => ?_, fun key role changed before now apart => ?_,
      Call.errorKept_of_ok run⟩
    · rw [after]
      obtain ⟨key, isOwner⟩ := State.ownerCount_pos.mp before
      by_cases isTarget : key = pubkey
      · obtain ⟨other, apart, isOther⟩ := Channel.other_owner (several (isTarget ▸ isOwner)) pubkey
        exact State.ownerCount_pos.mpr ⟨other, by rw [roles, if_neg apart, isOther]⟩
      · exact State.ownerCount_pos.mpr ⟨key, by rw [roles, if_neg isTarget]; exact isOwner⟩
    · obtain ⟨role, isRole, high⟩ := State.elevated_iff.mp elevated
      rw [after, roles] at isRole
      split at isRole
      · cases isRole
      · exact (plain (State.elevated_iff.mpr ⟨role, isRole, high⟩)).elim
    · rw [after, roles] at now
      split at now
      · cases now
      · have same := before.symm.trans now
        cases same
        exact absurd rfl apart

theorem Call.elevatedInviter_iff {pubkey : Bytes} {role : MemberRole} {invitedBy : Option Bytes}
    {channel : Channel} : (Call.add pubkey role invitedBy).ElevatedInviter (some channel) ↔
      (invitedBy.bind channel.activeRole).any MemberRole.isElevated := by
  cases invitedBy with
  | none => simp [Call.ElevatedInviter]
  | some inviter => rfl

theorem addMember_creator {channel : Channel} {pubkey : Bytes} {role : MemberRole}
    (isLive : channel.deleted = false) (isPrivate : channel.visibility = .private)
    (length : pubkey.length = 32) (isCreator : pubkey = channel.createdBy)
    (gone : channel.activeRole pubkey = none) :
    addMember channelId (some channel) pubkey role (some pubkey) =
      .ok (channel.upsertMember pubkey role (some pubkey)) := by
  have effective : channel.effectiveRole pubkey role (some pubkey) = .ok role := by
    rw [Channel.effectiveRole, isPrivate]
    exact if_pos ⟨rfl, isCreator⟩
  have checked : channel.checkRoleChange pubkey role (some pubkey) = .ok () := by
    rw [Channel.checkRoleChange, gone]
  simp [addMember, pubkeyLength, getChannel, length, isLive, bind, Except.bind, effective, checked]

theorem Call.governed_add_iff {pubkey : Bytes} {role : MemberRole} {invitedBy : Option Bytes} :
    (Call.add pubkey role invitedBy).Governed channelId state ↔
      (Call.add pubkey role invitedBy).NoRestoration state := by
  cases run : (Call.add pubkey role invitedBy).run channelId state with
  | error error =>
    refine iff_of_true (Call.governed_of_error run) ?_
    cases invitedBy with
    | none => trivial
    | some inviter =>
      intro channel isChannel isLive isPrivate length isInviter isCreator _ gone
      subst isChannel isInviter
      rw [Call.run, addMember_creator isLive isPrivate length isCreator gone] at run
      cases run
  | ok next =>
    have after := Call.after_ok run
    obtain ⟨channel, isChannel, isLive, length, effective, checked, isNext⟩ := addMember_ok run
    subst isChannel isNext
    have roles (key : Bytes) :
        State.activeRole (some (channel.upsertMember pubkey role invitedBy)) key =
          if key = pubkey then some role else channel.activeRole key :=
      Channel.activeRole_upsertMember
    constructor
    · intro governed
      cases invitedBy with
      | none => trivial
      | some inviter =>
        intro channel isChannel _ _ _ isInviter _ high gone
        subst isInviter
        cases isChannel
        have plain : ¬ State.Elevated (some channel) inviter := by
          intro elevated
          obtain ⟨held, isHeld, -⟩ := State.elevated_iff.mp elevated
          cases gone.symm.trans isHeld
        have now : State.Elevated ((Call.add inviter role (some inviter)).after channelId
            (some channel)) inviter := by
          rw [after, State.elevated_iff]
          exact ⟨role, (roles inviter).trans (if_pos rfl), high⟩
        cases governed.elevation inviter plain now with
        | inl invited => exact absurd invited plain
        | inr first => exact first.2
    · intro condition
      refine ⟨fun before => ?_, fun key plain elevated => ?_,
        fun key held changed before now apart => ?_, Call.errorKept_of_ok run⟩
      · rw [after]
        obtain ⟨key, isOwner⟩ := State.ownerCount_pos.mp before
        apply State.ownerCount_pos.mpr
        by_cases isTarget : key = pubkey
        · subst isTarget
          cases Channel.checkRoleChange_ok checked isOwner with
          | inl same => exact ⟨key, by rw [roles, if_pos rfl, same]⟩
          | inr change =>
            by_cases stays : role = .owner
            · exact ⟨key, by rw [roles, if_pos rfl, stays]⟩
            · obtain ⟨other, apart, isOther⟩ := Channel.other_owner (change.2 rfl stays) key
              exact ⟨other, by rw [roles, if_neg apart, isOther]⟩
        · exact ⟨key, by rw [roles, if_neg isTarget]; exact isOwner⟩
      · obtain ⟨held, isHeld, high⟩ := State.elevated_iff.mp elevated
        rw [after, roles] at isHeld
        split at isHeld
        next isTarget =>
          cases isHeld
          subst isTarget
          cases (Channel.effectiveRole_ok effective).2 high with
          | inl invited => exact .inl (Call.elevatedInviter_iff.mpr invited)
          | inr creator =>
            obtain ⟨isPrivate, isInviter, isCreator⟩ := creator
            subst isInviter
            cases current : channel.activeRole key with
            | none =>
              have first := condition channel rfl isLive isPrivate length rfl isCreator high
                current
              exact .inr ⟨⟨_, after, isCreator.symm⟩, first⟩
            | some role =>
              cases Channel.checkRoleChange_ok checked current with
              | inl same =>
                exact (plain (State.elevated_iff.mpr ⟨role, current, same ▸ high⟩)).elim
              | inr change => exact .inl (Call.elevatedInviter_iff.mpr change.1)
        · exact (plain (State.elevated_iff.mpr ⟨held, isHeld, high⟩)).elim
      · rw [after, roles] at now
        split at now
        next isTarget =>
          cases now
          subst isTarget
          cases Channel.checkRoleChange_ok checked before with
          | inl same => exact absurd same.symm apart
          | inr change => exact Call.elevatedInviter_iff.mpr change.1
        · cases before.symm.trans now
          exact absurd rfl apart

end after

theorem Call.governed_iff {state : State} {call : Call} :
    call.Governed channelId state ↔ call.NoRestoration state := by
  cases call with
  | create name channelType visibility createdBy => exact iff_of_true Call.governed_create trivial
  | add pubkey role invitedBy => exact Call.governed_add_iff
  | remove pubkey actor actorIsAgentOwner => exact iff_of_true Call.governed_remove trivial

theorem eachCall_congr {holds other : State → Call → Prop}
    (same : ∀ state call, holds state call ↔ other state call) {calls : List Call} :
    ∀ {state : State}, EachCall channelId holds state calls ↔ EachCall channelId other state calls := by
  induction calls with
  | nil => exact Iff.rfl
  | cons call rest hypothesis => exact and_congr (same _ call) hypothesis

theorem ownerKept_of_each {calls : List Call} : ∀ {state : State},
    EachCall channelId (fun state call => call.Governed channelId state) state calls →
      0 < state.ownerCount → 0 < (afterAll channelId state calls).ownerCount := by
  induction calls with
  | nil => exact fun _ owned => owned
  | cons call rest hypothesis =>
    intro state each owned
    exact hypothesis each.2 (each.1.ownerKept owned)

/-- Exactly when no creator restores himself. -/
theorem governance_exact (channelId : Uuid) (state : State) (calls : List Call) :
    GovernedRun channelId state calls ↔
      EachCall channelId (fun state call => call.NoRestoration state) state calls := by
  have each := @eachCall_congr channelId _ _ (fun state call => @Call.governed_iff channelId state call)
    calls state
  constructor
  · exact fun governed => each.mp governed.each
  · intro condition
    have governed := each.mpr condition
    exact ⟨governed, ownerKept_of_each governed⟩

/-- The removed creator adds himself back. -/
theorem removed_creator_restored : ¬ GovernedRun ⟨replicate 16 7, rfl⟩ none
    [.create "ops" .stream .private (replicate 32 1),
      .add (replicate 32 2) .owner (some (replicate 32 1)),
      .remove (replicate 32 1) (replicate 32 2) false,
      .add (replicate 32 1) .owner (some (replicate 32 1))] := by
  intro governed
  have last := governed.each.2.2.2.1
  cases last.elevation (replicate 32 1) (by unfold State.Elevated; decide)
    (by unfold State.Elevated; decide) with
  | inl invited =>
    rw [Call.ElevatedInviter, State.Elevated] at invited
    revert invited
    decide
  | inr first =>
    have rows := first.2
    revert rows
    decide

end Buzz.Membership
