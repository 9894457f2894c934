import Buzz.Invites.Claims

/-! Each use of an invite is counted once, over any interleaving. -/

namespace Buzz.Invites

open Nostr Library.Locks Library.RowVersions List
open Buzz.RelayMembers (Role Members Statement)
open AList (lookup_empty lookup_insert lookup_insert_ne)

section statements

variable (state : State)

def State.start (members : Members) (acceptances : List (String × String)) (fresh : ℕ) : State :=
  ⟨∅, members, acceptances, [], fresh, []⟩

def ClaimOutcome.IsJoined : ClaimOutcome → Prop
  | .joined _ _ => True
  | _ => False

def State.CountsUses : Prop :=
  ∀ tokenHash row, state.invites.lookup tokenHash = some row →
    row.value.useCount = state.joined.count (tokenHash, row.incarnation) ∧
      ∀ maxUses, row.value.maxUses = some maxUses → row.value.useCount ≤ maxUses

structure Step.Kept (step : Step) : Prop where
  uses : (state.after step).CountsUses
  recorded : ∀ index now txn next tokenHash, step = .run index now →
    state.txns[index]? = some txn → txn.job = .claimRelayInvite tokenHash →
      (state.after step).txns[index]? = some next → next.read ≠ txn.read →
        ∃ row, state.invites.lookup tokenHash = some row ∧ next.read = some (row, now)
  joins : ∀ index now txn tokenHash, step = .run index now → state.txns[index]? = some txn →
    txn.job = .claimRelayInvite tokenHash → (state.after step).members ≠ state.members →
      ∃ row lockedAt, txn.read = some (row, lockedAt) ∧ lockedAt < row.value.expiresAt ∧
        row.value.exhausted = false
  unchanged : ∀ index txn tokenHash, (∃ now, step = .run index now) ∨ step = .abort index →
    state.txns[index]? = some txn → txn.job = .claimRelayInvite tokenHash →
      (∀ outcome, (state.step step).2 = some (.claim outcome) → ¬ outcome.IsJoined) →
        (state.after step).members = state.members ∧ (state.after step).invites = state.invites
  accepted : ∀ index now txn tokenHash policyVersion, step = .run index now →
    state.txns[index]? = some txn → txn.job = .claimRelayInvite tokenHash →
      txn.policyVersion = some policyVersion →
        (∀ useCount usesRemaining,
          (state.step step).2 = some (.claim (.joined useCount usesRemaining)) →
            (txn.pubkey, policyVersion) ∈ (state.after step).acceptances) ∧
        ∀ useCount usesRemaining,
          (state.step step).2 = some (.claim (.alreadyMember useCount usesRemaining)) →
            (txn.pubkey, policyVersion) ∈ (state.after step).acceptances ∨
              txn.memberRemoved

def State.EachStep (holds : State → Step → Prop) (state : State) : List Step → Prop
  | [] => True
  | step :: rest => holds state step ∧ EachStep holds (state.after step) rest

end statements

section invariant

variable (invites : InviteTable) (members : Members) (acceptances : List (String × String))
  (txn : Txn)

structure Txn.Reads (tokenHash : TokenHash) (row : Row Invite) : Prop where
  live : ∃ lockedAt, txn.read = some (row, lockedAt) ∧ lockedAt < row.value.expiresAt
  held : txn.holds (.invite tokenHash)
  present : invites.lookup tokenHash = some row

def Txn.Inserted (isNew : Bool) : Prop :=
  if isNew then
    txn.holds (.member txn.pubkey) ∧ members.lookup txn.pubkey = none ∧
      ∀ pubkey row, txn.members.lookup pubkey = some row → pubkey = txn.pubkey
  else txn.members = ∅

def Txn.Accepts (isNew : Bool) : Prop :=
  ∀ policyVersion, txn.policyVersion = some policyVersion →
    (txn.pubkey, policyVersion) ∈ txn.acceptances ∨ (txn.pubkey, policyVersion) ∈ acceptances ∨
      isNew = false ∧ txn.memberRemoved

def Invite.used (invite : Invite) : Invite := { invite with useCount := invite.useCount + 1 }

def Txn.PhaseSound : Job → Phase → Prop
  | _, .begun => txn.members = ∅ ∧ txn.invites = ∅
  | _, .ended => txn.members = ∅ ∧ txn.invites = ∅
  | .claimRelayInvite tokenHash, .locked =>
    (∃ row, txn.Reads invites tokenHash row) ∧ txn.members = ∅ ∧ txn.invites = ∅
  | .claimRelayInvite tokenHash, .checked =>
    (∃ row, txn.Reads invites tokenHash row ∧ row.value.exhausted = false) ∧ txn.members = ∅ ∧
      txn.invites = ∅
  | .claimRelayInvite tokenHash, .inserted isNew =>
    (∃ row, txn.Reads invites tokenHash row ∧ (isNew → row.value.exhausted = false)) ∧
      txn.Inserted members isNew ∧ txn.invites = ∅
  | .claimRelayInvite tokenHash, .accepted isNew =>
    (∃ row, txn.Reads invites tokenHash row ∧ (isNew → row.value.exhausted = false)) ∧
      txn.Inserted members isNew ∧ txn.invites = ∅ ∧ txn.Accepts acceptances isNew
  | .claimRelayInvite tokenHash, .counted =>
    (∃ row, txn.Reads invites tokenHash row ∧ row.value.exhausted = false ∧
      (∀ maxUses, row.value.maxUses = some maxUses → row.value.useCount + 1 ≤ maxUses) ∧
        txn.invites = AList.insert tokenHash ⟨row.incarnation, row.value.used⟩ ∅) ∧
      txn.Inserted members true ∧ txn.Accepts acceptances true
  | .claimRelayMembership _, .inserted isNew => txn.Inserted members isNew ∧ txn.invites = ∅
  | .claimRelayMembership _, .accepted isNew => txn.Inserted members isNew ∧ txn.invites = ∅
  | .claimRelayMembership _, _ => False

structure State.Sound (state : State) : Prop where
  uses : state.CountsUses
  exclusive : Exclusive Txn.holds state.txns
  txns : ∀ txn ∈ state.txns,
    txn.PhaseSound state.invites state.members state.acceptances txn.job txn.phase
  invitesOld : ∀ tokenHash row, state.invites.lookup tokenHash = some row →
    row.incarnation < state.fresh
  joinedOld : ∀ use ∈ state.joined, use.2 < state.fresh

end invariant

variable {txn next : Txn} {tokenHash : TokenHash} {state : State} {index : ℕ}

section frame

variable {invites after : InviteTable} {members membersAfter : Members}
  {acceptances acceptancesAfter : List (String × String)} {memberRemoved : Bool}

theorem Txn.PhaseSound.frame {job : Job} {phase : Phase}
    (sound : txn.PhaseSound invites members acceptances job phase)
    (sameInvites : ∀ tokenHash row, txn.holds (.invite tokenHash) →
      invites.lookup tokenHash = some row → after.lookup tokenHash = some row)
    (sameMembers : ∀ pubkey, txn.holds (.member pubkey) → members.lookup pubkey = none →
      membersAfter.lookup pubkey = none)
    (kept : ∀ policyVersion, (txn.pubkey, policyVersion) ∈ acceptances →
      (txn.pubkey, policyVersion) ∈ acceptancesAfter ∨
        members.lookup txn.pubkey ≠ none ∧ memberRemoved)
    (flag : txn.memberRemoved → memberRemoved) :
    ({ txn with memberRemoved } : Txn).PhaseSound after membersAfter
      acceptancesAfter job phase := by
  have reads {tokenHash : TokenHash} {row : Row Invite} (before : txn.Reads invites tokenHash row) :
      ({ txn with memberRemoved } : Txn).Reads after tokenHash row :=
    ⟨before.live, before.held, sameInvites tokenHash row before.held before.present⟩
  have inserted {isNew : Bool} (before : txn.Inserted members isNew) :
      ({ txn with memberRemoved } : Txn).Inserted membersAfter isNew := by
    cases isNew with
    | false => exact before
    | true =>
      obtain ⟨held, absent, only⟩ := before
      exact ⟨held, sameMembers _ held absent, only⟩
  have accepts {isNew : Bool} (written : txn.Inserted members isNew)
      (before : txn.Accepts acceptances isNew) :
      ({ txn with memberRemoved } : Txn).Accepts acceptancesAfter isNew := by
    intro policyVersion isPolicy
    cases before policyVersion isPolicy with
    | inl own => exact .inl own
    | inr committed =>
      cases committed with
      | inr gone => exact .inr (.inr ⟨gone.1, flag gone.2⟩)
      | inl present =>
        cases kept policyVersion present with
        | inl still => exact .inr (.inl still)
        | inr removed =>
          cases isNew with
          | false => exact .inr (.inr ⟨rfl, removed.2⟩)
          | true => exact absurd written.2.1 removed.1
  cases job with
  | claimRelayInvite tokenHash =>
    cases phase with
    | begun => exact sound
    | locked =>
      obtain ⟨⟨row, isRow⟩, rest⟩ := sound
      exact ⟨⟨row, reads isRow⟩, rest⟩
    | checked =>
      obtain ⟨⟨row, isRow, live⟩, rest⟩ := sound
      exact ⟨⟨row, reads isRow, live⟩, rest⟩
    | inserted isNew =>
      obtain ⟨⟨row, isRow, live⟩, written, rest⟩ := sound
      exact ⟨⟨row, reads isRow, live⟩, inserted written, rest⟩
    | accepted isNew =>
      obtain ⟨⟨row, isRow, live⟩, written, rest, evidence⟩ := sound
      exact ⟨⟨row, reads isRow, live⟩, inserted written, rest, accepts written evidence⟩
    | counted =>
      obtain ⟨⟨row, isRow, rest⟩, written, evidence⟩ := sound
      exact ⟨⟨row, reads isRow, rest⟩, inserted written, accepts written evidence⟩
    | ended => exact sound
  | claimRelayMembership role =>
    cases phase with
    | begun => exact sound
    | inserted isNew | accepted isNew => exact ⟨inserted sound.1, sound.2⟩
    | ended => exact sound
    | locked | checked | counted => exact sound.elim

theorem Txn.PhaseSound.unflagged {job : Job} {phase : Phase}
    (sound : txn.PhaseSound invites members acceptances job phase)
    (sameInvites : ∀ tokenHash row, txn.holds (.invite tokenHash) →
      invites.lookup tokenHash = some row → after.lookup tokenHash = some row)
    (sameMembers : ∀ pubkey, txn.holds (.member pubkey) → members.lookup pubkey = none →
      membersAfter.lookup pubkey = none)
    (kept : ∀ policyVersion, (txn.pubkey, policyVersion) ∈ acceptances →
      (txn.pubkey, policyVersion) ∈ acceptancesAfter) :
    txn.PhaseSound after membersAfter acceptancesAfter job phase :=
  sound.frame sameInvites sameMembers (fun policyVersion present =>
    .inl (kept policyVersion present)) id

end frame

section moves

variable {around : Surroundings}

structure Txn.Goes (around : Surroundings) (txn next : Txn) : Prop where
  sound : next.PhaseSound around.invites around.members around.acceptances next.job next.phase
  locks : ∀ lock, next.holds lock → txn.holds lock ∨ around.free lock
  read : next.read ≠ txn.read → ∃ tokenHash row, txn.job = .claimRelayInvite tokenHash ∧
    around.invites.lookup tokenHash = some row ∧ next.read = some (row, around.now)

theorem Txn.Goes.same {phase : Phase} (sound : (txn.goTo phase).PhaseSound around.invites
    around.members around.acceptances txn.job phase) : Txn.Goes around txn (txn.goTo phase) :=
  ⟨sound, fun _ held => .inl held, fun changed => absurd rfl changed⟩

theorem holds_cons {lock taken : LockName} {locks : List LockName}
    (held : decide (lock ∈ taken :: locks)) : lock = taken ∨ decide (lock ∈ locks) := by
  cases mem_cons.mp (of_decide_eq_true held) with
  | inl same => exact .inl same
  | inr before => exact .inr (decide_eq_true before)

theorem Txn.Goes.lockInvite (isJob : txn.job = .claimRelayInvite tokenHash)
    (empty : txn.members = ∅ ∧ txn.invites = ∅)
    (isNext : txn.lockInvite around tokenHash = some (.go next)) : Txn.Goes around txn next := by
  unfold Txn.lockInvite at isNext
  split at isNext
  · cases isNext
  next row present =>
    split at isNext
    · cases isNext
    next isFree =>
      split at isNext
      · cases isNext
      next live =>
        cases isNext
        refine ⟨?_, fun lock held => ?_, fun _ => ⟨tokenHash, row, isJob, present, rfl⟩⟩
        · dsimp only
          rw [isJob]
          refine ⟨⟨row, ⟨around.now, rfl, by omega⟩, decide_eq_true mem_cons_self, present⟩,
            empty.1, empty.2⟩
        · cases holds_cons held with
          | inl same => exact Or.inr (same ▸ by simpa using isFree)
          | inr before => exact .inl before

variable {row : Row Invite}

theorem Txn.Goes.checkMember (isJob : txn.job = .claimRelayInvite tokenHash)
    (reads : txn.Reads around.invites tokenHash row) (members : txn.members = ∅)
    (invites : txn.invites = ∅) (isNext : txn.checkMember around row.value = .go next) :
    Txn.Goes around txn next := by
  unfold Txn.checkMember at isNext
  split at isNext
  · cases isNext
    apply Txn.Goes.same
    rw [isJob]
    exact ⟨⟨row, ⟨reads.live, reads.held, reads.present⟩, nofun⟩, members, invites⟩
  · split at isNext
    · cases isNext
    next live =>
      cases isNext
      apply Txn.Goes.same
      rw [isJob]
      exact ⟨⟨row, ⟨reads.live, reads.held, reads.present⟩, eq_false_of_ne_true live⟩, members,
        invites⟩

theorem Txn.insertMember_go {role : Role} (members : txn.members = ∅)
    (isNext : txn.insertMember around role = some (.go next)) :
    ∃ isNew, next.phase = .inserted isNew ∧ next.Inserted around.members isNew ∧
      next.job = txn.job ∧ next.read = txn.read ∧ next.invites = txn.invites ∧
      (∀ lock, txn.holds lock → next.holds lock) ∧
      ∀ lock, next.holds lock → txn.holds lock ∨ around.free lock := by
  unfold Txn.insertMember at isNext
  split at isNext
  · cases isNext
    exact ⟨false, rfl, members, rfl, rfl, rfl, fun _ held => held, fun _ held => .inl held⟩
  next absent =>
    split at isNext
    next isFree =>
      cases isNext
      refine ⟨true, rfl, ⟨decide_eq_true mem_cons_self, absent, fun pubkey row isWritten => ?_⟩,
        rfl, rfl, rfl, fun lock held => decide_eq_true (mem_cons_of_mem _
          (of_decide_eq_true held)), fun lock held => ?_⟩
      · by_contra apart
        dsimp only at isWritten apart
        rw [lookup_insert_ne apart, members, lookup_empty] at isWritten
        cases isWritten
      · cases holds_cons held with
        | inl same => exact .inr (same ▸ isFree)
        | inr before => exact .inl before
    · cases isNext

variable {isNew : Bool}

theorem Txn.insertAcceptance_go (isNext : txn.insertAcceptance around isNew = some (.go next)) :
    next.phase = .accepted isNew ∧ next.Accepts around.acceptances isNew ∧
      next.job = txn.job ∧ next.read = txn.read ∧ next.invites = txn.invites ∧
      next.members = txn.members ∧ next.pubkey = txn.pubkey ∧
      (∀ lock, txn.holds lock → next.holds lock) ∧
      ∀ lock, next.holds lock → txn.holds lock ∨ around.free lock := by
  unfold Txn.insertAcceptance at isNext
  dsimp only at isNext
  split at isNext
  next noPolicy =>
    cases isNext
    refine ⟨rfl, fun policyVersion isPolicy => ?_, rfl, rfl, rfl, rfl, rfl, fun _ held => held,
      fun _ held => .inl held⟩
    cases noPolicy.symm.trans isPolicy
  next policyVersion isPolicy =>
    split at isNext
    · cases isNext
    · split at isNext
      next present =>
        cases isNext
        refine ⟨rfl, fun other isOther => ?_, rfl, rfl, rfl, rfl, rfl, fun _ held => held,
          fun _ held => .inl held⟩
        cases isPolicy.symm.trans isOther
        exact .inr (.inl present)
      · split at isNext
        · cases isNext
        next isFree =>
          split at isNext
          · cases isNext
          · cases isNext
            refine ⟨rfl, fun other isOther => ?_, rfl, rfl, rfl, rfl, rfl, fun lock held =>
              decide_eq_true (mem_cons_of_mem _ (of_decide_eq_true held)), fun lock held => ?_⟩
            · cases isPolicy.symm.trans isOther
              exact .inl mem_cons_self
            · cases holds_cons held with
              | inl same => exact Or.inr (same ▸ by simpa using isFree)
              | inr before => exact .inl before

variable {members : Members}

theorem Txn.Inserted.congr
    (inserted : txn.Inserted members isNew) (pubkey : next.pubkey = txn.pubkey)
    (written : next.members = txn.members)
    (locks : ∀ lock, txn.holds lock → next.holds lock) :
    next.Inserted members isNew := by
  cases isNew with
  | false => exact written.trans inserted
  | true =>
    obtain ⟨held, absent, only⟩ := inserted
    rw [Txn.Inserted, if_pos rfl, pubkey, written]
    exact ⟨locks _ held, absent, only⟩

variable {invites : InviteTable}

theorem Txn.Reads.congr (reads : txn.Reads invites tokenHash row) (read : next.read = txn.read)
    (locks : ∀ lock, txn.holds lock → next.holds lock) :
    next.Reads invites tokenHash row :=
  ⟨read ▸ reads.live, locks _ reads.held, reads.present⟩

theorem Txn.Reads.unique {other : Row Invite}
    {lockedAt : ℤ} (reads : txn.Reads invites tokenHash row)
    (isRead : txn.read = some (other, lockedAt)) : row = other ∧ lockedAt < other.value.expiresAt := by
  obtain ⟨_, found, live⟩ := reads.live
  cases found.symm.trans isRead
  exact ⟨rfl, live⟩

theorem Txn.PhaseSound.go
    (sound : txn.PhaseSound around.invites around.members around.acceptances txn.job txn.phase)
    (isNext : txn.next around = some (.go next)) : Txn.Goes around txn next := by
  unfold Txn.next at isNext
  split at isNext
  next tokenHash isJob isPhase =>
    rw [isJob, isPhase] at sound
    exact Txn.Goes.lockInvite isJob sound isNext
  next tokenHash row lockedAt isJob isPhase isRead =>
    rw [isJob, isPhase] at sound
    obtain ⟨⟨other, reads⟩, members, invites⟩ := sound
    obtain ⟨rfl, -⟩ := reads.unique isRead
    exact Txn.Goes.checkMember isJob reads members invites (Option.some.inj isNext)
  next tokenHash read isJob isPhase isRead =>
    rw [isJob, isPhase] at sound
    obtain ⟨⟨row, reads, live⟩, members, invites⟩ := sound
    obtain ⟨isNew, isNextPhase, inserted, sameJob, sameRead, sameInvites, kept, taken⟩ :=
      Txn.insertMember_go members isNext
    refine ⟨?_, taken, fun changed => absurd sameRead changed⟩
    rw [sameJob, isJob, isNextPhase]
    exact ⟨⟨row, reads.congr sameRead kept, fun _ => live⟩, inserted, sameInvites.trans invites⟩
  next tokenHash isNew read isJob isPhase isRead =>
    rw [isJob, isPhase] at sound
    obtain ⟨⟨row, reads, live⟩, inserted, invites⟩ := sound
    obtain ⟨isNextPhase, accepts, sameJob, sameRead, sameInvites, sameMembers, samePubkey, kept,
      taken⟩ := Txn.insertAcceptance_go isNext
    refine ⟨?_, taken, fun changed => absurd sameRead changed⟩
    rw [sameJob, isJob, isNextPhase]
    exact ⟨⟨row, reads.congr sameRead kept, live⟩, inserted.congr samePubkey sameMembers kept,
      sameInvites.trans invites, accepts⟩
  · cases isNext
  next tokenHash row lockedAt isJob isPhase isRead =>
    rw [isJob, isPhase] at sound
    obtain ⟨⟨other, reads, live⟩, inserted, invites, accepts⟩ := sound
    obtain ⟨rfl, -⟩ := reads.unique isRead
    unfold Txn.countUse at isNext
    simp only [Option.some.injEq] at isNext
    split at isNext
    · cases isNext
    next bounded =>
      cases isNext
      refine ⟨?_, fun _ held => .inl held, fun changed => absurd rfl changed⟩
      dsimp only
      rw [isJob]
      refine ⟨⟨other, ⟨reads.live, reads.held, reads.present⟩, live rfl, fun maxUses isMax => ?_, ?_⟩,
        inserted, accepts⟩
      · by_contra few
        apply bounded
        rw [isMax, Option.any_some]
        exact .inr (decide_eq_true (by omega))
      · dsimp only
        rw [invites]
        rfl
  · cases isNext
  next role isJob isPhase =>
    rw [isJob, isPhase] at sound
    obtain ⟨isNew, isNextPhase, inserted, sameJob, sameRead, sameInvites, -, taken⟩ :=
      Txn.insertMember_go sound.1 isNext
    refine ⟨?_, taken, fun changed => absurd sameRead changed⟩
    rw [sameJob, isJob, isNextPhase]
    exact ⟨inserted, sameInvites.trans sound.2⟩
  next role isNew isJob isPhase =>
    rw [isJob, isPhase] at sound
    obtain ⟨isNextPhase, -, sameJob, sameRead, sameInvites, sameMembers, samePubkey, kept, taken⟩ :=
      Txn.insertAcceptance_go isNext
    refine ⟨?_, taken, fun changed => absurd sameRead changed⟩
    rw [sameJob, isJob, isNextPhase]
    exact ⟨sound.1.congr samePubkey sameMembers kept, sameInvites.trans sound.2⟩
  · cases isNext
  · cases isNext

variable {outcome : Outcome}

theorem Txn.insertMember_goes {role : Role} :
    txn.insertMember around role ≠ some (.commit outcome) ∧
      txn.insertMember around role ≠ some (.rollback outcome) := by
  unfold Txn.insertMember
  split
  · constructor <;> nofun
  · split <;> constructor <;> nofun

theorem Txn.insertAcceptance_goes :
    txn.insertAcceptance around isNew ≠ some (.commit outcome) ∧
      txn.insertAcceptance around isNew ≠ some (.rollback outcome) := by
  unfold Txn.insertAcceptance
  dsimp only
  split
  · constructor <;> nofun
  · split
    · constructor <;> nofun
    · split
      · constructor <;> nofun
      · split
        · constructor <;> nofun
        · split <;> constructor <;> nofun

theorem Txn.commit_cases (isNext : txn.next around = some (.commit outcome)) :
    (∃ tokenHash useCount usesRemaining, txn.job = .claimRelayInvite tokenHash ∧
        txn.phase = .accepted false ∧
          outcome = .claim (.alreadyMember useCount usesRemaining)) ∨
      (∃ tokenHash row lockedAt useCount usesRemaining, txn.job = .claimRelayInvite tokenHash ∧
        txn.phase = .counted ∧ txn.read = some (row, lockedAt) ∧
          outcome = .claim (.joined useCount usesRemaining)) ∨
      ∃ role isNew, txn.job = .claimRelayMembership role ∧ txn.phase = .accepted isNew ∧
        outcome = .membership isNew := by
  unfold Txn.next at isNext
  split at isNext
  · unfold Txn.lockInvite at isNext
    split at isNext
    · cases isNext
    · split at isNext
      · cases isNext
      · split at isNext <;> cases isNext
  · unfold Txn.checkMember at isNext
    split at isNext
    · cases isNext
    · split at isNext <;> cases isNext
  · exact absurd isNext Txn.insertMember_goes.1
  · exact absurd isNext Txn.insertAcceptance_goes.1
  next tokenHash row lockedAt isJob isPhase isRead =>
    cases isNext
    exact .inl ⟨tokenHash, _, _, isJob, isPhase, rfl⟩
  · simp only [Txn.countUse, Option.some.injEq] at isNext
    split at isNext <;> cases isNext
  next tokenHash row lockedAt isJob isPhase isRead =>
    cases isNext
    exact .inr (.inl ⟨tokenHash, row, lockedAt, _, _, isJob, isPhase, isRead, rfl⟩)
  · exact absurd isNext Txn.insertMember_goes.1
  · exact absurd isNext Txn.insertAcceptance_goes.1
  next role isNew isJob isPhase =>
    cases isNext
    exact .inr (.inr ⟨role, isNew, isJob, isPhase, rfl⟩)
  · cases isNext

theorem Txn.PhaseSound.written {acceptances : List (String × String)} {job : Job} {phase : Phase}
    (sound : txn.PhaseSound invites members acceptances job phase) :
    (∀ tokenHash row, txn.invites.lookup tokenHash = some row →
      txn.holds (.invite tokenHash)) ∧
    ∀ pubkey row, txn.members.lookup pubkey = some row →
      txn.holds (.member pubkey) ∧ members.lookup pubkey = none := by
  have noInvites (empty : txn.invites = ∅) (tokenHash : TokenHash) (row : Row Invite)
      (isWritten : txn.invites.lookup tokenHash = some row) :
      txn.holds (.invite tokenHash) := by
    rw [empty, lookup_empty] at isWritten
    cases isWritten
  have noMembers (empty : txn.members = ∅) (pubkey : String) (row : Row Role)
      (isWritten : txn.members.lookup pubkey = some row) :
      txn.holds (.member pubkey) ∧ members.lookup pubkey = none := by
    rw [empty, lookup_empty] at isWritten
    cases isWritten
  have insertion {isNew : Bool} (inserted : txn.Inserted members isNew) (pubkey : String)
      (row : Row Role) (isWritten : txn.members.lookup pubkey = some row) :
      txn.holds (.member pubkey) ∧ members.lookup pubkey = none := by
    cases isNew with
    | false => exact noMembers inserted pubkey row isWritten
    | true =>
      obtain ⟨held, absent, only⟩ := inserted
      rw [only pubkey row isWritten]
      exact ⟨held, absent⟩
  cases job with
  | claimRelayInvite tokenHash =>
    cases phase with
    | begun => exact ⟨noInvites sound.2, noMembers sound.1⟩
    | locked | checked => exact ⟨noInvites sound.2.2, noMembers sound.2.1⟩
    | inserted isNew => exact ⟨noInvites sound.2.2, insertion sound.2.1⟩
    | accepted isNew => exact ⟨noInvites sound.2.2.1, insertion sound.2.1⟩
    | counted =>
      obtain ⟨⟨row, reads, -, -, isWritten⟩, inserted, -⟩ := sound
      refine ⟨fun other found present => ?_, insertion inserted⟩
      by_cases same : other = tokenHash
      · rw [same]
        exact reads.held
      · rw [isWritten, lookup_insert_ne same, lookup_empty] at present
        cases present
    | ended => exact ⟨noInvites sound.2, noMembers sound.1⟩
  | claimRelayMembership role =>
    cases phase with
    | begun => exact ⟨noInvites sound.2, noMembers sound.1⟩
    | locked | checked => exact sound.elim
    | inserted isNew | accepted isNew => exact ⟨noInvites sound.2, insertion sound.1⟩
    | counted => exact sound.elim
    | ended => exact ⟨noInvites sound.2, noMembers sound.1⟩

end moves

section states

variable {after : State}

theorem State.Sound.set (sound : state.Sound) (isTxn : state.txns[index]? = some txn)
    (isTxns : after.txns = state.txns.set index next) (uses : after.CountsUses)
    (isSound : next.PhaseSound after.invites after.members after.acceptances next.job next.phase)
    (locks : ∀ lock, next.holds lock → txn.holds lock ∨ state.free index lock)
    (others : ∀ other rival, other ≠ index → state.txns[other]? = some rival →
      rival.PhaseSound after.invites after.members after.acceptances rival.job rival.phase)
    (invitesOld : ∀ tokenHash row, after.invites.lookup tokenHash = some row →
      row.incarnation < after.fresh)
    (joinedOld : ∀ use ∈ after.joined, use.2 < after.fresh) : after.Sound where
  uses
  exclusive := by
    rw [isTxns]
    apply sound.exclusive.set
    intro lock held
    cases locks lock held with
    | inl before => exact .inl ⟨txn, isTxn, before⟩
    | inr free => exact Or.inr (by simpa [State.free] using free)
  txns := by
    intro item member
    rw [isTxns] at member
    obtain ⟨other, found⟩ := getElem?_of_mem member
    cases getElem?_set found with
    | inl changed => exact changed.2 ▸ isSound
    | inr kept => exact others other item kept.1 kept.2
  invitesOld
  joinedOld

theorem State.Sound.at (sound : state.Sound) (isTxn : state.txns[index]? = some txn) :
    txn.PhaseSound state.invites state.members state.acceptances txn.job txn.phase :=
  sound.txns txn (mem_of_getElem? isTxn)

theorem State.Sound.drop (sound : state.Sound) (isTxn : state.txns[index]? = some txn) :
    State.Sound { state with txns := state.txns.set index txn.close } :=
  sound.set isTxn rfl sound.uses (by
    unfold Txn.close
    cases txn.job <;> exact ⟨rfl, rfl⟩) nofun
    (fun _ _ _ isRival => sound.at isRival) sound.invitesOld sound.joinedOld

theorem State.Sound.goes {now : ℤ} (sound : state.Sound) (isTxn : state.txns[index]? = some txn)
    (isNext : txn.next (state.around index now) = some (.go next)) :
    (state.runTxn index txn (.go next)).1.Sound := by
  have isSound : txn.PhaseSound (state.around index now).invites (state.around index now).members
      (state.around index now).acceptances txn.job txn.phase := sound.at isTxn
  have goes := isSound.go isNext
  exact sound.set isTxn rfl sound.uses goes.sound goes.locks (fun _ _ _ isRival => sound.at isRival)
    (fun tokenHash row present => Nat.lt_succ_of_lt (sound.invitesOld tokenHash row present))
    fun use member => Nat.lt_succ_of_lt (sound.joinedOld use member)

variable {outcome : Outcome}

theorem State.Sound.publishes (sound : state.Sound) (isTxn : state.txns[index]? = some txn)
    (uses : (state.runTxn index txn (.commit outcome)).1.CountsUses)
    (invitesOld : ∀ tokenHash row, (state.invites.publish txn.invites).lookup tokenHash = some row →
      row.incarnation < state.fresh)
    (joinedOld : ∀ use ∈ state.record txn outcome, use.2 < state.fresh) :
    (state.runTxn index txn (.commit outcome)).1.Sound := by
  refine sound.set isTxn rfl uses ?_ nofun (fun other rival apart isRival => ?_) invitesOld joinedOld
  · unfold Txn.close
    cases txn.job <;> exact ⟨rfl, rfl⟩
  · obtain ⟨invitesHeld, membersHeld⟩ := (sound.at isTxn).written
    refine (sound.at isRival).unflagged (fun tokenHash row held present => ?_)
      (fun pubkey held absent => ?_)
      fun policyVersion present => mem_append_right _ present
    · change (state.invites.publish txn.invites).lookup tokenHash = some row
      rw [lookup_publish]
      cases written : txn.invites.lookup tokenHash with
      | none => rw [Option.none_or, present]
      | some other =>
        have both := invitesHeld tokenHash other written
        exact absurd (sound.exclusive _ index rival txn _ isRival isTxn held both) apart
    · change (state.members.publish txn.members).lookup pubkey = none
      rw [lookup_publish]
      cases written : txn.members.lookup pubkey with
      | none => rw [Option.none_or, absent]
      | some other =>
        have both := (membersHeld pubkey other written).1
        exact absurd (sound.exclusive _ index rival txn _ isRival isTxn held both) apart

theorem publish_empty {Key Value : Type} [DecidableEq Key] {table written : Table Key Value}
    (empty : written = ∅) : table.publish written = table := by
  rw [empty, Table.publish, AList.empty_union]

theorem State.Sound.countsUse {tokenHash : TokenHash} {row : Row Invite} {lockedAt : ℤ}
    {useCount : ℕ} {usesRemaining : Option ℤ} (sound : state.Sound)
    (isTxn : state.txns[index]? = some txn) (isJob : txn.job = .claimRelayInvite tokenHash)
    (isPhase : txn.phase = .counted) (isRead : txn.read = some (row, lockedAt)) :
    (state.runTxn index txn (.commit (.claim (.joined useCount usesRemaining)))).1.Sound := by
  have phase := sound.at isTxn
  rw [isJob, isPhase] at phase
  obtain ⟨⟨other, reads, -, bound, written⟩, -, -⟩ := phase
  obtain ⟨rfl, -⟩ := reads.unique isRead
  have recorded : state.record txn (.claim (.joined useCount usesRemaining)) =
      (tokenHash, other.incarnation) :: state.joined := by
    simp only [State.record, isJob, isRead]
  have lookups (hash : TokenHash) : (state.invites.publish txn.invites).lookup hash =
      if hash = tokenHash then some ⟨other.incarnation, other.value.used⟩
      else state.invites.lookup hash := by
    rw [lookup_publish, written]
    split
    next same => rw [same, lookup_insert, Option.some_or]
    next apart => rw [lookup_insert_ne apart, lookup_empty, Option.none_or]
  have older := sound.invitesOld tokenHash other reads.present
  refine sound.publishes isTxn (fun hash found present => ?_) (fun hash found present => ?_)
    fun use member => ?_
  · change (state.invites.publish txn.invites).lookup hash = some found at present
    change found.value.useCount = (state.record txn _).count (hash, found.incarnation) ∧ _
    rw [lookups] at present
    rw [recorded]
    split at present
    next same =>
      cases present
      obtain ⟨counts, -⟩ := sound.uses tokenHash other reads.present
      rw [same, count_cons_self, ← counts]
      exact ⟨rfl, bound⟩
    next apart =>
      have different : (tokenHash, other.incarnation) ≠ (hash, found.incarnation) := by
        intro same
        exact apart (congrArg Prod.fst same).symm
      rw [count_cons_of_ne different]
      exact sound.uses hash found present
  · rw [lookups] at present
    split at present
    · cases present
      exact older
    · exact sound.invitesOld hash found present
  · rw [recorded] at member
    cases mem_cons.mp member with
    | inl isNew =>
      rw [isNew]
      exact older
    | inr old => exact sound.joinedOld use old

theorem State.Sound.commits {now : ℤ} (sound : state.Sound) (isTxn : state.txns[index]? = some txn)
    (isNext : txn.next (state.around index now) = some (.commit outcome)) :
    (state.runTxn index txn (.commit outcome)).1.Sound := by
  have phase := sound.at isTxn
  have quiet (empty : txn.invites = ∅) (recorded : state.record txn outcome = state.joined) :
      (state.runTxn index txn (.commit outcome)).1.Sound := by
    refine sound.publishes isTxn (fun hash row present => ?_) (fun hash row present => ?_)
      fun use member => ?_
    · change (state.invites.publish txn.invites).lookup hash = some row at present
      change row.value.useCount = (state.record txn outcome).count (hash, row.incarnation) ∧ _
      rw [publish_empty empty] at present
      rw [recorded]
      exact sound.uses hash row present
    · rw [publish_empty empty] at present
      exact sound.invitesOld hash row present
    · rw [recorded] at member
      exact sound.joinedOld use member
  cases Txn.commit_cases isNext with
  | inl again =>
    obtain ⟨tokenHash, useCount, usesRemaining, isJob, isPhase, isOutcome⟩ := again
    rw [isJob, isPhase] at phase
    refine quiet phase.2.2.1 ?_
    unfold State.record
    rw [isJob, isOutcome]
    cases txn.read <;> rfl
  | inr rest =>
    cases rest with
    | inl joined =>
      obtain ⟨tokenHash, row, lockedAt, useCount, usesRemaining, isJob, isPhase, isRead,
        isOutcome⟩ := joined
      rw [isOutcome]
      exact sound.countsUse isTxn isJob isPhase isRead
    | inr membership =>
      obtain ⟨role, isNew, isJob, isPhase, isOutcome⟩ := membership
      rw [isJob, isPhase] at phase
      refine quiet phase.2 ?_
      simp only [State.record, isJob]

variable {call : Statement} {pubkey : String} {members : Members}

theorem Statement.run_absent {membersAfter : Members} {fresh : ℕ}
    {free : RelayMembers.LockName → Bool} (ran : call.run members fresh free = some membersAfter)
    (absent : members.lookup pubkey = none) :
    membersAfter.lookup pubkey = none ∨
      (∃ role, call = .addRelayMember pubkey role) ∧ free (.row pubkey) := by
  cases Statement.run_lookup ran pubkey with
  | inl same => exact .inl (same.trans absent)
  | inr changed =>
    obtain ⟨isFree, ⟨role, added, -⟩ | ⟨row, present, -⟩⟩ := changed
    · exact .inr ⟨⟨role, added⟩, isFree⟩
    · cases absent.symm.trans present

theorem State.statement_absent
    (ran : call.run state.members state.fresh (state.statementFree call) = some members)
    (member : txn ∈ state.txns) (held : txn.holds (.member pubkey))
    (absent : state.members.lookup pubkey = none) : members.lookup pubkey = none := by
  cases Statement.run_absent ran absent with
  | inl still => exact still
  | inr added =>
    obtain ⟨⟨role, rfl⟩, isFree⟩ := added
    have idle : state.txns.any (fun txn => txn.holds (.member pubkey)) = false := by
      simpa [State.statementFree, State.freeForAll] using isFree
    exact absurd held (any_eq_false.mp idle txn member)

theorem exclusive_map {change : Txn → Txn} {txns : List Txn}
    (same : ∀ txn lock, (change txn).holds lock = txn.holds lock)
    (exclusive : Exclusive Txn.holds txns) : Exclusive Txn.holds (txns.map change) := by
  intro first second one two key isOne isTwo oneHeld twoHeld
  rw [getElem?_map, Option.map_eq_some_iff] at isOne isTwo
  obtain ⟨oldOne, foundOne, rfl⟩ := isOne
  obtain ⟨oldTwo, foundTwo, rfl⟩ := isTwo
  rw [same] at oneHeld twoHeld
  exact exclusive first second oldOne oldTwo key foundOne foundTwo oneHeld twoHeld

theorem State.Sound.runStatement (sound : state.Sound) (call : Statement) :
    (state.runStatement call).Sound := by
  unfold State.runStatement
  split
  · exact sound
  next members ran =>
    dsimp only
    split
    · refine ⟨sound.uses, sound.exclusive, fun txn member => ?_, fun tokenHash row present =>
        Nat.lt_succ_of_lt (sound.invitesOld tokenHash row present), fun use member =>
        Nat.lt_succ_of_lt (sound.joinedOld use member)⟩
      exact (sound.txns txn member).unflagged (fun _ _ _ present => present)
        (fun pubkey held absent => State.statement_absent ran member held absent)
        fun _ present => present
    next removed isRemoved =>
      have wasMember : state.members.lookup removed ≠ none := by
        unfold State.removedBy at isRemoved
        intro absent
        split at isRemoved
        · split at isRemoved
          · cases isRemoved
            rename_i both
            rw [absent] at both
            cases both
          · cases isRemoved
        · split at isRemoved
          · cases isRemoved
            rename_i both
            rw [absent] at both
            cases both
          · cases isRemoved
        · cases isRemoved
        · cases isRemoved
      have flagged (txn : Txn) : (if txn.pubkey = removed then { txn with memberRemoved := true }
          else txn) = { txn with
            memberRemoved := txn.memberRemoved || decide (txn.pubkey = removed) } := by
        split
        next same => simp [same]
        next apart => simp [apart]
      refine ⟨sound.uses, exclusive_map (fun txn lock => by split <;> rfl) sound.exclusive,
        fun item member => ?_, fun tokenHash row present =>
        Nat.lt_succ_of_lt (sound.invitesOld tokenHash row present), fun use member =>
        Nat.lt_succ_of_lt (sound.joinedOld use member)⟩
      obtain ⟨txn, old, rfl⟩ := mem_map.mp member
      rw [flagged]
      refine (sound.txns txn old).frame (fun _ _ _ present => present)
        (fun pubkey held absent => State.statement_absent ran old held absent)
        (fun policyVersion present => ?_) fun before => by simp [before]
      by_cases same : txn.pubkey = removed
      · exact .inr ⟨by rw [same]; exact wasMember, by simp [same]⟩
      · exact .inl (mem_filter.mpr ⟨present, decide_eq_true same⟩)

theorem State.Sound.step (sound : state.Sound) (step : Step) : (state.after step).Sound := by
  cases step with
  | mint tokenHash ttlSecs maxUses now =>
    unfold State.after State.step
    dsimp only
    split
    next valid =>
      refine ⟨fun hash row present => ?_, sound.exclusive, fun txn member => ?_,
        fun hash row present => ?_, fun use member => Nat.lt_succ_of_lt (sound.joinedOld use member)⟩
      · by_cases same : hash = tokenHash
        · subst same
          cases (lookup_insert _).symm.trans present
          refine ⟨?_, fun _ _ => Nat.zero_le _⟩
          symm
          apply count_eq_zero.mpr
          intro used
          exact absurd (sound.joinedOld _ used) (Nat.lt_irrefl _)
        · exact sound.uses hash row ((lookup_insert_ne same).symm.trans present)
      · refine (sound.txns txn member).unflagged (fun hash row _ present => ?_)
          (fun _ _ absent => absent) fun _ present => present
        have apart : hash ≠ tokenHash := by
          intro same
          rw [same, valid.2] at present
          cases present
        exact (lookup_insert_ne apart).trans present
      · by_cases same : hash = tokenHash
        · subst same
          cases (lookup_insert _).symm.trans present
          exact Nat.lt_succ_self _
        · exact Nat.lt_succ_of_lt (sound.invitesOld hash row
            ((lookup_insert_ne same).symm.trans present))
    · exact sound
  | reap tokenHash cutoff =>
    unfold State.after State.step
    dsimp only
    split
    · exact sound
    · split
      next allowed =>
        have kept {hash : TokenHash} {row : Row Invite}
            (present : (state.invites.erase tokenHash).lookup hash = some row) :
            state.invites.lookup hash = some row := by
          by_cases same : hash = tokenHash
          · subst same
            cases (AList.lookup_erase _ _).symm.trans present
          · exact (AList.lookup_erase_ne same).symm.trans present
        refine ⟨fun hash row present => sound.uses hash row (kept present), sound.exclusive,
          fun txn member => ?_, fun hash row present => sound.invitesOld hash row (kept present),
          sound.joinedOld⟩
        refine (sound.txns txn member).unflagged (fun hash row held present => ?_)
          (fun _ _ absent => absent) fun _ present => present
        have apart : hash ≠ tokenHash := by
          intro same
          subst same
          have free := allowed.2
          rw [State.freeForAll, Bool.not_eq_true', any_eq_false] at free
          exact free txn member held
        exact (AList.lookup_erase_ne apart).trans present
      · exact sound
  | start job pubkey policyVersion =>
    refine ⟨sound.uses, sound.exclusive.concat fun _ => rfl, fun txn member => ?_,
      sound.invitesOld, sound.joinedOld⟩
    cases mem_append.mp member with
    | inl old => exact sound.txns txn old
    | inr new =>
      rw [mem_singleton.mp new]
      cases job <;> exact ⟨rfl, rfl⟩
  | run index now =>
    unfold State.after State.step
    dsimp only
    split
    · exact sound
    next txn isTxn =>
      split
      · exact sound
      next move isNext =>
        cases move with
        | go next => exact sound.goes isTxn isNext
        | commit outcome => exact sound.commits isTxn isNext
        | rollback outcome | fail => exact sound.drop isTxn
  | abort index =>
    unfold State.after State.step
    dsimp only
    split
    · exact sound
    next txn isTxn => exact sound.drop isTxn
  | statement call => exact sound.runStatement call

theorem State.Sound.start (members : Members) (acceptances : List (String × String)) (fresh : ℕ) :
    (State.start members acceptances fresh).Sound where
  uses := fun tokenHash row present => by
    rw [State.start, lookup_empty] at present
    cases present
  exclusive := fun first second one two lock isOne => by
    rw [State.start, getElem?_nil] at isOne
    cases isOne
  txns := fun _ member => absurd member not_mem_nil
  invitesOld := fun tokenHash row present => by
    rw [State.start, lookup_empty] at present
    cases present
  joinedOld := fun _ member => absurd member not_mem_nil

end states

section runs

variable {now : ℤ}

theorem Txn.rollback_cases {around : Surroundings} {outcome : Outcome}
    (isNext : txn.next around = some (.rollback outcome)) :
    outcome = .claim .invalid ∨ outcome = .claim .expired ∨ outcome = .claim .exhausted := by
  unfold Txn.next at isNext
  split at isNext
  · unfold Txn.lockInvite at isNext
    split at isNext
    · cases isNext
      exact .inl rfl
    · split at isNext
      · cases isNext
      · split at isNext
        · cases isNext
          exact .inr (.inl rfl)
        · cases isNext
  · unfold Txn.checkMember at isNext
    split at isNext
    · cases isNext
    · split at isNext
      · cases isNext
        exact .inr (.inr rfl)
      · cases isNext
  · exact absurd isNext Txn.insertMember_goes.2
  · exact absurd isNext Txn.insertAcceptance_goes.2
  · cases isNext
  · simp only [Txn.countUse, Option.some.injEq] at isNext
    split at isNext <;> cases isNext
  · cases isNext
  · exact absurd isNext Txn.insertMember_goes.2
  · exact absurd isNext Txn.insertAcceptance_goes.2
  · cases isNext
  · cases isNext

theorem State.step_run (now : ℤ) (isTxn : state.txns[index]? = some txn) :
    state.step (.run index now) = (state, none) ∨
      ∃ move, txn.next (state.around index now) = some move ∧
        state.step (.run index now) = state.runTxn index txn move := by
  unfold State.step
  dsimp only
  rw [isTxn]
  dsimp only
  split
  · exact .inl rfl
  next move isNext => exact .inr ⟨move, isNext, rfl⟩

theorem State.Sound.alreadyMember (sound : state.Sound)
    (isTxn : state.txns[index]? = some txn) (isJob : txn.job = .claimRelayInvite tokenHash)
    (isPhase : txn.phase = .accepted false) : txn.members = ∅ ∧ txn.invites = ∅ := by
  have phase := sound.at isTxn
  rw [isJob, isPhase] at phase
  obtain ⟨-, inserted, invites, -⟩ := phase
  exact ⟨inserted, invites⟩

theorem State.Sound.recorded {next : Txn} (sound : state.Sound)
    (isTxn : state.txns[index]? = some txn) (isJob : txn.job = .claimRelayInvite tokenHash)
    (isNext : (state.after (.run index now)).txns[index]? = some next) (changed : next.read ≠ txn.read) :
    ∃ row, state.invites.lookup tokenHash = some row ∧ next.read = some (row, now) := by
  have inRange := (List.getElem?_eq_some_iff.mp isTxn).1
  have closed (written : (state.txns.set index txn.close)[index]? = some next) : False := by
    rw [getElem?_set_self inRange] at written
    cases written
    exact changed rfl
  unfold State.after at isNext
  cases State.step_run now isTxn with
  | inl waits =>
    rw [waits] at isNext
    cases isTxn.symm.trans isNext
    exact absurd rfl changed
  | inr moves =>
    obtain ⟨move, isMove, ran⟩ := moves
    rw [ran] at isNext
    cases move with
    | go goal =>
      dsimp only [State.runTxn] at isNext
      rw [getElem?_set_self inRange] at isNext
      cases isNext
      have isSound : txn.PhaseSound (state.around index now).invites
          (state.around index now).members (state.around index now).acceptances txn.job
          txn.phase := sound.at isTxn
      obtain ⟨other, row, isOther, present, isRead⟩ := (isSound.go isMove).read changed
      cases isJob.symm.trans isOther
      exact ⟨row, present, isRead⟩
    | commit outcome | rollback outcome | fail => exact (closed isNext).elim

theorem State.Sound.joins (sound : state.Sound)
    (isTxn : state.txns[index]? = some txn) (isJob : txn.job = .claimRelayInvite tokenHash)
    (changed : (state.after (.run index now)).members ≠ state.members) :
    ∃ row lockedAt, txn.read = some (row, lockedAt) ∧ lockedAt < row.value.expiresAt ∧
      row.value.exhausted = false := by
  unfold State.after at changed
  cases State.step_run now isTxn with
  | inl waits =>
    rw [waits] at changed
    exact absurd rfl changed
  | inr moves =>
    obtain ⟨move, isMove, ran⟩ := moves
    rw [ran] at changed
    cases move with
    | go goal | rollback outcome | fail => exact absurd rfl changed
    | commit outcome =>
      cases Txn.commit_cases isMove with
      | inl again =>
        obtain ⟨_, _, _, -, isPhase, -⟩ := again
        have empty := (sound.alreadyMember isTxn isJob isPhase).1
        exact absurd (publish_empty empty) changed
      | inr rest =>
        cases rest with
        | inl joined =>
          obtain ⟨_, _, _, _, _, -, isPhase, -, -⟩ := joined
          have phase := sound.at isTxn
          rw [isJob, isPhase] at phase
          obtain ⟨⟨row, reads, live, -⟩, -⟩ := phase
          obtain ⟨lockedAt, isRead, unexpired⟩ := reads.live
          exact ⟨row, lockedAt, isRead, unexpired, live⟩
        | inr membership =>
          obtain ⟨role, _, isOther, -, -⟩ := membership
          cases isJob.symm.trans isOther

theorem State.Sound.unchanged (sound : state.Sound)
    (isTxn : state.txns[index]? = some txn) (isJob : txn.job = .claimRelayInvite tokenHash)
    (refused : ∀ outcome, (state.step (.run index now)).2 = some (.claim outcome) →
      ¬ outcome.IsJoined) :
    (state.after (.run index now)).members = state.members ∧
      (state.after (.run index now)).invites = state.invites := by
  unfold State.after
  cases State.step_run now isTxn with
  | inl waits =>
    rw [waits]
    exact ⟨rfl, rfl⟩
  | inr moves =>
    obtain ⟨move, isMove, ran⟩ := moves
    rw [ran] at refused ⊢
    cases move with
    | go goal | rollback outcome | fail => exact ⟨rfl, rfl⟩
    | commit outcome =>
      cases Txn.commit_cases isMove with
      | inl again =>
        obtain ⟨_, _, _, -, isPhase, -⟩ := again
        have empty := sound.alreadyMember isTxn isJob isPhase
        exact ⟨publish_empty empty.1, publish_empty empty.2⟩
      | inr rest =>
        cases rest with
        | inl joined =>
          obtain ⟨_, _, _, _, _, -, -, -, isOutcome⟩ := joined
          rw [isOutcome] at refused
          exact absurd trivial (refused _ rfl)
        | inr membership =>
          obtain ⟨role, _, isOther, -, -⟩ := membership
          cases isJob.symm.trans isOther

theorem State.Sound.accepted {tokenHash : TokenHash} {policyVersion : String} (sound : state.Sound)
    (isTxn : state.txns[index]? = some txn) (isJob : txn.job = .claimRelayInvite tokenHash)
    (isPolicy : txn.policyVersion = some policyVersion) :
    (∀ useCount usesRemaining,
      (state.step (.run index now)).2 = some (.claim (.joined useCount usesRemaining)) →
        (txn.pubkey, policyVersion) ∈ (state.after (.run index now)).acceptances) ∧
    ∀ useCount usesRemaining,
      (state.step (.run index now)).2 = some (.claim (.alreadyMember useCount usesRemaining)) →
        (txn.pubkey, policyVersion) ∈ (state.after (.run index now)).acceptances ∨
          txn.memberRemoved := by
  unfold State.after
  cases State.step_run now isTxn with
  | inl waits =>
    rw [waits]
    exact ⟨nofun, nofun⟩
  | inr moves =>
    obtain ⟨move, isMove, ran⟩ := moves
    rw [ran]
    have phase := sound.at isTxn
    cases move with
    | go goal | fail => exact ⟨nofun, nofun⟩
    | rollback outcome =>
      rcases Txn.rollback_cases isMove with rfl | rfl | rfl
      · exact ⟨nofun, nofun⟩
      · exact ⟨nofun, nofun⟩
      · exact ⟨nofun, nofun⟩
    | commit outcome =>
      cases Txn.commit_cases isMove with
      | inl again =>
        obtain ⟨_, _, _, -, isPhase, rfl⟩ := again
        rw [isJob, isPhase] at phase
        refine ⟨nofun, fun _ _ _ => ?_⟩
        cases phase.2.2.2 policyVersion isPolicy with
        | inl own => exact .inl (mem_append_left _ own)
        | inr committed =>
          cases committed with
          | inl present => exact .inl (mem_append_right _ present)
          | inr gone => exact .inr gone.2
      | inr rest =>
        cases rest with
        | inl joined =>
          obtain ⟨_, _, _, _, _, -, isPhase, -, rfl⟩ := joined
          rw [isJob, isPhase] at phase
          refine ⟨fun _ _ _ => ?_, nofun⟩
          cases phase.2.2 policyVersion isPolicy with
          | inl own => exact mem_append_left _ own
          | inr committed =>
            cases committed with
            | inl present => exact mem_append_right _ present
            | inr gone => cases gone.1
        | inr membership =>
          obtain ⟨role, _, isOther, -, -⟩ := membership
          cases isJob.symm.trans isOther

theorem State.Sound.kept (sound : state.Sound) (step : Step) : step.Kept state where
  uses := (sound.step step).uses
  recorded := by
    intro index now txn next tokenHash isStep isTxn isJob isNext changed
    subst isStep
    exact sound.recorded isTxn isJob isNext changed
  joins := by
    intro index now txn tokenHash isStep isTxn isJob changed
    subst isStep
    exact sound.joins isTxn isJob changed
  unchanged := by
    intro index txn tokenHash isStep isTxn isJob refused
    cases isStep with
    | inl ran =>
      obtain ⟨now, rfl⟩ := ran
      exact sound.unchanged isTxn isJob refused
    | inr aborted =>
      subst aborted
      unfold State.after State.step
      dsimp only
      rw [isTxn]
      exact ⟨rfl, rfl⟩
  accepted := by
    intro index now txn tokenHash policyVersion isStep isTxn isJob isPolicy
    subst isStep
    exact sound.accepted isTxn isJob isPolicy

theorem State.Sound.eachStep (sound : state.Sound) (steps : List Step) :
    state.EachStep (fun before step => step.Kept before) steps := by
  induction steps generalizing state with
  | nil => exact trivial
  | cons step rest ih => exact ⟨sound.kept step, ih (sound.step step)⟩

theorem invite_use_exact (members : Members) (acceptances : List (String × String)) (fresh : ℕ)
    (steps : List Step) :
    (State.start members acceptances fresh).EachStep (fun before step => step.Kept before) steps :=
  (State.Sound.start members acceptances fresh).eachStep steps

end runs

def sampleHash : TokenHash := .fill 7

def sampleVersion : String := String.ofList (replicate 64 'f')

/-- The member is removed once the statement found the evidence. -/
def removalRun : State :=
  [Step.mint sampleHash 3600 (some 1) 0,
    .start (.claimRelayInvite sampleHash) "key" (some sampleVersion),
    .run 0 5, .run 0 5, .run 0 5, .statement (.removeRelayMember "key")].foldl State.after
    (State.start (AList.insert "key" ⟨0, .member⟩ ∅) [("key", sampleVersion)] 1)

theorem acceptance_removed :
    (removalRun.step (.run 0 5)).2 = some (.claim (.alreadyMember 0 (some 1))) ∧
      ("key", sampleVersion) ∉ (removalRun.after (.run 0 5)).acceptances ∧
        removalRun.txns.map (fun txn => (txn.pubkey, txn.policyVersion)) =
          [("key", some sampleVersion)] := by
  decide +kernel

end Buzz.Invites
