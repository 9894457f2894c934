import Buzz.RelayMembers.Commands

/-! Who owns a community, over any interleaving. -/

namespace Buzz.RelayMembers

open Nostr Library.Locks Library.Results Library.RowVersions

section statements

variable (state : State)

def State.AtMostOneOwner : Prop :=
  ∀ first second, isOwner state.members first → isOwner state.members second →
    first = second

def State.HasOwner : Prop := ∃ pubkey, isOwner state.members pubkey

def roleOf (members : Members) (pubkey : String) : Option Role :=
  (members.lookup pubkey).map Row.value

/-- A community to begin with: one owner or none. -/
structure Community where
  members : Members
  single : ∀ first second, isOwner members first → isOwner members second →
    first = second

def State.start (community : Community) : State where
  members := community.members
  fresh := community.members.entries.foldr (fun entry fresh => max entry.2.incarnation fresh) 0 + 1
  txns := []
  commands := []

structure Step.Kept (step : Step) : Prop where
  single : (state.after step).AtMostOneOwner
  ownerKept : state.HasOwner → (state.after step).HasOwner
  transferred : ∀ index ownedElsewhere limit txn previousOwner,
    step = .run index ownedElsewhere limit → state.txns[index]? = some txn →
      (state.step step).2 = some (.transfer (.transferred previousOwner)) →
        isOwner (state.after step).members txn.pubkey ∧
          ∃ previous, previousOwner = some previous ∧ isOwner state.members previous ∧
            roleOf (state.after step).members previous = some .member
  otherResult : ∀ result, (state.step step).2 = some (.transfer result) →
    (∀ previousOwner, result ≠ .transferred previousOwner) →
      (state.after step).members = state.members
  adminCommand : ∀ index command, step = .execute index →
    state.commands[index]? = some command → command.senderRole = some .admin →
      ∀ pubkey row, state.members.lookup pubkey = some row →
        row.value = .owner ∨ row.value = .admin → (state.after step).members.lookup pubkey = some row

def Statement.NotForOwners : Statement → Prop
  | .addRelayMember _ role => role ≠ .owner
  | .removeRelayMember _ => True
  | .removeRelayMemberIfRole _ expectedRole => expectedRole ≠ .owner
  | .updateRelayMemberRole _ newRole => newRole ≠ .owner

def Job.NotForOwners : Job → Prop
  | .claimRelayMembership role => role ≠ .owner
  | _ => True

def Statement.ForMembers : Statement → Prop
  | .addRelayMember _ _ => True
  | .removeRelayMemberIfRole _ expectedRole => expectedRole = .member
  | .removeRelayMember _ => False
  | .updateRelayMemberRole _ _ => False

/-- Of two owner changes that overlap, one a bootstrap, one is for the owner. -/
def Step.Within : Step → Prop
  | .start job _ => job.NotForOwners
  | .statement call => call.NotForOwners
  | .run index _ _ => ∀ txn previousOwner, state.txns[index]? = some txn →
      txn.phase = .promoted previousOwner →
        ∀ other rival rivalPrevious remaining, other ≠ index → state.txns[other]? = some rival →
          rival.phase = .demoting rivalPrevious remaining →
            txn.job = .bootstrapOwner ∨ rival.job = .bootstrapOwner →
              isOwner state.members txn.pubkey ∨ isOwner state.members rival.pubkey
  | _ => True

def State.EachStep (holds : State → Step → Prop) (state : State) : List Step → Prop
  | [] => True
  | step :: rest => holds state step ∧ EachStep holds (state.after step) rest

end statements

section invariant

variable (members : Members) (txn : Txn)

def Txn.PreviousSound (previousOwner : Option String) : Prop :=
  match txn.job with
  | .transferOwnership _ => ∃ previous, previousOwner = some previous ∧ previous ≠ txn.pubkey ∧
      txn.holds (.row previous) ∧ isOwner members previous
  | .bootstrapOwner => True
  | .claimRelayMembership _ => False

structure Txn.PromotedSound : Prop where
  held : txn.holds (.row txn.pubkey)
  written : ∃ row, txn.written.lookup txn.pubkey = some row ∧ row.value = .owner ∧
    ∀ old, members.lookup txn.pubkey = some old → old.incarnation = row.incarnation

def Txn.remaining : List (String × ℕ) :=
  match txn.phase with
  | .demoting _ remaining => remaining
  | _ => []

def Txn.IsDemoting : Prop := ∃ previousOwner remaining, txn.phase = .demoting previousOwner remaining

def Txn.Covers : Prop :=
  ∀ pubkey row, members.lookup pubkey = some row → row.value = .owner → pubkey ≠ txn.pubkey →
    (pubkey, row.incarnation) ∈ txn.remaining ∨
      ∃ demoted, txn.written.lookup pubkey = some demoted ∧ demoted.value = txn.job.demotedRole

def Txn.PhaseSound : Phase → Prop
  | .begun => txn.written = ∅
  | .serialized => txn.written = ∅ ∧ ∃ expectedOwner, txn.job = .transferOwnership expectedOwner
  | .locking remaining existingOwners =>
    txn.written = ∅ ∧ (∃ expectedOwner, txn.job = .transferOwnership expectedOwner) ∧
      (existingOwners ++ remaining.map Prod.fst).Nodup ∧
        ∀ pubkey ∈ existingOwners, txn.holds (.row pubkey) ∧ isOwner members pubkey
  | .accepted previousOwner => txn.written = ∅ ∧ txn.PreviousSound members previousOwner
  | .counted previousOwner => txn.written = ∅ ∧ txn.PreviousSound members previousOwner
  | .promoted previousOwner =>
    txn.PreviousSound members previousOwner ∧ txn.PromotedSound members ∧
      ∀ pubkey row, txn.written.lookup pubkey = some row → pubkey = txn.pubkey
  | .demoting previousOwner remaining =>
    txn.PreviousSound members previousOwner ∧ txn.PromotedSound members ∧
      (∀ pubkey row, txn.written.lookup pubkey = some row → pubkey ≠ txn.pubkey →
        row.value = txn.job.demotedRole) ∧ (∀ entry ∈ remaining, entry.1 ≠ txn.pubkey) ∧
          txn.Covers members
  | .inserted _ => (∃ role, txn.job = .claimRelayMembership role) ∧
      ∀ pubkey row, txn.written.lookup pubkey = some row →
        row.value ≠ .owner ∧ members.lookup pubkey = none
  | .ended => True

structure Txn.Sound : Prop where
  job : txn.job.NotForOwners
  writtenHeld : ∀ pubkey row, txn.written.lookup pubkey = some row → txn.holds (.row pubkey)
  phase : txn.PhaseSound members txn.phase

/-- The demotion of `txn` has the promoted key of the other before it. -/
def Txn.Sees (rival : Txn) : Prop :=
  ∃ row, members.lookup rival.pubkey = some row ∧ row.value = .owner ∧
    (rival.pubkey, row.incarnation) ∈ txn.remaining

structure State.Sound (state : State) : Prop where
  single : state.AtMostOneOwner
  exclusive : Exclusive Txn.holds state.txns
  txns : ∀ txn ∈ state.txns, txn.Sound state.members
  pairs : ∀ (first second : ℕ) (one two : Txn), first ≠ second → state.txns[first]? = some one →
    state.txns[second]? = some two → one.IsDemoting → two.IsDemoting →
      one.Sees state.members two ∨ two.Sees state.members one
  commands : ∀ command ∈ state.commands, command.statement.NotForOwners ∧
    (command.senderRole = some .admin → command.statement.ForMembers)

end invariant

section frame

variable {members after : Members} {txn rival : Txn} {pubkey : String}

theorem isOwner_iff :
    isOwner members pubkey ↔ ∃ row, members.lookup pubkey = some row ∧ row.value = .owner := by
  rw [isOwner, Option.any_eq_true]
  simp only [decide_eq_true_eq]

theorem isOwner_congr (same : after.lookup pubkey = members.lookup pubkey) :
    isOwner after pubkey = isOwner members pubkey := by
  rw [isOwner, isOwner, same]

theorem Txn.Sound.frame (sound : txn.Sound members)
    (held : ∀ pubkey, txn.holds (.row pubkey) → after.lookup pubkey = members.lookup pubkey)
    (owners : txn.IsDemoting → ∀ pubkey row, after.lookup pubkey = some row → row.value = .owner →
      members.lookup pubkey = some row ∨ (pubkey, row.incarnation) ∈ txn.remaining) :
    txn.Sound after := by
  have previous {previousOwner : Option String}
      (before : txn.PreviousSound members previousOwner) : txn.PreviousSound after previousOwner := by
    unfold Txn.PreviousSound at before ⊢
    split
    next expectedOwner isJob =>
      rw [isJob] at before
      obtain ⟨owner, isPrevious, apart, holding, isOwner⟩ := before
      exact ⟨owner, isPrevious, apart, holding, (isOwner_congr (held owner holding)).trans isOwner⟩
    · trivial
    next role isJob =>
      rw [isJob] at before
      exact before
  have promoted (before : txn.PromotedSound members) : txn.PromotedSound after := by
    refine ⟨before.held, ?_⟩
    rw [held txn.pubkey before.held]
    exact before.written
  refine ⟨sound.job, sound.writtenHeld, ?_⟩
  have phase := sound.phase
  cases isPhase : txn.phase with
  | begun | serialized =>
    rw [isPhase] at phase
    exact phase
  | locking remaining existingOwners =>
    rw [isPhase] at phase
    refine ⟨phase.1, phase.2.1, phase.2.2.1, fun owner member => ?_⟩
    obtain ⟨holding, isOwner⟩ := phase.2.2.2 owner member
    exact ⟨holding, (isOwner_congr (held owner holding)).trans isOwner⟩
  | accepted previousOwner | counted previousOwner =>
    rw [isPhase] at phase
    exact ⟨phase.1, previous phase.2⟩
  | promoted previousOwner =>
    rw [isPhase] at phase
    exact ⟨previous phase.1, promoted phase.2.1, phase.2.2⟩
  | demoting previousOwner remaining =>
    rw [isPhase] at phase
    refine ⟨previous phase.1, promoted phase.2.1, phase.2.2.1, phase.2.2.2.1, ?_⟩
    intro owner row present isOwner apart
    cases owners ⟨_, _, isPhase⟩ owner row present isOwner with
    | inl before => exact phase.2.2.2.2 owner row before isOwner apart
    | inr waiting => exact .inl waiting
  | inserted isNew =>
    rw [isPhase] at phase
    refine ⟨phase.1, fun key row isWritten => ?_⟩
    obtain ⟨plain, absent⟩ := phase.2 key row isWritten
    exact ⟨plain, (held key (sound.writtenHeld key row isWritten)).trans absent⟩
  | ended => trivial

theorem Txn.Sees.frame (sees : txn.Sees members rival)
    (same : after.lookup rival.pubkey = members.lookup rival.pubkey) : txn.Sees after rival := by
  obtain ⟨row, present, rest⟩ := sees
  exact ⟨row, same.trans present, rest⟩

theorem Txn.Sound.demoting (sound : txn.Sound members) (demoting : txn.IsDemoting) :
    txn.PromotedSound members ∧ txn.Covers members := by
  obtain ⟨previousOwner, remaining, isPhase⟩ := demoting
  have phase := sound.phase
  rw [isPhase] at phase
  exact ⟨phase.2.1, phase.2.2.2.2⟩

theorem Statement.run_frame {fresh : ℕ} {free : LockName → Bool} {statement : Statement}
    (plain : statement.NotForOwners) (ran : statement.run members fresh free = some after)
    (pubkey : String) : after.lookup pubkey = members.lookup pubkey ∨
      free (.row pubkey) ∧ isOwner members pubkey = false ∧ isOwner after pubkey = false := by
  cases Statement.run_lookup ran pubkey with
  | inl same => exact .inl same
  | inr changed =>
    obtain ⟨isFree, changed⟩ := changed
    refine .inr ⟨isFree, ?_⟩
    simp only [isOwner]
    obtain ⟨role, rfl, absent, added⟩ | ⟨row, present, changed⟩ := changed
    · rw [absent, added]
      exact ⟨rfl, decide_eq_false plain⟩
    · rw [present]
      obtain ⟨-, isPlain, gone⟩ | ⟨rfl, gone⟩ | ⟨role, rfl, isPlain, updated⟩ := changed
      · rw [gone]
        exact ⟨decide_eq_false isPlain, rfl⟩
      · rw [gone]
        exact ⟨decide_eq_false plain, rfl⟩
      · rw [updated]
        exact ⟨decide_eq_false isPlain, decide_eq_false plain⟩

end frame

end Buzz.RelayMembers
