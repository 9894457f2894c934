import Buzz.Nostr.Event
import Buzz.RelayMembers.Statements

/-! Use-limited invites. A claim is a transaction that keeps the invite row locked from its first
statement on. -/

namespace Buzz.Invites

open Nostr Library.Locks Library.RowVersions
open Buzz.RelayMembers (Role Members Statement)

abbrev TokenHash := FixedBytes 32

structure Invite where
  maxUses : Option ℕ
  useCount : ℕ
  expiresAt : ℤ
  deriving DecidableEq

def Invite.exhausted (self : Invite) : Bool :=
  self.maxUses.any (· ≤ self.useCount)

def Invite.usesRemaining (self : Invite) : Option ℤ :=
  self.maxUses.map fun maxUses => (maxUses : ℤ) - self.useCount

abbrev InviteTable := Table TokenHash Invite

inductive LockName
  | invite (tokenHash : TokenHash)
  | member (pubkey : String)
  | acceptance (pubkey policyVersion : String)
  deriving DecidableEq

inductive ClaimOutcome
  | joined (useCount : ℕ) (usesRemaining : Option ℤ)
  | alreadyMember (useCount : ℕ) (usesRemaining : Option ℤ)
  | expired
  | exhausted
  | invalid
  deriving DecidableEq

inductive Outcome
  | claim (outcome : ClaimOutcome)
  | membership (inserted : Bool)
  deriving DecidableEq

inductive Job
  | claimRelayInvite (tokenHash : TokenHash)
  | claimRelayMembership (role : Role)
  deriving DecidableEq

inductive Phase
  | begun
  | locked
  | checked
  | inserted (isNew : Bool)
  | accepted (isNew : Bool)
  | counted
  | ended
  deriving DecidableEq

/-- `shares` are the member rows that a new acceptance keeps from being deleted. -/
structure Txn where
  job : Job
  pubkey : String
  policyVersion : Option String
  phase : Phase
  read : Option (Row Invite × ℤ)
  locks : List LockName
  shares : List String
  members : Members
  invites : InviteTable
  acceptances : List (String × String)
  memberRemoved : Bool

namespace Txn

variable (self : Txn)

def holds (lock : LockName) : Bool := lock ∈ self.locks

def pins (pubkey : String) : Bool := self.holds (.member pubkey) || decide (pubkey ∈ self.shares)

def goTo (phase : Phase) : Txn := { self with phase }

def close : Txn :=
  { self with phase := .ended, locks := [], shares := [], members := ∅, invites := ∅, acceptances := [] }

end Txn

inductive Move
  | go (txn : Txn)
  | commit (outcome : Outcome)
  | rollback (outcome : Outcome)
  | fail

structure Surroundings where
  invites : InviteTable
  members : Members
  acceptances : List (String × String)
  fresh : ℕ
  free : LockName → Bool
  now : ℤ

namespace Txn

variable (self : Txn) (around : Surroundings)

/-- With the expiry check on the row. -/
def lockInvite (tokenHash : TokenHash) : Option Move :=
  match around.invites.lookup tokenHash with
  | none => some (.rollback (.claim .invalid))
  | some row =>
    if !around.free (.invite tokenHash) then none
    else if row.value.expiresAt ≤ around.now then some (.rollback (.claim .expired))
    else
      some (.go { self with
        phase := .locked
        read := some (row, around.now)
        locks := .invite tokenHash :: self.locks })

/-- The membership check, and the capacity check of someone who is no member. -/
def checkMember (invite : Invite) : Move :=
  match around.members.lookup self.pubkey with
  | some _ => .go (self.goTo (.inserted false))
  | none => if invite.exhausted then .rollback (.claim .exhausted) else .go (self.goTo .checked)

/-- `INSERT .. ON CONFLICT DO NOTHING`. -/
def insertMember (role : Role) : Option Move :=
  match around.members.lookup self.pubkey with
  | some _ => some (.go (self.goTo (.inserted false)))
  | none =>
    if around.free (.member self.pubkey) then
      some (.go { self with
        phase := .inserted true
        locks := .member self.pubkey :: self.locks
        members := self.members.insert self.pubkey ⟨around.fresh, role⟩ })
    else none

/-- A new row takes a key-share lock on the member row, and fails without one. -/
def insertAcceptance (isNew : Bool) : Option Move :=
  let next : Txn := { self with phase := .accepted isNew, memberRemoved := false }
  match self.policyVersion with
  | none => some (.go next)
  | some policyVersion =>
    if policyVersion.length ≠ 64 then some .fail
    else if (self.pubkey, policyVersion) ∈ around.acceptances then some (.go next)
    else if !around.free (.acceptance self.pubkey policyVersion) then none
    else if (self.members.lookup self.pubkey).isNone && (around.members.lookup self.pubkey).isNone then
      some .fail
    else
      some (.go { next with
        locks := .acceptance self.pubkey policyVersion :: self.locks
        shares := self.pubkey :: self.shares
        acceptances := (self.pubkey, policyVersion) :: self.acceptances })

/-- `UPDATE relay_invites SET use_count`, with the check constraint of the table. -/
def countUse (tokenHash : TokenHash) (row : Row Invite) : Move :=
  let useCount := row.value.useCount + 1
  if 2147483647 < useCount ∨ row.value.maxUses.any (· < useCount) then
    .fail
  else
    .go { self with
      phase := .counted
      invites := self.invites.insert tokenHash ⟨row.incarnation, { row.value with useCount }⟩ }

/-- `none` where the transaction waits, or has nothing left to do. -/
def next : Option Move :=
  match self.job, self.phase, self.read with
  | .claimRelayInvite tokenHash, .begun, _ => self.lockInvite around tokenHash
  | .claimRelayInvite _, .locked, some (row, _) => some (self.checkMember around row.value)
  | .claimRelayInvite _, .checked, some _ => self.insertMember around .member
  | .claimRelayInvite _, .inserted isNew, some _ => self.insertAcceptance around isNew
  | .claimRelayInvite _, .accepted false, some (row, _) =>
    some (.commit (.claim (.alreadyMember row.value.useCount row.value.usesRemaining)))
  | .claimRelayInvite tokenHash, .accepted true, some (row, _) => some (self.countUse tokenHash row)
  | .claimRelayInvite _, .counted, some (row, _) =>
    let invite := { row.value with useCount := row.value.useCount + 1 }
    some (.commit (.claim (.joined invite.useCount invite.usesRemaining)))
  | .claimRelayMembership role, .begun, _ => self.insertMember around role
  | .claimRelayMembership _, .inserted isNew, _ => self.insertAcceptance around isNew
  | .claimRelayMembership _, .accepted isNew, _ => some (.commit (.membership isNew))
  | _, _, _ => none

end Txn

/-- `joined` lists the uses that were returned, each with its invite. -/
structure State where
  invites : InviteTable
  members : Members
  acceptances : List (String × String)
  joined : List (TokenHash × ℕ)
  fresh : ℕ
  txns : List Txn

inductive Step
  | mint (tokenHash : TokenHash) (ttlSecs : ℕ) (maxUses : Option ℕ) (now : ℤ)
  | reap (tokenHash : TokenHash) (cutoff : ℤ)
  | start (job : Job) (pubkey : String) (policyVersion : Option String)
  | run (index : ℕ) (now : ℤ)
  | abort (index : ℕ)
  | statement (call : Statement)

def Txn.start (job : Job) (pubkey : String) (policyVersion : Option String) : Txn :=
  ⟨job, pubkey, policyVersion, .begun, none, [], [], ∅, ∅, [], false⟩

/-- `validate_mint_inputs`. -/
def mintInputsValid (ttlSecs : ℕ) (maxUses : Option ℕ) : Bool :=
  decide (60 ≤ ttlSecs ∧ ttlSecs ≤ 2592000) &&
    maxUses.all fun maxUses => decide (1 ≤ maxUses ∧ maxUses ≤ 10000)

namespace State

variable (self : State)

def free (index : ℕ) (lock : LockName) : Bool :=
  !others index (·.holds lock) self.txns

def freeForAll (lock : LockName) : Bool := !self.txns.any (·.holds lock)

def around (index : ℕ) (now : ℤ) : Surroundings :=
  ⟨self.invites, self.members, self.acceptances, self.fresh, self.free index, now⟩

/-- Others wait for whoever has inserted it. -/
def statementFree (call : Statement) : RelayMembers.LockName → Bool
  | .advisory _ => true
  | .row pubkey =>
    match call with
    | .removeRelayMember _ | .removeRelayMemberIfRole _ _ =>
      !self.txns.any (·.pins pubkey)
    | .addRelayMember _ _ | .updateRelayMemberRole _ _ => self.freeForAll (.member pubkey)

def removeAcceptances (pubkey : String) : State :=
  { self with
    acceptances := self.acceptances.filter (·.1 ≠ pubkey)
    txns := self.txns.map fun txn =>
      if txn.pubkey = pubkey then { txn with memberRemoved := true } else txn }

def removedBy (call : Statement) (after : Members) : Option String :=
  match call with
  | .removeRelayMember pubkey | .removeRelayMemberIfRole pubkey _ =>
    if (self.members.lookup pubkey).isSome && (after.lookup pubkey).isNone then some pubkey else none
  | .addRelayMember _ _ | .updateRelayMemberRole _ _ => none

def runStatement (call : Statement) : State :=
  match call.run self.members self.fresh (self.statementFree call) with
  | none => self
  | some members =>
    let after := { self with members, fresh := self.fresh + 1 }
    match self.removedBy call members with
    | none => after
    | some pubkey => after.removeAcceptances pubkey

def record (txn : Txn) (outcome : Outcome) : List (TokenHash × ℕ) :=
  match txn.job, txn.read, outcome with
  | .claimRelayInvite tokenHash, some (row, _), .claim (.joined _ _) =>
    (tokenHash, row.incarnation) :: self.joined
  | _, _, _ => self.joined

def runTxn (index : ℕ) (txn : Txn) : Move → State × Option Outcome
  | .go next => ({ self with txns := self.txns.set index next, fresh := self.fresh + 1 }, none)
  | .commit outcome =>
    ({ self with
        invites := self.invites.publish txn.invites
        members := self.members.publish txn.members
        acceptances := txn.acceptances ++ self.acceptances
        joined := self.record txn outcome
        txns := self.txns.set index txn.close }, some outcome)
  | .rollback outcome => ({ self with txns := self.txns.set index txn.close }, some outcome)
  | .fail => ({ self with txns := self.txns.set index txn.close }, none)

def step : Step → State × Option Outcome
  | .mint tokenHash ttlSecs maxUses now =>
    if mintInputsValid ttlSecs maxUses ∧ self.invites.lookup tokenHash = none then
      ({ self with
          invites := self.invites.insert tokenHash ⟨self.fresh, ⟨maxUses, 0, now + ttlSecs⟩⟩
          fresh := self.fresh + 1 }, none)
    else (self, none)
  | .reap tokenHash cutoff =>
    match self.invites.lookup tokenHash with
    | none => (self, none)
    | some row =>
      if row.value.expiresAt < cutoff ∧ self.freeForAll (.invite tokenHash) = true then
        ({ self with invites := self.invites.erase tokenHash }, none)
      else (self, none)
  | .start job pubkey policyVersion =>
    ({ self with txns := self.txns ++ [Txn.start job pubkey policyVersion] }, none)
  | .run index now =>
    match self.txns[index]? with
    | none => (self, none)
    | some txn =>
      match txn.next (self.around index now) with
      | none => (self, none)
      | some move => self.runTxn index txn move
  | .abort index =>
    match self.txns[index]? with
    | none => (self, none)
    | some txn => ({ self with txns := self.txns.set index txn.close }, none)
  | .statement call => (self.runStatement call, none)

def after (step : Step) : State := (self.step step).1

end State

end Buzz.Invites
