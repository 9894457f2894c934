import Buzz.Library.Latest
import Buzz.Library.Slots

/-! The members of a relay community. -/

namespace Buzz.RelayMembers

open Library.Locks Library.RowVersions

inductive Role
  | owner
  | admin
  | member
  deriving DecidableEq

abbrev Members := Table String Role

def isOwner (members : Members) (pubkey : String) : Bool :=
  (members.lookup pubkey).any (·.value = .owner)

def ownerCountAdvisoryLockKey (pubkeyHex : String) : UInt64 :=
  pubkeyHex.toUTF8.toList.foldl (fun hash byte => (hash ^^^ byte.toUInt64) * 0x100000001b3)
    0xcbf29ce484222325

inductive LockName
  | advisory (key : UInt64)
  | row (pubkey : String)
  deriving DecidableEq

inductive TransferResult
  | transferred (previousOwner : Option String)
  | alreadyOwner
  | noOwner
  | ownerConflict
  | limitReached
  deriving DecidableEq

inductive Result
  | bootstrapped
  | transfer (result : TransferResult)
  | claimed (inserted : Bool)
  deriving DecidableEq

inductive Job
  | bootstrapOwner
  | transferOwnership (expectedOwner : String)
  | claimRelayMembership (role : Role)
  deriving DecidableEq

def Job.demotedRole : Job → Role
  | .bootstrapOwner => .admin
  | .transferOwnership _ => .member
  | .claimRelayMembership _ => .member

/-- `remaining` are the snapshot's rows that it has not come to yet. -/
inductive Phase
  | begun
  | serialized
  | locking (remaining : List (String × ℕ)) (existingOwners : List String)
  | accepted (previousOwner : Option String)
  | counted (previousOwner : Option String)
  | promoted (previousOwner : Option String)
  | demoting (previousOwner : Option String) (remaining : List (String × ℕ))
  | inserted (isNew : Bool)
  | ended
  deriving DecidableEq

structure Txn where
  job : Job
  pubkey : String
  locks : List LockName
  written : Members
  phase : Phase

namespace Txn

variable (self : Txn)

def holds (lock : LockName) : Bool := lock ∈ self.locks

def goTo (phase : Phase) : Txn := { self with phase }

def lock (lock : LockName) : Txn := { self with locks := lock :: self.locks }

def write (pubkey : String) (row : Row Role) : Txn :=
  { self with
    locks := .row pubkey :: self.locks
    written := self.written.insert pubkey row }

def close : Txn := { self with locks := [], written := ∅, phase := .ended }

end Txn

inductive Move
  | go (txn : Txn)
  | commit (result : Result)
  | rollback (result : Result)

/-- `free` tells what no other transaction has locked. -/
structure Surroundings where
  members : Members
  fresh : ℕ
  free : LockName → Bool
  ownedElsewhere : ℕ
  maxCommunitiesPerOwner : ℕ

namespace Txn

variable (self : Txn) (around : Surroundings)

/-- `INSERT .. ON CONFLICT DO UPDATE SET role = 'owner'`. -/
def promote (previousOwner : Option String) : Option Move :=
  if around.free (.row self.pubkey) then
    let incarnation := ((around.members.lookup self.pubkey).map Row.incarnation).getD around.fresh
    some (.go ((self.write self.pubkey ⟨incarnation, .owner⟩).goTo (.promoted previousOwner)))
  else none

def recheck (entry : String × ℕ) : Option (Option (Row Role)) :=
  match around.members.lookup entry.1 with
  | none => some none
  | some row =>
    if row.incarnation ≠ entry.2 then some none
    else if !around.free (.row entry.1) then none
    else if row.value = .owner then some (some row)
    else some none

/-- The checks of `transfer_ownership` on the owner rows that it has locked. -/
def checkOwners (expectedOwner : String) (existingOwners : List String) : Move :=
  if existingOwners = [] then .rollback (.transfer .noOwner)
  else if expectedOwner ∉ existingOwners then .rollback (.transfer .ownerConflict)
  else if existingOwners = [self.pubkey] then .rollback (.transfer .alreadyOwner)
  else
    .go (self.goTo (.accepted (if existingOwners.length = 1 then existingOwners.head?
      else existingOwners.find? (· ≠ self.pubkey))))

def lockOwners (expectedOwner : String) (existingOwners : List String) :
    List (String × ℕ) → Option Move
  | [] => some (self.checkOwners expectedOwner existingOwners)
  | entry :: rest =>
    match recheck around entry with
    | none => none
    | some none => some (.go (self.goTo (.locking rest existingOwners)))
    | some (some _) =>
      some (.go ((self.lock (.row entry.1)).goTo (.locking rest (existingOwners ++ [entry.1]))))

def checkLimit (previousOwner : Option String) : Move :=
  if around.maxCommunitiesPerOwner ≤
      around.ownedElsewhere + (isOwner around.members self.pubkey).toNat then
    .rollback (.transfer .limitReached)
  else .go (self.goTo (.counted previousOwner))

/-- `UPDATE .. WHERE role = 'owner' AND pubkey <> $2`, the snapshot first. -/
def startDemotion (previousOwner : Option String) : Txn :=
  self.goTo (.demoting previousOwner (around.members.matching fun pubkey role =>
    role = .owner && pubkey ≠ self.pubkey))

def demote (result : Result) (previousOwner : Option String) : List (String × ℕ) → Option Move
  | [] => some (.commit result)
  | entry :: rest =>
    match recheck around entry with
    | none => none
    | some none => some (.go (self.goTo (.demoting previousOwner rest)))
    | some (some row) =>
      some (.go ((self.write entry.1 ⟨row.incarnation, self.job.demotedRole⟩).goTo
        (.demoting previousOwner rest)))

def insertMember (role : Role) : Option Move :=
  match around.members.lookup self.pubkey with
  | some _ => some (.go (self.goTo (.inserted false)))
  | none =>
    if around.free (.row self.pubkey) then
      some (.go ((self.write self.pubkey ⟨around.fresh, role⟩).goTo (.inserted true)))
    else none

/-- `none` where the transaction waits, or has nothing left to do. -/
def next : Option Move :=
  match self.job, self.phase with
  | .bootstrapOwner, .begun => self.promote around none
  | .bootstrapOwner, .promoted previousOwner => some (.go (self.startDemotion around previousOwner))
  | .bootstrapOwner, .demoting previousOwner remaining =>
    self.demote around .bootstrapped previousOwner remaining
  | .transferOwnership _, .begun =>
    let advisory := LockName.advisory (ownerCountAdvisoryLockKey self.pubkey)
    if around.free advisory then some (.go ((self.lock advisory).goTo .serialized)) else none
  | .transferOwnership _, .serialized =>
    some (.go (self.goTo (.locking
      (around.members.matching fun _ role => role = .owner) [])))
  | .transferOwnership expectedOwner, .locking remaining existingOwners =>
    self.lockOwners around expectedOwner existingOwners remaining
  | .transferOwnership _, .accepted previousOwner => some (self.checkLimit around previousOwner)
  | .transferOwnership _, .counted previousOwner => self.promote around previousOwner
  | .transferOwnership _, .promoted previousOwner =>
    some (.go (self.startDemotion around previousOwner))
  | .transferOwnership _, .demoting previousOwner remaining =>
    self.demote around (.transfer (.transferred previousOwner)) previousOwner remaining
  | .claimRelayMembership role, .begun => self.insertMember around role
  | .claimRelayMembership _, .inserted isNew => some (.commit (.claimed isNew))
  | _, _ => none

end Txn

inductive Statement
  | addRelayMember (pubkey : String) (role : Role)
  | removeRelayMember (pubkey : String)
  | removeRelayMemberIfRole (pubkey : String) (expectedRole : Role)
  | updateRelayMemberRole (pubkey : String) (newRole : Role)
  deriving DecidableEq

def Statement.run (members : Members) (fresh : ℕ) (free : LockName → Bool) :
    Statement → Option Members
  | .addRelayMember pubkey role =>
    match members.lookup pubkey with
    | some _ => some members
    | none => if free (.row pubkey) then some (members.insert pubkey ⟨fresh, role⟩) else none
  | .removeRelayMember pubkey =>
    match members.lookup pubkey with
    | none => some members
    | some row =>
      if row.value = .owner then some members
      else if free (.row pubkey) then some (members.erase pubkey)
      else none
  | .removeRelayMemberIfRole pubkey expectedRole =>
    match members.lookup pubkey with
    | none => some members
    | some row =>
      if row.value ≠ expectedRole then some members
      else if free (.row pubkey) then some (members.erase pubkey)
      else none
  | .updateRelayMemberRole pubkey newRole =>
    match members.lookup pubkey with
    | none => some members
    | some row =>
      if row.value = .owner then some members
      else if free (.row pubkey) then some (members.insert pubkey ⟨row.incarnation, newRole⟩)
      else none

theorem Statement.run_lookup {members after : Members} {fresh : ℕ} {free : LockName → Bool}
    {statement : Statement} (ran : statement.run members fresh free = some after)
    (pubkey : String) : after.lookup pubkey = members.lookup pubkey ∨ free (.row pubkey) ∧
      ((∃ role, statement = .addRelayMember pubkey role ∧ members.lookup pubkey = none ∧
          after.lookup pubkey = some ⟨fresh, role⟩) ∨
        ∃ row, members.lookup pubkey = some row ∧
          (statement = .removeRelayMember pubkey ∧ row.value ≠ .owner ∧ after.lookup pubkey = none ∨
            statement = .removeRelayMemberIfRole pubkey row.value ∧ after.lookup pubkey = none ∨
            ∃ role, statement = .updateRelayMemberRole pubkey role ∧ row.value ≠ .owner ∧
              after.lookup pubkey = some ⟨row.incarnation, role⟩)) := by
  cases statement with
  | addRelayMember target role =>
    unfold run at ran
    dsimp only at ran
    split at ran
    · cases ran
      exact .inl rfl
    next absent =>
      split at ran
      next isFree =>
        cases ran
        by_cases same : pubkey = target
        · subst same
          exact .inr ⟨isFree, .inl ⟨role, rfl, absent, AList.lookup_insert _⟩⟩
        · exact .inl (AList.lookup_insert_ne same)
      · cases ran
  | removeRelayMember target =>
    unfold run at ran
    dsimp only at ran
    split at ran
    · cases ran
      exact .inl rfl
    next row present =>
      split at ran
      · cases ran
        exact .inl rfl
      next isPlain =>
        split at ran
        next isFree =>
          cases ran
          by_cases same : pubkey = target
          · subst same
            exact .inr ⟨isFree, .inr ⟨row, present,
              .inl ⟨rfl, isPlain, AList.lookup_erase _ _⟩⟩⟩
          · exact .inl (AList.lookup_erase_ne same)
        · cases ran
  | removeRelayMemberIfRole target expectedRole =>
    unfold run at ran
    dsimp only at ran
    split at ran
    · cases ran
      exact .inl rfl
    next row present =>
      split at ran
      · cases ran
        exact .inl rfl
      next isExpected =>
        split at ran
        next isFree =>
          cases ran
          by_cases same : pubkey = target
          · subst same
            cases Decidable.of_not_not isExpected
            exact .inr ⟨isFree, .inr ⟨row, present,
              .inr (.inl ⟨rfl, AList.lookup_erase _ _⟩)⟩⟩
          · exact .inl (AList.lookup_erase_ne same)
        · cases ran
  | updateRelayMemberRole target newRole =>
    unfold run at ran
    dsimp only at ran
    split at ran
    · cases ran
      exact .inl rfl
    next row present =>
      split at ran
      · cases ran
        exact .inl rfl
      next isPlain =>
        split at ran
        next isFree =>
          cases ran
          by_cases same : pubkey = target
          · subst same
            exact .inr ⟨isFree, .inr ⟨row, present,
              .inr (.inr ⟨newRole, rfl, isPlain, AList.lookup_insert _⟩)⟩⟩
          · exact .inl (AList.lookup_insert_ne same)
        · cases ran

end Buzz.RelayMembers
