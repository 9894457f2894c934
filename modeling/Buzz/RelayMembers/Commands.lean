import Buzz.Git.Publish
import Buzz.Library.Results
import Buzz.RelayMembers.Statements

/-! Relay admin commands, and the runs of a community. -/

namespace Buzz.RelayMembers

open Nostr
open Buzz.Git (isWhitespace)
open Library.Locks Library.RowVersions

def toAsciiLowercase (text : String) : String := String.ofList (text.toList.map Char.toLower)

section commands

variable (event : Event)

def isAsciiHexdigit (c : Char) : Bool := (hexValue c).isSome

/-- The first `p` tag with 64 hexadecimal digits. -/
def extractPTagHex : Option String :=
  event.tags.findSome? fun tag =>
    if tag.kind = "p" then
      tag.content.filter fun value =>
        value.utf8ByteSize = 64 && value.toList.all isAsciiHexdigit
    else none

def extractTagValue (name : String) : Option String :=
  (event.tags.find? (·.kind = name)).bind Tag.content

def isControl (c : Char) : Bool := decide (c.toNat < 32) || decide (127 ≤ c.toNat ∧ c.toNat < 160)

def validateWorkspaceIcon (icon : String) : Except String Unit :=
  if icon = "" then .ok ()
  else if icon.toList.any fun c => isControl c || isWhitespace c then
    .error "icon contains invalid characters"
  else if "data:image/".toList.isPrefixOf icon.toList then
    if 98304 < icon.utf8ByteSize then
      .error ("icon data URL too long: " ++ toString icon.utf8ByteSize ++ " bytes (max 98304)")
    else .ok ()
  else if !"https://".toList.isPrefixOf icon.toList && !"http://".toList.isPrefixOf icon.toList then
    .error "icon must be an http(s) URL or data:image/* URL"
  else if 2048 < icon.utf8ByteSize then
    .error ("icon URL too long: " ++ toString icon.utf8ByteSize ++ " bytes (max 2048)")
  else .ok ()

def requireAdmin (senderRole : Option Role) : Except String Unit :=
  if senderRole ≠ some .admin ∧ senderRole ≠ some .owner then
    .error "actor not authorized: must be admin or owner"
  else .ok ()

def addStatement (senderRole : Option Role) (target : String) : Except String Statement := do
  requireAdmin senderRole
  let role := (extractTagValue event "role").getD "member"
  if role = "owner" then .error "invalid role: use kind:9032 to promote to owner"
  else if role = "admin" ∧ senderRole ≠ some .owner then
    .error "actor not authorized: only owner can grant admin role"
  else if role = "admin" then .ok (.addRelayMember target .admin)
  else if role = "member" then .ok (.addRelayMember target .member)
  else .error ("invalid role: " ++ role)

/-- An admin removes only who is a member when the row is deleted. -/
def removeStatement (senderRole : Option Role) (target : String) : Except String Statement := do
  requireAdmin senderRole
  if target = event.pubkey.toHex then .error "cannot remove yourself"
  else if senderRole = some .admin then .ok (.removeRelayMemberIfRole target .member)
  else .ok (.removeRelayMember target)

def changeStatement (senderRole : Option Role) (target : String) : Except String Statement :=
  if senderRole ≠ some .owner then .error "actor not authorized: must be owner"
  else if target = event.pubkey.toHex then .error "cannot change your own role"
  else
    match extractTagValue event "role" with
    | none => .error "missing role tag"
    | some role =>
      if role = "owner" then .error "cannot set role to owner"
      else if role = "admin" then .ok (.updateRelayMemberRole target .admin)
      else if role = "member" then .ok (.updateRelayMemberRole target .member)
      else .error ("invalid role: " ++ role)

/-- The workspace profile is kept elsewhere. -/
def executeRelayAdminCommand (now : ℤ) (senderRole : Option Role) :
    Except String (Option Statement) :=
  if 120 < (event.createdAt - now : ℤ).natAbs then
    .error ("event timestamp out of range: created_at=" ++ toString event.createdAt ++ ", now=" ++
      toString now ++ ", delta=" ++ toString (event.createdAt - now : ℤ) ++ "s (max ±120s)")
  else if event.kind = 9033 then do
    requireAdmin senderRole
    validateWorkspaceIcon ((extractTagValue event "icon").getD "")
    .ok none
  else
    match extractPTagHex event with
    | none => .error "missing or invalid p tag"
    | some text =>
      let target := toAsciiLowercase text
      if event.kind = 9030 then some <$> addStatement event senderRole target
      else if event.kind = 9031 then some <$> removeStatement event senderRole target
      else if event.kind = 9032 then some <$> changeStatement event senderRole target
      else .error ("unexpected relay admin kind: " ++ toString event.kind.toNat)

end commands

/-- Its statement is still to run. -/
structure Command where
  senderRole : Option Role
  statement : Statement

structure State where
  members : Members
  fresh : ℕ
  txns : List Txn
  commands : List Command

inductive Step
  | start (job : Job) (pubkey : String)
  | run (index ownedElsewhere maxCommunitiesPerOwner : ℕ)
  | abort (index : ℕ)
  | statement (statement : Statement)
  | command (event : Event) (now : ℤ)
  | execute (index : ℕ)

def Txn.start (job : Job) (pubkey : String) : Txn :=
  match job with
  | .bootstrapOwner => ⟨.bootstrapOwner, toAsciiLowercase pubkey, [], ∅, .begun⟩
  | .transferOwnership expectedOwner =>
    ⟨.transferOwnership (toAsciiLowercase expectedOwner), toAsciiLowercase pubkey, [], ∅, .begun⟩
  | .claimRelayMembership role => ⟨.claimRelayMembership role, pubkey, [], ∅, .begun⟩

namespace State

variable (self : State)

def free (index : ℕ) (lock : LockName) : Bool :=
  !others index (·.holds lock) self.txns

def freeForAll (lock : LockName) : Bool := !self.txns.any (·.holds lock)

def around (index ownedElsewhere maxCommunitiesPerOwner : ℕ) : Surroundings :=
  ⟨self.members, self.fresh, self.free index, ownedElsewhere, maxCommunitiesPerOwner⟩

def runTxn (index : ℕ) (txn : Txn) : Move → State × Option Result
  | .go next => ({ self with txns := self.txns.set index next, fresh := self.fresh + 1 }, none)
  | .commit result =>
    ({ self with
        members := self.members.publish txn.written
        txns := self.txns.set index txn.close }, some result)
  | .rollback result => ({ self with txns := self.txns.set index txn.close }, some result)

/-- `none` where the statement waits. -/
def runStatement (statement : Statement) : Option State :=
  match statement.run self.members self.fresh self.freeForAll with
  | none => none
  | some members => some { self with members, fresh := self.fresh + 1 }

def step : Step → State × Option Result
  | .start job pubkey => ({ self with txns := self.txns ++ [Txn.start job pubkey] }, none)
  | .run index ownedElsewhere maxCommunitiesPerOwner =>
    match self.txns[index]? with
    | none => (self, none)
    | some txn =>
      match txn.next (self.around index ownedElsewhere maxCommunitiesPerOwner) with
      | none => (self, none)
      | some move => self.runTxn index txn move
  | .abort index =>
    match self.txns[index]? with
    | none => (self, none)
    | some txn => ({ self with txns := self.txns.set index txn.close }, none)
  | .statement statement => ((self.runStatement statement).getD self, none)
  | .command event now =>
    let senderRole := (self.members.lookup event.pubkey.toHex).map Row.value
    match executeRelayAdminCommand event now senderRole with
    | .ok (some statement) =>
      ({ self with commands := self.commands ++ [⟨senderRole, statement⟩] }, none)
    | _ => (self, none)
  | .execute index =>
    match self.commands[index]? with
    | none => (self, none)
    | some command =>
      match self.runStatement command.statement with
      | none => (self, none)
      | some next => ({ next with commands := self.commands.eraseIdx index }, none)

def after (step : Step) : State := (self.step step).1

end State

end Buzz.RelayMembers
