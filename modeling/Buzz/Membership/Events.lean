import Buzz.Membership.DirectMessages

/-! The membership events of NIP-29: what they are checked for before they are stored, and what their
handlers do afterwards. -/

namespace Buzz.Membership

open Nostr Buzz.Channel Library.Results

inductive AdminError
  | message (text : String)
  | db (error : DbError)
  deriving DecidableEq

inductive MembershipKind
  | putUser
  | removeUser
  | joinRequest
  | leaveRequest
  deriving DecidableEq

def MembershipKind.kind : MembershipKind → Kind
  | .putUser => 9000
  | .removeUser => 9001
  | .joinRequest => 9021
  | .leaveRequest => 9022

/-- The membership cache may be stale. -/
structure Lookups where
  agentChannelPolicy : Bytes → Option (String × Option Bytes)
  isAgentOwner : Bytes → Bytes → Bool
  isMemberCached : Uuid → Bytes → Bool

section tags

variable (parseUuid : String → Option Uuid) (event : Event)

/-- The first `h` tag that is a UUID. -/
def extractHTagChannel : Option Uuid :=
  event.tags.findSome? fun tag => if tag.kind = "h" then tag.content.bind parseUuid else none

/-- The first `p` tag that is a key. -/
def extractPTag : Option Bytes :=
  event.tags.findSome? fun tag =>
    if tag.kind = "p" then
      (tag.content.bind fun value => hexDecode value.toList).filter (·.length = 32)
    else none

def extractTagValue (tagName : String) : Option String :=
  (event.tags.find? (·.kind = tagName)).bind Tag.content

/-- An absent role tag asks for no change of role. -/
def requestedRole : Except AdminError (Option MemberRole) :=
  match extractTagValue event "role" with
  | none => .ok none
  | some text =>
    match MemberRole.fromStr text with
    | .ok role => .ok (some role)
    | .error text => .error (.message ("invalid role: " ++ text))

end tags

def rejectIf (condition : Bool) (text : String) : Except AdminError Unit :=
  if condition then .error (.message text) else .ok ()

def roleIn (members : List MemberRow) (key : Bytes) : Option MemberRole :=
  (members.find? (·.pubkey = key)).map MemberRow.role

def ownersIn (members : List MemberRow) : ℕ := members.countP (·.role = .owner)

section validate

variable (lookups : Lookups) (event : Event) (members : List MemberRow)

/-- `channel_add_policy` of the target, for an addition by someone else. -/
def checkAddPolicy (actor target : Bytes) : Except AdminError Unit :=
  match lookups.agentChannelPolicy target with
  | none => .ok ()
  | some (policy, owner) =>
    if policy = "owner_only" then
      match owner with
      | none => .error (.message "policy:owner_only — agent has no owner set")
      | some owner =>
        rejectIf (actor ≠ owner)
          "policy:owner_only — only the agent owner can add this agent"
    else
      rejectIf (policy = "nobody")
        "policy:nobody — this agent has disabled external channel additions"

def validatePutUser (visibility : ChannelVisibility) : Except AdminError Unit := do
  let requested ← requestedRole event
  let actor := event.pubkey.val
  let actorRole := roleIn members actor
  let isPrivate := decide (visibility = .private)
  rejectIf (isPrivate && actorRole.isNone) "actor not authorized"
  rejectIf (isPrivate && requested.any MemberRole.isElevated && !actorRole.any MemberRole.isElevated)
    "only owners/admins may grant elevated roles"
  match extractPTag event with
  | none => .error (.message "missing p tag")
  | some target =>
    match roleIn members target, requested with
    | some held, some role =>
      rejectIf (decide (held ≠ role) && !actorRole.any MemberRole.isElevated)
        "only owners/admins may change an active member's role"
      rejectIf (decide (held = .owner ∧ role ≠ .owner ∧ ownersIn members ≤ 1))
        "cannot demote the last owner — transfer ownership first"
    | _, _ => .ok ()
    if target = actor then .ok () else checkAddPolicy lookups actor target

/-- A member leaves unless he is the last owner. -/
def validateSelfRemoval : Except AdminError Unit :=
  match roleIn members event.pubkey.val with
  | none => .error (.message "actor is not an active member")
  | some role =>
    rejectIf (decide (role = .owner ∧ ownersIn members ≤ 1)) "cannot remove the last owner"

def validateRemoveUser : Except AdminError Unit :=
  match extractPTag event with
  | none => .error (.message "missing p tag")
  | some target =>
    if target = event.pubkey.val then validateSelfRemoval event members
    else
      match roleIn members event.pubkey.val with
      | none => .error (.message "actor not authorized")
      | some role =>
        rejectIf (!role.isElevated && !lookups.isAgentOwner target event.pubkey.val)
          "actor not authorized"

/-- `validate_admin_event`, before the event is stored. -/
def validateAdminEvent (parseUuid : String → Option Uuid) (store : Store) (kind : MembershipKind) :
    Except AdminError Unit :=
  match extractHTagChannel parseUuid event with
  | none => .error (.message "missing or invalid h tag")
  | some channelId =>
    match getChannel channelId (store.get channelId) with
    | .error _ => .error (.message "channel not found")
    | .ok channel => do
      rejectIf channel.archived "channel is archived"
      match kind with
      | .putUser => validatePutUser lookups event (store.getMembers channelId) channel.visibility
      | .removeUser => validateRemoveUser lookups event (store.getMembers channelId)
      | .joinRequest => .ok ()
      | .leaveRequest => validateSelfRemoval event (store.getMembers channelId)

end validate

section handlers

variable (lookups : Lookups) (store : Store) (event : Event) (channelId : Uuid)

def saved (result : Except DbError Channel) : Except AdminError Store :=
  match result with
  | .ok channel => .ok (store.save channel)
  | .error error => .error (.db error)

/-- Without a tag, the one that the target holds. -/
def putUserRole (target : Bytes) : Except AdminError MemberRole := do
  let requested ← requestedRole event
  .ok (requested.getD ((roleIn (store.getMembers channelId) target).getD .member))

def handlePutUser : Except AdminError Store :=
  match extractPTag event with
  | none => .error (.message "missing p tag")
  | some target => do
    let role ← putUserRole store event channelId target
    saved store (addMember channelId (store.get channelId) target role (some event.pubkey.val))

def lastOwnerLeaves (key : Bytes) : Bool :=
  let members := store.getMembers channelId
  members.any (fun row => row.pubkey = key && row.role = .owner) &&
    ownersIn members ≤ 1

def handleRemoveUser : Except AdminError Store :=
  match extractPTag event with
  | none => .error (.message "missing p tag")
  | some target => do
    let actor := event.pubkey.val
    rejectIf (target = actor && lastOwnerLeaves store channelId actor)
      "cannot remove the last owner — transfer ownership first"
    saved store (removeMember channelId (store.get channelId) target actor
      (lookups.isAgentOwner target actor))

def handleJoinRequest : Except AdminError Store :=
  match getChannel channelId (store.get channelId) with
  | .error _ => .error (.message "channel not found")
  | .ok channel =>
    if channel.visibility ≠ .open then
      .error (.message "channel is private — request an invitation")
    else if lookups.isMemberCached channelId event.pubkey.val then .ok store
    else saved store (addMember channelId (store.get channelId) event.pubkey.val .member none)

def handleLeaveRequest : Except AdminError Store := do
  let actor := event.pubkey.val
  rejectIf (lastOwnerLeaves store channelId actor)
    "cannot remove the last owner — transfer ownership first"
  saved store (removeMember channelId (store.get channelId) actor actor
    (lookups.isAgentOwner actor actor))

/-- `handle_side_effects`, after the event is stored. -/
def handleSideEffects (parseUuid : String → Option Uuid) (kind : MembershipKind) :
    Except AdminError Store :=
  match extractHTagChannel parseUuid event with
  | none => .error (.message "missing h tag")
  | some channelId =>
    match kind with
    | .putUser => handlePutUser store event channelId
    | .removeUser => handleRemoveUser lookups store event channelId
    | .joinRequest => handleJoinRequest lookups store event channelId
    | .leaveRequest => handleLeaveRequest lookups store event channelId

end handlers

section handlers

variable {lookups : Lookups} {store after : Store} {event : Event} {channelId : Uuid}
  {parseUuid : String → Option Uuid}

theorem saved_ok {result : Except DbError Channel} (ok : saved store result = .ok after) :
    ∃ next, result = .ok next ∧ after = store.save next := by
  cases result with
  | error error => cases ok
  | ok next =>
    cases ok
    exact ⟨next, rfl, rfl⟩

theorem handlePutUser_ok (ok : handlePutUser store event channelId = .ok after) :
    ∃ target role next, extractPTag event = some target ∧
      putUserRole store event channelId target = .ok role ∧
      addMember channelId (store.get channelId) target role (some event.pubkey.val) = .ok next ∧
      after = store.save next := by
  unfold handlePutUser at ok
  cases isTarget : extractPTag event with
  | none =>
    rw [isTarget] at ok
    cases ok
  | some target =>
    rw [isTarget] at ok
    obtain ⟨role, isRole, ok⟩ := bind_ok ok
    obtain ⟨next, added, isAfter⟩ := saved_ok ok
    exact ⟨target, role, next, rfl, isRole, added, isAfter⟩

theorem putUserRole_ok {target : Bytes} {role : MemberRole}
    (ok : putUserRole store event channelId target = .ok role) :
    ∃ requested, requestedRole event = .ok requested ∧
      role = requested.getD ((roleIn (store.getMembers channelId) target).getD .member) := by
  obtain ⟨requested, isRequested, ok⟩ := bind_ok ok
  cases ok
  exact ⟨requested, isRequested, rfl⟩

theorem handleRemoveUser_ok (ok : handleRemoveUser lookups store event channelId = .ok after) :
    ∃ target next, removeMember channelId (store.get channelId) target event.pubkey.val
      (lookups.isAgentOwner target event.pubkey.val) = .ok next ∧ after = store.save next := by
  unfold handleRemoveUser at ok
  cases isTarget : extractPTag event with
  | none =>
    rw [isTarget] at ok
    cases ok
  | some target =>
    rw [isTarget] at ok
    obtain ⟨_, -, ok⟩ := bind_ok ok
    obtain ⟨next, removed, isAfter⟩ := saved_ok ok
    exact ⟨target, next, removed, isAfter⟩

theorem handleLeaveRequest_ok (ok : handleLeaveRequest lookups store event channelId = .ok after) :
    ∃ target next, removeMember channelId (store.get channelId) target event.pubkey.val
      (lookups.isAgentOwner target event.pubkey.val) = .ok next ∧ after = store.save next := by
  obtain ⟨_, -, ok⟩ := bind_ok ok
  obtain ⟨next, removed, isAfter⟩ := saved_ok ok
  exact ⟨event.pubkey.val, next, removed, isAfter⟩

theorem handleJoinRequest_ok (ok : handleJoinRequest lookups store event channelId = .ok after) :
    after = store ∨ ∃ channel next, store.get channelId = some channel ∧
      channel.visibility = .open ∧
      addMember channelId (some channel) event.pubkey.val .member none = .ok next ∧
      after = store.save next := by
  unfold handleJoinRequest at ok
  cases isChannel : store.get channelId with
  | none =>
    rw [isChannel] at ok
    cases ok
  | some channel =>
    rw [isChannel] at ok
    cases isDeleted : channel.deleted with
    | true =>
      simp only [getChannel, isDeleted, if_true] at ok
      cases ok
    | false =>
      simp only [getChannel, isDeleted, Bool.false_eq_true, if_false] at ok
      split at ok
      · cases ok
      next notOpen =>
        split at ok
        · cases ok
          exact Or.inl rfl
        · obtain ⟨next, added, isAfter⟩ := saved_ok ok
          exact Or.inr ⟨channel, next, rfl, Decidable.of_not_not notOpen, added, isAfter⟩

end handlers

end Buzz.Membership

/-! Who takes part in a direct message, over any run of DM commands and membership events. -/

namespace Buzz.Membership

open Nostr Buzz.Channel

/-- `extended` is the DM that a DM add-member command names. -/
inductive Pending
  | handler (kind : MembershipKind) (event : Event)
  | look (extended : Option Uuid) (pubkeys : List Bytes) (createdBy : Bytes)
  | create (extended : Option Uuid) (participants : List Bytes) (createdBy : Bytes)

/-- `createdFor` keeps the participant set that each DM was created for. -/
structure World where
  store : Store
  createdFor : Uuid → List Bytes
  pending : List Pending

/-- A community without direct messages. -/
structure Groups extends Store where
  noDm : ∀ channel ∈ channels, channel.channelType ≠ .dm

def World.start (groups : Groups) : World := ⟨groups.toStore, fun _ => [], []⟩

inductive Step
  | accept (lookups : Lookups) (kind : MembershipKind) (event : Event)
  | openDm (pubkeys : List Bytes) (createdBy : Bytes)
  | dmAddMember (lookups : Lookups) (event : Event)
  | advance (index : ℕ) (lookups : Lookups) (id : Uuid)

/-- It may wait once more, or return a channel. -/
structure Turn where
  store : Store
  created : Option (Uuid × List Bytes)
  next : List Pending
  returned : Option Uuid

namespace Turn

def idle (store : Store) : Turn := ⟨store, none, [], none⟩

end Turn

section steps

variable (sha256 : Bytes → FixedBytes 32) (parseUuid : String → Option Uuid)

def extractPTags (event : Event) : List String :=
  event.tags.filterMap fun tag => if tag.kind = "p" then tag.content else none

def decodePubkey (hexStr : String) : Except AdminError Bytes :=
  match hexDecode hexStr.toList with
  | none => .error (.message ("invalid: bad pubkey hex: " ++ hexStr))
  | some bytes =>
    if bytes.length ≠ 32 then
      .error (.message ("invalid: pubkey must be 32 bytes: " ++ hexStr))
    else .ok bytes

/-- The members of the DM, then the keys named that are not among them. -/
def mergePubkeys (allBytes : List Bytes) : List String → Except AdminError (List Bytes)
  | [] => .ok allBytes
  | hexStr :: rest => do
    let bytes ← decodePubkey hexStr
    mergePubkeys (if bytes ∈ allBytes then allBytes else allBytes ++ [bytes]) rest

/-- Up to its call of `open_dm`. -/
def extendedSet (lookups : Lookups) (store : Store) (event : Event) :
    Except AdminError (Uuid × List Bytes) :=
  match event.tags.findSome? fun tag => if tag.kind = "h" then tag.content else none with
  | none => .error (.message "invalid: missing h tag (channel_id)")
  | some text =>
    match parseUuid text with
    | none => .error (.message "invalid: bad channel_id format")
    | some channelId => do
      let hexStrs := extractPTags event
      rejectIf hexStrs.isEmpty "invalid: must specify at least 1 new participant in p tags"
      rejectIf (!lookups.isMemberCached channelId event.pubkey.val)
        "forbidden: not a member of this DM"
      match getChannel channelId (store.get channelId) with
      | .error _ => .error (.message "invalid: DM not found")
      | .ok channel => do
        rejectIf (channel.channelType ≠ .dm) "invalid: channel is not a DM"
        let allBytes ← mergePubkeys ((store.getMembers channelId).map MemberRow.pubkey) hexStrs
        rejectIf (9 < allBytes.length) "invalid: DM supports at most 9 participants"
        .ok (channelId, allBytes)

def Pending.run (lookups : Lookups) (store : Store) (id : Uuid) : Pending → Turn
  | .handler kind event =>
    match handleSideEffects lookups store event parseUuid kind with
    | .error _ => .idle store
    | .ok after => .idle after
  | .look extended pubkeys createdBy =>
    match lookDm sha256 store pubkeys createdBy with
    | .error _ => .idle store
    | .ok (some existing) => ⟨store, none, [], some existing.id⟩
    | .ok none => ⟨store, none, [.create extended (mergeCreator pubkeys createdBy) createdBy], none⟩
  | .create _ participants createdBy =>
    match createDm sha256 store id participants createdBy with
    | .error _ => .idle store
    | .ok (after, channel, true) => ⟨after, some (channel.id, participants), [], some channel.id⟩
    | .ok (after, channel, false) => ⟨after, none, [], some channel.id⟩

def Turn.applied (turn : Turn) (world : World) (index : ℕ) : World where
  store := turn.store
  createdFor := match turn.created with
    | none => world.createdFor
    | some (id, participants) => fun other => if other = id then participants else world.createdFor other
  pending := world.pending.eraseIdx index ++ turn.next

def Step.after (world : World) : Step → World
  | .accept lookups kind event =>
    match validateAdminEvent lookups event parseUuid world.store kind with
    | .error _ => world
    | .ok _ => { world with pending := world.pending ++ [.handler kind event] }
  | .openDm pubkeys createdBy =>
    { world with pending := world.pending ++ [.look none pubkeys createdBy] }
  | .dmAddMember lookups event =>
    match extendedSet parseUuid lookups world.store event with
    | .error _ => world
    | .ok (channelId, allBytes) =>
      { world with pending := world.pending ++ [.look (some channelId) allBytes event.pubkey.val] }
  | .advance index lookups id =>
    match world.pending[index]? with
    | none => world
    | some pending =>
      (pending.run sha256 parseUuid lookups world.store id).applied world index

end steps

end Buzz.Membership
