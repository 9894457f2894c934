import Buzz.Replace.Calls

/-! Discovery snapshots of a channel. -/

namespace Buzz.Discovery

open Nostr Buzz.Req Buzz.Replace Library.Page

def kindNip29GroupMetadata : ℕ := 39000
def kindNip29GroupAdmins : ℕ := 39001
def kindNip29GroupMembers : ℕ := 39002

/-- `ttlDeadline` is the text of the date. -/
structure ChannelRecord where
  name : String
  description : Option String
  visibility : String
  channelType : String
  topic : Option String
  purpose : Option String
  archived : Bool
  ttlSeconds : Option ℤ
  ttlDeadline : Option String
  deriving DecidableEq

structure MemberRecord where
  pubkey : Bytes
  role : String
  deriving DecidableEq

def MemberRecord.pubkeyHex (self : MemberRecord) : String := String.ofList (hexEncode self.pubkey)

def tag (name : String) (values : List String) : Tag := ⟨name :: values, by simp⟩

def textTag (name : String) (text : Option String) : List Tag :=
  match text with
  | none => []
  | some text => if text.isEmpty then [] else [tag name [text]]

def metadataTags (groupId : String) (channel : ChannelRecord) (members : List MemberRecord) :
    List Tag :=
  [tag "d" [groupId], tag "name" [channel.name]] ++ textTag "about" channel.description ++
    (if channel.visibility = "private" then [tag "private" []] else [tag "public" []]) ++
    (if channel.channelType = "dm" then
      tag "hidden" [] :: members.map fun member => tag "p" [member.pubkeyHex] else []) ++
    [tag "closed" [], tag "t" [channel.channelType]] ++ textTag "topic" channel.topic ++
    textTag "purpose" channel.purpose ++
    (if channel.archived then [tag "archived" ["true"]] else []) ++
    (channel.ttlSeconds.toList.map fun ttl => tag "ttl" [toString ttl]) ++
    channel.ttlDeadline.toList.map fun deadline => tag "ttl_deadline" [deadline]

def adminTags (groupId : String) (members : List MemberRecord) : List Tag :=
  tag "d" [groupId] ::
    (members.filter fun member => decide (member.role = "owner" ∨ member.role = "admin")).map
      fun member => tag "p" [member.pubkeyHex, member.role]

def memberTags (groupId : String) (members : List MemberRecord) : List Tag :=
  tag "d" [groupId] :: members.map fun member => tag "p" [member.pubkeyHex, "", member.role]

def snapshots (groupId : String) (channel : ChannelRecord) (members : List MemberRecord) :
    List (ℕ × List Tag) :=
  [(kindNip29GroupMetadata, metadataTags groupId channel members),
    (kindNip29GroupAdmins, adminTags groupId members),
    (kindNip29GroupMembers, memberTags groupId members)]

def memberLimit : ℕ := 1000

structure Signer where
  publicKey : PublicKey
  eventId : ℕ → List Tag → ℕ → EventId
  sig : ℕ → List Tag → ℕ → Bytes

def Signer.sign (self : Signer) (kind : ℕ) (tags : List Tag) (createdAt : ℕ) : Event where
  id := self.eventId kind tags createdAt
  pubkey := self.publicKey
  createdAt
  kind := UInt16.ofNat kind
  tags
  content := ""
  sig := self.sig kind tags createdAt

/-- `picked` is the time that a store is to use. -/
inductive Phase
  | begun
  | channelRead (channel : ChannelRecord)
  | emitting (remaining : List (ℕ × List Tag)) (picked : Option ℕ)
  | failed
  deriving DecidableEq

structure State where
  communityId : CommunityId
  channelId : Uuid
  channel : ChannelRecord
  members : List MemberRecord
  store : Store
  emissions : List Phase

inductive Step
  | change (channel : ChannelRecord) (members : List MemberRecord)
  | emit
  | readChannel (index : ℕ)
  | readMembers (index : ℕ)
  | lookUp (index : ℕ) (now : ℕ) (queried : Bool)
  | store (index : ℕ)
  | fail (index : ℕ)

namespace State

variable (self : State) (signer : Signer)

def start (communityId : CommunityId) (channelId : Uuid) (channel : ChannelRecord)
    (members : List MemberRecord) : State :=
  ⟨communityId, channelId, channel, members, ⟨[], fun _ => none⟩, []⟩

def setPhase (index : ℕ) (phase : Phase) : State :=
  { self with emissions := self.emissions.set index phase }

def newest (kind : ℕ) : Option Row :=
  (page Store.newestFirst (fun row => row.communityId = self.communityId &&
    eventKindU32 row.event = kind && row.channelId = some self.channelId &&
      !row.deleted) 1 self.store.rows).head?

/-- Now, where there is none or the query fails. -/
def pickCreatedAt (kind now : ℕ) (queried : Bool) : ℕ :=
  let minTs := match if queried then self.newest kind else none with
    | none => now
    | some row => row.event.createdAt + 1
  max now minTs

def groupId : String := self.channelId.toString

def coordinate (kind : ℕ) : Coordinate :=
  .addressable self.communityId kind signer.publicKey (some self.channelId)

/-- The rest is emitted also where the event was stale. -/
def afterStore (index : ℕ) (rest : List (ℕ × List Tag)) : Except DbError (Store × Bool) → State
  | .error _ => self.setPhase index .failed
  | .ok (store, _) => { self with store }.setPhase index (.emitting rest none)

def storeSnapshot (index kind : ℕ) (tags : List Tag) (createdAt : ℕ)
    (rest : List (ℕ × List Tag)) : State :=
  self.afterStore index rest <|
    self.store.replaceAddressableEvent self.communityId (signer.sign kind tags createdAt)
      (some self.channelId)

def step : Step → State
  | .change channel members =>
    { self with channel, members, emissions := self.emissions ++ [.begun] }
  | .emit => { self with emissions := self.emissions ++ [.begun] }
  | .readChannel index =>
    match self.emissions[index]? with
    | some .begun => self.setPhase index (.channelRead self.channel)
    | _ => self
  | .readMembers index =>
    match self.emissions[index]? with
    | some (.channelRead channel) =>
      let members := self.members.take memberLimit
      self.setPhase index (.emitting (snapshots self.groupId channel members) none)
    | _ => self
  | .lookUp index now queried =>
    match self.emissions[index]? with
    | some (.emitting ((kind, tags) :: rest) none) =>
      self.setPhase index
        (.emitting ((kind, tags) :: rest) (some (self.pickCreatedAt kind now queried)))
    | _ => self
  | .store index =>
    match self.emissions[index]? with
    | some (.emitting ((kind, tags) :: rest) (some createdAt)) =>
      self.storeSnapshot signer index kind tags createdAt rest
    | _ => self
  | .fail index =>
    match self.emissions[index]? with
    | none | some (.emitting [] _) => self
    | some _ => self.setPhase index .failed

end State

end Buzz.Discovery
