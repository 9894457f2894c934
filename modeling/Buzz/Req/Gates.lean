import Buzz.Req.Scope
import Buzz.Subscription.Registry

/-! Which kinds are gated, which filters a reader may ask with, and which events a reader may see. -/

namespace Buzz.Req

open Nostr Buzz.Subscription List

def kindGiftWrap : ℕ := 1059
def kindAgentObserverFrame : ℕ := 24200
def kindAgentEngram : ℕ := 30174
def kindPersona : ℕ := 30175
def kindTeamCatalog : ℕ := 30178
def kindEventReminder : ℕ := 30300
def kindPushLease : ℕ := 30350
def kindDmVisibility : ℕ := 30622
def kindMemberAddedNotification : ℕ := 44100
def kindMemberRemovedNotification : ℕ := 44101
def kindAgentTurnMetric : ℕ := 44200

def authorOnlyKinds : List ℕ := [kindEventReminder, kindPushLease]

def sharedGatedKinds : List ℕ := [kindPersona, kindTeamCatalog]

def resultGatedKinds : List ℕ := [kindDmVisibility, kindAgentTurnMetric]

def pGatedKinds : List ℕ :=
  [kindAgentObserverFrame, kindMemberAddedNotification, kindMemberRemovedNotification,
    kindGiftWrap, kindDmVisibility, kindAgentTurnMetric]

def eventKindU32 (event : Event) : ℕ := event.kind.toNat

def isSharedGatedKind (kind : ℕ) : Bool := sharedGatedKinds.contains kind

/-- A `shared` tag of another shape or value ends it. -/
def countShared (count : ℕ) : List Tag → Option ℕ
  | [] => some count
  | tag :: tags =>
    if tag.kind == "shared" then
      if tag.buf == ["shared", "true"] then countShared (count + 1) tags else none
    else countShared count tags

def eventIsShared (event : Event) : Bool := countShared 0 event.tags = some 1

theorem exists_shared_of_countShared {tags : List Tag} {count total : ℕ}
    (counted : countShared count tags = some total) (more : count < total) :
    ∃ tag ∈ tags, tag.buf = ["shared", "true"] := by
  induction tags generalizing count with
  | nil =>
    rw [countShared, Option.some.injEq] at counted
    omega
  | cons tag tags ih =>
    unfold countShared at counted
    split at counted
    · split at counted
      next exactShape => exact ⟨tag, mem_cons_self, eq_of_beq exactShape⟩
      · cases counted
    · obtain ⟨other, member, exactShape⟩ := ih counted more
      exact ⟨other, mem_cons_of_mem _ member, exactShape⟩

def isUnsharedGatedEvent (event : Event) (requester : PublicKey) : Bool :=
  isSharedGatedKind (eventKindU32 event) && event.pubkey ≠ requester &&
    !eventIsShared event

def isAuthorOnlyEvent (event : Event) (requester : PublicKey) : Bool :=
  authorOnlyKinds.contains (eventKindU32 event) && event.pubkey ≠ requester

def readerAuthorizedForEvent (event : Event) (readerPubkeyHex : String) : Bool :=
  if eventKindU32 event ≠ kindDmVisibility ∧ eventKindU32 event ≠ kindAgentTurnMetric then true
  else (tagContents "p" event.tags).contains readerPubkeyHex

def eventVisibleToReader (event : Event) (requester : PublicKey) : Bool :=
  if isAuthorOnlyEvent event requester then false
  else if isUnsharedGatedEvent event requester then false
  else readerAuthorizedForEvent event requester.toHex

theorem eventVisibleToReader_iff {event : Event} {requester : PublicKey} :
    eventVisibleToReader event requester ↔
      isAuthorOnlyEvent event requester = false ∧ isUnsharedGatedEvent event requester = false ∧
        readerAuthorizedForEvent event requester.toHex := by
  unfold eventVisibleToReader
  cases isAuthorOnlyEvent event requester <;> cases isUnsharedGatedEvent event requester <;> simp

/-- The ids of a filter are given and not an empty list. -/
def hasIds (filter : Filter) : Bool := filter.ids.any (!·.isEmpty)

/-- Without `kinds` a filter can match every kind. -/
def canMatchKinds (gated : List ℕ) (filter : Filter) : Bool :=
  filter.kinds.all fun kinds => kinds.any fun kind => gated.contains kind.toNat

/-- `#p` is given and every value of it is the reader's key. -/
def pTagIsReader (filter : Filter) (authedPubkeyHex : String) : Bool :=
  (filter.genericTags.lookup pTag).any fun values =>
    !values.isEmpty && values.all (· == authedPubkeyHex)

def eqIgnoreAsciiCase (first second : String) : Bool :=
  first.toList.map Char.toLower == second.toList.map Char.toLower

def authorsAreReader (filter : Filter) (authedPubkeyHex : String) : Bool :=
  filter.authors.any fun authors =>
    !authors.isEmpty && authors.all fun author => eqIgnoreAsciiCase author.toHex authedPubkeyHex

def pGatedFiltersAuthorized (filters : List Filter) (authedPubkeyHex : String) : Bool :=
  filters.all fun filter =>
    if !canMatchKinds pGatedKinds filter then true
    else
      let explicitlyNoIdsExemption := filter.kinds.any fun kinds =>
        kinds.any fun kind =>
          decide (kind.toNat = kindDmVisibility) || decide (kind.toNat = kindAgentTurnMetric)
      if !explicitlyNoIdsExemption && hasIds filter then true
      else pTagIsReader filter authedPubkeyHex

def engramFiltersAuthorized (filters : List Filter) (authedPubkeyHex : String) : Bool :=
  filters.all fun filter =>
    if hasIds filter then true
    else if !canMatchKinds [kindAgentEngram] filter then true
    else authorsAreReader filter authedPubkeyHex || pTagIsReader filter authedPubkeyHex

def authorOnlyFiltersAuthorized (filters : List Filter) (authedPubkeyHex : String) : Bool :=
  filters.all fun filter =>
    let targetsOnlyAuthorOnly := filter.kinds.any fun kinds =>
      !kinds.isEmpty && kinds.all fun kind => authorOnlyKinds.contains kind.toNat
    if !targetsOnlyAuthorOnly then true else authorsAreReader filter authedPubkeyHex

def filterCanMatchAuthorOnlyKinds (filter : Filter) : Bool := canMatchKinds authorOnlyKinds filter

def filterCanMatchSharedGatedKinds (filter : Filter) : Bool :=
  canMatchKinds sharedGatedKinds filter

def filterCanMatchResultGatedKinds (filter : Filter) : Bool :=
  canMatchKinds resultGatedKinds filter

def resultGatedCountSafeForPushdown (filter : Filter) (authedPubkeyHex : String) : Bool :=
  pTagIsReader filter authedPubkeyHex

/-- The three filter gates of a subscription without a channel. -/
def filterGates (filters : List Filter) (authedPubkeyHex : String) : Bool :=
  pGatedFiltersAuthorized filters authedPubkeyHex &&
    engramFiltersAuthorized filters authedPubkeyHex &&
    authorOnlyFiltersAuthorized filters authedPubkeyHex

theorem filterGates_idsOnly (ids : List EventId) (named : ids ≠ []) (authedPubkeyHex : String) :
    filterGates [⟨some ids, none, none, none, none, none, none, ∅⟩] authedPubkeyHex := by
  have present : hasIds ⟨some ids, none, none, none, none, none, none, ∅⟩ := by
    simpa [hasIds] using named
  simp [filterGates, pGatedFiltersAuthorized, engramFiltersAuthorized,
    authorOnlyFiltersAuthorized, present]

def resolveRequestLocalAccess (accessibleChannels : List Uuid) (chId : Uuid) (tokenAllows : Bool)
    (dbIsMember : Option Bool) : Option (List Uuid) :=
  if !tokenAllows then none
  else if accessibleChannels.contains chId then some accessibleChannels
  else match dbIsMember with
    | some true => some (accessibleChannels ++ [chId])
    | _ => none

end Buzz.Req
