import Buzz.Library.Page
import Buzz.Req.Query

/-! The `events` table as its replaceable rows are kept, with the triggers. -/

namespace Buzz.Replace

open Nostr Buzz.Req Library.Page

structure Stamp where
  createdAt : ℤ
  id : EventId
  deriving DecidableEq

namespace Stamp

/-- At the same time, a smaller id. -/
def dominatedBy (self accepted : Stamp) : Bool :=
  decide (self.createdAt < accepted.createdAt) ||
    (self.createdAt = accepted.createdAt && accepted.id.val ≤ self.id.val)

instance : LE Stamp where
  le first second := first.dominatedBy second

theorem dominatedBy_iff {incoming accepted : Stamp} :
    incoming.dominatedBy accepted ↔ incoming ≤ accepted := Iff.rfl

variable {first second : Stamp}

theorem le_iff :
    first ≤ second ↔ first.createdAt < second.createdAt ∨
      first.createdAt = second.createdAt ∧ second.id.val ≤ first.id.val := by
  rw [← dominatedBy_iff]
  simp [dominatedBy]

theorem le_refl (stamp : Stamp) : stamp ≤ stamp := by
  rw [le_iff]
  exact .inr ⟨rfl, List.le_refl _⟩

theorem le_trans {third : Stamp} (lower : first ≤ second) (upper : second ≤ third) :
    first ≤ third := by
  rw [le_iff] at lower upper ⊢
  rcases lower with earlier | ⟨sameTime, smaller⟩
  · left
    omega
  · rcases upper with earlier | ⟨againTime, smallest⟩
    · left
      omega
    · exact .inr ⟨sameTime.trans againTime, List.le_trans smallest smaller⟩

theorem le_antisymm (lower : first ≤ second) (upper : second ≤ first) :
    first = second := by
  rw [le_iff] at lower upper
  have both : first.createdAt = second.createdAt ∧ second.id.val ≤ first.id.val ∧
      first.id.val ≤ second.id.val := by
    rcases lower with earlier | ⟨sameTime, smaller⟩
    · rcases upper with again | ⟨_, _⟩ <;> omega
    · rcases upper with again | ⟨_, larger⟩
      · omega
      · exact ⟨sameTime, smaller, larger⟩
  have ids : first.id = second.id := Subtype.ext (List.le_antisymm both.2.2 both.2.1)
  cases first
  cases second
  cases both.1
  cases ids
  rfl

theorem le_total (first second : Stamp) : first ≤ second ∨ second ≤ first := by
  rw [le_iff, le_iff]
  have ids := List.le_total first.id.val second.id.val
  rcases Int.lt_trichotomy first.createdAt second.createdAt with earlier | same | later
  · exact .inl (.inl earlier)
  · rcases ids with smaller | larger
    · exact .inr (.inr ⟨same.symm, smaller⟩)
    · exact .inl (.inr ⟨same, larger⟩)
  · exact .inr (.inl later)

instance : LinearOrder Stamp where
  le_refl
  le_trans _ _ _ := le_trans
  le_antisymm _ _ := le_antisymm
  le_total
  toDecidableLE first second := inferInstanceAs (Decidable (first.dominatedBy second))

end Stamp

def kindReadState : ℕ := 30078
def kindBookmarkSet : ℕ := 30003

/-- `read-state:` and 32 lower-case hexadecimal digits. -/
def isReadStateSlot (dTag : String) : Bool :=
  "read-state:".toList.isPrefixOf dTag.toList &&
    let slot := dTag.toList.drop "read-state:".toList.length
    slot.length = 32 && slot.all fun c => isAsciiHexdigit c && !c.isUpper

/-- The test of `is_nip_rs`, which the triggers repeat on a row. -/
def isNipRs (event : Event) (dTag : String) : Bool :=
  eventKindU32 event = kindReadState &&
    decide ((event.tags.countP (·.kind = "d")) = 1) &&
    (event.tags.any fun tag => tag.buf.take 2 = ["d", dTag]) &&
    isReadStateSlot dTag &&
    decide ((event.tags.countP fun tag => tag.buf = ["t", "read-state"]) = 1)

def isMeshSlot (dTag : String) : Bool := "buzz-mesh-member-status:".toList.isPrefixOf dTag.toList

def isBuzzMeshStatus (event : Event) (dTag : String) : Bool :=
  eventKindU32 event = kindBookmarkSet && isMeshSlot dTag &&
    event.tags.any fun tag => tag.buf = ["k", "buzz-mesh-status"]

/-- A row of `events`. -/
structure Row where
  communityId : CommunityId
  event : Event
  createdAt : ℤ
  channelId : Option Uuid
  dTag : Option String
  deleted : Bool

namespace Row

def stamp (self : Row) : Stamp := ⟨self.createdAt, self.event.id⟩

/-- The primary key `(community_id, created_at, id)` of two rows is the same. -/
def sameKey (first second : Row) : Bool :=
  first.communityId = second.communityId && first.stamp = second.stamp

def isNipRs (self : Row) : Bool := self.dTag.any (Replace.isNipRs self.event)

/-- The condition of `trg_events_guard_nip_rs_hard_delete`. -/
def guardsHardDelete (self : Row) : Bool :=
  eventKindU32 self.event = kindReadState && self.dTag.any isReadStateSlot

/-- The condition of `purge_soft_deleted_buzz_mesh_status`. -/
def purgedAsMeshStatus (self : Row) : Bool :=
  eventKindU32 self.event = kindBookmarkSet && self.dTag.any isMeshSlot &&
    tagsContain self.event.tags ["k", "buzz-mesh-status"]

/-- A trigger removes the row once it is soft-deleted. -/
def purged (self : Row) : Bool := self.isNipRs || self.purgedAsMeshStatus

end Row

structure WatermarkKey where
  communityId : CommunityId
  kind : ℕ
  pubkey : PublicKey
  dTag : String
  deriving DecidableEq

def Row.watermarkKey (self : Row) (dTag : String) : WatermarkKey :=
  ⟨self.communityId, eventKindU32 self.event, self.event.pubkey, dTag⟩

/-- The tables `events` and `parameterized_event_watermarks`. -/
structure Store where
  rows : List Row
  watermarks : WatermarkKey → Option Stamp

inductive DbError
  | invalidTimestamp (secs : ℤ)
  | checkViolation (message : String)
  | unavailable
  deriving DecidableEq

namespace Store

def setWatermark (self : Store) (key : WatermarkKey) (stamp : Stamp) : Store :=
  { self with watermarks := fun other => if other = key then some stamp else self.watermarks other }

/-- `ORDER BY created_at DESC, id ASC`. -/
def newestFirst (first second : Row) : Bool := second.stamp.dominatedBy first.stamp

def existing (self : Store) (selected : Row → Bool) : Option Stamp :=
  (page newestFirst selected 1 self.rows).head?.map Row.stamp

/-- The triggers run after it. -/
def softDelete (self : Store) (selected : Row → Bool) : Store :=
  { self with
    rows := self.rows.filterMap fun row =>
      if selected row then
        if row.purged then none else some { row with deleted := true }
      else some row }

/-- `DELETE FROM events`, with the trigger that asks for the opt-in. -/
def hardDelete (self : Store) (optedIn : Bool) (selected : Row → Bool) : Except DbError Store :=
  if self.rows.any fun row => selected row && row.guardsHardDelete && !optedIn then
    .error (.checkViolation "NIP-RS hard delete requires corrected writer opt-in")
  else .ok { self with rows := self.rows.filter fun row => !selected row }

/-- `guard_nip_rs_watermark`, and whether the row goes on to be inserted. -/
def guardNipRsWatermark (self : Store) (row : Row) : Except DbError (Store × Bool) :=
  match row.dTag with
  | none => .ok (self, true)
  | some dTag =>
    if Replace.isNipRs row.event dTag then
      match self.watermarks (row.watermarkKey dTag) with
      | none => .ok (self.setWatermark (row.watermarkKey dTag) row.stamp, true)
      | some accepted =>
        if !row.stamp.dominatedBy accepted then
          .ok (self.setWatermark (row.watermarkKey dTag) row.stamp, true)
        else if row.stamp = accepted then .ok (self, false)
        else .error (.checkViolation "stale NIP-RS event rejected by durable watermark")
    else .ok (self, true)

/-- And whether a row was written. -/
def insert (self : Store) (row : Row) : Except DbError (Store × Bool) :=
  match self.guardNipRsWatermark row with
  | .error error => .error error
  | .ok (guarded, false) => .ok (guarded, false)
  | .ok (guarded, true) =>
    if guarded.rows.any row.sameKey then .ok (guarded, false)
    else .ok ({ guarded with rows := row :: guarded.rows }, true)

end Store

end Buzz.Replace
