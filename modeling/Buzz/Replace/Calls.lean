import Buzz.Library.Register
import Buzz.Replace.Store

/-! The two calls that replace an event, and the calls that delete one. -/

namespace Buzz.Replace

open Nostr Buzz.Req Library.Page Library.Register List Option

inductive Coordinate
  | addressable (communityId : CommunityId) (kind : ℕ) (pubkey : PublicKey)
      (channelId : Option Uuid)
  | parameterized (communityId : CommunityId) (kind : ℕ) (pubkey : PublicKey) (dTag : String)
  deriving DecidableEq

namespace Coordinate

def communityId : Coordinate → CommunityId
  | addressable communityId _ _ _ => communityId
  | parameterized communityId _ _ _ => communityId

def kind : Coordinate → ℕ
  | addressable _ kind _ _ => kind
  | parameterized _ kind _ _ => kind

def pubkey : Coordinate → PublicKey
  | addressable _ _ pubkey _ => pubkey
  | parameterized _ _ pubkey _ => pubkey

def matchesRow : Coordinate → Row → Bool
  | addressable _ _ _ channelId, row => row.channelId = channelId
  | parameterized _ _ _ dTag, row => row.dTag = some dTag

def holds (self : Coordinate) (row : Row) : Bool :=
  row.communityId = self.communityId && eventKindU32 row.event = self.kind &&
    row.event.pubkey = self.pubkey && self.matchesRow row

def selects (self : Coordinate) (row : Row) : Bool := self.holds row && !row.deleted

end Coordinate

/-- `created_at` of the row, unless the event's time is no date. -/
def createdAtOf (event : Event) : Option ℤ := dateFromTimestamp (asI64 event.createdAt)

namespace Store

/-- The insert of a call, and the rollback where no row was written. -/
def insertOrRollBack (self retired : Store) (row : Row) (committed : Store → Store) :
    Except DbError (Store × Bool) :=
  match retired.insert row with
  | .error error => .error error
  | .ok (_, false) => .ok (self, false)
  | .ok (inserted, true) => .ok (committed inserted, true)

def replaceAddressableAt (self : Store) (dated : Option ℤ) (communityId : CommunityId)
    (event : Event) (channelId : Option Uuid) : Except DbError (Store × Bool) :=
  let coordinate := Coordinate.addressable communityId (eventKindU32 event) event.pubkey channelId
  match dated with
  | none => .error (.invalidTimestamp (asI64 event.createdAt))
  | some createdAt =>
    let row : Row := ⟨communityId, event, createdAt, channelId, extractDTag event, false⟩
    if (self.existing coordinate.selects).any row.stamp.dominatedBy then .ok (self, false)
    else self.insertOrRollBack (self.softDelete coordinate.selects) row id

def replaceAddressableEvent (self : Store) (communityId : CommunityId) (event : Event)
    (channelId : Option Uuid) : Except DbError (Store × Bool) :=
  self.replaceAddressableAt (createdAtOf event) communityId event channelId

def replaceParameterizedAt (self : Store) (dated : Option ℤ) (communityId : CommunityId)
    (event : Event) (dTag : String) (channelId : Option Uuid) : Except DbError (Store × Bool) :=
  let coordinate := Coordinate.parameterized communityId (eventKindU32 event) event.pubkey dTag
  match dated with
  | none => .error (.invalidTimestamp (asI64 event.createdAt))
  | some createdAt =>
    let row : Row := ⟨communityId, event, createdAt, channelId, some dTag, false⟩
    let nipRs := isNipRs event dTag
    let hardDeleteSuperseded := nipRs || isBuzzMeshStatus event dTag
    let existing := self.existing coordinate.selects
    let watermark := if nipRs then self.watermarks (row.watermarkKey dTag) else none
    if (existing.toList ++ watermark.toList).any row.stamp.dominatedBy then .ok (self, false)
    else
      let retired :=
        if existing.isNone then .ok self
        else if hardDeleteSuperseded then self.hardDelete nipRs coordinate.selects
        else .ok (self.softDelete coordinate.selects)
      match retired with
      | .error error => .error error
      | .ok retired => self.insertOrRollBack retired row fun inserted =>
        if nipRs then inserted.setWatermark (row.watermarkKey dTag) row.stamp else inserted

def replaceParameterizedEvent (self : Store) (communityId : CommunityId) (event : Event)
    (dTag : String) (channelId : Option Uuid) : Except DbError (Store × Bool) :=
  self.replaceParameterizedAt (createdAtOf event) communityId event dTag channelId

def softDeleteEvent (self : Store) (communityId : CommunityId) (eventId : EventId) : Store :=
  self.softDelete fun row =>
    row.communityId = communityId && row.event.id = eventId && !row.deleted

def softDeleteByCoordinate (self : Store) (communityId : CommunityId) (kind : ℕ)
    (pubkey : PublicKey) (dTag : String) : Store :=
  self.softDelete (Coordinate.parameterized communityId kind pubkey dTag).selects

end Store

def Coordinate.replace (self : Coordinate) (store : Store) (event : Event)
    (channelId : Option Uuid) : Except DbError (Store × Bool) :=
  match self with
  | addressable communityId _ _ channel => store.replaceAddressableEvent communityId event channel
  | parameterized communityId _ _ dTag =>
    store.replaceParameterizedEvent communityId event dTag channelId

def Coordinate.replaceAt (self : Coordinate) (dated : Option ℤ) (store : Store) (event : Event)
    (channelId : Option Uuid) : Except DbError (Store × Bool) :=
  match self with
  | addressable communityId _ _ channel =>
    store.replaceAddressableAt dated communityId event channel
  | parameterized communityId _ _ dTag =>
    store.replaceParameterizedAt dated communityId event dTag channelId

def Coordinate.shares (self : Coordinate) (event : Event) : Prop :=
  eventKindU32 event = self.kind ∧ event.pubkey = self.pubkey

def Coordinate.rowOf (self : Coordinate) (event : Event) (createdAt : ℤ)
    (channelId : Option Uuid) : Row :=
  match self with
  | addressable communityId _ _ channel =>
    ⟨communityId, event, createdAt, channel, extractDTag event, false⟩
  | parameterized communityId _ _ dTag =>
    ⟨communityId, event, createdAt, channelId, some dTag, false⟩

def Coordinate.erases (self : Coordinate) (event : Event) (row : Row) : Bool :=
  match self with
  | addressable .. => row.purged
  | parameterized _ _ _ dTag => isNipRs event dTag || isBuzzMeshStatus event dTag || row.purged

def Row.readStateKey (self : Row) : Option WatermarkKey :=
  self.dTag.bind fun dTag =>
    if Replace.isNipRs self.event dTag then some (self.watermarkKey dTag) else none

namespace Store

def retire (self : Store) (selected erased : Row → Bool) : Store :=
  { self with
    rows := self.rows.filterMap fun row =>
      if selected row then
        if erased row then none else some { row with deleted := true }
      else some row }

def raise (self : Store) (row : Row) : Store :=
  match row.readStateKey with
  | none => self
  | some key => self.setWatermark key row.stamp

def stored (self : Store) (coordinate : Coordinate) (row : Row) : Store :=
  let retired := self.retire coordinate.selects (coordinate.erases row.event)
  ({ retired with rows := row :: retired.rows } : Store).raise row

end Store

section statements

variable {store : Store} {coordinate : Coordinate} {event : Event} {channelId : Option Uuid}
  {selected erased : Row → Bool} {row other : Row} {stamp : Stamp} {key : WatermarkKey}

theorem newestFirst_totalOrder : TotalOrder Store.newestFirst where
  trans := fun _ _ _ before after => Stamp.le_trans after before
  total := by
    intro first second
    rw [Bool.or_eq_true]
    exact Stamp.le_total second.stamp first.stamp

theorem existing_eq_none_iff :
    store.existing selected = none ↔ ∀ row ∈ store.rows, selected row = false := by
  unfold Store.existing page
  rw [map_eq_none_iff, head?_eq_none_iff, take_eq_nil_iff]
  constructor
  · intro empty row member
    rcases empty with zero | nil
    · cases zero
    · rw [← length_eq_zero_iff, length_mergeSort, length_eq_zero_iff,
        filter_eq_nil_iff] at nil
      exact eq_false_of_ne_true (nil row member)
  · intro unselected
    right
    rw [← length_eq_zero_iff, length_mergeSort, length_eq_zero_iff,
      filter_eq_nil_iff]
    intro row member
    rw [unselected row member]
    exact Bool.false_ne_true

theorem existing_eq_some (newest : store.existing selected = some stamp) :
    (∃ row ∈ store.rows, selected row ∧ row.stamp = stamp) ∧
      ∀ row ∈ store.rows, selected row → row.stamp ≤ stamp := by
  unfold Store.existing page at newest
  cases sorted : (store.rows.filter selected).mergeSort Store.newestFirst with
  | nil =>
    rw [sorted] at newest
    cases newest
  | cons head tail =>
    rw [sorted, take_succ_cons, head?_cons, map_some, Option.some.injEq] at newest
    have perm := mergeSort_perm (store.rows.filter selected) Store.newestFirst
    have order := pairwise_mergeSort newestFirst_totalOrder.trans
      newestFirst_totalOrder.total (store.rows.filter selected)
    rw [sorted] at perm order
    constructor
    · have member := mem_filter.mp (perm.mem_iff.mp mem_cons_self)
      exact ⟨head, member.1, member.2, newest⟩
    · intro row member isSelected
      have within := perm.mem_iff.mpr (mem_filter.mpr ⟨member, isSelected⟩)
      rcases mem_cons.mp within with same | later
      · rw [same, newest]
      · have before := (pairwise_cons.mp order).1 row later
        exact newest ▸ Stamp.dominatedBy_iff.mp before

theorem covers_existing_iff : Covers (store.existing selected) stamp ↔
    ∃ row ∈ store.rows, selected row ∧ stamp ≤ row.stamp := by
  constructor
  · rintro ⟨accepted, newest, smaller⟩
    obtain ⟨⟨row, member, isSelected, same⟩, -⟩ := existing_eq_some newest
    exact ⟨row, member, isSelected, same ▸ smaller⟩
  · rintro ⟨row, member, isSelected, smaller⟩
    cases newest : store.existing selected with
    | none =>
      rw [existing_eq_none_iff.mp newest row member] at isSelected
      cases isSelected
    | some accepted =>
      rw [covers_some]
      exact smaller.trans ((existing_eq_some newest).2 row member isSelected)

theorem retire_of_unselected (unselected : ∀ row ∈ store.rows, selected row = false) :
    store.retire selected erased = store := by
  unfold Store.retire
  congr 1
  have same : store.rows.filterMap (fun row =>
      if selected row then if erased row then none else some { row with deleted := true }
      else some row) = store.rows.filterMap some := by
    apply filterMap_congr
    intro row member
    rw [unselected row member]
    rfl
  rw [same, filterMap_some]

theorem softDelete_eq : store.softDelete selected = store.retire selected Row.purged := rfl

theorem hardDelete_eq {optedIn : Bool}
    (unguarded : ∀ row, selected row → row.guardsHardDelete → optedIn) :
    store.hardDelete optedIn selected = .ok (store.retire selected fun _ => true) := by
  unfold Store.hardDelete Store.retire
  rw [if_neg]
  · congr 2
    rw [← filterMap_eq_filter]
    apply filterMap_congr
    intro row member
    cases isSelected : selected row <;> simp [isSelected]
  · intro raised
    obtain ⟨row, -, guarded⟩ := any_eq_true.mp raised
    rw [Bool.and_eq_true, Bool.and_eq_true, Bool.not_eq_true'] at guarded
    rw [unguarded row guarded.1.1 guarded.1.2] at guarded
    cases guarded.2

theorem mem_retire (member : other ∈ (store.retire selected erased).rows) :
    (other ∈ store.rows ∧ selected other = false) ∨
      ∃ row ∈ store.rows, selected row ∧ erased row = false ∧
        other = { row with deleted := true } := by
  obtain ⟨row, within, kept⟩ := mem_filterMap.mp member
  by_cases isSelected : selected row
  · rw [if_pos isSelected] at kept
    by_cases gone : erased row
    · rw [if_pos gone] at kept
      cases kept
    · rw [if_neg gone, Option.some.injEq] at kept
      exact Or.inr ⟨row, within, isSelected, eq_false_of_ne_true gone, kept.symm⟩
  · rw [if_neg isSelected, Option.some.injEq] at kept
    exact Or.inl ⟨kept ▸ within, kept ▸ eq_false_of_ne_true isSelected⟩

theorem mem_retire_of_unselected (member : row ∈ store.rows) (unselected : selected row = false) :
    row ∈ (store.retire selected erased).rows := by
  apply mem_filterMap.mpr
  exact ⟨row, member, by rw [unselected]; rfl⟩

theorem mem_retire_of_kept (member : row ∈ store.rows) (isSelected : selected row)
    (kept : erased row = false) :
    { row with deleted := true } ∈ (store.retire selected erased).rows := by
  apply mem_filterMap.mpr
  exact ⟨row, member, by rw [isSelected, kept]; rfl⟩

def Store.accepted (self : Store) (row : Row) : Option Stamp :=
  row.readStateKey.bind self.watermarks

theorem guardNipRsWatermark_eq : store.guardNipRsWatermark row =
    if Covers (store.accepted row) row.stamp then
      if store.accepted row = some row.stamp then .ok (store, false)
      else .error (.checkViolation "stale NIP-RS event rejected by durable watermark")
    else .ok (store.raise row, true) := by
  unfold Store.guardNipRsWatermark Store.accepted Store.raise Row.readStateKey
  cases row.dTag with
  | none => simp [not_covers_none]
  | some dTag =>
    dsimp only [bind_some]
    by_cases nipRs : isNipRs row.event dTag
    · simp only [nipRs, if_true, bind_some]
      cases store.watermarks (row.watermarkKey dTag) with
      | none => simp [not_covers_none]
      | some accepted =>
        simp only [covers_some, Option.some.injEq, ← Stamp.dominatedBy_iff]
        cases row.stamp.dominatedBy accepted with
        | false => rfl
        | true => simp [eq_comm]
    · simp [nipRs, not_covers_none]

theorem raise_rows : (store.raise row).rows = store.rows := by
  unfold Store.raise
  split <;> rfl

theorem insertOrRollBack_eq {retired : Store} {committed : Store → Store} :
    store.insertOrRollBack retired row committed =
      if Covers (retired.accepted row) row.stamp then
        if retired.accepted row = some row.stamp then .ok (store, false)
        else .error (.checkViolation "stale NIP-RS event rejected by durable watermark")
      else if retired.rows.any row.sameKey then .ok (store, false)
      else .ok (committed (({ retired with rows := row :: retired.rows } : Store).raise row), true) := by
  unfold Store.insertOrRollBack Store.insert
  rw [guardNipRsWatermark_eq]
  by_cases covered : Covers (retired.accepted row) row.stamp
  · rw [if_pos covered, if_pos covered]
    by_cases same : retired.accepted row = some row.stamp
    · rw [if_pos same, if_pos same]
    · rw [if_neg same, if_neg same]
  · rw [if_neg covered, if_neg covered]
    dsimp only
    rw [raise_rows]
    by_cases conflict : retired.rows.any row.sameKey
    · rw [if_pos conflict, if_pos conflict]
    · rw [if_neg conflict, if_neg conflict]
      unfold Store.raise Store.setWatermark
      cases row.readStateKey <;> rfl

theorem raise_idempotent : (store.raise row).raise row = store.raise row := by
  unfold Store.raise
  split
  · rfl
  · simp only [Store.setWatermark]
    congr 1
    funext other
    split <;> rfl

theorem shares_kind (shares : coordinate.shares event) (held : coordinate.selects row) :
    eventKindU32 row.event = eventKindU32 event := by
  simp only [Coordinate.selects, Coordinate.holds, Bool.and_eq_true, decide_eq_true_eq] at held
  rw [held.1.1.1.2, shares.1]

/-- Only the call for a `d` tag reads the watermark itself. -/
def Coordinate.consults : Coordinate → Bool
  | addressable .. => false
  | parameterized .. => true

variable {held : Option Stamp}

theorem any_dominatedBy_iff :
    held.any stamp.dominatedBy ↔ Covers held stamp := by
  cases held with
  | none => simp [not_covers_none]
  | some accepted => rw [any_some, Stamp.dominatedBy_iff, covers_some]

theorem any_dominatedBy_append_iff {further : Option Stamp} :
    (held.toList ++ further.toList).any stamp.dominatedBy ↔
      Covers held stamp ∨ Covers further stamp := by
  have single (option : Option Stamp) :
      option.toList.any stamp.dominatedBy = option.any stamp.dominatedBy := by
    cases option <;> simp
  rw [any_append, Bool.or_eq_true, single, single, any_dominatedBy_iff, any_dominatedBy_iff]

theorem accepted_retire : (store.retire selected erased).accepted row = store.accepted row := rfl

theorem accepted_of_dTag {dTag : String} (tagged : row.dTag = some dTag) :
    store.accepted row =
      if isNipRs row.event dTag then store.watermarks (row.watermarkKey dTag) else none := by
  rw [Store.accepted, Row.readStateKey, tagged, bind_some]
  split <;> rfl

theorem raise_of_dTag {dTag : String} (tagged : row.dTag = some dTag) :
    store.raise row =
      if isNipRs row.event dTag then store.setWatermark (row.watermarkKey dTag) row.stamp
      else store := by
  rw [Store.raise, Row.readStateKey, tagged, bind_some]
  by_cases nipRs : isNipRs row.event dTag
  · rw [if_pos nipRs, if_pos nipRs]
  · rw [if_neg nipRs, if_neg nipRs]

variable {dTag : String}

theorem kind_of_nipRs (nipRs : isNipRs event dTag) :
    eventKindU32 event = kindReadState := by
  simp only [isNipRs, Bool.and_eq_true, decide_eq_true_eq] at nipRs
  exact nipRs.1.1.1.1

theorem kind_of_meshStatus (mesh : isBuzzMeshStatus event dTag) :
    eventKindU32 event = kindBookmarkSet := by
  simp only [isBuzzMeshStatus, Bool.and_eq_true, decide_eq_true_eq] at mesh
  exact mesh.1.1

theorem retire_parameterized {communityId : CommunityId} :
    let coordinate :=
      Coordinate.parameterized communityId (eventKindU32 event) event.pubkey dTag
    (if (store.existing coordinate.selects).isNone then Except.ok store
      else if isNipRs event dTag || isBuzzMeshStatus event dTag then
        store.hardDelete (isNipRs event dTag) coordinate.selects
      else .ok (store.softDelete coordinate.selects)) =
        .ok (store.retire coordinate.selects (coordinate.erases event)) := by
  intro coordinate
  by_cases fresh : store.existing coordinate.selects = none
  · rw [if_pos (isNone_iff_eq_none.mpr fresh),
      retire_of_unselected (existing_eq_none_iff.mp fresh)]
  · rw [if_neg (fun none => fresh (isNone_iff_eq_none.mp none))]
    by_cases hard : (isNipRs event dTag || isBuzzMeshStatus event dTag)
    · have erases : coordinate.erases event = fun _ => true := by
        funext row
        simp only [coordinate, Coordinate.erases, hard, Bool.true_or]
      rw [if_pos hard, hardDelete_eq, erases]
      intro row isSelected guarded
      have kind : eventKindU32 row.event = eventKindU32 event :=
        shares_kind ⟨rfl, rfl⟩ isSelected
      rw [Row.guardsHardDelete, Bool.and_eq_true, decide_eq_true_eq] at guarded
      rcases Bool.or_eq_true_iff.mp hard with nipRs | mesh
      · exact nipRs
      · rw [guarded.1, kind_of_meshStatus mesh] at kind
        cases kind
    · have erases : coordinate.erases event = Row.purged := by
        funext row
        simp only [coordinate, Coordinate.erases, eq_false_of_ne_true hard, Bool.false_or]
      rw [if_neg hard, softDelete_eq, erases]

theorem replace_eq_replaceAt : coordinate.replace store event channelId =
    coordinate.replaceAt (createdAtOf event) store event channelId := by
  cases coordinate <;> rfl

theorem replaceAt_some {createdAt : ℤ} (shares : coordinate.shares event) :
    coordinate.replaceAt (some createdAt) store event channelId =
      let row := coordinate.rowOf event createdAt channelId
      if Covers (store.existing coordinate.selects) row.stamp ∨
          coordinate.consults ∧ Covers (store.accepted row) row.stamp then .ok (store, false)
      else if Covers (store.accepted row) row.stamp then
        if store.accepted row = some row.stamp then .ok (store, false)
        else .error (.checkViolation "stale NIP-RS event rejected by durable watermark")
      else if (store.retire coordinate.selects (coordinate.erases event)).rows.any row.sameKey then
        .ok (store, false)
      else .ok (store.stored coordinate row, true) := by
  obtain ⟨kind, pubkey⟩ := shares
  cases coordinate with
  | addressable communityId _ _ channel =>
    dsimp only [Coordinate.kind, Coordinate.pubkey] at kind pubkey
    subst kind pubkey
    simp only [Coordinate.replaceAt, Store.replaceAddressableAt, insertOrRollBack_eq,
      any_dominatedBy_iff, softDelete_eq, accepted_retire, Coordinate.consults,
      Bool.false_eq_true, false_and, or_false]
    rfl
  | parameterized communityId _ _ dTag =>
    dsimp only [Coordinate.kind, Coordinate.pubkey] at kind pubkey
    subst kind pubkey
    simp only [Coordinate.replaceAt, Store.replaceParameterizedAt, insertOrRollBack_eq,
      any_dominatedBy_append_iff, Coordinate.consults, true_and]
    rw [retire_parameterized]
    have looked := @accepted_of_dTag store
      ⟨communityId, event, createdAt, channelId, some dTag, false⟩ dTag rfl
    have raised (inserted : Store) := @raise_of_dTag inserted
      ⟨communityId, event, createdAt, channelId, some dTag, false⟩ dTag rfl
    dsimp only at looked raised ⊢
    simp only [← looked, ← raised, accepted_retire, raise_idempotent]
    rfl

end statements

end Buzz.Replace
