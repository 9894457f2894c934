import Buzz.Replace.Calls

/-! Rows that a soft-delete retires and that no trigger removes: those of the kinds that keep no
durable watermark and no mesh status. -/

namespace Buzz.Replace

open Nostr Buzz.Req List

def retireRow (selected : Row → Bool) (row : Row) : Row :=
  if selected row then { row with deleted := true } else row

variable {selected : Row → Bool} {row : Row} {store : Store}

@[simp]
theorem stamp_retireRow : (retireRow selected row).stamp = row.stamp := by
  unfold retireRow
  split <;> rfl

@[simp]
theorem event_retireRow : (retireRow selected row).event = row.event := by
  unfold retireRow
  split <;> rfl

@[simp]
theorem communityId_retireRow : (retireRow selected row).communityId = row.communityId := by
  unfold retireRow
  split <;> rfl

@[simp]
theorem dTag_retireRow : (retireRow selected row).dTag = row.dTag := by
  unfold retireRow
  split <;> rfl

theorem deleted_retireRow (deleted : row.deleted) :
    (retireRow selected row).deleted := by
  unfold retireRow
  split
  · rfl
  · exact deleted

def purgedKind (event : Event) : Bool :=
  decide (eventKindU32 event = kindReadState) || decide (eventKindU32 event = kindBookmarkSet)

theorem not_isNipRs {event : Event} {dTag : String} (plain : purgedKind event = false) :
    isNipRs event dTag = false := by
  apply eq_false_of_ne_true
  intro nipRs
  rw [purgedKind, kind_of_nipRs nipRs] at plain
  cases plain

theorem not_isBuzzMeshStatus {event : Event} {dTag : String} (plain : purgedKind event = false) :
    isBuzzMeshStatus event dTag = false := by
  apply eq_false_of_ne_true
  intro mesh
  rw [purgedKind, kind_of_meshStatus mesh] at plain
  cases plain

theorem not_purged (plain : purgedKind row.event = false) : row.purged = false := by
  have noMesh : decide (eventKindU32 row.event = kindBookmarkSet) = false :=
    (Bool.or_eq_false_iff.mp plain).2
  unfold Row.purged Row.isNipRs Row.purgedAsMeshStatus
  rw [noMesh]
  cases row.dTag with
  | none => rfl
  | some dTag => rw [Option.any_some, not_isNipRs plain]; rfl

theorem retire_rows {erased : Row → Bool}
    (kept : ∀ row ∈ store.rows, selected row → erased row = false) :
    (store.retire selected erased).rows = store.rows.map (retireRow selected) := by
  unfold Store.retire
  rw [← filterMap_eq_map]
  apply filterMap_congr
  intro row member
  unfold retireRow
  cases isSelected : selected row with
  | false => simp [isSelected]
  | true => simp [isSelected, kept row member isSelected]

theorem softDelete_rows (plain : ∀ row ∈ store.rows, purgedKind row.event = false) :
    (store.softDelete selected).rows = store.rows.map (retireRow selected) := by
  rw [softDelete_eq]
  exact retire_rows fun row member _ => not_purged (plain row member)

end Buzz.Replace
