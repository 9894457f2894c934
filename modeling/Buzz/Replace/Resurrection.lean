import Mathlib.Data.List.Induction
import Buzz.Replace.Convergence

/-! Submissions and deletions at one coordinate. -/

namespace Buzz.Replace

open Nostr Buzz.Req Library.Register List Option
open Bool (and_eq_true not_eq_true)

inductive Move
  | submit (delivery : Delivery)
  | deleteByCoordinate
  | deleteEvent (eventId : EventId)

namespace Coordinate

variable (self : Coordinate)

/-- Only a coordinate with a `d` tag can be deleted. -/
def deletes : Move → Row → Bool
  | .submit _, _ => false
  | .deleteByCoordinate, row =>
    match self with
    | addressable .. => false
    | parameterized communityId kind pubkey dTag =>
      (parameterized communityId kind pubkey dTag).selects row
  | .deleteEvent eventId, row =>
    row.communityId = self.communityId && row.event.id = eventId && !row.deleted

def step (store : Store) : Move → Store
  | .submit delivery => (self.deliver store delivery).1
  | .deleteByCoordinate =>
    match self with
    | addressable .. => store
    | parameterized communityId kind pubkey dTag =>
      store.softDeleteByCoordinate communityId kind pubkey dTag
  | .deleteEvent eventId => store.softDeleteEvent self.communityId eventId

def after (store : Store) (moves : List Move) : Store := moves.foldl self.step store

def Live (store : Store) (event : Event) : Prop :=
  ∃ row ∈ store.rows, self.selects row ∧ row.event = event

/-- No event that was live and then was not is live again. -/
def NeverBack (store : Store) (moves : List Move) : Prop :=
  ∀ first second third, first ++ second ++ third <+: moves → ∀ event,
    self.Live (self.after store first) event →
      ¬ self.Live (self.after store (first ++ second)) event →
        ¬ self.Live (self.after store (first ++ second ++ third)) event

/-- The call would write its row: nothing dominates it and nothing has its key. -/
def Writes (store : Store) (delivery : Delivery) : Prop :=
  let row := self.rowOf delivery.event ((createdAtOf delivery.event).getD 0) delivery.channelId
  delivery.carried ∧ ¬ Covers (store.existing self.selects) row.stamp ∧
    ¬ Covers (store.accepted row) row.stamp ∧ ∀ other ∈ store.rows, row.sameKey other = false

/-- The move removes for good a live row that no watermark stands for. -/
def Loses (store : Store) (move : Move) (row : Row) : Prop :=
  row ∈ store.rows ∧ self.selects row ∧ row.readStateKey = none ∧
    match move with
    | .submit delivery => self.Writes store delivery ∧ self.erases delivery.event row
    | _ => self.deletes move row ∧ row.purged

def HasLost (store : Store) (moves : List Move) : Prop :=
  ∃ before move, before ++ [move] <+: moves ∧ ∃ row, self.Loses (self.after store before) move row

/-- Not once such a row was lost, nor so that it is lost. -/
def Guarded (store : Store) (moves : List Move) : Prop :=
  ∀ before move, before ++ [move] <+: moves →
    (∃ row ∈ (self.after store before).rows, self.selects row ∧
      self.deletes move row) → ¬ self.HasLost store (before ++ [move])

def Seen (store : Store) (moves : List Move) (event : Event) : Prop :=
  ∃ before, before <+: moves ∧ self.Live (self.after store before) event

end Coordinate

variable {coordinate : Coordinate} {store : Store} {delivery : Delivery} {move : Move}
  {moves before : List Move} {event : Event} {lost : Prop} {past : Event → Prop} {row : Row}

section steps

variable {rest : List Move}

def Move.shares (coordinate : Coordinate) : Move → Prop
  | .submit delivery => coordinate.shares delivery.event
  | _ => True

theorem after_append :
    coordinate.after store (before ++ rest) =
      coordinate.after (coordinate.after store before) rest := foldl_append

theorem after_concat : coordinate.after store (before ++ [move]) =
    coordinate.step (coordinate.after store before) move := by
  rw [after_append]
  rfl

theorem deliver_of_writes (shares : coordinate.shares delivery.event)
    (writes : coordinate.Writes store delivery) :
    (coordinate.deliver store delivery).1 = store.stored coordinate
      (coordinate.rowOf delivery.event ((createdAtOf delivery.event).getD 0)
        delivery.channelId) := by
  obtain ⟨isCarried, fresh, passes, unkeyed⟩ := writes
  rw [Delivery.carried, and_eq_true] at isCarried
  obtain ⟨createdAt, dated⟩ := isSome_iff_exists.mp isCarried.2
  rw [dated, getD_some] at fresh passes unkeyed
  rw [Coordinate.deliver, if_pos isCarried.1, replace_eq_replaceAt, dated, replaceAt_some shares,
    getD_some]
  dsimp only
  rw [if_neg (not_or.mpr ⟨fresh, fun both => passes both.2⟩), if_neg passes, if_neg]
  intro conflict
  obtain ⟨other, retired, same⟩ := any_eq_true.mp conflict
  rcases mem_retire retired with ⟨within, -⟩ | ⟨row, within, -, -, rfl⟩
  · rw [unkeyed other within] at same
    cases same
  · have keyed := unkeyed row within
    rw [← not_eq_true] at keyed
    exact keyed same

theorem conflict_retire {row : Row} {erased : Row → Bool}
    (uncovered : ¬ Covers (store.existing coordinate.selects) row.stamp)
    (conflict : store.rows.any row.sameKey) :
    (store.retire coordinate.selects erased).rows.any row.sameKey := by
  obtain ⟨other, within, same⟩ := any_eq_true.mp conflict
  apply any_eq_true.mpr
  refine ⟨other, mem_retire_of_unselected within ?_, same⟩
  apply eq_false_of_ne_true
  intro selected
  apply uncovered
  rw [(sameKey_iff.mp same).2]
  exact covers_existing_iff.mpr ⟨other, within, selected, le_rfl⟩

theorem deliver_of_not_writes (shares : coordinate.shares delivery.event)
    (idle : ¬ coordinate.Writes store delivery) : (coordinate.deliver store delivery).1 = store := by
  cases isCarried : delivery.carried with
  | false =>
    obtain ⟨error, failed⟩ := @deliver_of_not_carried coordinate store delivery isCarried
    rw [failed]
  | true =>
    have both := isCarried
    rw [Delivery.carried, and_eq_true] at both
    obtain ⟨createdAt, dated⟩ := isSome_iff_exists.mp both.2
    rw [Coordinate.deliver, if_pos both.1, replace_eq_replaceAt, dated, replaceAt_some shares]
    unfold Coordinate.Writes at idle
    rw [dated, getD_some] at idle
    dsimp only at idle ⊢
    by_cases dominated : Covers (store.existing coordinate.selects)
        (coordinate.rowOf delivery.event createdAt delivery.channelId).stamp ∨
          coordinate.consults ∧
            Covers (store.accepted
              (coordinate.rowOf delivery.event createdAt delivery.channelId))
              (coordinate.rowOf delivery.event createdAt delivery.channelId).stamp
    · rw [if_pos dominated]
    · rw [if_neg dominated]
      by_cases stale : Covers (store.accepted
          (coordinate.rowOf delivery.event createdAt delivery.channelId))
          (coordinate.rowOf delivery.event createdAt delivery.channelId).stamp
      · rw [if_pos stale]
        by_cases equal : store.accepted
            (coordinate.rowOf delivery.event createdAt delivery.channelId) =
              some (coordinate.rowOf delivery.event createdAt delivery.channelId).stamp
        · rw [if_pos equal]
        · rw [if_neg equal]
      · rw [if_neg stale, if_pos]
        apply conflict_retire (fun covered => dominated (.inl covered))
        by_contra unkeyed
        apply idle ⟨isCarried, fun covered => dominated (.inl covered), stale, ?_⟩
        intro other within
        apply eq_false_of_ne_true
        intro same
        exact unkeyed (any_eq_true.mpr ⟨other, within, same⟩)

theorem step_of_deletion (deletion : ∀ delivery, move ≠ .submit delivery) :
    coordinate.step store move = store.softDelete (coordinate.deletes move) := by
  cases move with
  | submit delivery => exact absurd rfl (deletion delivery)
  | deleteByCoordinate =>
    cases coordinate with
    | addressable =>
      symm
      exact retire_of_unselected fun row member => rfl
    | parameterized => rfl
  | deleteEvent eventId => rfl

end steps

def Coordinate.keyOf (self : Coordinate) (event : Event) : Option WatermarkKey :=
  (self.rowOf event 0 none).readStateKey

def Barred (coordinate : Coordinate) (store : Store) (lost : Prop) (event : Event) : Prop :=
  (∃ key, coordinate.keyOf event = some key ∧ Covers (store.watermarks key) (stampOf event)) ∨
    (∃ row ∈ store.rows, coordinate.holds row ∧ row.event = event) ∨
    (lost ∧ Covers (store.existing coordinate.selects) (stampOf event))

structure Formed (coordinate : Coordinate) (row : Row) : Prop where
  community : row.communityId = coordinate.communityId
  stamp : row.stamp = stampOf row.event
  key : row.readStateKey = coordinate.keyOf row.event
  dated : (createdAtOf row.event).isSome

structure Tidy (coordinate : Coordinate) (store : Store) : Prop where
  formed : ∀ row ∈ store.rows, coordinate.holds row → Formed coordinate row
  keyed : ∀ row ∈ store.rows, coordinate.holds row →
    ∀ other ∈ store.rows, row.sameKey other → row = other
  alone : ∀ row ∈ store.rows, coordinate.selects row →
    ∀ other ∈ store.rows, coordinate.selects other → row = other

/-- No event that was live can come back. -/
structure Kept (coordinate : Coordinate) (store : Store) (lost : Prop) (past : Event → Prop) :
    Prop where
  marked : ∀ row ∈ store.rows, coordinate.selects row → ∀ key,
    coordinate.keyOf row.event = some key → Covers (store.watermarks key) row.stamp
  barred : ∀ event, past event ∨ coordinate.Live store event →
    Barred coordinate store lost event

section kept

variable {lostNow : Prop} {channelId : Option Uuid}

theorem readStateKey_rowOf {createdAt : ℤ} :
    (coordinate.rowOf event createdAt channelId).readStateKey = coordinate.keyOf event := by
  cases coordinate <;> rfl

theorem stamp_rowOf :
    (coordinate.rowOf event ((createdAtOf event).getD 0) channelId).stamp = stampOf event :=
  rowOf_stamp

theorem Barred.not_writes (tidy : Tidy coordinate store)
    (barred : Barred coordinate store lost delivery.event) :
    ¬ coordinate.Writes store delivery := by
  rintro ⟨-, fresh, passes, unkeyed⟩
  rw [stamp_rowOf] at fresh passes
  rcases barred with ⟨key, keyed, covered⟩ | ⟨row, within, held, same⟩ | ⟨-, covered⟩
  · apply passes
    rw [Store.accepted, readStateKey_rowOf, keyed]
    exact covered
  · have formed := tidy.formed row within held
    have free := unkeyed row within
    rw [← not_eq_true, sameKey_iff] at free
    apply free
    rw [rowOf_communityId, stamp_rowOf, formed.community, formed.stamp, same]
    exact ⟨rfl, rfl⟩
  · exact fresh covered

theorem selects_holds (selected : coordinate.selects row) :
    coordinate.holds row := by
  rw [Coordinate.selects, and_eq_true] at selected
  exact selected.1

theorem holds_deleted :
    coordinate.holds { row with deleted := true } = coordinate.holds row := by
  cases coordinate <;> rfl

theorem selects_of_deletes (held : coordinate.holds row)
    (hit : coordinate.deletes move row) : coordinate.selects row := by
  cases move with
  | submit delivery => cases hit
  | deleteByCoordinate =>
    cases coordinate with
    | addressable => cases hit
    | parameterized => exact hit
  | deleteEvent eventId =>
    rw [Coordinate.deletes, and_eq_true] at hit
    rw [Coordinate.selects, held, hit.2]
    rfl

theorem Kept.widen (kept : Kept coordinate store lost past) (grows : lost → lostNow) :
    Kept coordinate store lostNow fun event => past event ∨ coordinate.Live store event where
  marked := kept.marked
  barred := by
    intro event seen
    have before : past event ∨ coordinate.Live store event := by
      rcases seen with either | live
      · exact either
      · exact .inr live
    rcases kept.barred event before with marked | stored | ⟨isLost, covered⟩
    · exact .inl marked
    · exact .inr (.inl stored)
    · exact .inr (.inr ⟨grows isLost, covered⟩)

theorem formed_rowOf (dated : (createdAtOf event).isSome) :
    Formed coordinate (coordinate.rowOf event ((createdAtOf event).getD 0) channelId) where
  community := rowOf_communityId
  stamp := by rw [stamp_rowOf, rowOf_event]
  key := by rw [readStateKey_rowOf, rowOf_event]
  dated := by rwa [rowOf_event]

theorem Tidy.retire {selected erased : Row → Bool} (tidy : Tidy coordinate store) :
    Tidy coordinate (store.retire selected erased) := by
  constructor
  · intro row member held
    rcases mem_retire member with ⟨within, -⟩ | ⟨old, within, -, -, rfl⟩
    · exact tidy.formed row within held
    · have formed := tidy.formed old within (holds_deleted.symm.trans held)
      exact ⟨formed.community, formed.stamp, formed.key, formed.dated⟩
  · intro row member held other also same
    rcases mem_retire member with ⟨within, out⟩ | ⟨old, within, isIn, -, rfl⟩
    · rcases mem_retire also with ⟨there, -⟩ | ⟨older, there, isIn, -, rfl⟩
      · exact tidy.keyed row within held other there same
      · have one := tidy.keyed row within held older there same
        rw [one, isIn] at out
        cases out
    · have before := holds_deleted.symm.trans held
      rcases mem_retire also with ⟨there, out⟩ | ⟨older, there, -, -, rfl⟩
      · have one := tidy.keyed old within before other there same
        rw [← one, isIn] at out
        cases out
      · have one := tidy.keyed old within before older there same
        rw [one]
  · intro row member live other also alive
    rcases mem_retire member with ⟨within, -⟩ | ⟨old, within, -, -, rfl⟩
    · rcases mem_retire also with ⟨there, -⟩ | ⟨older, there, -, -, rfl⟩
      · exact tidy.alone row within live other there alive
      · simp [Coordinate.selects] at alive
    · simp [Coordinate.selects] at live

section

variable (tidy : Tidy coordinate store)

include tidy

theorem Tidy.stored (writes : coordinate.Writes store delivery) :
    Tidy coordinate (store.stored coordinate (coordinate.rowOf delivery.event
      ((createdAtOf delivery.event).getD 0) delivery.channelId)) := by
  obtain ⟨isCarried, -, -, unkeyed⟩ := writes
  rw [Delivery.carried, and_eq_true] at isCarried
  have retired : Tidy coordinate (store.retire coordinate.selects
      (coordinate.erases (coordinate.rowOf delivery.event
        ((createdAtOf delivery.event).getD 0) delivery.channelId).event)) := tidy.retire
  have free (other : Row) (member : other ∈ (store.retire coordinate.selects
      (coordinate.erases (coordinate.rowOf delivery.event
        ((createdAtOf delivery.event).getD 0) delivery.channelId).event)).rows) :
      (coordinate.rowOf delivery.event ((createdAtOf delivery.event).getD 0)
        delivery.channelId).sameKey other = false := by
    rcases mem_retire member with ⟨within, -⟩ | ⟨old, within, -, -, rfl⟩
    · exact unkeyed other within
    · exact unkeyed old within
  constructor
  · intro row member held
    rw [stored_rows, mem_cons] at member
    rcases member with rfl | before
    · exact formed_rowOf isCarried.2
    · exact retired.formed row before held
  · intro row member held other also same
    rw [stored_rows, mem_cons] at member also
    rcases member with rfl | before
    · rcases also with rfl | behind
      · rfl
      · rw [free other behind] at same
        cases same
    · rcases also with rfl | behind
      · have turned := free row before
        rw [← not_eq_true, sameKey_iff] at turned
        rw [sameKey_iff] at same
        exact absurd ⟨same.1.symm, same.2.symm⟩ turned
      · exact retired.keyed row before held other behind same
  · intro row member live other also alive
    rw [stored_rows, mem_cons] at member also
    rcases member with rfl | before
    · rcases also with rfl | behind
      · rfl
      · rw [selects_retired behind] at alive
        cases alive
    · rw [selects_retired before] at live
      cases live

theorem Tidy.step (shares : move.shares coordinate) :
    Tidy coordinate (coordinate.step store move) := by
  cases move with
  | submit delivery =>
    by_cases writes : coordinate.Writes store delivery
    · rw [Coordinate.step, deliver_of_writes shares writes]
      exact tidy.stored writes
    · rw [Coordinate.step, deliver_of_not_writes shares writes]
      exact tidy
  | deleteByCoordinate | deleteEvent eventId =>
    rw [step_of_deletion (fun _ same => by cases same), softDelete_eq]
    exact tidy.retire

section

variable (kept : Kept coordinate store lost past)

include kept

theorem Barred.stored (selected : coordinate.selects row)
    (fresh : ¬ Covers (store.existing coordinate.selects) row.stamp)
    (passes : ¬ Covers (store.accepted row) row.stamp) (grows : lost → lostNow)
    (loses : ∀ other ∈ store.rows, coordinate.selects other → other.readStateKey = none →
      coordinate.erases row.event other → lostNow)
    (barred : Barred coordinate store lost event) :
    Barred coordinate (store.stored coordinate row) lostNow event := by
  have existing := existing_of_live (@live_stored coordinate store row selected)
  have raised (key : WatermarkKey) (stamp : Stamp) (covered : Covers (store.watermarks key) stamp) :
      Covers ((store.stored coordinate row).watermarks key) stamp := by
    rw [stored_watermarks]
    by_cases own : row.readStateKey = some key
    · rw [if_pos own, covers_some]
      rw [Store.accepted, own] at passes
      exact covered.le_of_not_covers passes
    · rw [if_neg own]
      exact covered
  rcases barred with ⟨key, keyed, covered⟩ | ⟨other, within, held, same⟩ | ⟨isLost, covered⟩
  · exact .inl ⟨key, keyed, raised key _ covered⟩
  · have formed := tidy.formed other within held
    cases live : coordinate.selects other with
    | false =>
      refine .inr (.inl ⟨other, ?_, held, same⟩)
      rw [stored_rows]
      exact mem_cons_of_mem row (mem_retire_of_unselected within live)
    | true =>
      cases erased : coordinate.erases row.event other with
      | false =>
        refine .inr (.inl ⟨_, ?_, holds_deleted.trans held, same⟩)
        rw [stored_rows]
        exact mem_cons_of_mem row (mem_retire_of_kept within live erased)
      | true =>
        cases keyed : other.readStateKey with
        | none =>
          refine .inr (.inr ⟨loses other within live keyed erased, ?_⟩)
          have below : Covers (store.existing coordinate.selects) other.stamp :=
            covers_existing_iff.mpr ⟨other, within, live, le_rfl⟩
          rw [existing, covers_some, ← same, ← formed.stamp]
          exact below.le_of_not_covers fresh
        | some key =>
          rw [formed.key] at keyed
          have covered := kept.marked other within live key keyed
          rw [formed.stamp] at covered
          exact .inl ⟨key, same ▸ keyed, same ▸ raised key _ covered⟩
  · refine .inr (.inr ⟨grows isLost, ?_⟩)
    rw [existing, covers_some]
    exact covered.le_of_not_covers fresh

theorem Kept.stored
    (shares : coordinate.shares delivery.event) (writes : coordinate.Writes store delivery)
    (grows : lost → lostNow)
    (loses : ∀ row, coordinate.Loses store (.submit delivery) row → lostNow) :
    Kept coordinate (coordinate.deliver store delivery).1 lostNow
      fun event => past event ∨ coordinate.Live store event := by
  rw [deliver_of_writes shares writes]
  have selected : coordinate.selects (coordinate.rowOf delivery.event
      ((createdAtOf delivery.event).getD 0) delivery.channelId) := selects_rowOf shares
  have lose (other : Row) (within : other ∈ store.rows) (live : coordinate.selects other)
      (unkeyed : other.readStateKey = none)
      (erased : coordinate.erases (coordinate.rowOf delivery.event
        ((createdAtOf delivery.event).getD 0) delivery.channelId).event other) : lostNow := by
    rw [rowOf_event] at erased
    exact loses other ⟨within, live, unkeyed, writes, erased⟩
  constructor
  · intro row member live key keyed
    rw [stored_rows, mem_cons] at member
    rcases member with rfl | retired
    · rw [rowOf_event] at keyed
      rw [stored_watermarks, if_pos (readStateKey_rowOf.trans keyed), covers_some]
    · rw [selects_retired retired] at live
      cases live
  · intro event seen
    rcases seen with before | ⟨row, member, live, same⟩
    · exact (kept.barred event before).stored tidy kept selected writes.2.1 writes.2.2.1 grows lose
    · exact .inr (.inl ⟨row, member, selects_holds live, same⟩)

theorem Kept.softDelete (grows : lost → lostNow)
    (loses : ∀ row ∈ store.rows, coordinate.selects row → row.readStateKey = none →
      coordinate.deletes move row → row.purged → lostNow)
    (guarded : (∃ row ∈ store.rows, coordinate.selects row ∧
      coordinate.deletes move row) → ¬ lostNow) :
    Kept coordinate (store.softDelete (coordinate.deletes move)) lostNow
      fun event => past event ∨ coordinate.Live store event := by
  rw [softDelete_eq]
  constructor
  · intro row member live
    rcases mem_retire member with ⟨within, -⟩ | ⟨old, within, -, -, rfl⟩
    · exact kept.marked row within live
    · simp [Coordinate.selects] at live
  · intro event seen
    rcases seen with before | ⟨row, member, live, same⟩
    · rcases kept.barred event before with marked | ⟨row, within, held, same⟩ | ⟨isLost, covered⟩
      · exact .inl marked
      · have formed := tidy.formed row within held
        cases hit : coordinate.deletes move row with
        | false =>
          exact .inr (.inl ⟨row, mem_retire_of_unselected within hit, held, same⟩)
        | true =>
          cases purged : row.purged with
          | false =>
            exact .inr (.inl ⟨_, mem_retire_of_kept within hit purged,
              holds_deleted.trans held, same⟩)
          | true =>
            have live := selects_of_deletes held hit
            cases keyed : row.readStateKey with
            | none =>
              exact absurd (loses row within live keyed hit purged)
                (guarded ⟨row, within, live, hit⟩)
            | some key =>
              rw [formed.key] at keyed
              have covered := kept.marked row within live key keyed
              rw [formed.stamp] at covered
              exact .inl ⟨key, same ▸ keyed, same ▸ covered⟩
      · refine .inr (.inr ⟨grows isLost, ?_⟩)
        obtain ⟨row, within, live, below⟩ := covers_existing_iff.mp covered
        cases hit : coordinate.deletes move row with
        | false =>
          exact covers_existing_iff.mpr
            ⟨row, mem_retire_of_unselected within hit, live, below⟩
        | true => exact absurd (grows isLost) (guarded ⟨row, within, live, hit⟩)
    · exact .inr (.inl ⟨row, member, selects_holds live, same⟩)

end

end

end kept

section runs

variable {wider : Event → Prop}

theorem Kept.mono (kept : Kept coordinate store lost past)
    (within : ∀ event, wider event → past event ∨ coordinate.Live store event) :
    Kept coordinate store lost wider where
  marked := kept.marked
  barred := by
    intro event seen
    apply kept.barred event
    rcases seen with wide | live
    · exact within event wide
    · exact .inr live

theorem seen_concat (seen : coordinate.Seen store (moves ++ [move]) event) :
    coordinate.Seen store moves event ∨
      coordinate.Live (coordinate.after store (moves ++ [move])) event := by
  obtain ⟨before, isPrefix, live⟩ := seen
  rcases prefix_concat_iff.mp isPrefix with rfl | earlier
  · exact .inr live
  · exact .inl ⟨before, earlier, live⟩

theorem HasLost.mono (lost : coordinate.HasLost store before) (within : before <+: moves) :
    coordinate.HasLost store moves := by
  obtain ⟨first, move, isPrefix, row, loses⟩ := lost
  exact ⟨first, move, isPrefix.trans within, row, loses⟩

theorem Kept.step (tidy : Tidy coordinate (coordinate.after store moves))
    (kept : Kept coordinate (coordinate.after store moves)
      (coordinate.HasLost store moves) (coordinate.Seen store moves))
    (shares : move.shares coordinate)
    (guarded : (∃ row ∈ (coordinate.after store moves).rows, coordinate.selects row ∧
      coordinate.deletes move row) → ¬ coordinate.HasLost store (moves ++ [move])) :
    Kept coordinate (coordinate.after store (moves ++ [move]))
      (coordinate.HasLost store (moves ++ [move])) (coordinate.Seen store (moves ++ [move])) := by
  have grows (lost : coordinate.HasLost store moves) : coordinate.HasLost store (moves ++ [move]) :=
    HasLost.mono lost (prefix_append moves [move])
  have loses (row : Row) (loss : coordinate.Loses (coordinate.after store moves) move row) :
      coordinate.HasLost store (moves ++ [move]) :=
    ⟨moves, move, prefix_refl _, row, loss⟩
  have next : Kept coordinate (coordinate.step (coordinate.after store moves) move)
      (coordinate.HasLost store (moves ++ [move]))
      fun event => coordinate.Seen store moves event ∨
        coordinate.Live (coordinate.after store moves) event := by
    cases move with
    | submit delivery =>
      by_cases writes : coordinate.Writes (coordinate.after store moves) delivery
      · exact kept.stored tidy shares writes grows loses
      · rw [Coordinate.step, deliver_of_not_writes shares writes]
        exact kept.widen grows
    | deleteByCoordinate | deleteEvent eventId =>
      rw [step_of_deletion (fun _ same => by cases same)]
      exact kept.softDelete tidy grows
        (fun row within live unkeyed hit purged =>
          loses row ⟨within, live, unkeyed, hit, purged⟩) guarded
  rw [after_concat]
  apply next.mono
  intro event seen
  rcases seen_concat seen with before | live
  · exact .inl (.inl before)
  · rw [after_concat] at live
    exact .inr live

theorem tidy_after (unheld : ∀ row ∈ store.rows, coordinate.holds row = false)
    (shares : ∀ move ∈ moves, move.shares coordinate) :
    Tidy coordinate (coordinate.after store moves) := by
  induction moves using reverseRecOn with
  | nil =>
    have unlive (row : Row) (member : row ∈ store.rows) : coordinate.selects row = false := by
      rw [Coordinate.selects, unheld row member, Bool.false_and]
    constructor
    · intro row member held
      exact absurd held (ne_true_of_eq_false (unheld row member))
    · intro row member held
      exact absurd held (ne_true_of_eq_false (unheld row member))
    · intro row member live
      exact absurd live (ne_true_of_eq_false (unlive row member))
  | append_singleton moves move ih =>
    rw [after_concat]
    exact (ih fun other member => shares other (mem_append_left _ member)).step
      (shares move (mem_append_right _ (mem_singleton_self move)))

theorem kept_after (unheld : ∀ row ∈ store.rows, coordinate.holds row = false)
    (shares : ∀ move ∈ moves, move.shares coordinate)
    (guarded : coordinate.Guarded store moves) :
    Kept coordinate (coordinate.after store moves) (coordinate.HasLost store moves)
      (coordinate.Seen store moves) := by
  induction moves using reverseRecOn with
  | nil =>
    have unlive (event : Event) : ¬ coordinate.Live store event := by
      rintro ⟨row, member, live, -⟩
      rw [Coordinate.selects, unheld row member] at live
      cases live
    constructor
    · intro row member live
      rw [Coordinate.selects, unheld row member] at live
      cases live
    · rintro event (⟨before, isPrefix, live⟩ | live)
      · rw [prefix_nil.mp isPrefix] at live
        exact absurd live (unlive event)
      · exact absurd live (unlive event)
  | append_singleton moves move ih =>
    have earlier := ih (fun other member => shares other (mem_append_left _ member))
      fun before other isPrefix => guarded before other
        (isPrefix.trans (prefix_append moves [move]))
    have tidy := tidy_after unheld
      fun other member => shares other (mem_append_left [move] member)
    exact earlier.step tidy
      (shares move (mem_append_right _ (mem_singleton_self move)))
      (guarded moves move (prefix_refl _))

theorem mem_step (shares : move.shares coordinate)
    (member : row ∈ (coordinate.step store move).rows) :
    (∃ old ∈ store.rows, row = old ∨ row = { old with deleted := true }) ∨
      ∃ delivery, move = .submit delivery ∧ coordinate.Writes store delivery ∧
        row = coordinate.rowOf delivery.event ((createdAtOf delivery.event).getD 0)
          delivery.channelId := by
  have retired {selected erased : Row → Bool}
      (kept : row ∈ (store.retire selected erased).rows) :
      ∃ old ∈ store.rows, row = old ∨ row = { old with deleted := true } := by
    rcases mem_retire kept with ⟨within, -⟩ | ⟨old, within, -, -, same⟩
    · exact ⟨row, within, .inl rfl⟩
    · exact ⟨old, within, .inr same⟩
  cases move with
  | submit delivery =>
    by_cases writes : coordinate.Writes store delivery
    · rw [Coordinate.step, deliver_of_writes shares writes, stored_rows, mem_cons] at member
      rcases member with written | kept
      · exact .inr ⟨delivery, rfl, writes, written⟩
      · exact .inl (retired kept)
    · rw [Coordinate.step, deliver_of_not_writes shares writes] at member
      exact .inl ⟨row, member, .inl rfl⟩
  | deleteByCoordinate | deleteEvent eventId =>
    rw [step_of_deletion (fun _ same => by cases same), softDelete_eq] at member
    exact .inl (retired member)

theorem live_step (shares : move.shares coordinate)
    (live : coordinate.Live (coordinate.step store move) event) :
    coordinate.Live store event ∨
      ∃ delivery, move = .submit delivery ∧ coordinate.Writes store delivery ∧
        delivery.event = event := by
  obtain ⟨row, member, selected, same⟩ := live
  rcases mem_step shares member with ⟨old, within, rfl | rfl⟩ | ⟨delivery, submits, writes, rfl⟩
  · exact .inl ⟨row, within, selected, same⟩
  · simp [Coordinate.selects] at selected
  · exact .inr ⟨delivery, submits, writes, rowOf_event.symm.trans same⟩

theorem neverBack_of_guarded (unheld : ∀ row ∈ store.rows, coordinate.holds row = false)
    (shares : ∀ move ∈ moves, move.shares coordinate)
    (guarded : coordinate.Guarded store moves) : coordinate.NeverBack store moves := by
  intro first second third isPrefix event live gone
  induction third using reverseRecOn with
  | nil =>
    rw [append_nil]
    exact gone
  | append_singleton third move ih =>
    have whole : first ++ second ++ third ++ [move] <+: moves := by
      rwa [append_assoc _ third]
    have within : first ++ second ++ third <+: moves :=
      (prefix_append _ [move]).trans whole
    have kept := kept_after unheld (fun other member => shares other (within.subset member))
      fun before other earlier => guarded before other (earlier.trans within)
    have absent := ih within
    rw [← append_assoc, after_concat]
    intro again
    have share := shares move (whole.subset (mem_append_right _ (mem_singleton_self move)))
    rcases live_step share again with still | ⟨delivery, rfl, writes, rfl⟩
    · exact absent still
    · have seen : coordinate.Seen store (first ++ second ++ third) delivery.event := by
        refine ⟨first, ?_, live⟩
        rw [append_assoc]
        exact prefix_append _ _
      have tidy := tidy_after unheld fun other member => shares other (within.subset member)
      exact (kept.barred delivery.event (.inl seen)).not_writes tidy writes

theorem submitted_of_held (unheld : ∀ row ∈ store.rows, coordinate.holds row = false)
    (shares : ∀ move ∈ moves, move.shares coordinate) :
    ∀ row ∈ (coordinate.after store moves).rows, coordinate.holds row →
      ∃ delivery, .submit delivery ∈ moves ∧ delivery.event = row.event := by
  induction moves using reverseRecOn with
  | nil =>
    intro row member held
    exact absurd held (ne_true_of_eq_false (unheld row member))
  | append_singleton moves move ih =>
    intro row member held
    rw [after_concat] at member
    have earlier := ih fun other within => shares other (mem_append_left [move] within)
    have share := shares move (mem_append_right _ (mem_singleton_self move))
    have before (old : Row) (within : old ∈ (coordinate.after store moves).rows)
        (oldHeld : coordinate.holds old) :
        ∃ delivery, .submit delivery ∈ moves ++ [move] ∧ delivery.event = old.event := by
      obtain ⟨delivery, submitted, same⟩ := earlier old within oldHeld
      exact ⟨delivery, mem_append_left [move] submitted, same⟩
    rcases mem_step share member with ⟨old, within, rfl | rfl⟩ | ⟨delivery, rfl, -, rfl⟩
    · exact before row within held
    · exact before old within (holds_deleted.symm.trans held)
    · exact ⟨delivery, mem_append_right _ (mem_singleton_self _), rowOf_event.symm⟩

def Identified (moves : List Move) : Prop :=
  ∀ first second, .submit first ∈ moves → .submit second ∈ moves →
    first.event.id = second.event.id → first.event = second.event

theorem unkeyed_after {lost : Row} {more : List Move}
    (shares : ∀ move ∈ moves, move.shares coordinate) (identified : Identified moves)
    (submitted : ∃ delivery, .submit delivery ∈ moves ∧ delivery.event = lost.event)
    (free : ∀ other ∈ (coordinate.after store before).rows, lost.sameKey other = false)
    (within : before ++ more <+: moves)
    (away : ∀ some, some <+: more → some ≠ [] →
      ¬ coordinate.Live (coordinate.after store (before ++ some)) lost.event) :
    ∀ other ∈ (coordinate.after store (before ++ more)).rows, lost.sameKey other = false := by
  induction more using reverseRecOn with
  | nil =>
    rw [append_nil]
    exact free
  | append_singleton more move ih =>
    intro other member
    rw [← append_assoc] at within
    have earlier := ih ((prefix_append _ [move]).trans within)
      fun some isPrefix => away some (isPrefix.trans (prefix_append more [move]))
    have submits := within.subset (mem_append_right _ (mem_singleton_self move))
    have share := shares move submits
    have now := away (more ++ [move]) (prefix_refl _) (by simp)
    rw [← append_assoc, after_concat] at member now
    rcases mem_step share member with ⟨old, there, rfl | rfl⟩ | ⟨delivery, rfl, writes, rfl⟩
    · exact earlier other there
    · exact earlier old there
    · apply eq_false_of_ne_true
      intro same
      obtain ⟨first, firstSubmitted, event⟩ := submitted
      rw [sameKey_iff, rowOf_stamp] at same
      have ids : delivery.event.id = first.event.id := by
        rw [event]
        exact (congrArg Stamp.id same.2).symm
      apply now
      refine ⟨_, member, selects_rowOf share, ?_⟩
      rw [rowOf_event, identified delivery first submits firstSubmitted ids, event]

theorem unkeyed_of_retire {selected erased : Row → Bool}
    (tidy : Tidy coordinate store) (member : row ∈ store.rows) (held : coordinate.holds row)
    (isSelected : selected row) (gone : erased row) :
    ∀ other ∈ (store.retire selected erased).rows, row.sameKey other = false := by
  intro other kept
  apply eq_false_of_ne_true
  intro same
  rcases mem_retire kept with ⟨within, out⟩ | ⟨old, within, -, left, rfl⟩
  · rw [← tidy.keyed row member held other within same, isSelected] at out
    cases out
  · rw [← tidy.keyed row member held old within same, gone] at left
    cases left

theorem unkeyed_of_loses (tidy : Tidy coordinate store)
    (shares : move.shares coordinate) (loses : coordinate.Loses store move row) :
    ∀ other ∈ (coordinate.step store move).rows, row.sameKey other = false := by
  obtain ⟨member, live, -, how⟩ := loses
  have held := selects_holds live
  cases move with
  | submit delivery =>
    obtain ⟨writes, erased⟩ := how
    intro other within
    rw [Coordinate.step, deliver_of_writes shares writes, stored_rows, mem_cons,
      rowOf_event] at within
    rcases within with rfl | retired
    · have free := writes.2.2.2 row member
      rw [← not_eq_true, sameKey_iff] at free
      apply eq_false_of_ne_true
      rw [sameKey_iff]
      exact fun same => free ⟨same.1.symm, same.2.symm⟩
    · exact unkeyed_of_retire tidy member held live erased other retired
  | deleteByCoordinate | deleteEvent eventId =>
    rw [step_of_deletion (fun _ same => by cases same), softDelete_eq]
    exact unkeyed_of_retire tidy member held how.1 how.2

theorem unselected_of_hit (tidy : Tidy coordinate store)
    (hit : ∃ row ∈ store.rows, coordinate.selects row ∧
      coordinate.deletes move row) :
    ∀ row ∈ (coordinate.step store move).rows, coordinate.selects row = false := by
  obtain ⟨row, member, live, deleted⟩ := hit
  have deletion (delivery : Delivery) (same : move = .submit delivery) : False := by
    rw [same] at deleted
    cases deleted
  intro other within
  rw [step_of_deletion deletion, softDelete_eq] at within
  apply eq_false_of_ne_true
  intro alive
  rcases mem_retire within with ⟨there, out⟩ | ⟨old, there, -, -, rfl⟩
  · rw [← tidy.alone row member live other there alive, deleted] at out
    cases out
  · simp [Coordinate.selects] at alive

theorem shares_of_holds (held : coordinate.holds row) :
    coordinate.shares row.event := by
  simp only [Coordinate.holds, and_eq_true, decide_eq_true_eq] at held
  exact ⟨held.1.1.2, held.1.2⟩

theorem resurrects (unheld : ∀ row ∈ store.rows, coordinate.holds row = false)
    (shares : ∀ move ∈ moves, move.shares coordinate) (identified : Identified moves)
    (within : before ++ [move] <+: moves)
    (hit : ∃ row ∈ (coordinate.after store before).rows, coordinate.selects row ∧
      coordinate.deletes move row)
    (lost : coordinate.HasLost store (before ++ [move])) :
    ∃ delivery, coordinate.shares delivery.event ∧
      ¬ coordinate.NeverBack store (before ++ [move] ++ [.submit delivery]) := by
  obtain ⟨first, losing, isPrefix, row, loses⟩ := lost
  have inMoves (other : Move) (member : other ∈ before ++ [move]) : other ∈ moves :=
    within.subset member
  have firstShares (other : Move) (member : other ∈ first) : other.shares coordinate :=
    shares other (inMoves other (isPrefix.subset (mem_append_left [losing] member)))
  have tidy := tidy_after unheld firstShares
  have live := loses.2.1
  have held := selects_holds live
  have formed := tidy.formed row loses.1 held
  have losingShares : losing.shares coordinate :=
    shares losing (inMoves losing (isPrefix.subset
      (mem_append_right _ (mem_singleton_self losing))))
  have free := unkeyed_of_loses tidy losingShares loses
  have dead : ∀ other ∈ (coordinate.after store (before ++ [move])).rows,
      coordinate.selects other = false := by
    rw [after_concat]
    exact unselected_of_hit
      (tidy_after unheld fun other member =>
        shares other (inMoves other (mem_append_left [move] member))) hit
  refine ⟨⟨row.event, row.channelId, true⟩, shares_of_holds held, ?_⟩
  intro neverBack
  obtain ⟨second, split⟩ := isPrefix
  have liveFirst : coordinate.Live (coordinate.after store first) row.event :=
    ⟨row, loses.1, live, rfl⟩
  rw [← after_concat] at free
  have gone : ¬ coordinate.Live (coordinate.after store (first ++ [losing])) row.event := by
    rintro ⟨other, member, alive, same⟩
    have nextTidy := tidy.step losingShares
    rw [← after_concat] at nextTidy
    have alike := nextTidy.formed other member (selects_holds alive)
    have unkeyed := free other member
    rw [← not_eq_true, sameKey_iff] at unkeyed
    apply unkeyed
    rw [formed.community, alike.community, formed.stamp, alike.stamp, same]
    exact ⟨rfl, rfl⟩
  have unkeyed : ∀ other ∈ (coordinate.after store (before ++ [move])).rows,
      row.sameKey other = false := by
    rw [← split] at within ⊢
    apply unkeyed_after shares identified
      (submitted_of_held unheld firstShares row loses.1 held |>.imp fun delivery submitted =>
        ⟨inMoves _ (split ▸ mem_append_left second
          (mem_append_left [losing] submitted.1)), submitted.2⟩) free within
    intro some isPrefix _
    apply neverBack first [losing] some _ row.event liveFirst gone
    rw [← split]
    exact ((prefix_append_right_inj _).mpr isPrefix).trans (prefix_append _ _)
  have reached : first ++ ([losing] ++ second) = before ++ [move] := by
    rw [← append_assoc]
    exact split
  apply neverBack first ([losing] ++ second) [.submit ⟨row.event, row.channelId, true⟩]
    (append_assoc first _ _ ▸ split ▸ prefix_refl _) row.event liveFirst
  · rw [reached]
    rintro ⟨other, member, alive, -⟩
    rw [dead other member] at alive
    cases alive
  · rw [reached, after_concat, Coordinate.step]
    have writes : coordinate.Writes (coordinate.after store (before ++ [move]))
        ⟨row.event, row.channelId, true⟩ := by
      refine ⟨?_, ?_, ?_, ?_⟩
      · rw [Delivery.carried, Bool.true_and]
        exact formed.dated
      · rw [existing_eq_none_iff.mpr dead]
        exact not_covers_none
      · rw [Store.accepted, readStateKey_rowOf, ← formed.key, loses.2.2.1]
        exact not_covers_none
      · intro other member
        have free := unkeyed other member
        rw [← not_eq_true, sameKey_iff] at free ⊢
        rw [rowOf_communityId, stamp_rowOf, ← formed.stamp, ← formed.community]
        exact free
    rw [deliver_of_writes (shares_of_holds held) writes]
    refine ⟨_, stored_rows ▸ mem_cons_self, selects_rowOf (shares_of_holds held), rowOf_event⟩

theorem guarded_submit {delivery : Delivery} (guarded : coordinate.Guarded store moves)
    (within : before <+: moves) : coordinate.Guarded store (before ++ [.submit delivery]) := by
  intro first move isPrefix hit
  rcases prefix_concat_iff.mp isPrefix with whole | earlier
  · obtain ⟨-, same⟩ := append_inj' whole rfl
    cases same
    obtain ⟨row, -, -, deleted⟩ := hit
    cases deleted
  · exact guarded first move (earlier.trans within) hit

/-- And of the others some resubmission brings it back. -/
theorem superseded_stays_away_iff (unheld : ∀ row ∈ store.rows, coordinate.holds row = false)
    (shares : ∀ move ∈ moves, move.shares coordinate) (identified : Identified moves) :
    (coordinate.Guarded store moves → coordinate.NeverBack store moves) ∧
      ((∀ before, before <+: moves → ∀ delivery, coordinate.shares delivery.event →
        coordinate.NeverBack store (before ++ [.submit delivery])) ↔
          coordinate.Guarded store moves) := by
  refine ⟨neverBack_of_guarded unheld shares, ?_, ?_⟩
  · intro stays before move within hit lost
    obtain ⟨delivery, shared, back⟩ := resurrects unheld shares identified within hit lost
    exact back (stays (before ++ [move]) within delivery shared)
  · intro guarded before within delivery shared
    apply neverBack_of_guarded unheld _ (guarded_submit guarded within)
    intro move member
    rcases mem_append.mp member with earlier | last
    · exact shares move (within.subset earlier)
    · rw [mem_singleton.mp last]
      exact shared

end runs

section heartbeats

variable {id : UInt8} {createdAt : ℕ}

theorem heartbeat_shares : meshCoordinate.shares (heartbeat id createdAt) := ⟨rfl, rfl⟩

theorem heartbeat_keyOf : meshCoordinate.keyOf (heartbeat id createdAt) = none := by
  have ordinary : isNipRs (heartbeat id createdAt) meshSlot = false := by
    apply eq_false_of_ne_true
    intro nipRs
    have kind : kindBookmarkSet = kindReadState := kind_of_nipRs nipRs
    cases kind
  simp [Coordinate.keyOf, Row.readStateKey, Coordinate.rowOf, meshCoordinate, ordinary]

theorem heartbeat_dated (early : createdAt ≤ 20) :
    createdAtOf (heartbeat id createdAt) = some (createdAt : ℤ) := by
  apply dateFromTimestamp_asI64
  have small : (createdAt : ℤ) ≤ 20 := by omega
  exact small.trans (by decide)

theorem heartbeat_writes (early : createdAt ≤ 20)
    (newer : ∀ row ∈ store.rows, ¬ (⟨createdAt, (heartbeat id createdAt).id⟩ : Stamp) ≤ row.stamp) :
    meshCoordinate.Writes store ⟨heartbeat id createdAt, none, true⟩ := by
  have dated := @heartbeat_dated id createdAt early
  have stamp : stampOf (heartbeat id createdAt) = ⟨createdAt, (heartbeat id createdAt).id⟩ := by
    rw [stampOf, dated, getD_some]
  refine ⟨?_, ?_, ?_, ?_⟩
  · rw [Delivery.carried, dated]
    rfl
  · rw [stamp_rowOf, covers_existing_iff, stamp]
    rintro ⟨row, member, -, beyond⟩
    exact newer row member beyond
  · rw [Store.accepted, readStateKey_rowOf, heartbeat_keyOf]
    exact not_covers_none
  · intro other member
    apply eq_false_of_ne_true
    rw [sameKey_iff, stamp_rowOf, stamp]
    intro same
    exact newer other member (same.2 ▸ le_rfl)

def heartbeatRow (id : UInt8) (createdAt : ℕ) : Row :=
  ⟨meshCommunity, heartbeat id createdAt, createdAt, none, some meshSlot, false⟩

theorem heartbeat_step (early : createdAt ≤ 20)
    (newer : ∀ row ∈ store.rows, ¬ (⟨createdAt, (heartbeat id createdAt).id⟩ : Stamp) ≤ row.stamp)
    (selected : ∀ row ∈ store.rows, meshCoordinate.selects row) :
    (meshCoordinate.step store (.submit ⟨heartbeat id createdAt, none, true⟩)).rows =
      [heartbeatRow id createdAt] := by
  rw [Coordinate.step, deliver_of_writes heartbeat_shares (heartbeat_writes early newer),
    stored_rows, heartbeat_dated early]
  have mesh : isBuzzMeshStatus (heartbeat id createdAt) meshSlot := rfl
  have emptied : (store.retire meshCoordinate.selects
      (meshCoordinate.erases (heartbeat id createdAt))).rows = [] := by
    apply filterMap_eq_nil_iff.mpr
    intro row member
    rw [selected row member, if_pos rfl, meshCoordinate, Coordinate.erases, mesh, Bool.or_true,
      Bool.true_or, if_pos rfl]
  exact congrArg (List.cons (heartbeatRow id createdAt)) emptied

theorem heartbeatRow_selected : meshCoordinate.selects (heartbeatRow id createdAt) :=
  selects_rowOf heartbeat_shares

def heartbeatMoves : List Move :=
  [.submit ⟨heartbeat 5 10, none, true⟩, .submit ⟨heartbeat 3 20, none, true⟩, .deleteByCoordinate,
    .submit ⟨heartbeat 5 10, none, true⟩]

/-- A superseded heartbeat stays away no longer once the newer one is deleted. -/
theorem heartbeat_comes_back : ¬ meshCoordinate.NeverBack emptyStore heartbeatMoves := by
  have first : (meshCoordinate.after emptyStore (heartbeatMoves.take 1)).rows =
      [heartbeatRow 5 10] := heartbeat_step (by decide) nofun nofun
  have second : (meshCoordinate.after emptyStore (heartbeatMoves.take 2)).rows =
      [heartbeatRow 3 20] := by
    have newer : ¬ (⟨20, (heartbeat 3 20).id⟩ : Stamp) ≤ (heartbeatRow 5 10).stamp := by decide
    have only (row : Row)
        (member : row ∈ (meshCoordinate.after emptyStore (heartbeatMoves.take 1)).rows) :
        row = heartbeatRow 5 10 := by
      rw [first] at member
      exact mem_singleton.mp member
    exact heartbeat_step (by decide) (fun row member => only row member ▸ newer)
      (fun row member => only row member ▸ heartbeatRow_selected)
  have third : (meshCoordinate.after emptyStore (heartbeatMoves.take 3)).rows = [] := by
    have deletion : (meshCoordinate.after emptyStore (heartbeatMoves.take 3)).rows =
        ((meshCoordinate.after emptyStore (heartbeatMoves.take 2)).softDelete
          meshCoordinate.selects).rows := rfl
    rw [deletion, Store.softDelete, second]
    rfl
  have fourth : (meshCoordinate.after emptyStore heartbeatMoves).rows = [heartbeatRow 5 10] := by
    have empty (row : Row)
        (member : row ∈ (meshCoordinate.after emptyStore (heartbeatMoves.take 3)).rows) : False := by
      rw [third] at member
      cases member
    exact heartbeat_step (by decide) (fun row member => (empty row member).elim)
      (fun row member => (empty row member).elim)
  intro neverBack
  apply neverBack (heartbeatMoves.take 1) [heartbeatMoves[1], heartbeatMoves[2]]
    [heartbeatMoves[3]] (prefix_refl _) (heartbeat 5 10)
  · refine ⟨heartbeatRow 5 10, ?_, heartbeatRow_selected, rfl⟩
    rw [first]
    exact mem_singleton_self _
  · rintro ⟨row, member, -⟩
    have none_left : row ∈ (meshCoordinate.after emptyStore (heartbeatMoves.take 3)).rows := member
    rw [third] at none_left
    cases none_left
  · refine ⟨heartbeatRow 5 10, ?_, heartbeatRow_selected, rfl⟩
    exact fourth ▸ mem_singleton_self _

theorem heartbeat_stays_superseded : meshCoordinate.NeverBack emptyStore
    (heartbeatMoves.take 2 ++ [.submit ⟨heartbeat 5 10, none, true⟩]) := by
  have each (move : Move) (member : move ∈ heartbeatMoves.take 2) :
      move = .submit ⟨heartbeat 5 10, none, true⟩ ∨
        move = .submit ⟨heartbeat 3 20, none, true⟩ := by
    simpa [heartbeatMoves] using member
  have stays := @superseded_stays_away_iff meshCoordinate emptyStore (heartbeatMoves.take 2) nofun
    (by
      intro move member
      rcases each move member with rfl | rfl <;> exact heartbeat_shares)
    (by
      intro first second firstIn secondIn same
      rcases each _ firstIn with one | one <;> rcases each _ secondIn with two | two <;>
        cases one <;> cases two <;> first | rfl | exact absurd same (by decide))
  apply stays.2.mpr _ _ (prefix_refl _) _ heartbeat_shares
  intro before move within hit
  obtain ⟨row, -, -, deleted⟩ := hit
  have member := within.subset (mem_append_right before (mem_singleton_self move))
  rcases each move member with rfl | rfl <;> cases deleted

end heartbeats

theorem live_retire {selected erased : Row → Bool} :
    coordinate.live (store.retire selected erased) =
      (coordinate.live store).filter fun row => !selected row := by
  simp only [Coordinate.live, Store.retire, filter_filterMap, List.filter_filter]
  rw [← filterMap_eq_filter]
  congr 1
  funext row
  cases gone : selected row <;> cases erased row <;>
    simp [Coordinate.selects, Option.filter, Option.guard, gone]

/-- However calls and deletions alternate, at most one row of a coordinate is live. -/
theorem one_live_row (alone : (coordinate.live store).length ≤ 1)
    (shares : ∀ move ∈ moves, move.shares coordinate) :
    (coordinate.live (coordinate.after store moves)).length ≤ 1 := by
  apply foldlRecOn moves coordinate.step (motive := fun store => (coordinate.live store).length ≤ 1)
  · exact alone
  · intro store alone move member
    have share := shares move member
    cases move with
    | submit delivery =>
      by_cases writes : coordinate.Writes store delivery
      · rw [Coordinate.step, deliver_of_writes share writes]
        exact (congrArg length (live_stored (selects_rowOf share))).le
      · rwa [Coordinate.step, deliver_of_not_writes share writes]
    | deleteByCoordinate | deleteEvent =>
      rw [step_of_deletion (fun _ same => by cases same), softDelete_eq, live_retire]
      exact (length_filter_le ..).trans alone

theorem one_live_row_heartbeats :
    (meshCoordinate.live (meshCoordinate.after emptyStore heartbeatMoves)).length ≤ 1 :=
  @one_live_row meshCoordinate emptyStore heartbeatMoves (Nat.zero_le 1)
    (by simp [heartbeatMoves, Move.shares, heartbeat_shares])

end Buzz.Replace
