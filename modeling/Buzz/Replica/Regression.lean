import Buzz.Library.Times
import Buzz.Replica.Fence

/-! What `record` has accepted over the life of a fence. -/

namespace Buzz.Replica

open Nostr Library.PastTime List

structure WriterSample where
  sampledAt : ℤ
  oldestXactStart : Option ℤ
  token : ℤ
  epoch : Uuid
  committedAt : ℤ
  deriving DecidableEq

inductive ProbeError
  | maskedActivity (masked : ℤ)
  | heartbeatRowMissing
  | sql
  deriving DecidableEq

structure Rotation where
  token : ℤ
  epoch : Uuid
  committedAt : ℤ
  deriving DecidableEq

/-- `fresh`: no entry of its epoch is in the ring. -/
structure RecordCall where
  token : ℤ
  epoch : Uuid
  fresh : Bool
  outcome : RecordOutcome
  deriving DecidableEq

/-- A fence and the calls of `record` on it, newest first. -/
structure FenceLife where
  fence : FenceInner
  calls : List RecordCall
  deriving DecidableEq

inductive FenceOp
  | record (entry : TokenEntry) (epoch : Uuid)
  | close
  | probeOnce (sample : Except ProbeError WriterSample) (rotation : Except ProbeError Rotation)

namespace FenceLife

def new : FenceLife := ⟨.new, []⟩

def finds (self : FenceLife) (epoch : Uuid) : Bool :=
  self.fence.epoch = some epoch && !self.fence.ring.isEmpty

def record (self : FenceLife) (entry : TokenEntry) (epoch : Uuid) : FenceLife where
  fence := (self.fence.record entry epoch).2
  calls := ⟨entry.token, epoch, !self.finds epoch, (self.fence.record entry epoch).1⟩ :: self.calls

/-- With the writer's answers to its sample and rotation. -/
def probeOnce (self : FenceLife) (sample : Except ProbeError WriterSample)
    (rotation : Except ProbeError Rotation) : Except ProbeError TokenEntry × FenceLife :=
  match sample with
  | .error error => (.error error, self)
  | .ok sample =>
    let wall := fenceWall sample.sampledAt sample.oldestXactStart
    let entry : TokenEntry := ⟨sample.token, sample.committedAt, wall⟩
    let recorded := self.record entry sample.epoch
    match (self.fence.record entry sample.epoch).1 with
    | .recorded => (.ok entry, recorded)
    | .tokenRegression =>
      match rotation with
      | .error error => (.error error, recorded)
      | .ok rotation =>
        let rotated : TokenEntry := ⟨rotation.token, rotation.committedAt, wall⟩
        (.ok rotated, recorded.record rotated rotation.epoch)

def apply (self : FenceLife) : FenceOp → FenceLife
  | .record entry epoch => self.record entry epoch
  | .close => { self with fence := self.fence.close }
  | .probeOnce sample rotation => (self.probeOnce sample rotation).2

def run (ops : List FenceOp) : FenceLife := ops.foldl apply .new

end FenceLife

def Exceeds (call : RecordCall) (earlier : List RecordCall) : Prop :=
  ∀ before ∈ earlier, before.outcome = .recorded → before.epoch = call.epoch →
    before.token < call.token

/-- The call is not the next one after a regression in its epoch. -/
def Answers (call : RecordCall) (earlier : List RecordCall) : Prop :=
  ∀ before, earlier.head? = some before → before.outcome = .tokenRegression →
    before.epoch ≠ call.epoch

/-- After a regression the next token is recorded in another epoch. -/
def NeverRegresses (calls : List RecordCall) : Prop :=
  Explained (fun call earlier =>
    call.outcome = .recorded → Exceeds call earlier ∧ Answers call earlier) calls

def FreshExceeds (calls : List RecordCall) : Prop :=
  Explained (fun call earlier =>
    call.fresh → Exceeds call earlier ∧ Answers call earlier) calls

def FenceLife.Remembers (self : FenceLife) : Prop :=
  ∀ epoch last, self.fence.epoch = some epoch → self.fence.ring.getLast? = some last →
    (∀ before ∈ self.calls, before.outcome = .recorded → before.epoch = epoch →
      before.token ≤ last.token) ∧
    ∀ before, self.calls.head? = some before → before.outcome = .recorded

namespace FenceInner

theorem record_cases (self : FenceInner) (entry : TokenEntry) (epoch : Uuid) :
    ((self.epoch ≠ some epoch ∨ self.ring = []) ∧
      self.record entry epoch = (.recorded, ⟨some epoch, [entry]⟩)) ∨
    (self.epoch = some epoch ∧ ∃ last, self.ring.getLast? = some last ∧
      (entry.token ≤ last.token ∧ self.record entry epoch = (.tokenRegression, self.close) ∨
        last.token < entry.token ∧
          self.record entry epoch = (.recorded, ⟨some epoch, push self.ring entry⟩))) := by
  by_cases same : self.epoch = some epoch
  · cases held : self.ring.getLast? with
    | none =>
      have empty : self.ring = [] := getLast?_eq_none_iff.mp held
      refine .inl ⟨.inr empty, ?_⟩
      simp [record, same, empty, push, ringCapacity]
    | some last =>
      refine .inr ⟨same, last, rfl, ?_⟩
      by_cases behind : entry.token ≤ last.token
      · exact .inl ⟨behind, by simp [record, same, held, behind]⟩
      · exact .inr ⟨by omega, by simp [record, same, held, behind]⟩
  · refine .inl ⟨.inl same, ?_⟩
    simp [record, same, push, ringCapacity]

theorem getLast_push (ring : List TokenEntry) (entry : TokenEntry) :
    (push ring entry).getLast? = some entry := by
  simp [push]

end FenceInner

namespace FenceLife

variable {self : FenceLife} {epoch : Uuid}

theorem fresh_recorded (entry : TokenEntry)
    (fresh : self.finds epoch = false) : (self.fence.record entry epoch).1 = .recorded := by
  rcases self.fence.record_cases entry epoch with ⟨-, same⟩ | ⟨same, last, held, -⟩
  · rw [same]
  · have nonempty : self.fence.ring ≠ [] := by
      intro empty
      simp [empty] at held
    simp [finds, same, nonempty] at fresh

variable {entry : TokenEntry}

theorem found_above (remembers : self.Remembers) (found : self.finds epoch)
    (recorded : (self.fence.record entry epoch).1 = .recorded) :
    Exceeds ⟨entry.token, epoch, false, .recorded⟩ self.calls ∧
      Answers ⟨entry.token, epoch, false, .recorded⟩ self.calls := by
  simp only [finds, Bool.and_eq_true, decide_eq_true_eq, Bool.not_eq_true',
    isEmpty_eq_false_iff] at found
  rcases self.fence.record_cases entry epoch with ⟨other | empty, -⟩ | ⟨same, last, held, outcome⟩
  · exact absurd found.1 other
  · exact absurd empty found.2
  · rcases outcome with ⟨-, regression⟩ | ⟨above, -⟩
    · rw [regression] at recorded
      cases recorded
    · rcases remembers epoch last same held with ⟨bounded, settled⟩
      constructor
      · intro before member accepted inEpoch
        exact Int.lt_of_le_of_lt (bounded before member accepted inEpoch) above
      · intro before newest regressed
        rw [settled before newest] at regressed
        cases regressed

theorem record_remembers (remembers : self.Remembers) (above : self.finds epoch = false →
      Exceeds ⟨entry.token, epoch, true, .recorded⟩ self.calls) :
    (self.record entry epoch).Remembers := by
  intro held last sameEpoch sameLast
  rcases self.fence.record_cases entry epoch with ⟨lost, outcome⟩ | ⟨same, back, isBack, outcome⟩
  · have notFound : self.finds epoch = false := by
      rcases lost with other | empty
      · simp [finds, other]
      · simp [finds, empty]
    simp only [record, outcome, getLast?_singleton, Option.some.injEq] at sameEpoch sameLast
    subst sameEpoch sameLast
    constructor
    · intro before member accepted inEpoch
      simp only [record] at member
      rcases mem_cons.mp member with rfl | old
      · exact Int.le_refl entry.token
      · exact Int.le_of_lt (above notFound before old accepted inEpoch)
    · intro before newest
      simp only [record, outcome, head?_cons, Option.some.injEq] at newest
      rw [← newest]
  · rcases outcome with ⟨-, outcome⟩ | ⟨higher, outcome⟩
    · simp [record, outcome, FenceInner.close] at sameLast
    · simp only [record, outcome, FenceInner.getLast_push, Option.some.injEq] at sameEpoch sameLast
      subst sameEpoch sameLast
      constructor
      · intro before member accepted inEpoch
        simp only [record] at member
        rcases mem_cons.mp member with rfl | old
        · exact Int.le_refl entry.token
        · have bounded := (remembers epoch back same isBack).1 before old accepted inEpoch
          omega
      · intro before newest
        simp only [record, outcome, head?_cons, Option.some.injEq] at newest
        rw [← newest]

/-- What each operation keeps, whether or not its calls meet the condition. -/
def Sound (self : FenceLife) : Prop :=
  (NeverRegresses self.calls → FreshExceeds self.calls) ∧
    (FreshExceeds self.calls → self.Remembers ∧ NeverRegresses self.calls)

section

variable (sound : self.Sound)

include sound

theorem record_sound (entry : TokenEntry) (epoch : Uuid) :
    (self.record entry epoch).Sound := by
  rcases sound with ⟨necessary, enough⟩
  constructor
  · rintro ⟨justified, older⟩
    refine ⟨?_, necessary older⟩
    intro fresh
    apply justified
    exact fresh_recorded entry (by simpa using fresh)
  · rintro ⟨justified, older⟩
    rcases enough older with ⟨remembers, never⟩
    refine ⟨record_remembers remembers ?_, ?_, never⟩
    · intro lost before member
      exact (justified (by simpa using lost)).1 before member
    · intro recorded
      cases found : self.finds epoch with
      | false =>
        rcases justified (by simpa using found) with ⟨above, answers⟩
        exact ⟨above, answers⟩
      | true =>
        rcases found_above remembers found recorded with ⟨above, answers⟩
        exact ⟨above, answers⟩

theorem close_sound :
    FenceLife.Sound { self with fence := self.fence.close } := by
  refine ⟨sound.1, ?_⟩
  intro above
  refine ⟨?_, (sound.2 above).2⟩
  intro epoch last sameEpoch sameLast
  simp [FenceInner.close] at sameLast

theorem probe_once_sound
    (sample : Except ProbeError WriterSample) (rotation : Except ProbeError Rotation) :
    (self.probeOnce sample rotation).2.Sound := by
  cases sample with
  | error error => exact sound
  | ok sample =>
    simp only [probeOnce]
    split
    · exact record_sound sound _ _
    · cases rotation with
      | error error => exact record_sound sound _ _
      | ok rotation => exact record_sound (record_sound sound _ _) _ _

theorem apply_sound (op : FenceOp) :
    (self.apply op).Sound := by
  cases op with
  | record entry epoch => exact record_sound sound entry epoch
  | close => exact close_sound sound
  | probeOnce sample rotation => exact probe_once_sound sound sample rotation

end

theorem new_sound : FenceLife.new.Sound := by
  refine ⟨fun _ => trivial, fun _ => ⟨?_, trivial⟩⟩
  intro epoch last sameEpoch
  cases sameEpoch

theorem run_sound (ops : List FenceOp) : (run ops).Sound := by
  have whole (self : FenceLife) (sound : self.Sound) : (ops.foldl apply self).Sound := by
    induction ops generalizing self with
    | nil => exact sound
    | cons op ops ih => exact ih (self.apply op) (apply_sound sound op)
  exact whole .new new_sound

end FenceLife

/-- Exactly when no call that misses its epoch brings such a token. -/
theorem record_never_regresses_iff (ops : List FenceOp) :
    NeverRegresses (FenceLife.run ops).calls ↔ FreshExceeds (FenceLife.run ops).calls :=
  ⟨(FenceLife.run_sound ops).1, fun above => ((FenceLife.run_sound ops).2 above).2⟩

/-- The rotation fails, and the next probe has nothing to compare with. -/
def failedRotation : List FenceOp :=
  let epoch : Uuid := .fill 7
  [.probeOnce (.ok ⟨2000000000, none, 5, epoch, 10⟩) (.error .sql),
    .probeOnce (.ok ⟨2000500000, none, 3, epoch, 11⟩) (.error .sql),
    .close,
    .probeOnce (.ok ⟨2001000000, none, 4, epoch, 12⟩) (.error .sql)]

theorem failed_rotation_regresses : ¬ NeverRegresses (FenceLife.run failedRotation).calls := by
  rintro ⟨justified, -⟩
  have above := (justified rfl).1
  have lower := above ⟨5, ⟨replicate 16 7, rfl⟩, true, .recorded⟩ (by decide) rfl rfl
  exact absurd lower (by decide)

end Buzz.Replica
