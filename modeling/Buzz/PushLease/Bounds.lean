import Buzz.PushLease.Runs

/-! What the calls keep to together: the order of leases, their number, their endpoints and their
events. -/

namespace Buzz.PushLease

open Nostr Buzz.Push Library.Locks List

def Address.activeOf (self : Address) (lease : LeaseRow) : Bool :=
  lease.communityId = self.community && lease.author = self.author &&
    lease.active.isSome

section quota

variable {world : World} {label : Label} {labels : List Label} {index : ℕ} {call moved : Call}
  {clock : ℤ} {address : Address} {limit : ℕ}

theorem countP_others : (world.leases.filter fun lease => !call.address.isOf lease).countP
    call.address.activeOf ≤ world.leases.countP call.othersActive := by
  rw [countP_filter]
  apply countP_mono_left
  intro lease _ both
  simp only [Address.activeOf, Bool.and_eq_true, decide_eq_true_eq, Bool.not_eq_true'] at both
  obtain ⟨⟨⟨community, author⟩, active⟩, elsewhere⟩ := both
  have apart : lease.installationId ≠ call.address.installationId := by
    intro here
    rw [isOf_iff.mpr ⟨community, author, here⟩] at elsewhere
    cases elsewhere
  simp [Call.othersActive, community, author, active, apart]

theorem countP_commit (sound : Sound world) (found : world.calls[index]? = some call)
    (phase : call.phase = .backfilled) {maxActiveLeases : ℤ}
    (accepts : call.function = .acceptLeaseEvent maxActiveLeases)
    (active : call.active.isSome) :
    ((world.commit index call).leases.countP call.address.activeOf : ℤ) ≤ maxActiveLeases := by
  have held : Held world call := sound.held call (mem_of_getElem? found)
  have below := held.counted maxActiveLeases accepts active (by simp [Call.within, phase, Phase.rank])
  have fewer := @countP_others world call
  have total : (world.commit index call).leases.countP call.address.activeOf ≤
      (world.leases.filter fun lease => !call.address.isOf lease).countP call.address.activeOf + 1 := by
    change (call.row :: world.leases.filter fun lease => !call.address.isOf lease).countP
      call.address.activeOf ≤ _
    rw [countP_cons]
    split <;> omega
  omega

theorem countP_commit_le (apart : address.activeOf call.row = false) :
    (world.commit index call).leases.countP address.activeOf ≤
      world.leases.countP address.activeOf := by
  change (call.row :: world.leases.filter fun lease => !call.address.isOf lease).countP
    address.activeOf ≤ world.leases.countP address.activeOf
  rw [countP_cons_of_neg (by rw [apart]; exact Bool.false_ne_true)]
  exact filter_sublist.countP_le

theorem input_of_call (found : ((World.initial clock).after labels).calls[index]? = some call) :
    ∃ input, Label.call input ∈ labels ∧ input.function = call.function ∧
      input.active = call.active := by
  induction labels using reverseRecOn generalizing call with
  | nil => cases found
  | append_singleton labels label ih =>
    rw [after_concat] at found
    cases calls_of_step found with
    | inl moves =>
      obtain ⟨before, isBefore, how⟩ := moves
      obtain ⟨input, member, function, active⟩ := ih isBefore
      have same := how.input
      exact ⟨input, mem_append_left _ member, function.trans same.1.symm,
        active.trans same.2.2.2.symm⟩
    | inr fresh =>
      obtain ⟨input, rfl, rfl⟩ := fresh
      exact ⟨input, mem_append_right _ mem_cons_self, rfl, rfl⟩

theorem countP_le_limit
    (limited : ∀ input, Label.call input ∈ labels → input.active.isSome →
      input.function = .acceptLeaseEvent limit) (address : Address) :
    ((World.initial clock).after labels).leases.countP address.activeOf ≤ limit := by
  induction labels using reverseRecOn with
  | nil => exact Nat.zero_le limit
  | append_singleton labels label ih =>
    have sound := (@sound_initial clock).after labels
    have before := ih fun input member => limited input (mem_append_left _ member)
    rw [after_concat]
    cases @tables_of_step ((World.initial clock).after labels) label with
    | inl same => rwa [same.1]
    | inr changed =>
      cases changed with
      | inl committed =>
        obtain ⟨index, call, rfl, found, phase, isCommit⟩ := committed
        rw [isCommit]
        by_cases own : address.activeOf call.row
        · simp only [Address.activeOf, Bool.and_eq_true, decide_eq_true_eq] at own
          obtain ⟨⟨community, author⟩, active⟩ := own
          obtain ⟨input, member, function, isActive⟩ := input_of_call found
          have accepts := limited input (mem_append_left _ member) (isActive ▸ active)
          have bound := countP_commit sound found phase (function.symm.trans accepts) active
          have same : address.activeOf = call.address.activeOf := by
            funext lease
            simp only [Address.activeOf, ← community, ← author]
            rfl
          rw [same]
          omega
        · exact Nat.le_trans (countP_commit_le (eq_false_of_ne_true own)) before
      | inr disables =>
        obtain ⟨other, generation, rfl, same⟩ := disables
        rw [same]
        have kept : address.activeOf ∘ disabled other generation = address.activeOf := by
          funext lease
          have parts := @disabled_kept other generation lease
          have isAddress := parts.1
          simp only [addressOf, Address.mk.injEq] at isAddress
          simp only [Function.comp_apply, Address.activeOf, isAddress, parts.2.1]
        rw [countP_map, kept]
        exact before

end quota

structure Accepting (clock : ℤ) (labels : List Label) : Prop where
  advances : ∀ before index more call, labels = before ++ .commit index :: more →
    ((World.initial clock).after before).calls[index]? = some call → call.phase = .backfilled →
      (((World.initial clock).after before).step (.commit index)).leases.find? call.address.isOf =
          some call.row ∧
        ∀ current, ((World.initial clock).after before).leases.find? call.address.isOf =
            some current →
          call.version.advances current ∨
            call.accepts ∧ Replaced clock before call.address fun world =>
              ∃ own, world.calls[index]? = some own ∧ own.within 5 ∧ own.found = none
  untouched : ∀ before label more, labels = before ++ label :: more →
    (((World.initial clock).after before).step label).leases ≠
        ((World.initial clock).after before).leases ∨
      (((World.initial clock).after before).step label).sources ≠
        ((World.initial clock).after before).sources →
      (∃ address generation, label = .disable address generation) ∨
        ∃ index call, label = .commit index ∧
          ((World.initial clock).after labels).calls[index]? = some call ∧
            call.phase = .done (some .accepted)
  quota : ∀ before index more call maxActiveLeases, labels = before ++ .commit index :: more →
    ((World.initial clock).after before).calls[index]? = some call → call.phase = .backfilled →
      call.function = .acceptLeaseEvent maxActiveLeases → call.active.isSome →
        ((((World.initial clock).after before).step (.commit index)).leases.countP
          call.address.activeOf : ℤ) ≤ maxActiveLeases
  limit : ∀ limit : ℕ, (∀ input, Label.call input ∈ labels → input.active.isSome →
    input.function = .acceptLeaseEvent limit) → ∀ address : Address,
      ((World.initial clock).after labels).leases.countP address.activeOf ≤ limit
  endpoints : ∀ lease ∈ ((World.initial clock).after labels).leases,
    ∀ other ∈ ((World.initial clock).after labels).leases,
      lease.communityId = other.communityId → lease.author = other.author →
        lease.active.isSome →
          lease.active.map (fun active => (active.appProfile, active.endpointHash)) =
            other.active.map (fun active => (active.appProfile, active.endpointHash)) →
              lease = other
  sources : ∀ source ∈ ((World.initial clock).after labels).sources, source.live →
    (∃ lease, ((World.initial clock).after labels).leases.find? source.address.isOf = some lease ∧
        lease.sourceEventId = source.id) ∨
      Replaced clock labels source.address fun world => source ∈ world.sources
  stored : ∀ address lease,
    ((World.initial clock).after labels).leases.find? (Address.isOf address) = some lease →
      (∃ source ∈ ((World.initial clock).after labels).sources, source.live ∧
          source.address = address ∧ source.id = lease.sourceEventId) ∨
        Replaced clock labels address fun _ => True
  single : ∀ source ∈ ((World.initial clock).after labels).sources,
    ∀ other ∈ ((World.initial clock).after labels).sources, source.live →
      other.live → source.address = other.address → source = other

theorem step_commit {world : World} {index : ℕ} {call : Call}
    (found : world.calls[index]? = some call) (phase : call.phase = .backfilled) :
    world.step (.commit index) = world.commit index call := by
  rw [World.step, found]
  exact if_pos phase

/-- Leases advance, stay within their limits and have their events, in every run of calls. -/
theorem leases_accepted (clock : ℤ) (labels : List Label) : Accepting clock labels := by
  have sound (labels : List Label) := (@sound_initial clock).after labels
  constructor
  · intro before index more call _ found phase
    have held : Held ((World.initial clock).after before) call :=
      (sound before).held call (mem_of_getElem? found)
    have within (first : ℕ) (early : first ≤ 11) : call.within first := by
      simp [Call.within, phase, Phase.rank, early]
    rw [step_commit found phase]
    refine ⟨find?_row, ?_⟩
    intro current present
    cases isFound : call.found with
    | some other =>
      obtain ⟨same, advances⟩ := held.found (within 5 (by omega)) other isFound
      rw [present, Option.some.injEq] at same
      rw [same]
      exact .inl advances
    | none =>
      by_cases accepts : call.accepts
      · obtain ⟨first, other, rest, split, replaces, checked⟩ :=
          overtaken found accepts (within 5 (by omega)) isFound (by simp [present])
        exact .inr ⟨accepts, first, other, rest, split, replaces, checked⟩
      · have absent := held.absent (eq_false_of_ne_true accepts) (within 10 (by omega)) isFound
        rw [present] at absent
        cases absent
  · intro before label more split changes
    subst split
    cases @tables_of_step ((World.initial clock).after before) label with
    | inl same =>
      cases changes with
      | inl leases => exact (leases same.1).elim
      | inr sources => exact (sources same.2).elim
    | inr changed =>
      cases changed with
      | inl committed =>
        obtain ⟨index, call, rfl, found, phase, isCommit⟩ := committed
        right
        refine ⟨index, call.finish (some .accepted), rfl, ?_, rfl⟩
        rw [after_append]
        apply @done_of_after _ more index (call.finish (some .accepted)) (some .accepted) _ rfl
        rw [isCommit]
        have bound := (List.getElem?_eq_some_iff.mp found).1
        exact getElem?_set_self bound
      | inr disables =>
        obtain ⟨address, generation, isDisable, -⟩ := disables
        exact .inl ⟨address, generation, isDisable⟩
  · intro before index more call maxActiveLeases _ found phase accepts active
    rw [step_commit found phase]
    exact countP_commit (sound before) found phase accepts active
  · exact fun limit limited => countP_le_limit limited
  · intro lease isLease other isOther community author active same
    have installation := (sound labels).endpoints lease isLease other isOther community author active
      same
    apply inj_on_of_nodup_map (sound labels).keyed isLease isOther
    rw [addressOf, addressOf, community, author, installation]
  · exact fun source member live => source_of_live member live
  · exact fun address lease isLease => live_of_lease isLease
  · exact fun source member other isOther live otherLive same =>
      one_live member isOther live otherLive same

def phone : Address := ⟨⟨.fill 0⟩, .fill 1, "phone"⟩

def tablet : Address := { phone with installationId := "tablet" }

def signed (id : UInt8) (createdAt generation : ℤ) : LeaseVersion :=
  ⟨.fill id, createdAt, generation, 3600⟩

def endpoint (hash : UInt8) : ActiveLease :=
  ⟨"app", .fill hash, "grant", .default⟩

/-- A whole call with nothing beside it. -/
def wholeCall (index statements : ℕ) (input : Input) : List Label :=
  .call input :: replicate statements (.advance index) ++ [.commit index]

def overtakenCall : List Label :=
  .call ⟨.acceptLeaseEvent 1, phone, signed 1 10 1, none⟩ :: replicate 5 (.advance 0) ++
    wholeCall 1 3 ⟨.replaceLease, phone, signed 2 20 5, none⟩ ++ replicate 5 (.advance 0)

def secondDevice : List Label :=
  wholeCall 0 11 ⟨.acceptLeaseEvent 1, phone, signed 1 10 1, some (endpoint 3)⟩ ++
    wholeCall 1 3 ⟨.replaceLease, tablet, signed 2 10 1, some (endpoint 4)⟩

def revokedDevice : List Label :=
  wholeCall 0 10 ⟨.acceptLeaseEvent 1, phone, signed 1 10 1, none⟩ ++
    wholeCall 1 3 ⟨.replaceLease, phone, signed 2 20 2, none⟩

/-- Replacements take no part in the order of accepted events, in the limit or in the events. -/
theorem replacements_differ :
    (¬ ∀ (clock : ℤ) (before : List Label) (index : ℕ) (call : Call),
      ((World.initial clock).after before).calls[index]? = some call →
        call.phase = .backfilled → ∀ current,
          ((World.initial clock).after before).leases.find? call.address.isOf = some current →
            call.version.advances current) ∧
      (¬ ∀ (clock : ℤ) (labels : List Label) (limit : ℕ), (∀ input, Label.call input ∈ labels →
        ∀ maximum, input.function = .acceptLeaseEvent maximum → maximum = limit) →
          ∀ address : Address,
            ((World.initial clock).after labels).leases.countP address.activeOf ≤ limit) ∧
      ¬ ∀ (clock : ℤ) (labels : List Label),
        ∀ source ∈ ((World.initial clock).after labels).sources,
          source.live → ∃ lease,
            ((World.initial clock).after labels).leases.find? source.address.isOf = some lease ∧
              lease.sourceEventId = source.id := by
  refine ⟨?_, ?_, ?_⟩
  · intro advances
    have older := advances 0 overtakenCall 0
      ⟨.acceptLeaseEvent 1, phone, signed 1 10 1, none, 0, .backfilled, none, [], []⟩ (by decide) rfl
      (Input.call ⟨.replaceLease, phone, signed 2 20 5, none⟩ 0).row (by decide)
    exact absurd older (by decide)
  · intro limited
    have one : ∀ input, Label.call input ∈ secondDevice →
        ∀ maximum, input.function = .acceptLeaseEvent maximum → maximum = (1 : ℕ) := by
      intro input member maximum isAccept
      simp [secondDevice, wholeCall] at member
      cases member with
      | inl first =>
        rw [first, LeaseFunction.acceptLeaseEvent.injEq] at isAccept
        exact isAccept.symm
      | inr second =>
        rw [second] at isAccept
        cases isAccept
    have two : ((World.initial 0).after secondDevice).leases.countP phone.activeOf = 2 := by decide
    have bound := limited 0 secondDevice 1 one phone
    omega
  · intro sourced
    obtain ⟨lease, found, same⟩ := sourced 0 revokedDevice
      ⟨phone, (signed 1 10 1).sourceEventId, true⟩ (by decide) rfl
    have current : ((World.initial 0).after revokedDevice).leases.find? phone.isOf =
        some (Input.call ⟨.replaceLease, phone, signed 2 20 2, none⟩ 0).row := by decide
    rw [current, Option.some.injEq] at found
    rw [← found] at same
    exact absurd same (by decide)

end Buzz.PushLease
