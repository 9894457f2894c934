import Buzz.PushLease.Acceptance

/-! Runs of calls: what each accepted call finds and leaves, in any interleaving. -/

namespace Buzz.PushLease

open Nostr Buzz.Push Library.Locks List

variable {world : World} {label : Label} {labels : List Label} {index : ℕ} {call moved : Call}
  {clock : ℤ} {address : Address}

theorem after_append {first rest : List Label} :
    world.after (first ++ rest) = (world.after first).after rest :=
  foldl_append

theorem after_concat : world.after (labels ++ [label]) = (world.after labels).step label := by
  rw [after_append]
  rfl

theorem sound_initial : Sound (World.initial clock) := by
  have none {α : Type} {member : α} (within : member ∈ ([] : List α)) : False :=
    not_mem_nil within
  constructor
  · exact fun _ _ _ _ _ found => by cases found
  · exact fun _ _ _ _ _ found => by cases found
  · exact fun _ _ _ _ _ found => by cases found
  · exact fun _ member => (none member).elim
  · exact fun _ member => (none member).elim
  · exact nodup_nil
  · exact fun _ member => (none member).elim

theorem Sound.after (sound : Sound world) (labels : List Label) : Sound (world.after labels) := by
  induction labels generalizing world with
  | nil => exact sound
  | cons label labels ih => exact ih (sound.step label)

theorem tables_of_step :
    ((world.step label).leases = world.leases ∧ (world.step label).sources = world.sources) ∨
      (∃ index call, label = .commit index ∧ world.calls[index]? = some call ∧
        call.phase = .backfilled ∧ world.step label = world.commit index call) ∨
      ∃ address generation, label = .disable address generation ∧
        world.step label =
          { world with leases := world.leases.map (disabled address generation) } := by
  cases label with
  | tick now | call input => exact .inl ⟨rfl, rfl⟩
  | advance index =>
    left
    dsimp only [World.step]
    repeat' (first | exact ⟨rfl, rfl⟩ | split)
  | commit index =>
    cases found : world.calls[index]? with
    | none =>
      left
      rw [World.step, found]
      exact ⟨rfl, rfl⟩
    | some call =>
      by_cases phase : call.phase = .backfilled
      · right
        left
        refine ⟨index, call, rfl, found, phase, ?_⟩
        rw [World.step, found]
        exact if_pos phase
      · left
        rw [World.step, found]
        dsimp only
        rw [if_neg phase]
        exact ⟨rfl, rfl⟩
  | fail index =>
    left
    dsimp only [World.step]
    repeat' (first | exact ⟨rfl, rfl⟩ | split)
  | disable address generation =>
    cases @step_disable world address generation with
    | inl waits =>
      left
      rw [waits.2]
      exact ⟨rfl, rfl⟩
    | inr changed => exact .inr (.inr ⟨address, generation, rfl, changed.2⟩)
  | begin => exact .inl ⟨rfl, rfl⟩
  | insert index row =>
    left
    dsimp only [World.step, World.insertRow]
    repeat' (first | exact ⟨rfl, rfl⟩ | split)
  | lockShared index | enqueue index | commitInsert index | rollback index =>
    left
    dsimp only [World.step]
    repeat' (first | exact ⟨rfl, rfl⟩ | split)
  | deleteEvent community id | matched community id => exact .inl ⟨rfl, rfl⟩

inductive Moved (world : World) (label : Label) (index : ℕ) (call : Call) : Call → Prop
  | stays : Moved world label index call call
  | advances (moved : Call) (isAdvance : label = .advance index) (running : call.phase.rank < 12)
      (advance : Advance world index call moved) : Moved world label index call moved
  | commits (isCommit : label = .commit index) (phase : call.phase = .backfilled) :
      Moved world label index call (call.finish (some .accepted))
  | fails (isFail : label = .fail index) (running : call.phase.rank < 12) :
      Moved world label index call (call.finish none)

theorem moved_of_set {other : ℕ} {slot : Call} (found : world.calls[index]? = some call)
    (isNow : (world.calls.set other slot)[index]? = some moved)
    (own : other = index → Moved world label index call slot) :
    Moved world label index call moved := by
  cases getElem?_set isNow with
  | inl changed =>
    rw [changed.2]
    exact own changed.1.symm
  | inr kept =>
    rw [found, Option.some.injEq] at kept
    rw [← kept.2]
    exact .stays

theorem moved_of_step (found : world.calls[index]? = some call) :
    ∃ moved, (world.step label).calls[index]? = some moved ∧
      Moved world label index call moved := by
  have bound : index < world.calls.length := (List.getElem?_eq_some_iff.mp found).1
  have unchanged {next : World} (same : next.calls = world.calls) :
      ∃ moved, next.calls[index]? = some moved ∧ Moved world label index call moved :=
    ⟨call, same ▸ found, .stays⟩
  have changed {next : World} {other : ℕ} {slot : Call}
      (same : next.calls = world.calls.set other slot)
      (own : other = index → Moved world label index call slot) :
      ∃ moved, next.calls[index]? = some moved ∧ Moved world label index call moved := by
    have inside : index < (world.calls.set other slot).length := by
      rw [length_set]
      exact bound
    refine ⟨(world.calls.set other slot)[index], ?_, ?_⟩
    · rw [same]
      exact getElem?_eq_getElem inside
    · exact moved_of_set found (getElem?_eq_getElem inside) own
  have same {other : ℕ} {there : Call} (isThere : world.calls[other]? = some there)
      (here : other = index) : there = call := by
    rw [here, found] at isThere
    exact (Option.some.inj isThere).symm
  cases label with
  | tick now => exact unchanged rfl
  | call input =>
    refine ⟨call, ?_, .stays⟩
    exact (getElem?_append_left bound).trans found
  | advance other =>
    dsimp only [World.step]
    split
    next there isThere =>
      split
      next slot isNext =>
        apply changed rfl
        intro here
        have own := same isThere here
        subst here
        rw [own] at isNext
        exact .advances slot rfl (running_of_next isNext) (advance_of_next isNext)
      · exact unchanged rfl
    · exact unchanged rfl
  | commit other =>
    dsimp only [World.step]
    split
    next there isThere =>
      split
      next phase =>
        apply changed rfl
        intro here
        have own := same isThere here
        subst here
        rw [own] at phase ⊢
        exact .commits rfl phase
      · exact unchanged rfl
    · exact unchanged rfl
  | fail other =>
    dsimp only [World.step]
    split
    next there isThere =>
      split
      next running =>
        apply changed rfl
        intro here
        have own := same isThere here
        subst here
        rw [own] at running ⊢
        exact .fails rfl running
      · exact unchanged rfl
    · exact unchanged rfl
  | disable address generation =>
    apply unchanged
    dsimp only [World.step]
    split <;> rfl
  | begin => exact unchanged rfl
  | insert other row =>
    apply unchanged
    dsimp only [World.step, World.insertRow]
    repeat' (first | rfl | split)
  | lockShared other | enqueue other | commitInsert other | rollback other =>
    apply unchanged
    dsimp only [World.step]
    repeat' (first | rfl | split)
  | deleteEvent community id | matched community id => exact unchanged rfl

theorem calls_of_step (isNow : (world.step label).calls[index]? = some moved) :
    (∃ call, world.calls[index]? = some call ∧ Moved world label index call moved) ∨
      ∃ input, label = .call input ∧ moved = input.call world.clock := by
  cases found : world.calls[index]? with
  | some call =>
    left
    obtain ⟨now, isMoved, how⟩ := @moved_of_step world label index call found
    rw [isNow, Option.some.injEq] at isMoved
    rw [← isMoved] at how
    exact ⟨call, rfl, how⟩
  | none =>
    right
    have outside := List.getElem?_eq_none_iff.mp found
    have shorter {next : World} (length : next.calls.length = world.calls.length)
        (isNow : next.calls[index]? = some moved) : False := by
      have inside := (List.getElem?_eq_some_iff.mp isNow).1
      omega
    cases label with
    | call input =>
      cases getElem?_concat isNow with
      | inl before =>
        cases found.symm.trans before
      | inr new => exact ⟨input, rfl, new.2⟩
    | tick now => exact (shorter rfl isNow).elim
    | advance other | commit other | fail other =>
      apply (shorter _ isNow).elim
      dsimp only [World.step]
      repeat' (first | rfl | exact length_set | split)
    | disable address generation =>
      apply (shorter _ isNow).elim
      dsimp only [World.step]
      split <;> rfl
    | begin => exact (shorter rfl isNow).elim
    | insert other row =>
      apply (shorter _ isNow).elim
      dsimp only [World.step, World.insertRow]
      repeat' (first | rfl | split)
    | lockShared other | enqueue other | commitInsert other | rollback other =>
      apply (shorter _ isNow).elim
      dsimp only [World.step]
      repeat' (first | rfl | split)
    | deleteEvent community id | matched community id => exact (shorter rfl isNow).elim

variable {outcome : Option AcceptLeaseOutcome}

theorem done_of_step (found : world.calls[index]? = some call)
    (done : call.phase = .done outcome) : (world.step label).calls[index]? = some call := by
  have past : ¬ call.phase.rank < 12 := by
    rw [done]
    exact Nat.lt_irrefl 12
  obtain ⟨moved, isNow, how⟩ := @moved_of_step world label index call found
  cases how with
  | stays => exact isNow
  | advances _ _ running => exact (past running).elim
  | commits _ phase =>
    cases done.symm.trans phase
  | fails _ running => exact (past running).elim

theorem done_of_after
    (found : world.calls[index]? = some call) (done : call.phase = .done outcome) :
    (world.after labels).calls[index]? = some call := by
  induction labels generalizing world with
  | nil => exact found
  | cons label labels ih => exact ih (done_of_step found done)

/-- It is about to commit. -/
def Replaces (world : World) (index : ℕ) (address : Address) : Prop :=
  ∃ call, world.calls[index]? = some call ∧ call.phase = .backfilled ∧ call.accepts = false ∧
    call.address = address

theorem Moved.input (how : Moved world label index call moved) :
    moved.function = call.function ∧ moved.address = call.address ∧ moved.version = call.version ∧
      moved.active = call.active := by
  cases how with
  | stays => exact ⟨rfl, rfl, rfl, rfl⟩
  | advances moved isAdvance running advance => exact advance.input
  | commits isCommit phase | fails isFail running => exact ⟨rfl, rfl, rfl, rfl⟩

theorem accepts_of_function (same : moved.function = call.function) :
    moved.accepts = call.accepts := by
  rw [Call.accepts, same, ← Call.accepts]

theorem Advance.checked (advance : Advance world index call moved) (accepts : call.accepts)
    (within : moved.within 5) :
    moved.found = world.leases.find? call.address.isOf ∨
      call.within 5 ∧ call.found = moved.found := by
  cases advance with
  | address isAccept phase | author isAccept phase | gate isAccept phase | unbound isAccept phase =>
    simp [Call.within, Phase.rank] at within
  | check isAccept phase => exact .inl rfl
  | sweep isAccept phase | inactive isAccept phase | passes isAccept phase | store isAccept phase
    | upsert isAccept phase => exact .inr ⟨by simp [Call.within, phase, Phase.rank], rfl⟩
  | count maximum isAccept phase => exact .inr ⟨by simp [Call.within, phase, Phase.rank], rfl⟩
  | replace replaces phase =>
    cases replaces.symm.trans accepts
  | backfill phase => exact .inr ⟨within_backfill phase (by omega), rfl⟩
  | finish outcome rejected =>
    cases within_of_done.symm.trans within

theorem first_of_step (before : world.leases.find? address.isOf = none)
    (after : (world.step label).leases.find? address.isOf ≠ none) :
    ∃ index call, label = .commit index ∧ world.calls[index]? = some call ∧
      call.phase = .backfilled ∧ call.address = address ∧
        world.step label = world.commit index call := by
  cases @tables_of_step world label with
  | inl same =>
    rw [same.1] at after
    exact (after before).elim
  | inr changed =>
    cases changed with
    | inl committed =>
      obtain ⟨index, call, isCommit, found, phase, same⟩ := committed
      refine ⟨index, call, isCommit, found, phase, ?_, same⟩
      by_contra apart
      rw [same, find?_commit apart] at after
      exact after before
    | inr disables =>
      obtain ⟨other, generation, -, same⟩ := disables
      rw [same] at after
      apply (after _).elim
      rw [find?_eq_none] at before ⊢
      intro lease member isOf
      obtain ⟨old, isOld, rfl⟩ := mem_map.mp member
      rw [isOf_iff_addressOf, disabled_kept.1, ← isOf_iff_addressOf] at isOf
      exact before old isOld isOf

theorem overtaken (found : ((World.initial clock).after labels).calls[index]? = some call)
    (accepts : call.accepts) (within : call.within 5) (absent : call.found = none)
    (present : ((World.initial clock).after labels).leases.find? call.address.isOf ≠ none) :
    ∃ first other rest, labels = first ++ .commit other :: rest ∧
      Replaces ((World.initial clock).after first) other call.address ∧
        ∃ earlier, ((World.initial clock).after first).calls[index]? = some earlier ∧
          earlier.within 5 ∧ earlier.found = none := by
  induction labels using reverseRecOn generalizing call with
  | nil => cases found
  | append_singleton labels label ih =>
    have sound := (@sound_initial clock).after labels
    rw [after_concat] at found present
    have extend {other : Call} (isAddress : other.address = call.address)
        (earlier : ∃ first index' rest, labels = first ++ .commit index' :: rest ∧
          Replaces ((World.initial clock).after first) index' other.address ∧
            ∃ earlier, ((World.initial clock).after first).calls[index]? = some earlier ∧
              earlier.within 5 ∧ earlier.found = none) :
        ∃ first index' rest, labels ++ [label] = first ++ .commit index' :: rest ∧
          Replaces ((World.initial clock).after first) index' call.address ∧
            ∃ earlier, ((World.initial clock).after first).calls[index]? = some earlier ∧
              earlier.within 5 ∧ earlier.found = none := by
      obtain ⟨first, index', rest, rfl, replaces, checked⟩ := earlier
      exact ⟨first, index', rest ++ [label], by simp, isAddress ▸ replaces, checked⟩
    cases calls_of_step found with
    | inr fresh =>
      obtain ⟨input, -, rfl⟩ := fresh
      simp [Input.call, Call.within, Phase.rank] at within
    | inl moves =>
      obtain ⟨before, isBefore, how⟩ := moves
      cases how with
      | stays =>
        by_cases already : ((World.initial clock).after labels).leases.find?
            call.address.isOf = none
        · obtain ⟨other, committed, rfl, isOther, phase, same, isCommit⟩ :=
            first_of_step already present
          have apart : other ≠ index := by
            intro here
            rw [isCommit] at found
            cases getElem?_set found with
            | inl changed =>
              rw [changed.2, within_of_done] at within
              cases within
            | inr kept => exact kept.1 here.symm
          refine ⟨labels, other, [], rfl, ?_, call, isBefore, within, absent⟩
          refine ⟨committed, isOther, phase, ?_, same⟩
          by_contra isAccept
          apply apart
          apply sound.addresses other index committed call call.address isOther isBefore
          · rw [Call.holdsAddress, eq_true_of_ne_false isAccept, same]
            simp [Call.within, phase, Phase.rank]
          · have early : call.within 1 := by
              simp only [Call.within, Bool.and_eq_true, decide_eq_true_eq] at within ⊢
              omega
            simp [Call.holdsAddress, accepts, early]
        · exact extend rfl (ih isBefore accepts within absent already)
      | advances moved isAdvance running advance =>
        subst isAdvance
        have input := advance.input
        have unchanged : (((World.initial clock).after labels).step
            (.advance index)).leases = ((World.initial clock).after labels).leases := by
          cases @tables_of_step ((World.initial clock).after labels) (.advance index) with
          | inl same => exact same.1
          | inr changed =>
            cases changed with
            | inl commit =>
              obtain ⟨_, _, other, _⟩ := commit
              cases other
            | inr disables =>
              obtain ⟨_, _, other, _⟩ := disables
              cases other
        rw [unchanged, input.2.1] at present
        have isAccept : before.accepts :=
          (accepts_of_function input.1).symm.trans accepts
        cases advance.checked isAccept within with
        | inl now =>
          rw [absent] at now
          exact (present now.symm).elim
        | inr earlier =>
          exact extend input.2.1.symm
            (ih isBefore isAccept earlier.1 (earlier.2.trans absent) present)
      | commits isCommit phase | fails isFail running =>
        cases within_of_done.symm.trans within

section sources

theorem find?_row : (world.commit index call).leases.find? call.address.isOf = some call.row :=
  find?_cons_of_pos (isOf_row.mpr rfl)

theorem find?_disabled {other : Address} {generation : ℤ} :
    (world.leases.map (disabled other generation)).find? address.isOf =
      (world.leases.find? address.isOf).map (disabled other generation) := by
  rw [find?_map]
  congr 2
  funext lease
  by_cases isOf : address.isOf lease
  · rw [isOf, Function.comp_apply, isOf_iff_addressOf, disabled_kept.1, ← isOf_iff_addressOf]
    exact isOf
  · have other : ¬ address.isOf (disabled other generation lease) := by
      rw [isOf_iff_addressOf, disabled_kept.1, ← isOf_iff_addressOf]
      exact isOf
    rw [Function.comp_apply, eq_false_of_ne_true isOf, eq_false_of_ne_true other]

variable {source : SourceEvent}

theorem mem_sources_commit (sound : Sound world) (found : world.calls[index]? = some call)
    (phase : call.phase = .backfilled) (accepts : call.accepts)
    (live : source.live) : source ∈ (world.commit index call).sources ↔
      source = ⟨call.address, call.version.sourceEventId, true⟩ ∨
        source ∈ world.sources ∧ source.address ≠ call.address := by
  have held : Held world call := sound.held call (mem_of_getElem? found)
  have erases := held.erased accepts (by simp [Call.within, phase, Phase.rank])
  have sources : (world.commit index call).sources =
      ⟨call.address, call.version.sourceEventId, true⟩ :: world.sources.map fun source =>
        if decide (source.address = call.address) && call.erased.contains source.id then
          { source with live := false }
        else source := if_pos accepts
  rw [sources, mem_cons]
  constructor
  · intro member
    cases member with
    | inl new => exact .inl new
    | inr old =>
      right
      obtain ⟨before, within, rfl⟩ := mem_map.mp old
      split at live
      · cases live
      next kept =>
        rw [if_neg kept]
        refine ⟨within, fun same => kept ?_⟩
        have erased := erases before within same live
        simp [same, erased]
  · intro member
    cases member with
    | inl new => exact .inl new
    | inr old =>
      right
      refine mem_map.mpr ⟨source, old.1, ?_⟩
      rw [if_neg]
      simp [old.2]

theorem sources_of_replaces (replaces : call.accepts = false) :
    (world.commit index call).sources = world.sources := by
  change (if call.accepts then _ else world.sources) = world.sources
  rw [if_neg (by rw [replaces]; exact Bool.false_ne_true)]

/-- In a state of the run where `meanwhile` held. -/
def Replaced (clock : ℤ) (labels : List Label) (address : Address)
    (meanwhile : World → Prop) : Prop :=
  ∃ first index rest, labels = first ++ .commit index :: rest ∧
    Replaces ((World.initial clock).after first) index address ∧
      meanwhile ((World.initial clock).after first)

theorem Replaced.extend {meanwhile : World → Prop} (replaced : Replaced clock labels address meanwhile) :
    Replaced clock (labels ++ [label]) address meanwhile := by
  obtain ⟨first, index, rest, rfl, replaces, holds⟩ := replaced
  exact ⟨first, index, rest ++ [label], by simp, replaces, holds⟩

theorem source_of_live
    (member : source ∈ ((World.initial clock).after labels).sources) (live : source.live) :
    (∃ lease, ((World.initial clock).after labels).leases.find? source.address.isOf = some lease ∧
        lease.sourceEventId = source.id) ∨
      Replaced clock labels source.address fun world => source ∈ world.sources := by
  induction labels using reverseRecOn with
  | nil => exact absurd member not_mem_nil
  | append_singleton labels label ih =>
    have sound := (@sound_initial clock).after labels
    rw [after_concat] at member ⊢
    cases @tables_of_step ((World.initial clock).after labels) label with
    | inl same =>
      rw [same.2] at member
      rw [same.1]
      cases ih member with
      | inl own => exact .inl own
      | inr replaced => exact .inr replaced.extend
    | inr changed =>
      cases changed with
      | inl committed =>
        obtain ⟨index, call, rfl, found, phase, isCommit⟩ := committed
        rw [isCommit] at member ⊢
        have kept (apart : call.address ≠ source.address)
            (before : source ∈ ((World.initial clock).after labels).sources) :
            (∃ lease, (((World.initial clock).after labels).commit index call).leases.find?
                source.address.isOf = some lease ∧ lease.sourceEventId = source.id) ∨
              Replaced clock (labels ++ [.commit index]) source.address fun world =>
                source ∈ world.sources := by
          rw [find?_commit apart]
          cases ih before with
          | inl own => exact .inl own
          | inr replaced => exact .inr replaced.extend
        by_cases accepts : call.accepts
        · cases (mem_sources_commit sound found phase accepts live).mp member with
          | inl new =>
            rw [new]
            exact .inl ⟨call.row, find?_row, rfl⟩
          | inr old => exact kept old.2.symm old.1
        · have replaces := eq_false_of_ne_true accepts
          rw [sources_of_replaces replaces] at member
          by_cases same : call.address = source.address
          · exact .inr ⟨labels, index, [], rfl, ⟨call, found, phase, replaces, same⟩,
              member⟩
          · exact kept same member
      | inr disables =>
        obtain ⟨other, generation, rfl, same⟩ := disables
        rw [same] at member ⊢
        rw [find?_disabled]
        cases ih member with
        | inl own =>
          obtain ⟨lease, isLease, source⟩ := own
          rw [isLease]
          exact .inl ⟨_, rfl, disabled_kept.2.2.trans source⟩
        | inr replaced => exact .inr replaced.extend

theorem live_of_lease {lease : LeaseRow}
    (isLease : ((World.initial clock).after labels).leases.find? address.isOf = some lease) :
    (∃ source ∈ ((World.initial clock).after labels).sources, source.live ∧
        source.address = address ∧ source.id = lease.sourceEventId) ∨
      Replaced clock labels address fun _ => True := by
  induction labels using reverseRecOn generalizing lease with
  | nil => cases isLease
  | append_singleton labels label ih =>
    have sound := (@sound_initial clock).after labels
    rw [after_concat] at isLease ⊢
    cases @tables_of_step ((World.initial clock).after labels) label with
    | inl same =>
      rw [same.1] at isLease
      rw [same.2]
      cases ih isLease with
      | inl own => exact .inl own
      | inr replaced => exact .inr replaced.extend
    | inr changed =>
      cases changed with
      | inl committed =>
        obtain ⟨index, call, rfl, found, phase, isCommit⟩ := committed
        rw [isCommit] at isLease ⊢
        by_cases accepts : call.accepts
        · by_cases same : call.address = address
          · rw [← same, find?_row, Option.some.injEq] at isLease
            left
            refine ⟨⟨call.address, call.version.sourceEventId, true⟩, ?_, rfl, same, ?_⟩
            · exact (mem_sources_commit sound found phase accepts rfl).mpr (.inl rfl)
            · rw [← isLease]
              rfl
          · rw [find?_commit same] at isLease
            cases ih isLease with
            | inl own =>
              obtain ⟨source, member, live, isAt, id⟩ := own
              left
              refine ⟨source, ?_, live, isAt, id⟩
              apply (mem_sources_commit sound found phase accepts live).mpr
              exact .inr ⟨member, fun here => same (here.symm.trans isAt)⟩
            | inr replaced => exact .inr replaced.extend
        · have replaces := eq_false_of_ne_true accepts
          by_cases same : call.address = address
          · exact .inr ⟨labels, index, [], rfl, ⟨call, found, phase, replaces, same⟩,
              trivial⟩
          · rw [find?_commit same] at isLease
            rw [sources_of_replaces replaces]
            cases ih isLease with
            | inl own => exact .inl own
            | inr replaced => exact .inr replaced.extend
      | inr disables =>
        obtain ⟨other, generation, rfl, same⟩ := disables
        rw [same] at isLease ⊢
        rw [find?_disabled] at isLease
        obtain ⟨before, isBefore, rfl⟩ := Option.map_eq_some_iff.mp isLease
        cases ih isBefore with
        | inl own =>
          obtain ⟨source, member, live, isAt, id⟩ := own
          exact .inl ⟨source, member, live, isAt, id.trans disabled_kept.2.2.symm⟩
        | inr replaced => exact .inr replaced.extend

theorem one_live {other : SourceEvent}
    (member : source ∈ ((World.initial clock).after labels).sources)
    (isOther : other ∈ ((World.initial clock).after labels).sources)
    (live : source.live) (otherLive : other.live)
    (same : source.address = other.address) : source = other := by
  induction labels using reverseRecOn with
  | nil => exact absurd member not_mem_nil
  | append_singleton labels label ih =>
    have sound := (@sound_initial clock).after labels
    rw [after_concat] at member isOther
    cases @tables_of_step ((World.initial clock).after labels) label with
    | inl unchanged =>
      rw [unchanged.2] at member isOther
      exact ih member isOther
    | inr changed =>
      cases changed with
      | inl committed =>
        obtain ⟨index, call, rfl, found, phase, isCommit⟩ := committed
        rw [isCommit] at member isOther
        by_cases accepts : call.accepts
        · cases (mem_sources_commit sound found phase accepts live).mp member with
          | inl new =>
            cases (mem_sources_commit sound found phase accepts otherLive).mp isOther with
            | inl both => rw [new, both]
            | inr old =>
              rw [new] at same
              exact (old.2 same.symm).elim
          | inr before =>
            cases (mem_sources_commit sound found phase accepts otherLive).mp isOther with
            | inl new =>
              rw [new] at same
              exact (before.2 same).elim
            | inr old => exact ih before.1 old.1
        · rw [sources_of_replaces (eq_false_of_ne_true accepts)] at member isOther
          exact ih member isOther
      | inr disables =>
        obtain ⟨address, generation, rfl, isDisable⟩ := disables
        rw [isDisable] at member isOther
        exact ih member isOther

end sources

end Buzz.PushLease
