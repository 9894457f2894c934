import Buzz.RelayMembers.Ownership

/-! What one statement of an owner change does to its own transaction, and what its commit publishes. -/

namespace Buzz.RelayMembers

open Library.Locks Library.RowVersions List Option
open AList (lookup_empty lookup_insert lookup_insert_ne)

section moves

variable {around : Surroundings} {txn next : Txn}

theorem recheck_ok {entry : String × ℕ} {found : Option (Row Role)}
    (ok : Txn.recheck around entry = some found) :
    (∀ row, around.members.lookup entry.1 = some row → row.incarnation = entry.2 →
      around.free (.row entry.1) ∧ (row.value = .owner → found = some row)) ∧
    ∀ row, found = some row → around.members.lookup entry.1 = some row ∧
      row.incarnation = entry.2 ∧ row.value = .owner := by
  unfold Txn.recheck at ok
  split at ok
  next absent =>
    cases ok
    exact ⟨fun row present => absurd (absent.symm.trans present) nofun, nofun⟩
  next row present =>
    split at ok
    next other =>
      cases ok
      refine ⟨fun again isRow same => ?_, nofun⟩
      cases present.symm.trans isRow
      exact absurd same other
    next same =>
      split at ok
      · cases ok
      next isFree =>
        have free : around.free (.row entry.1) := by simpa using isFree
        split at ok
        next isOwner =>
          cases ok
          refine ⟨fun again isRow _ => ?_, fun again isRow => ?_⟩
          · cases present.symm.trans isRow
            exact ⟨free, fun _ => rfl⟩
          · cases isRow
            exact ⟨present, Decidable.of_not_not same, isOwner⟩
        next plain =>
          cases ok
          refine ⟨fun again isRow _ => ?_, nofun⟩
          cases present.symm.trans isRow
          exact ⟨free, fun isOwner => absurd isOwner plain⟩

structure Txn.Goes (around : Surroundings) (txn next : Txn) : Prop where
  job : next.job = txn.job
  pubkey : next.pubkey = txn.pubkey
  locks : ∀ lock, next.holds lock → txn.holds lock ∨ around.free lock

variable {phase : Phase}

theorem Txn.Goes.same : Txn.Goes around txn (txn.goTo phase) :=
  ⟨rfl, rfl, fun _ held => .inl held⟩

theorem Txn.Goes.write {pubkey : String} {row : Row Role} (isFree : around.free (.row pubkey)) :
    Txn.Goes around txn ((txn.write pubkey row).goTo phase) := by
  refine ⟨rfl, rfl, fun lock held => ?_⟩
  cases mem_cons.mp (of_decide_eq_true held) with
  | inl same => exact .inr (same ▸ isFree)
  | inr before => exact .inl (decide_eq_true before)

theorem Txn.Goes.lock {lock : LockName} (isFree : around.free lock) :
    Txn.Goes around txn ((txn.lock lock).goTo phase) := by
  refine ⟨rfl, rfl, fun other held => ?_⟩
  cases mem_cons.mp (of_decide_eq_true held) with
  | inl same => exact .inr (same ▸ isFree)
  | inr before => exact .inl (decide_eq_true before)

theorem Txn.holds_write {pubkey : String} {row : Row Role} {lock : LockName}
    (held : lock = .row pubkey ∨ txn.holds lock) :
    ((txn.write pubkey row).goTo phase).holds lock := by
  apply decide_eq_true
  cases held with
  | inl same => exact same ▸ mem_cons_self
  | inr before => exact mem_cons_of_mem _ (of_decide_eq_true before)

variable {previousOwner : Option String}

theorem Txn.Sound.promote (sound : txn.Sound around.members)
    (empty : txn.written = ∅) (previous : txn.PreviousSound around.members previousOwner)
    (isNext : txn.promote around previousOwner = some (.go next)) :
    next.Sound around.members ∧ Txn.Goes around txn next ∧
      next.phase = .promoted previousOwner := by
  unfold Txn.promote at isNext
  split at isNext
  next isFree =>
    cases isNext
    refine ⟨⟨sound.job, fun pubkey row isWritten => ?_, ?_⟩, Txn.Goes.write isFree, rfl⟩
    · dsimp only [Txn.goTo, Txn.write] at isWritten
      rw [empty] at isWritten
      by_cases same : pubkey = txn.pubkey
      · exact Txn.holds_write (.inl (same ▸ rfl))
      · rw [lookup_insert_ne same, lookup_empty] at isWritten
        cases isWritten
    · refine ⟨?_, ⟨Txn.holds_write (.inl rfl), ?_⟩, fun pubkey row isWritten => ?_⟩
      · unfold Txn.PreviousSound at previous ⊢
        dsimp only [Txn.goTo, Txn.write]
        split
        next expectedOwner isJob =>
          rw [isJob] at previous
          obtain ⟨owner, isPrevious, apart, holding, isOwner⟩ := previous
          exact ⟨owner, isPrevious, apart, Txn.holds_write (.inr holding), isOwner⟩
        · trivial
        next role isJob =>
          rw [isJob] at previous
          exact previous
      · refine ⟨_, lookup_insert _, rfl, fun old present => ?_⟩
        dsimp only [Txn.goTo, Txn.write] at present ⊢
        rw [present]
        rfl
      · dsimp only [Txn.goTo, Txn.write] at isWritten ⊢
        by_contra apart
        rw [empty, lookup_insert_ne apart, lookup_empty] at isWritten
        cases isWritten
  · cases isNext

variable {remaining : List (String × ℕ)}

theorem Txn.Sound.lockOwners {expectedOwner : String} {existingOwners : List String}
    (sound : txn.Sound around.members)
    (single : ∀ first second, isOwner around.members first →
      isOwner around.members second → first = second)
    (isPhase : txn.phase = .locking remaining existingOwners)
    (isNext : txn.lockOwners around expectedOwner existingOwners remaining = some (.go next)) :
    next.Sound around.members ∧ Txn.Goes around txn next ∧ ¬ next.IsDemoting := by
  have phase := sound.phase
  rw [isPhase] at phase
  obtain ⟨empty, ⟨expected, isJob⟩, nodup, owners⟩ := phase
  cases remaining with
  | nil =>
    simp only [Txn.lockOwners, Txn.checkOwners] at isNext
    split at isNext
    · cases isNext
    next some =>
      split at isNext
      · cases isNext
      · split at isNext
        · cases isNext
        next other =>
          cases isNext
          refine ⟨⟨sound.job, sound.writtenHeld, empty, ?_⟩, Txn.Goes.same, nofun⟩
          cases existingOwners with
          | nil => exact absurd rfl some
          | cons owner rest =>
            cases rest with
            | cons second more =>
              have same := single owner second (owners owner mem_cons_self).2
                (owners second (mem_cons_of_mem _ mem_cons_self)).2
              subst same
              simp at nodup
            | nil =>
              obtain ⟨holding, isOwner⟩ := owners owner mem_cons_self
              unfold Txn.PreviousSound
              dsimp only [Txn.goTo]
              rw [isJob]
              exact ⟨owner, rfl, fun same => other (congrArg (fun key => [key]) same), holding,
                isOwner⟩
  | cons entry rest =>
    have later : (existingOwners ++ rest.map Prod.fst).Nodup := by
      refine List.Nodup.sublist ?_ nodup
      exact List.Sublist.append (List.Sublist.refl _) (sublist_cons_self _ _)
    unfold Txn.lockOwners at isNext
    dsimp only at isNext
    split at isNext
    · cases isNext
    · cases isNext
      exact ⟨⟨sound.job, sound.writtenHeld, empty, ⟨expected, isJob⟩, later, owners⟩,
        Txn.Goes.same, nofun⟩
    next row found =>
      cases isNext
      obtain ⟨free, isRow⟩ := recheck_ok found
      obtain ⟨present, same, isOwner⟩ := isRow row rfl
      refine ⟨⟨sound.job, fun pubkey row isWritten => ?_, empty, ⟨expected, isJob⟩, ?_,
        fun pubkey member => ?_⟩, Txn.Goes.lock (free row present same).1, nofun⟩
      · dsimp only [Txn.goTo, Txn.lock] at isWritten
        rw [empty, lookup_empty] at isWritten
        cases isWritten
      · rw [append_assoc]
        exact nodup
      · cases mem_append.mp member with
        | inl before =>
          obtain ⟨holding, isOwner⟩ := owners pubkey before
          refine ⟨decide_eq_true ?_, isOwner⟩
          exact mem_cons_of_mem _ (of_decide_eq_true holding)
        | inr new =>
          rw [mem_singleton.mp new]
          exact ⟨decide_eq_true mem_cons_self, isOwner_iff.mpr ⟨row, present, isOwner⟩⟩

theorem Txn.Sound.startDemotion (sound : txn.Sound around.members)
    (isPhase : txn.phase = .promoted previousOwner) :
    (txn.startDemotion around previousOwner).Sound around.members := by
  have phase := sound.phase
  rw [isPhase] at phase
  obtain ⟨previous, promoted, only⟩ := phase
  refine ⟨sound.job, sound.writtenHeld, previous, ⟨promoted.held, promoted.written⟩,
    fun pubkey row isWritten apart => absurd (only pubkey row isWritten) apart,
    fun entry member => ?_, fun pubkey row present isOwner apart => .inl ?_⟩
  · obtain ⟨role, -, wanted⟩ := mem_matching.mp member
    exact of_decide_eq_true (Bool.and_eq_true_iff.mp wanted).2
  have rows : (txn.startDemotion around previousOwner).remaining =
      around.members.matching fun pubkey role =>
        role = .owner && decide (pubkey ≠ txn.pubkey) := rfl
  rw [rows, mem_matching]
  refine ⟨row.value, present, ?_⟩
  rw [Bool.and_eq_true]
  exact ⟨decide_eq_true isOwner, decide_eq_true apart⟩

variable {result : Result}

theorem Txn.Sound.demote (sound : txn.Sound around.members)
    (isPhase : txn.phase = .demoting previousOwner remaining)
    (isNext : txn.demote around result previousOwner remaining = some (.go next)) :
    next.Sound around.members ∧ Txn.Goes around txn next ∧
      (∃ rest, next.phase = .demoting previousOwner rest ∧ ∀ entry ∈ rest, entry ∈ remaining) ∧
      ∀ pubkey row, around.members.lookup pubkey = some row →
        (pubkey, row.incarnation) ∈ txn.remaining → (pubkey, row.incarnation) ∈ next.remaining ∨
          around.free (.row pubkey) := by
  have phase := sound.phase
  rw [isPhase] at phase
  obtain ⟨previous, promoted, demoted, apart, covers⟩ := phase
  have isRemaining : txn.remaining = remaining := by rw [Txn.remaining, isPhase]
  cases remaining with
  | nil => cases isNext
  | cons entry rest =>
    unfold Txn.demote at isNext
    dsimp only at isNext
    split at isNext
    · cases isNext
    next found =>
      cases isNext
      obtain ⟨free, -⟩ := recheck_ok found
      refine ⟨⟨sound.job, sound.writtenHeld, previous, ⟨promoted.held, promoted.written⟩, demoted,
        fun item member => apart item (mem_cons_of_mem entry member),
        fun pubkey row present isOwner other => ?_⟩, Txn.Goes.same,
        ⟨rest, rfl, fun item member => mem_cons_of_mem entry member⟩,
        fun pubkey row present waits => ?_⟩
      · cases covers pubkey row present isOwner other with
        | inr written => exact .inr written
        | inl waits =>
          rw [isRemaining] at waits
          cases mem_cons.mp waits with
          | inr later => exact .inl later
          | inl same =>
            subst same
            exact absurd ((free row present rfl).2 isOwner) nofun
      · rw [isRemaining] at waits
        cases mem_cons.mp waits with
        | inr later => exact .inl later
        | inl same =>
          subst same
          exact .inr (free row present rfl).1
    next row found =>
      cases isNext
      obtain ⟨free, isRow⟩ := recheck_ok found
      obtain ⟨present, same, isOwner⟩ := isRow row rfl
      have other := apart entry mem_cons_self
      refine ⟨⟨sound.job, fun pubkey written isWritten => ?_, ?_, ⟨Txn.holds_write (.inr
          promoted.held), ?_⟩, fun pubkey written isWritten different => ?_,
        fun item member => apart item (mem_cons_of_mem entry member),
        fun pubkey old found isOld different => ?_⟩, Txn.Goes.write (free row present same).1,
        ⟨rest, rfl, fun item member => mem_cons_of_mem entry member⟩,
        fun pubkey old isOld waits => ?_⟩
      · by_cases isEntry : pubkey = entry.1
        · exact Txn.holds_write (.inl (isEntry ▸ rfl))
        · refine Txn.holds_write (.inr (sound.writtenHeld pubkey written ?_))
          exact (lookup_insert_ne isEntry).symm.trans isWritten
      · unfold Txn.PreviousSound at previous ⊢
        dsimp only [Txn.goTo, Txn.write]
        split
        next expectedOwner isJob =>
          rw [isJob] at previous
          obtain ⟨owner, isPrevious, different, holding, isOwner⟩ := previous
          exact ⟨owner, isPrevious, different, Txn.holds_write (.inr holding), isOwner⟩
        · trivial
        next role isJob =>
          rw [isJob] at previous
          exact previous
      · obtain ⟨promotedRow, isPromoted, rest⟩ := promoted.written
        exact ⟨promotedRow, (lookup_insert_ne other.symm).trans isPromoted, rest⟩
      · by_cases isEntry : pubkey = entry.1
        · subst isEntry
          cases (lookup_insert _).symm.trans isWritten
          rfl
        · exact demoted pubkey written ((lookup_insert_ne isEntry).symm.trans isWritten)
            different
      · by_cases isEntry : pubkey = entry.1
        · subst isEntry
          exact .inr ⟨_, lookup_insert _, rfl⟩
        · cases covers pubkey old found isOld different with
          | inr written =>
            obtain ⟨demotedRow, isDemoted, isRole⟩ := written
            exact .inr ⟨demotedRow, (lookup_insert_ne isEntry).trans isDemoted, isRole⟩
          | inl waits =>
            rw [isRemaining] at waits
            cases mem_cons.mp waits with
            | inr later => exact .inl later
            | inl isFirst => exact absurd (congrArg Prod.fst isFirst) isEntry
      · rw [isRemaining] at waits
        cases mem_cons.mp waits with
        | inr later => exact .inl later
        | inl isFirst =>
          subst isFirst
          exact .inr (free old isOld rfl).1

theorem Txn.Sound.insertMember {role : Role} (sound : txn.Sound around.members)
    (isJob : txn.job = .claimRelayMembership role) (empty : txn.written = ∅)
    (isNext : txn.insertMember around role = some (.go next)) :
    next.Sound around.members ∧ Txn.Goes around txn next ∧ ¬ next.IsDemoting := by
  unfold Txn.insertMember at isNext
  split at isNext
  · cases isNext
    refine ⟨⟨sound.job, sound.writtenHeld, ⟨role, isJob⟩, fun pubkey row isWritten => ?_⟩,
      Txn.Goes.same, nofun⟩
    dsimp only [Txn.goTo] at isWritten
    rw [empty, lookup_empty] at isWritten
    cases isWritten
  next absent =>
    split at isNext
    next isFree =>
      cases isNext
      have plain : role ≠ .owner := by
        have job := sound.job
        rw [isJob] at job
        exact job
      have only {pubkey : String} {row : Row Role}
          (isWritten : (txn.written.insert txn.pubkey ⟨around.fresh, role⟩).lookup pubkey = some row) :
          pubkey = txn.pubkey := by
        by_contra apart
        rw [lookup_insert_ne apart, empty, lookup_empty] at isWritten
        cases isWritten
      refine ⟨⟨sound.job, fun pubkey row isWritten => ?_, ⟨role, isJob⟩,
        fun pubkey row isWritten => ?_⟩, Txn.Goes.write isFree, nofun⟩
      · exact Txn.holds_write (.inl (only isWritten ▸ rfl))
      · have same := only isWritten
        subst same
        cases (lookup_insert _).symm.trans isWritten
        exact ⟨plain, absent⟩
    · cases isNext

inductive Txn.Demotes (around : Surroundings) (txn next : Txn) : Prop
  | starts (previousOwner : Option String) (isPhase : txn.phase = .promoted previousOwner)
      (isNext : next = txn.startDemotion around previousOwner)
  | continues (demoting : txn.IsDemoting) (keeps : ∀ pubkey row,
      around.members.lookup pubkey = some row → (pubkey, row.incarnation) ∈ txn.remaining →
        (pubkey, row.incarnation) ∈ next.remaining ∨ around.free (.row pubkey))

theorem Txn.Sound.go (sound : txn.Sound around.members)
    (single : ∀ first second, isOwner around.members first →
      isOwner around.members second → first = second)
    (isNext : txn.next around = some (.go next)) :
    next.Sound around.members ∧ Txn.Goes around txn next ∧
      (next.IsDemoting → Txn.Demotes around txn next) := by
  have phase := sound.phase
  unfold Txn.next at isNext
  split at isNext
  next isJob isPhase =>
    rw [isPhase] at phase
    have previous : txn.PreviousSound around.members none := by
      unfold Txn.PreviousSound
      rw [isJob]
      trivial
    obtain ⟨after, goes, isPromoted⟩ := sound.promote phase previous isNext
    refine ⟨after, goes, fun demoting => ?_⟩
    obtain ⟨_, _, isDemoting⟩ := demoting
    exact absurd (isPromoted.symm.trans isDemoting) nofun
  next isJob isPhase =>
    cases isNext
    exact ⟨sound.startDemotion isPhase, Txn.Goes.same, fun _ => .starts _ isPhase rfl⟩
  next previousOwner remaining isJob isPhase =>
    obtain ⟨after, goes, -, keeps⟩ := sound.demote isPhase isNext
    exact ⟨after, goes, fun _ => .continues ⟨_, _, isPhase⟩ keeps⟩
  next expectedOwner isJob isPhase =>
    rw [isPhase] at phase
    dsimp only at isNext
    split at isNext
    next isFree =>
      cases isNext
      refine ⟨⟨sound.job, fun pubkey row isWritten => ?_, phase, expectedOwner, isJob⟩,
        Txn.Goes.lock isFree, nofun⟩
      dsimp only [Txn.goTo, Txn.lock] at isWritten
      rw [phase, lookup_empty] at isWritten
      cases isWritten
    · cases isNext
  next expectedOwner isJob isPhase =>
    rw [isPhase] at phase
    cases isNext
    refine ⟨⟨sound.job, sound.writtenHeld, phase.1, phase.2, ?_, fun pubkey member =>
      absurd member not_mem_nil⟩, Txn.Goes.same, nofun⟩
    rw [nil_append]
    exact matching_nodup
  next expectedOwner remaining existingOwners isJob isPhase =>
    obtain ⟨after, goes, idle⟩ := sound.lockOwners single isPhase isNext
    exact ⟨after, goes, fun demoting => absurd demoting idle⟩
  next expectedOwner previousOwner isJob isPhase =>
    rw [isPhase] at phase
    simp only [Txn.checkLimit, Option.some.injEq] at isNext
    split at isNext
    · cases isNext
    · cases isNext
      exact ⟨⟨sound.job, sound.writtenHeld, phase.1, phase.2⟩, Txn.Goes.same, nofun⟩
  next expectedOwner previousOwner isJob isPhase =>
    rw [isPhase] at phase
    obtain ⟨after, goes, isPromoted⟩ := sound.promote phase.1 phase.2 isNext
    refine ⟨after, goes, fun demoting => ?_⟩
    obtain ⟨_, _, isDemoting⟩ := demoting
    exact absurd (isPromoted.symm.trans isDemoting) nofun
  next expectedOwner previousOwner isJob isPhase =>
    cases isNext
    exact ⟨sound.startDemotion isPhase, Txn.Goes.same, fun _ => .starts _ isPhase rfl⟩
  next expectedOwner previousOwner remaining isJob isPhase =>
    obtain ⟨after, goes, -, keeps⟩ := sound.demote isPhase isNext
    exact ⟨after, goes, fun _ => .continues ⟨_, _, isPhase⟩ keeps⟩
  next role isJob isPhase =>
    rw [isPhase] at phase
    obtain ⟨after, goes, idle⟩ := sound.insertMember isJob phase isNext
    exact ⟨after, goes, fun demoting => absurd demoting idle⟩
  · cases isNext
  · cases isNext

theorem Txn.commit_cases (isNext : txn.next around = some (.commit result)) :
    (∃ previousOwner, txn.phase = .demoting previousOwner [] ∧ (result = .bootstrapped ∨
      result = .transfer (.transferred previousOwner) ∧
        ∃ expectedOwner, txn.job = .transferOwnership expectedOwner)) ∨
      ∃ isNew, txn.phase = .inserted isNew ∧ result = .claimed isNew := by
  have demotes {outcome : Result} {previousOwner : Option String} {remaining : List (String × ℕ)}
      (committed : txn.demote around outcome previousOwner remaining = some (.commit result)) :
      remaining = [] ∧ result = outcome := by
    cases remaining with
    | nil =>
      cases committed
      exact ⟨rfl, rfl⟩
    | cons entry rest =>
      unfold Txn.demote at committed
      dsimp only at committed
      split at committed
      all_goals cases committed
  unfold Txn.next at isNext
  split at isNext
  · unfold Txn.promote at isNext
    split at isNext <;> cases isNext
  · cases isNext
  next previousOwner remaining isJob isPhase =>
    obtain ⟨rfl, isResult⟩ := demotes isNext
    exact .inl ⟨previousOwner, isPhase, .inl isResult⟩
  · dsimp only at isNext
    split at isNext <;> cases isNext
  · cases isNext
  next expectedOwner remaining existingOwners isJob isPhase =>
    cases remaining with
    | nil =>
      simp only [Txn.lockOwners, Txn.checkOwners, Option.some.injEq] at isNext
      split at isNext
      · cases isNext
      · split at isNext
        · cases isNext
        · split at isNext <;> cases isNext
    | cons entry rest =>
      unfold Txn.lockOwners at isNext
      dsimp only at isNext
      split at isNext <;> cases isNext
  · simp only [Txn.checkLimit, Option.some.injEq] at isNext
    split at isNext <;> cases isNext
  · unfold Txn.promote at isNext
    split at isNext <;> cases isNext
  · cases isNext
  next expectedOwner previousOwner remaining isJob isPhase =>
    obtain ⟨rfl, isResult⟩ := demotes isNext
    exact .inl ⟨previousOwner, isPhase, .inr ⟨isResult, expectedOwner, isJob⟩⟩
  · unfold Txn.insertMember at isNext
    split at isNext
    · cases isNext
    · split at isNext <;> cases isNext
  next role isNew isJob isPhase =>
    cases isNext
    exact .inr ⟨isNew, isPhase, rfl⟩
  · cases isNext

theorem Txn.Sound.commit {members : Members} {previousOwner : Option String}
    (sound : txn.Sound members) (isPhase : txn.phase = .demoting previousOwner []) :
    isOwner (members.publish txn.written) txn.pubkey ∧
      (∀ pubkey, isOwner (members.publish txn.written) pubkey → pubkey = txn.pubkey) ∧
      ∀ pubkey, isOwner members pubkey → pubkey ≠ txn.pubkey →
        roleOf (members.publish txn.written) pubkey = some txn.job.demotedRole := by
  have phase := sound.phase
  rw [isPhase] at phase
  obtain ⟨-, promoted, demoted, -, covers⟩ := phase
  have none : txn.remaining = [] := by rw [Txn.remaining, isPhase]
  have notOwner : txn.job.demotedRole ≠ .owner := by cases txn.job <;> nofun
  obtain ⟨row, isWritten, isOwner, -⟩ := promoted.written
  refine ⟨?_, fun pubkey owns => ?_, fun pubkey owned apart => ?_⟩
  · exact isOwner_iff.mpr ⟨row, by rw [lookup_publish, isWritten, some_or], isOwner⟩
  · by_contra apart
    obtain ⟨row, present, isOwner⟩ := isOwner_iff.mp owns
    rw [lookup_publish] at present
    cases written : txn.written.lookup pubkey with
    | some other =>
      rw [written, some_or] at present
      cases present
      exact notOwner ((demoted pubkey _ written apart).symm.trans isOwner)
    | none =>
      rw [written, none_or] at present
      cases covers pubkey row present isOwner apart with
      | inl waits =>
        rw [none] at waits
        exact absurd waits not_mem_nil
      | inr found =>
        obtain ⟨other, isOther, -⟩ := found
        cases written.symm.trans isOther
  · obtain ⟨row, present, isOwner⟩ := isOwner_iff.mp owned
    cases covers pubkey row present isOwner apart with
    | inl waits =>
      rw [none] at waits
      exact absurd waits not_mem_nil
    | inr found =>
      obtain ⟨other, isOther, isRole⟩ := found
      rw [roleOf, lookup_publish, isOther, some_or, map_some, isRole]

theorem Txn.rollback_cases (isNext : txn.next around = some (.rollback result))
    (previousOwner : Option String) : result ≠ .transfer (.transferred previousOwner) := by
  have demotes {outcome : Result} {previousOwner : Option String} {remaining : List (String × ℕ)} :
      txn.demote around outcome previousOwner remaining ≠ some (.rollback result) := by
    intro committed
    cases remaining with
    | nil => cases committed
    | cons entry rest =>
      unfold Txn.demote at committed
      dsimp only at committed
      split at committed
      all_goals cases committed
  unfold Txn.next at isNext
  split at isNext
  · unfold Txn.promote at isNext
    split at isNext <;> cases isNext
  · cases isNext
  · exact absurd isNext demotes
  · dsimp only at isNext
    split at isNext <;> cases isNext
  · cases isNext
  next expectedOwner remaining existingOwners isJob isPhase =>
    cases remaining with
    | nil =>
      simp only [Txn.lockOwners, Txn.checkOwners, Option.some.injEq] at isNext
      split at isNext
      · cases isNext
        nofun
      · split at isNext
        · cases isNext
          nofun
        · split at isNext
          · cases isNext
            nofun
          · cases isNext
    | cons entry rest =>
      unfold Txn.lockOwners at isNext
      dsimp only at isNext
      split at isNext <;> cases isNext
  · simp only [Txn.checkLimit, Option.some.injEq] at isNext
    split at isNext
    · cases isNext
      nofun
    · cases isNext
  · unfold Txn.promote at isNext
    split at isNext <;> cases isNext
  · cases isNext
  · exact absurd isNext demotes
  · unfold Txn.insertMember at isNext
    split at isNext
    · cases isNext
    · split at isNext <;> cases isNext
  · cases isNext
  · cases isNext

end moves

end Buzz.RelayMembers
