import Buzz.RelayMembers.Promotions

/-! One owner, over any interleaving of the calls on a community. -/

namespace Buzz.RelayMembers

open Nostr Library.Locks Library.Results Library.RowVersions List

section states

variable {state after : State} {index : ℕ} {txn next : Txn}

theorem State.Sound.set (sound : state.Sound) (isTxn : state.txns[index]? = some txn)
    (isTxns : after.txns = state.txns.set index next) (isCommands : after.commands = state.commands)
    (single : after.AtMostOneOwner) (isSound : next.Sound after.members)
    (locks : ∀ lock, next.holds lock → txn.holds lock ∨ state.free index lock)
    (others : ∀ other rival, other ≠ index → state.txns[other]? = some rival →
      rival.Sound after.members ∧ (rival.IsDemoting →
        after.members.lookup rival.pubkey = state.members.lookup rival.pubkey))
    (pairs : ∀ other rival, other ≠ index → state.txns[other]? = some rival → next.IsDemoting →
      rival.IsDemoting → next.Sees after.members rival ∨ rival.Sees after.members next) :
    after.Sound where
  single
  exclusive := by
    rw [isTxns]
    apply sound.exclusive.set
    intro lock held
    cases locks lock held with
    | inl before => exact .inl ⟨txn, isTxn, before⟩
    | inr free => exact Or.inr (by simpa [State.free] using free)
  txns := by
    intro item member
    rw [isTxns] at member
    obtain ⟨other, found⟩ := getElem?_of_mem member
    cases getElem?_set found with
    | inl changed => exact changed.2 ▸ isSound
    | inr kept => exact (others other item kept.1 kept.2).1
  pairs := by
    intro first second one two apart isOne isTwo oneDemotes twoDemotes
    rw [isTxns] at isOne isTwo
    cases getElem?_set isOne with
    | inl changed =>
      obtain ⟨isFirst, rfl⟩ := changed
      cases getElem?_set isTwo with
      | inl both => exact absurd (isFirst.trans both.1.symm) apart
      | inr kept => exact pairs second two kept.1 kept.2 oneDemotes twoDemotes
    | inr kept =>
      cases getElem?_set isTwo with
      | inl changed =>
        obtain ⟨-, rfl⟩ := changed
        exact (pairs first one kept.1 kept.2 twoDemotes oneDemotes).symm
      | inr second =>
        have sameOne := (others _ one kept.1 kept.2).2 oneDemotes
        have sameTwo := (others _ two second.1 second.2).2 twoDemotes
        cases sound.pairs _ _ one two apart kept.2 second.2 oneDemotes twoDemotes with
        | inl sees => exact .inl (sees.frame sameTwo)
        | inr sees => exact .inr (sees.frame sameOne)
  commands := by
    rw [isCommands]
    exact sound.commands

theorem Txn.close_sound {members : Members} (job : txn.job.NotForOwners) :
    txn.close.Sound members := by
  refine ⟨job, fun pubkey row isWritten => ?_, trivial⟩
  dsimp only [Txn.close] at isWritten
  rw [AList.lookup_empty] at isWritten
  cases isWritten

theorem State.not_free {other : ℕ} {rival : Txn} {lock : LockName} (apart : other ≠ index)
    (isRival : state.txns[other]? = some rival) (held : rival.holds lock) :
    state.free index lock = false := by
  rw [State.free, Bool.not_eq_false']
  by_contra none
  have idle := others_eq_false.mp (eq_false_of_ne_true none) other rival apart isRival
  rw [held] at idle
  cases idle

theorem State.Sound.drop (sound : state.Sound) (isTxn : state.txns[index]? = some txn)
    (isTxns : after.txns = state.txns.set index txn.close)
    (isCommands : after.commands = state.commands) (isMembers : after.members = state.members) :
    after.Sound := by
  refine sound.set isTxn isTxns isCommands ?_ ?_ nofun (fun other rival apart isRival => ?_)
    fun _ _ _ _ demoting => ?_
  · rw [State.AtMostOneOwner, isMembers]
    exact sound.single
  · exact Txn.close_sound (sound.txns txn (mem_of_getElem? isTxn)).job
  · rw [isMembers]
    exact ⟨sound.txns rival (mem_of_getElem? isRival), fun _ => rfl⟩
  · obtain ⟨_, _, isPhase⟩ := demoting
    cases isPhase

/-- One of two demotions under way has the other before it. -/
theorem State.Sound.starts {previousOwner : Option String} {ownedElsewhere limit : ℕ}
    (sound : state.Sound) (within : (Step.run index ownedElsewhere limit).Within state)
    (isTxn : state.txns[index]? = some txn) (isPhase : txn.phase = .promoted previousOwner)
    {other : ℕ} {rival : Txn} (apart : other ≠ index) (isRival : state.txns[other]? = some rival)
    (demoting : rival.IsDemoting) :
    (txn.startDemotion (state.around index ownedElsewhere limit) previousOwner).Sees state.members
        rival ∨
      rival.Sees state.members
        (txn.startDemotion (state.around index ownedElsewhere limit) previousOwner) := by
  have isSound := sound.txns txn (mem_of_getElem? isTxn)
  have rivalSound := sound.txns rival (mem_of_getElem? isRival)
  obtain ⟨rivalPromoted, rivalCovers⟩ := rivalSound.demoting demoting
  obtain ⟨rivalPrevious, remaining, isDemoting⟩ := demoting
  have phase := isSound.phase
  rw [isPhase] at phase
  obtain ⟨previous, promoted, -⟩ := phase
  have different : rival.pubkey ≠ txn.pubkey := by
    intro same
    have both := rivalPromoted.held
    rw [same] at both
    exact apart (sound.exclusive other index rival txn _ isRival isTxn both promoted.held)
  have oneOwns : isOwner state.members txn.pubkey ∨
      isOwner state.members rival.pubkey := by
    by_cases bootstrap : txn.job = .bootstrapOwner ∨ rival.job = .bootstrapOwner
    · exact within txn previousOwner isTxn isPhase other rival rivalPrevious remaining apart isRival
        isDemoting bootstrap
    · -- two transfers lock the same owner row, and neither lets go of it
      exfalso
      have rivalPhase := rivalSound.phase
      rw [isDemoting] at rivalPhase
      have rivalBefore := rivalPhase.1
      unfold Txn.PreviousSound at previous rivalBefore
      split at previous
      · split at rivalBefore
        · obtain ⟨owner, -, -, holding, owns⟩ := previous
          obtain ⟨second, -, -, rivalHolding, rivalOwns⟩ := rivalBefore
          have same := sound.single owner second owns rivalOwns
          subst same
          exact apart (sound.exclusive other index rival txn _ isRival isTxn rivalHolding holding)
        next isJob => exact bootstrap (.inr isJob)
        · exact rivalBefore
      next isJob => exact bootstrap (.inl isJob)
      · exact previous
  cases oneOwns with
  | inr rivalOwns =>
    obtain ⟨row, present, isOwner⟩ := isOwner_iff.mp rivalOwns
    refine .inl ⟨row, present, isOwner, ?_⟩
    have rows : (txn.startDemotion (state.around index ownedElsewhere limit)
        previousOwner).remaining = state.members.matching fun pubkey role =>
          role = .owner && decide (pubkey ≠ txn.pubkey) := rfl
    rw [rows, mem_matching]
    refine ⟨row.value, present, ?_⟩
    rw [Bool.and_eq_true]
    exact ⟨decide_eq_true isOwner, decide_eq_true different⟩
  | inl owns =>
    obtain ⟨row, present, isOwner⟩ := isOwner_iff.mp owns
    cases rivalCovers txn.pubkey row present isOwner different.symm with
    | inl waits => exact .inr ⟨row, present, isOwner, waits⟩
    | inr written =>
      obtain ⟨demoted, isWritten, -⟩ := written
      have both := rivalSound.writtenHeld txn.pubkey demoted isWritten
      exact absurd (sound.exclusive other index rival txn _ isRival isTxn both promoted.held)
        apart

theorem State.Sound.goes {ownedElsewhere limit : ℕ} (sound : state.Sound)
    (within : (Step.run index ownedElsewhere limit).Within state)
    (isTxn : state.txns[index]? = some txn)
    (isNext : txn.next (state.around index ownedElsewhere limit) = some (.go next)) :
    (state.runTxn index txn (.go next)).1.Sound := by
  have isSound := sound.txns txn (mem_of_getElem? isTxn)
  have single : ∀ first second, isOwner (state.around index ownedElsewhere limit).members first →
      isOwner (state.around index ownedElsewhere limit).members second → first = second :=
    sound.single
  obtain ⟨nextSound, goes, demotes⟩ := Txn.Sound.go isSound single isNext
  refine sound.set isTxn rfl rfl sound.single nextSound goes.locks
    (fun other rival apart isRival => ⟨sound.txns rival (mem_of_getElem? isRival), fun _ => rfl⟩)
    fun other rival apart isRival demoting rivalDemoting => ?_
  cases demotes demoting with
  | starts previousOwner isPhase isStart =>
    rw [isStart]
    exact sound.starts within isTxn isPhase apart isRival rivalDemoting
  | continues before keeps =>
    cases sound.pairs index other txn rival apart.symm isTxn isRival before rivalDemoting with
    | inl sees =>
      obtain ⟨row, present, isOwner, waits⟩ := sees
      cases keeps rival.pubkey row present waits with
      | inl still => exact .inl ⟨row, present, isOwner, still⟩
      | inr free =>
        have rivalSound := sound.txns rival (mem_of_getElem? isRival)
        have held := (rivalSound.demoting rivalDemoting).1.held
        exact absurd free (ne_true_of_eq_false (State.not_free apart isRival held))
    | inr sees =>
      obtain ⟨row, present, rest⟩ := sees
      rw [← goes.pubkey] at present rest
      exact .inr ⟨row, present, rest⟩

theorem State.Sound.publish_held (sound : state.Sound) (isTxn : state.txns[index]? = some txn)
    {other : ℕ} {rival : Txn} (apart : other ≠ index) (isRival : state.txns[other]? = some rival)
    {pubkey : String} (held : rival.holds (.row pubkey)) :
    (state.members.publish txn.written).lookup pubkey = state.members.lookup pubkey := by
  rw [lookup_publish]
  cases written : txn.written.lookup pubkey with
  | none => rw [Option.none_or]
  | some row =>
    have isSound := sound.txns txn (mem_of_getElem? isTxn)
    have both := isSound.writtenHeld pubkey row written
    exact absurd (sound.exclusive other index rival txn _ isRival isTxn held both) apart

theorem State.Sound.publishes (sound : state.Sound) (isTxn : state.txns[index]? = some txn)
    {result : Result} (single : (state.runTxn index txn (.commit result)).1.AtMostOneOwner)
    (owners : ∀ other rival, other ≠ index → state.txns[other]? = some rival → rival.IsDemoting →
      ∀ pubkey row, (state.members.publish txn.written).lookup pubkey = some row →
        row.value = .owner → state.members.lookup pubkey = some row ∨
          (pubkey, row.incarnation) ∈ rival.remaining) :
    (state.runTxn index txn (.commit result)).1.Sound := by
  refine sound.set isTxn rfl rfl single ?_ nofun (fun other rival apart isRival => ?_)
    fun _ _ _ _ demoting => ?_
  · exact Txn.close_sound (sound.txns txn (mem_of_getElem? isTxn)).job
  · have rivalSound := sound.txns rival (mem_of_getElem? isRival)
    refine ⟨rivalSound.frame (fun pubkey held => sound.publish_held isTxn apart isRival held)
      (owners other rival apart isRival), fun demoting => ?_⟩
    exact sound.publish_held isTxn apart isRival (rivalSound.demoting demoting).1.held
  · obtain ⟨_, _, isPhase⟩ := demoting
    cases isPhase

theorem Txn.Sound.inserted {members : Members} {isNew : Bool} (sound : txn.Sound members)
    (isPhase : txn.phase = .inserted isNew) {pubkey : String} {row : Row Role}
    (present : (members.publish txn.written).lookup pubkey = some row) (isOwner : row.value = .owner) :
    members.lookup pubkey = some row := by
  have phase := sound.phase
  rw [isPhase] at phase
  rw [lookup_publish] at present
  cases written : txn.written.lookup pubkey with
  | none =>
    rw [written, Option.none_or] at present
    exact present
  | some other =>
    rw [written, Option.some_or] at present
    cases present
    exact absurd isOwner (phase.2 pubkey _ written).1

theorem State.Sound.commits {ownedElsewhere limit : ℕ} {result : Result} (sound : state.Sound)
    (isTxn : state.txns[index]? = some txn)
    (isNext : txn.next (state.around index ownedElsewhere limit) = some (.commit result)) :
    (state.runTxn index txn (.commit result)).1.Sound := by
  have isSound := sound.txns txn (mem_of_getElem? isTxn)
  cases Txn.commit_cases isNext with
  | inl demotion =>
    obtain ⟨previousOwner, isPhase, -⟩ := demotion
    obtain ⟨-, only, -⟩ := isSound.commit isPhase
    refine sound.publishes isTxn (fun first second owns again =>
      (only first owns).trans (only second again).symm) fun other rival apart isRival demoting => ?_
    intro pubkey row present isOwner
    have same := only pubkey (isOwner_iff.mpr ⟨row, present, isOwner⟩)
    subst same
    have demotes : txn.IsDemoting := ⟨_, _, isPhase⟩
    have done : txn.remaining = [] := by rw [Txn.remaining, isPhase]
    cases sound.pairs index other txn rival apart.symm isTxn isRival demotes demoting with
    | inl sees =>
      obtain ⟨_, _, _, waits⟩ := sees
      rw [done] at waits
      exact absurd waits not_mem_nil
    | inr sees =>
      obtain ⟨old, isOld, -, waits⟩ := sees
      obtain ⟨written, isWritten, -, keeps⟩ := (isSound.demoting demotes).1.written
      rw [lookup_publish, isWritten, Option.some_or] at present
      cases present
      rw [keeps old isOld] at waits
      exact .inr waits
  | inr insertion =>
    obtain ⟨isNew, isPhase, -⟩ := insertion
    refine sound.publishes isTxn (fun first second owns again => ?_)
      fun other rival apart isRival demoting pubkey row present isOwner =>
        .inl (isSound.inserted isPhase present isOwner)
    have before {pubkey : String}
        (owns : isOwner (state.members.publish txn.written) pubkey) :
        isOwner state.members pubkey := by
      obtain ⟨row, present, isOwner⟩ := isOwner_iff.mp owns
      exact isOwner_iff.mpr ⟨row, isSound.inserted isPhase present isOwner, isOwner⟩
    exact sound.single first second (before owns) (before again)

theorem State.Sound.statement {statement : Statement} (sound : state.Sound)
    (plain : statement.NotForOwners) (ran : state.runStatement statement = some after) :
    after.Sound := by
  unfold State.runStatement at ran
  cases result : statement.run state.members state.fresh state.freeForAll with
  | none =>
    rw [result] at ran
    cases ran
  | some members =>
    rw [result] at ran
    cases ran
    have frame := Statement.run_frame plain result
    have before {pubkey : String} (owns : isOwner members pubkey) :
        members.lookup pubkey = state.members.lookup pubkey := by
      cases frame pubkey with
      | inl same => exact same
      | inr changed =>
        rw [changed.2.2] at owns
        cases owns
    have held {txn : Txn} (member : txn ∈ state.txns) {pubkey : String}
        (holding : txn.holds (.row pubkey)) :
        members.lookup pubkey = state.members.lookup pubkey := by
      cases frame pubkey with
      | inl same => exact same
      | inr changed =>
        have free := changed.1
        rw [State.freeForAll, Bool.not_eq_true', any_eq_false] at free
        exact absurd holding (free txn member)
    refine ⟨fun first second owns again => ?_, sound.exclusive, fun txn member => ?_,
      fun first second one two apart isOne isTwo oneDemotes twoDemotes => ?_, sound.commands⟩
    · exact sound.single first second ((isOwner_congr (before owns)).symm.trans owns)
        ((isOwner_congr (before again)).symm.trans again)
    · refine (sound.txns txn member).frame (fun pubkey holding => held member holding)
        fun _ pubkey row present isOwner => .inl ?_
      rw [← before (isOwner_iff.mpr ⟨row, present, isOwner⟩)]
      exact present
    · have one' := mem_of_getElem? isOne
      have two' := mem_of_getElem? isTwo
      have sameOne := held one' ((sound.txns one one').demoting oneDemotes).1.held
      have sameTwo := held two' ((sound.txns two two').demoting twoDemotes).1.held
      cases sound.pairs first second one two apart isOne isTwo oneDemotes twoDemotes with
      | inl sees => exact .inl (sees.frame sameTwo)
      | inr sees => exact .inr (sees.frame sameOne)

theorem executeRelayAdminCommand_ok {event : Event} {now : ℤ} {senderRole : Option Role}
    {statement : Statement}
    (ok : executeRelayAdminCommand event now senderRole = .ok (some statement)) :
    statement.NotForOwners ∧ (senderRole = some .admin → statement.ForMembers) := by
  unfold executeRelayAdminCommand at ok
  split at ok
  · cases ok
  · split at ok
    · obtain ⟨_, -, ok⟩ := bind_ok ok
      obtain ⟨_, -, ok⟩ := bind_ok ok
      cases ok
    · split at ok
      · cases ok
      · dsimp only at ok
        split at ok
        · obtain ⟨made, ok, isMade⟩ := map_ok ok
          cases isMade
          obtain ⟨_, -, ok⟩ := bind_ok ok
          dsimp only at ok
          split at ok
          · cases ok
          · split at ok
            · cases ok
            · split at ok
              · cases ok
                exact ⟨nofun, fun _ => trivial⟩
              · split at ok
                · cases ok
                  exact ⟨nofun, fun _ => trivial⟩
                · cases ok
        · split at ok
          · obtain ⟨made, ok, isMade⟩ := map_ok ok
            cases isMade
            obtain ⟨_, -, ok⟩ := bind_ok ok
            split at ok
            · cases ok
            · split at ok
              · cases ok
                exact ⟨nofun, fun _ => rfl⟩
              next notAdmin =>
                cases ok
                exact ⟨trivial, fun isAdmin => absurd isAdmin notAdmin⟩
          · split at ok
            · obtain ⟨made, ok, isMade⟩ := map_ok ok
              cases isMade
              unfold changeStatement at ok
              split at ok
              · cases ok
              next isOwner =>
                have sender := Decidable.of_not_not isOwner
                split at ok
                · cases ok
                · split at ok
                  · cases ok
                  · split at ok
                    · cases ok
                    · split at ok
                      · cases ok
                        exact ⟨nofun, fun isAdmin => absurd (sender.symm.trans isAdmin) nofun⟩
                      · split at ok
                        · cases ok
                          exact ⟨nofun, fun isAdmin => absurd (sender.symm.trans isAdmin) nofun⟩
                        · cases ok
            · cases ok

theorem State.Sound.step {step : Step} (sound : state.Sound) (within : step.Within state) :
    (state.after step).Sound := by
  cases step with
  | start job pubkey =>
    unfold State.after State.step
    dsimp only
    have idle : ∀ lock, (Txn.start job pubkey).holds lock = false := by
      intro lock
      cases job <;> rfl
    have empty : (Txn.start job pubkey).written = ∅ := by cases job <;> rfl
    have begun : (Txn.start job pubkey).phase = .begun := by cases job <;> rfl
    refine ⟨sound.single, sound.exclusive.concat idle, fun txn member => ?_,
      fun first second one two apart isOne isTwo oneDemotes twoDemotes => ?_, sound.commands⟩
    · cases mem_append.mp member with
      | inl old => exact sound.txns txn old
      | inr new =>
        rw [mem_singleton.mp new]
        refine ⟨?_, fun key row isWritten => ?_, ?_⟩
        · cases job with
          | bootstrapOwner | transferOwnership expectedOwner => trivial
          | claimRelayMembership role => exact within
        · rw [empty, AList.lookup_empty] at isWritten
          cases isWritten
        · rw [begun]
          exact empty
    · have started {txn : Txn} {other : ℕ} (found : other = state.txns.length ∧
          txn = Txn.start job pubkey) : ¬ txn.IsDemoting := by
        intro demoting
        obtain ⟨_, _, isPhase⟩ := demoting
        rw [found.2, begun] at isPhase
        cases isPhase
      cases getElem?_concat isOne with
      | inr last => exact absurd oneDemotes (started last)
      | inl before =>
        cases getElem?_concat isTwo with
        | inr last => exact absurd twoDemotes (started last)
        | inl again =>
          exact sound.pairs first second one two apart before again oneDemotes twoDemotes
  | run index ownedElsewhere limit =>
    unfold State.after State.step
    dsimp only
    split
    · exact sound
    next txn isTxn =>
      split
      · exact sound
      next move isNext =>
        cases move with
        | go next => exact sound.goes within isTxn isNext
        | commit result => exact sound.commits isTxn isNext
        | rollback result => exact sound.drop isTxn rfl rfl rfl
  | abort index =>
    unfold State.after State.step
    dsimp only
    split
    · exact sound
    next txn isTxn => exact sound.drop isTxn rfl rfl rfl
  | statement call =>
    unfold State.after State.step
    dsimp only
    cases ran : state.runStatement call with
    | none => exact sound
    | some after => exact sound.statement within ran
  | command event now =>
    unfold State.after State.step
    dsimp only
    split
    next statement ok =>
      refine ⟨sound.single, sound.exclusive, sound.txns, sound.pairs, fun command member => ?_⟩
      cases mem_append.mp member with
      | inl old => exact sound.commands command old
      | inr new =>
        rw [mem_singleton.mp new]
        exact executeRelayAdminCommand_ok ok
    · exact sound
  | execute index =>
    unfold State.after State.step
    dsimp only
    split
    · exact sound
    next command isCommand =>
      split
      · exact sound
      next next ran =>
        have plain := (sound.commands command (mem_of_getElem? isCommand)).1
        have ranSound := sound.statement plain ran
        refine ⟨ranSound.single, ranSound.exclusive, ranSound.txns, ranSound.pairs,
          fun other member => sound.commands other (mem_of_mem_eraseIdx member)⟩

theorem Statement.run_members {members after : Members} {fresh : ℕ} {free : LockName → Bool}
    {statement : Statement} (forMembers : statement.ForMembers)
    (ran : statement.run members fresh free = some after) {pubkey : String} {row : Row Role}
    (present : members.lookup pubkey = some row) (high : row.value = .owner ∨ row.value = .admin) :
    after.lookup pubkey = some row := by
  cases Statement.run_lookup ran pubkey with
  | inl same => exact same.trans present
  | inr changed =>
    obtain ⟨-, ⟨role, -, absent, -⟩ | ⟨old, isOld, changed⟩⟩ := changed
    · cases absent.symm.trans present
    · cases isOld.symm.trans present
      obtain ⟨rfl, -⟩ | ⟨rfl, -⟩ | ⟨role, rfl, -⟩ := changed
      · exact forMembers.elim
      · have isMember : row.value = .member := forMembers
        simp [isMember] at high
      · exact forMembers.elim

theorem State.ownerKept_statement {statement : Statement} (plain : statement.NotForOwners)
    (ran : state.runStatement statement = some after) (owned : state.HasOwner) : after.HasOwner := by
  unfold State.runStatement at ran
  cases result : statement.run state.members state.fresh state.freeForAll with
  | none =>
    rw [result] at ran
    cases ran
  | some members =>
    rw [result] at ran
    cases ran
    obtain ⟨pubkey, owns⟩ := owned
    refine ⟨pubkey, ?_⟩
    cases Statement.run_frame plain result pubkey with
    | inl same => exact (isOwner_congr same).trans owns
    | inr changed =>
      rw [changed.2.1] at owns
      cases owns

theorem Txn.Sound.ownerKept {members : Members} {isNew : Bool} (sound : txn.Sound members)
    (isPhase : txn.phase = .inserted isNew) {pubkey : String}
    (owns : isOwner members pubkey) :
    isOwner (members.publish txn.written) pubkey := by
  have phase := sound.phase
  rw [isPhase] at phase
  obtain ⟨row, present, isOwner⟩ := isOwner_iff.mp owns
  refine isOwner_iff.mpr ⟨row, ?_, isOwner⟩
  rw [lookup_publish]
  cases written : txn.written.lookup pubkey with
  | none => rw [Option.none_or, present]
  | some other => cases (phase.2 pubkey other written).2.symm.trans present

theorem State.Sound.ownerKept {step : Step} (sound : state.Sound) (within : step.Within state)
    (owned : state.HasOwner) : (state.after step).HasOwner := by
  cases step with
  | start job pubkey => exact owned
  | run index ownedElsewhere limit =>
    unfold State.after State.step
    dsimp only
    split
    · exact owned
    next txn isTxn =>
      split
      · exact owned
      next move isNext =>
        have isSound := sound.txns txn (mem_of_getElem? isTxn)
        cases move with
        | go next => exact owned
        | commit result =>
          cases Txn.commit_cases isNext with
          | inl demotion =>
            obtain ⟨previousOwner, isPhase, -⟩ := demotion
            exact ⟨txn.pubkey, (isSound.commit isPhase).1⟩
          | inr insertion =>
            obtain ⟨isNew, isPhase, -⟩ := insertion
            obtain ⟨pubkey, owns⟩ := owned
            exact ⟨pubkey, isSound.ownerKept isPhase owns⟩
        | rollback result => exact owned
  | abort index =>
    unfold State.after State.step
    dsimp only
    split <;> exact owned
  | statement call =>
    unfold State.after State.step
    dsimp only
    cases ran : state.runStatement call with
    | none => exact owned
    | some after => exact State.ownerKept_statement within ran owned
  | command event now =>
    unfold State.after State.step
    dsimp only
    split <;> exact owned
  | execute index =>
    unfold State.after State.step
    dsimp only
    split
    · exact owned
    next command isCommand =>
      split
      · exact owned
      next next ran =>
        have plain := (sound.commands command (mem_of_getElem? isCommand)).1
        have kept := State.ownerKept_statement plain ran owned
        exact kept

theorem State.Sound.kept {step : Step} (sound : state.Sound) (within : step.Within state) :
    step.Kept state where
  single := (sound.step within).single
  ownerKept := sound.ownerKept within
  transferred := by
    intro index ownedElsewhere limit txn previousOwner isStep isTxn isResult
    subst isStep
    have isSound := sound.txns txn (mem_of_getElem? isTxn)
    unfold State.after
    cases isNext : txn.next (state.around index ownedElsewhere limit) with
    | none =>
      simp only [State.step, isTxn, isNext] at isResult
      cases isResult
    | some move =>
      simp only [State.step, isTxn, isNext] at isResult ⊢
      cases move with
      | go next => cases isResult
      | rollback result =>
        cases isResult
        exact absurd rfl (Txn.rollback_cases isNext previousOwner)
      | commit result =>
        cases isResult
        cases Txn.commit_cases isNext with
        | inr insertion =>
          obtain ⟨isNew, -, isResult⟩ := insertion
          cases isResult
        | inl demotion =>
          obtain ⟨previous, isPhase, isResult⟩ := demotion
          cases isResult with
          | inl bootstrapped => cases bootstrapped
          | inr transferred =>
            obtain ⟨isResult, expectedOwner, isJob⟩ := transferred
            cases isResult
            obtain ⟨owns, -, demoted⟩ := isSound.commit isPhase
            have phase := isSound.phase
            rw [isPhase] at phase
            have before := phase.1
            unfold Txn.PreviousSound at before
            rw [isJob] at before
            obtain ⟨owner, isPrevious, apart, -, owned⟩ := before
            have role := demoted owner owned apart
            rw [isJob] at role
            exact ⟨owns, owner, isPrevious, owned, role⟩
  otherResult := by
    intro result isResult other
    cases step with
    | run index ownedElsewhere limit =>
      unfold State.after
      cases isTxn : state.txns[index]? with
      | none =>
        simp only [State.step, isTxn] at isResult
        cases isResult
      | some txn =>
        cases isNext : txn.next (state.around index ownedElsewhere limit) with
        | none =>
          simp only [State.step, isTxn, isNext] at isResult
          cases isResult
        | some move =>
          simp only [State.step, isTxn, isNext] at isResult ⊢
          cases move with
          | go next => cases isResult
          | rollback result => rfl
          | commit outcome =>
            cases isResult
            cases Txn.commit_cases isNext with
            | inr insertion =>
              obtain ⟨isNew, -, isResult⟩ := insertion
              cases isResult
            | inl demotion =>
              obtain ⟨previous, isPhase, isResult⟩ := demotion
              cases isResult with
              | inl bootstrapped => cases bootstrapped
              | inr transferred =>
                cases transferred.1
                exact absurd rfl (other previous)
    | start job pubkey => cases isResult
    | abort index =>
      unfold State.step at isResult
      dsimp only at isResult
      split at isResult <;> cases isResult
    | statement call => cases isResult
    | command event now =>
      unfold State.step at isResult
      dsimp only at isResult
      split at isResult <;> cases isResult
    | execute index =>
      unfold State.step at isResult
      dsimp only at isResult
      split at isResult
      · cases isResult
      · split at isResult <;> cases isResult
  adminCommand := by
    intro index command isStep isCommand isAdmin pubkey row present high
    subst isStep
    unfold State.after State.step
    simp only [isCommand]
    split
    · exact present
    next next ran =>
      have forMembers := (sound.commands command (mem_of_getElem? isCommand)).2 isAdmin
      unfold State.runStatement at ran
      split at ran
      · cases ran
      next members result =>
        cases ran
        exact Statement.run_members forMembers result present high

theorem State.start_sound (community : Community) : (State.start community).Sound where
  single := community.single
  exclusive := by
    intro first second one two key isOne
    cases isOne
  txns _ member := absurd member not_mem_nil
  pairs := by
    intro first second one two apart isOne
    cases isOne
  commands _ member := absurd member not_mem_nil

theorem State.Sound.eachStep {steps : List Step} : ∀ {state : State}, state.Sound →
    state.EachStep (fun state step => step.Within state) steps →
      state.EachStep (fun state step => step.Kept state) steps := by
  induction steps with
  | nil => exact fun _ _ => trivial
  | cons step rest hypothesis =>
    intro state sound within
    exact ⟨sound.kept within.1, hypothesis (sound.step within.1) within.2⟩

end states

/-- A community keeps its one owner, but for owner changes. -/
theorem one_owner (community : Community) (steps : List Step)
    (within : (State.start community).EachStep (fun state step => step.Within state) steps) :
    (State.start community).EachStep (fun state step => step.Kept state) steps :=
  (State.start_sound community).eachStep within

theorem Step.within_alone {state : State} {index ownedElsewhere limit : ℕ}
    (alone : state.txns.length ≤ 1) : (Step.run index ownedElsewhere limit).Within state := by
  intro txn previousOwner isTxn isPhase other rival rivalPrevious remaining apart isRival
  have first := (List.getElem?_eq_some_iff.mp isTxn).1
  have second := (List.getElem?_eq_some_iff.mp isRival).1
  omega

def sampleHex (byte : UInt8) : String := String.ofList (hexEncode (replicate 32 byte))

def sampleCommunity : Community where
  members := AList.insert (sampleHex 3) ⟨0, .owner⟩ ∅
  single := by
    have only {pubkey : String} (owns : isOwner (AList.insert (sampleHex 3) ⟨0, .owner⟩ ∅) pubkey) :
        pubkey = sampleHex 3 := by
      by_contra apart
      rw [isOwner, AList.lookup_insert_ne apart, AList.lookup_empty] at owns
      cases owns
    exact fun first second owns again => (only owns).trans (only again).symm

/-- A new owner key at a start-up. -/
theorem rotated_owner :
    (State.start sampleCommunity).EachStep (fun state step => step.Kept state)
      [.start .bootstrapOwner (sampleHex 1), .run 0 0 5, .run 0 0 5, .run 0 0 5, .run 0 0 5] :=
  one_owner sampleCommunity _ ⟨trivial, Step.within_alone (by decide +kernel),
    Step.within_alone (by decide +kernel), Step.within_alone (by decide +kernel),
    Step.within_alone (by decide +kernel), trivial⟩

/-- Neither demotion sees the promotion of the other. -/
theorem two_owners :
    ¬ (State.start sampleCommunity).EachStep (fun state step => step.Kept state)
      [.start .bootstrapOwner (sampleHex 1), .start .bootstrapOwner (sampleHex 2),
        .run 0 0 5, .run 1 0 5, .run 0 0 5, .run 1 0 5, .run 0 0 5, .run 0 0 5, .run 1 0 5,
        .run 1 0 5] := by
  intro kept
  have last := kept.2.2.2.2.2.2.2.2.2.1.single
  have same := last (sampleHex 1) (sampleHex 2) (by decide +kernel) (by decide +kernel)
  revert same
  decide +kernel

end Buzz.RelayMembers
