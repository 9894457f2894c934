import Buzz.Library.RefCount

/-! Registrations that take a slot, are retained once in a table of reference counts and are
released once after they have lost their slot. -/

namespace Buzz.Library.Holdings

open Library.RefCount List Option
open Function (update_of_ne update_self)

variable {Id Slot Place Key : Type}

structure Sheet (Slot Key : Type) where
  slot : Slot
  key : Key
  retained : Bool

/-- `pending` lists the registrations still to be released at each place. -/
structure Books (Id Slot Place Key : Type) [DecidableEq Key] where
  sheets : Id → Option (Sheet Slot Key)
  owner : Slot → Option Id
  pending : Place → List Id
  counts : Counts Key

namespace Books

variable [DecidableEq Key]

def Live (books : Books Id Slot Place Key) (id : Id) (slot : Slot) : Prop :=
  books.owner slot = some id ∨ ∃ place, id ∈ books.pending place

def Holds (books : Books Id Slot Place Key) (id : Id) (key : Key) : Prop :=
  ∃ sheet, books.sheets id = some sheet ∧ sheet.key = key ∧ sheet.retained ∧
    books.Live id sheet.slot

structure Sound (books : Books Id Slot Place Key) : Prop where
  owned : ∀ slot id, books.owner slot = some id →
    ∃ sheet, books.sheets id = some sheet ∧ sheet.slot = slot
  waiting : ∀ place id, id ∈ books.pending place →
    ∃ sheet, books.sheets id = some sheet ∧ books.owner sheet.slot ≠ some id
  alone : ∀ place other id, id ∈ books.pending place → id ∈ books.pending other → place = other
  distinct : ∀ place, (books.pending place).Nodup
  unretained : ∀ id sheet, books.sheets id = some sheet → sheet.retained = false →
    books.Live id sheet.slot
  accounted : ∃ held : List (Id × Key), held.Nodup ∧ Accounts books.counts Prod.snd held ∧
    ∀ id key, (id, key) ∈ held ↔ books.Holds id key

variable [DecidableEq Id] [DecidableEq Slot] [DecidableEq Place]

def register (books : Books Id Slot Place Key) (id : Id) (place : Place) (slot : Slot) (key : Key) :
    Books Id Slot Place Key where
  sheets := Function.update books.sheets id (some ⟨slot, key, false⟩)
  owner := Function.update books.owner slot (some id)
  pending := Function.update books.pending place (books.owner slot).toList
  counts := books.counts

def retain (books : Books Id Slot Place Key) (id : Id) (sheet : Sheet Slot Key) :
    Books Id Slot Place Key :=
  { books with
    sheets := Function.update books.sheets id (some { sheet with retained := true })
    counts := (RefCount.retain books.counts sheet.key).1 }

def remove (books : Books Id Slot Place Key) (place : Place) (gone : Slot → Bool) (ids : List Id) :
    Books Id Slot Place Key :=
  { books with
    owner := fun slot => if gone slot then none else books.owner slot
    pending := Function.update books.pending place ids }

def release (books : Books Id Slot Place Key) (place : Place) (rest : List Id) (key : Key) :
    Books Id Slot Place Key :=
  { books with
    pending := Function.update books.pending place rest
    counts := (RefCount.release books.counts key).1 }

variable {books : Books Id Slot Place Key} {id : Id} {place : Place}

section sound

omit [DecidableEq Id] [DecidableEq Slot] [DecidableEq Place]

theorem Sound.owner_of_pending (sound : books.Sound) {place : Place} {id : Id}
    {sheet : Sheet Slot Key} (member : id ∈ books.pending place)
    (found : books.sheets id = some sheet) : books.owner sheet.slot ≠ some id := by
  rcases sound.waiting place id member with ⟨sheet', found', notOwner⟩
  rw [found, Option.some.injEq] at found'
  rw [found']
  exact notOwner

theorem Sound.slot_of_owner (sound : books.Sound) {slot : Slot} {id : Id} {sheet : Sheet Slot Key}
    (owns : books.owner slot = some id) (found : books.sheets id = some sheet) :
    sheet.slot = slot := by
  rcases sound.owned slot id owns with ⟨sheet', found', same⟩
  rw [found, Option.some.injEq] at found'
  rw [found', same]

theorem Sound.accounted_of_holds (sound : books.Sound) (next : Books Id Slot Place Key)
    (counts : next.counts = books.counts)
    (holds : ∀ id key, next.Holds id key ↔ books.Holds id key) :
    ∃ held : List (Id × Key), held.Nodup ∧ Accounts next.counts Prod.snd held ∧
      ∀ id key, (id, key) ∈ held ↔ next.Holds id key := by
  rcases sound.accounted with ⟨held, distinct, accounts, members⟩
  refine ⟨held, distinct, ?_, ?_⟩
  · rw [counts]
    exact accounts
  · intro id key
    rw [members, holds]

theorem Sound.alone_update [DecidableEq Place] (sound : books.Sound) {place : Place} {ids : List Id}
    (apart : ∀ other id, id ∈ ids → id ∈ books.pending other → other = place) :
    ∀ first second id, id ∈ Function.update books.pending place ids first →
      id ∈ Function.update books.pending place ids second → first = second := by
  intro first second id member member'
  by_cases here : first = place <;> by_cases here' : second = place
  · rw [here, here']
  · rw [here, update_self] at member
    rw [update_of_ne here'] at member'
    exact absurd (apart second id member member') here'
  · rw [here', update_self] at member'
    rw [update_of_ne here] at member
    exact absurd (apart first id member' member) here
  · rw [update_of_ne here] at member
    rw [update_of_ne here'] at member'
    exact sound.alone first second id member member'

theorem Sound.distinct_update [DecidableEq Place] (sound : books.Sound) {place : Place}
    {ids : List Id} (distinct : ids.Nodup) (other : Place) :
    (Function.update books.pending place ids other).Nodup := by
  by_cases here : other = place
  · rw [here, update_self]
    exact distinct
  · rw [update_of_ne here]
    exact sound.distinct other

end sound

section register

variable {slot : Slot} {key : Key}

omit [DecidableEq Slot] [DecidableEq Place] in
theorem sheets_register {old : Id} {sheet : Sheet Slot Key} (fresh : books.sheets id = none) :
    Function.update books.sheets id (some ⟨slot, key, false⟩) old = some sheet ↔
      books.sheets old = some sheet ∧ old ≠ id ∨ old = id ∧ sheet = ⟨slot, key, false⟩ := by
  by_cases same : old = id
  · subst same
    simp [fresh, eq_comm]
  · simp [same]

theorem register_live (sound : books.Sound) (fresh : books.sheets id = none)
    (empty : books.pending place = []) {old : Id} {sheet : Sheet Slot Key}
    (found : books.sheets old = some sheet) :
    (books.register id place slot key).Live old sheet.slot ↔ books.Live old sheet.slot := by
  have other : old ≠ id := by
    rintro rfl
    rw [fresh] at found
    cases found
  have elsewhere {where_ : Place} (member : old ∈ books.pending where_) : where_ ≠ place := by
    rintro rfl
    rw [empty] at member
    cases member
  constructor
  · rintro (owns | ⟨where_, member⟩)
    · by_cases same : sheet.slot = slot
      · simp only [Books.register, same, update_self, Option.some.injEq] at owns
        exact absurd owns.symm other
      · simp only [Books.register, update_of_ne same] at owns
        exact .inl owns
    · by_cases here : where_ = place
      · simp only [Books.register, here, update_self, mem_toList] at member
        rw [sound.slot_of_owner member found]
        exact .inl member
      · simp only [Books.register, update_of_ne here] at member
        exact .inr ⟨where_, member⟩
  · rintro (owns | ⟨where_, member⟩)
    · by_cases same : sheet.slot = slot
      · rw [same] at owns
        exact .inr ⟨place, by simp [Books.register, owns]⟩
      · exact .inl (by simp only [Books.register, update_of_ne same, owns])
    · refine .inr ⟨where_, ?_⟩
      simp only [Books.register, update_of_ne (elsewhere member)]
      exact member

theorem Sound.register (sound : books.Sound) (fresh : books.sheets id = none)
    (empty : books.pending place = []) : (books.register id place slot key).Sound := by
  have other {old : Id} {sheet : Sheet Slot Key} (found : books.sheets old = some sheet) :
      old ≠ id := by
    rintro rfl
    rw [fresh] at found
    cases found
  have notNew {old : Id} {sheet : Sheet Slot Key} (found : books.sheets old = some sheet)
      (notOwner : sheet.slot ≠ slot → books.owner sheet.slot ≠ some old) :
      (books.register id place slot key).owner sheet.slot ≠ some old := by
    by_cases same : sheet.slot = slot
    · simp only [Books.register, same, update_self, ne_eq, Option.some.injEq]
      exact (other found).symm
    · simp only [Books.register, update_of_ne same]
      exact notOwner same
  constructor
  · intro slot' old owns
    by_cases same : slot' = slot
    · simp only [Books.register, same, update_self, Option.some.injEq] at owns
      subst owns
      exact ⟨_, update_self .., same.symm⟩
    · simp only [Books.register, update_of_ne same] at owns
      rcases sound.owned slot' old owns with ⟨sheet, found, itsSlot⟩
      exact ⟨sheet, (sheets_register fresh).mpr (.inl ⟨found, other found⟩), itsSlot⟩
  · intro where_ old member
    by_cases here : where_ = place
    · simp only [Books.register, here, update_self, mem_toList] at member
      rcases sound.owned slot old member with ⟨sheet, found, itsSlot⟩
      exact ⟨sheet, (sheets_register fresh).mpr (.inl ⟨found, other found⟩),
        notNew found fun apart => absurd itsSlot apart⟩
    · simp only [Books.register, update_of_ne here] at member
      rcases sound.waiting where_ old member with ⟨sheet, found, notOwner⟩
      exact ⟨sheet, (sheets_register fresh).mpr (.inl ⟨found, other found⟩),
        notNew found fun _ => notOwner⟩
  · apply sound.alone_update
    intro where_ old member pending
    have owns := mem_toList.mp member
    rcases sound.owned slot old owns with ⟨sheet, found, itsSlot⟩
    rw [← itsSlot] at owns
    exact absurd owns (sound.owner_of_pending pending found)
  · apply sound.distinct_update
    cases books.owner slot with
    | none => exact nodup_nil
    | some old => exact nodup_singleton old
  · intro old sheet found unretained
    rcases (sheets_register fresh).mp found with ⟨found, -⟩ | ⟨rfl, rfl⟩
    · exact (register_live sound fresh empty found).mpr
        (sound.unretained old sheet found unretained)
    · exact .inl (update_self ..)
  · apply sound.accounted_of_holds (books.register id place slot key) rfl
    intro old wanted
    constructor
    · rintro ⟨sheet, found, itsKey, retained, alive⟩
      rcases (sheets_register fresh).mp found with ⟨found, -⟩ | ⟨rfl, rfl⟩
      · exact ⟨sheet, found, itsKey, retained, (register_live sound fresh empty found).mp alive⟩
      · cases retained
    · rintro ⟨sheet, found, itsKey, retained, alive⟩
      exact ⟨sheet, (sheets_register fresh).mpr (.inl ⟨found, other found⟩), itsKey, retained,
        (register_live sound fresh empty found).mpr alive⟩

end register

section retain

variable {sheet : Sheet Slot Key}

omit [DecidableEq Slot] [DecidableEq Place] in
theorem Sound.retain (sound : books.Sound) (found : books.sheets id = some sheet)
    (unretained : sheet.retained = false) : (books.retain id sheet).Sound := by
  have sheets {old : Id} {kept : Sheet Slot Key} (present : books.sheets old = some kept) :
      ∃ next, (books.retain id sheet).sheets old = some next ∧ next.slot = kept.slot := by
    by_cases same : old = id
    · subst same
      rw [found, Option.some.injEq] at present
      exact ⟨_, update_self .., by rw [← present]⟩
    · exact ⟨kept, (update_of_ne same _ _).trans present, rfl⟩
  constructor
  · intro slot old owns
    rcases sound.owned slot old owns with ⟨kept, present, itsSlot⟩
    rcases sheets present with ⟨next, present', sameSlot⟩
    exact ⟨next, present', sameSlot.trans itsSlot⟩
  · intro place old member
    rcases sound.waiting place old member with ⟨kept, present, notOwner⟩
    rcases sheets present with ⟨next, present', sameSlot⟩
    refine ⟨next, present', ?_⟩
    rw [sameSlot]
    exact notOwner
  · exact sound.alone
  · exact sound.distinct
  · intro old kept present still
    by_cases same : old = id
    · subst same
      simp only [Books.retain, update_self, Option.some.injEq] at present
      subst present
      cases still
    · simp only [Books.retain, update_of_ne same] at present
      exact sound.unretained old kept present still
  · rcases sound.accounted with ⟨held, distinct, accounts, members⟩
    refine ⟨(id, sheet.key) :: held, ?_, accounts.retain (id, sheet.key), ?_⟩
    · refine nodup_cons.mpr ⟨?_, distinct⟩
      intro already
      rcases (members id sheet.key).mp already with ⟨kept, present, -, retained, -⟩
      rw [found, Option.some.injEq] at present
      rw [← present, unretained] at retained
      cases retained
    · intro old wanted
      rw [mem_cons, members, Prod.mk.injEq]
      constructor
      · rintro (⟨rfl, rfl⟩ | ⟨kept, present, itsKey, retained, alive⟩)
        · exact ⟨_, update_self .., rfl, rfl, sound.unretained old sheet found unretained⟩
        · have other : old ≠ id := by
            rintro rfl
            rw [found, Option.some.injEq] at present
            rw [← present, unretained] at retained
            cases retained
          exact ⟨kept, (update_of_ne other _ _).trans present, itsKey, retained, alive⟩
      · rintro ⟨kept, present, itsKey, retained, alive⟩
        by_cases same : old = id
        · subst same
          simp only [Books.retain, update_self, Option.some.injEq] at present
          subst present
          exact .inl ⟨rfl, itsKey.symm⟩
        · simp only [Books.retain, update_of_ne same] at present
          exact .inr ⟨kept, present, itsKey, retained, alive⟩

end retain

section remove

variable {gone : Slot → Bool} {ids : List Id}

omit [DecidableEq Id] [DecidableEq Slot] in
theorem remove_live (sound : books.Sound) (empty : books.pending place = [])
    (members : ∀ id, id ∈ ids ↔ ∃ slot, gone slot ∧ books.owner slot = some id) {id : Id}
    {sheet : Sheet Slot Key} (found : books.sheets id = some sheet) :
    (books.remove place gone ids).Live id sheet.slot ↔ books.Live id sheet.slot := by
  constructor
  · rintro (owns | ⟨where_, member⟩)
    · by_cases isGone : gone sheet.slot
      · simp [Books.remove, isGone] at owns
      · exact Or.inl (by simpa [Books.remove, isGone] using owns)
    · by_cases here : where_ = place
      · simp only [Books.remove, here, update_self] at member
        rcases (members id).mp member with ⟨slot, -, owns⟩
        rw [← sound.slot_of_owner owns found] at owns
        exact .inl owns
      · simp only [Books.remove, update_of_ne here] at member
        exact .inr ⟨where_, member⟩
  · rintro (owns | ⟨where_, member⟩)
    · by_cases isGone : gone sheet.slot
      · refine .inr ⟨place, ?_⟩
        simp only [Books.remove, update_self]
        exact (members id).mpr ⟨sheet.slot, isGone, owns⟩
      · exact Or.inl (by simpa [Books.remove, isGone] using owns)
    · have elsewhere : where_ ≠ place := by
        rintro rfl
        rw [empty] at member
        cases member
      refine .inr ⟨where_, ?_⟩
      simp only [Books.remove, update_of_ne elsewhere]
      exact member

omit [DecidableEq Id] [DecidableEq Slot] in
theorem Sound.remove (sound : books.Sound) (empty : books.pending place = []) (distinct : ids.Nodup)
    (members : ∀ id, id ∈ ids ↔ ∃ slot, gone slot ∧ books.owner slot = some id) :
    (books.remove place gone ids).Sound := by
  have kept {slot : Slot} {id : Id} (owns : (books.remove place gone ids).owner slot = some id) :
      books.owner slot = some id ∧ gone slot = false := by
    cases isGone : gone slot with
    | true => simp [Books.remove, isGone] at owns
    | false => exact ⟨by simpa [Books.remove, isGone] using owns, rfl⟩
  constructor
  · intro slot id owns
    exact sound.owned slot id (kept owns).1
  · intro where_ id member
    by_cases here : where_ = place
    · simp only [Books.remove, here, update_self] at member
      rcases (members id).mp member with ⟨slot, isGone, owns⟩
      rcases sound.owned slot id owns with ⟨sheet, found, itsSlot⟩
      refine ⟨sheet, found, ?_⟩
      intro still
      have stays := (kept still).2
      rw [itsSlot, isGone] at stays
      cases stays
    · simp only [Books.remove, update_of_ne here] at member
      rcases sound.waiting where_ id member with ⟨sheet, found, notOwner⟩
      exact ⟨sheet, found, fun owns => notOwner (kept owns).1⟩
  · apply sound.alone_update
    intro where_ id member pending
    rcases (members id).mp member with ⟨slot, -, owns⟩
    rcases sound.owned slot id owns with ⟨sheet, found, itsSlot⟩
    rw [← itsSlot] at owns
    exact absurd owns (sound.owner_of_pending pending found)
  · exact sound.distinct_update distinct
  · intro id sheet found unretained
    exact (remove_live sound empty members found).mpr (sound.unretained id sheet found unretained)
  · apply sound.accounted_of_holds (books.remove place gone ids) rfl
    intro id wanted
    constructor
    · rintro ⟨sheet, found, itsKey, retained, alive⟩
      exact ⟨sheet, found, itsKey, retained, (remove_live sound empty members found).mp alive⟩
    · rintro ⟨sheet, found, itsKey, retained, alive⟩
      exact ⟨sheet, found, itsKey, retained, (remove_live sound empty members found).mpr alive⟩

end remove

section release

variable {rest : List Id}

omit [DecidableEq Id] [DecidableEq Slot] in
theorem release_live {key : Key} (pending : books.pending place = id :: rest) {other : Id}
    (different : other ≠ id) (slot : Slot) :
    (books.release place rest key).Live other slot ↔ books.Live other slot := by
  have member (where_ : Place) :
      other ∈ Function.update books.pending place rest where_ ↔ other ∈ books.pending where_ := by
    by_cases here : where_ = place
    · rw [here, update_self, pending, mem_cons, or_iff_right different]
    · rw [update_of_ne here]
  constructor
  · rintro (owns | ⟨where_, waits⟩)
    · exact .inl owns
    · exact .inr ⟨where_, (member where_).mp waits⟩
  · rintro (owns | ⟨where_, waits⟩)
    · exact .inl owns
    · exact .inr ⟨where_, (member where_).mpr waits⟩

omit [DecidableEq Id] [DecidableEq Slot] in
theorem release_not_live (sound : books.Sound) (pending : books.pending place = id :: rest)
    {sheet : Sheet Slot Key} (found : books.sheets id = some sheet) {key : Key} :
    ¬ (books.release place rest key).Live id sheet.slot := by
  have here : id ∈ books.pending place := by
    rw [pending]
    exact mem_cons_self
  rintro (owns | ⟨where_, member⟩)
  · exact sound.owner_of_pending here found owns
  · by_cases same : where_ = place
    · simp only [Books.release, same, update_self] at member
      have distinct := sound.distinct place
      rw [pending] at distinct
      exact (nodup_cons.mp distinct).1 member
    · simp only [Books.release, update_of_ne same] at member
      exact same (sound.alone where_ place id member here)

omit [DecidableEq Slot] in
theorem Sound.release (sound : books.Sound) (pending : books.pending place = id :: rest)
    {sheet : Sheet Slot Key} (found : books.sheets id = some sheet)
    (retained : sheet.retained) : (books.release place rest sheet.key).Sound := by
  have here : id ∈ books.pending place := by
    rw [pending]
    exact mem_cons_self
  have still {where_ : Place} {old : Id}
      (member : old ∈ (books.release place rest sheet.key).pending where_) :
      old ∈ books.pending where_ := by
    by_cases same : where_ = place
    · simp only [Books.release, same, update_self] at member
      rw [same, pending]
      exact mem_cons_of_mem _ member
    · simpa only [Books.release, update_of_ne same] using member
  constructor
  · exact sound.owned
  · intro where_ old member
    exact sound.waiting where_ old (still member)
  · intro first second old member member'
    exact sound.alone first second old (still member) (still member')
  · apply sound.distinct_update
    have distinct := sound.distinct place
    rw [pending] at distinct
    exact (nodup_cons.mp distinct).2
  · intro old kept present unretained
    have other : old ≠ id := by
      rintro rfl
      have present' : books.sheets old = some kept := present
      rw [found, Option.some.injEq] at present'
      rw [← present', retained] at unretained
      cases unretained
    exact (release_live pending other kept.slot).mpr
      (sound.unretained old kept present unretained)
  · rcases sound.accounted with ⟨held, distinct, accounts, members⟩
    have holds : (id, sheet.key) ∈ held :=
      (members id sheet.key).mpr ⟨sheet, found, rfl, retained, .inr ⟨place, here⟩⟩
    refine ⟨held.erase (id, sheet.key), distinct.erase _, accounts.release holds, ?_⟩
    intro old wanted
    rw [distinct.mem_erase_iff, members]
    constructor
    · rintro ⟨different, kept, present, itsKey, isRetained, alive⟩
      have other : old ≠ id := by
        rintro rfl
        rw [found, Option.some.injEq] at present
        rw [← present] at itsKey
        exact different (Prod.ext rfl itsKey.symm)
      exact ⟨kept, present, itsKey, isRetained, (release_live pending other kept.slot).mpr alive⟩
    · rintro ⟨kept, present, itsKey, isRetained, alive⟩
      have other : old ≠ id := by
        rintro rfl
        exact release_not_live sound pending present alive
      refine ⟨?_, kept, present, itsKey, isRetained,
        (release_live pending other kept.slot).mp alive⟩
      intro same
      exact other (Prod.mk.inj same).1

end release

end Books

end Buzz.Library.Holdings
