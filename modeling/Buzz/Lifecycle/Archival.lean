import Buzz.Lifecycle.Registry

/-! An archival against the admissions of its community. -/

namespace Buzz.Lifecycle

open Nostr Buzz.Subscription Library.Transition List
open Function (update_of_ne update_self)

def ArchivalPhase.reaches (connId : ConnId) : ArchivalPhase → Prop
  | .written => True
  | .sweeping todo => connId ∈ todo
  | _ => False

/-- The connection has passed its check and has not been left. -/
def Connection.Admitted (self : Connection) : Prop :=
  self.phase = .checked ∨ self.phase = .running

def Connection.Over (self : Connection) : Prop := self.phase = .leaving ∨ self.phase = .gone

theorem Connection.not_over {connection : Connection} {phase : Phase}
    (current : connection.phase = phase) (notLeaving : phase ≠ .leaving) (notGone : phase ≠ .gone) :
    ¬ connection.Over := by
  rintro (leaving | gone)
  · exact notLeaving (current.symm.trans leaving)
  · exact notGone (current.symm.trans gone)

def Revalidation.inactive : Revalidation → Option CommunityId
  | .found community _ => some community
  | .sweeping community _ _ => some community
  | _ => none

namespace World

def WasArchived (self : World) (community : CommunityId) : Prop :=
  ∃ id archival, self.archivals id = some archival ∧ archival.community = community ∧
    archival.phase ≠ .writing

/-- None runs uncancelled after the archival. -/
def NoneRunning (self : World) : Prop :=
  ∀ community id archival, self.archived community = some id →
    self.archivals id = some archival → archival.phase = .done →
    ∀ connId connection, self.connections connId = some connection →
      connection.community = community → connection.phase = .running → connection.cancelled ≠ []

/-- Those inside `run_registered_community_connection`. -/
def RegistryExact (self : World) : Prop :=
  self.entries.Nodup ∧ ∀ connId, connId ∈ self.entries ↔
    ∃ connection, self.connections connId = some connection ∧ connection.phase ≠ .gone

/-- What may cancel a connection. -/
def Justified (self : World) (connection : Connection) : Cause → Prop
  | .admission => connection.Over
  | .runEnded => connection.Over
  | .archival id => ∃ archival, self.archivals id = some archival ∧
      archival.community = connection.community
  | .revalidation => self.WasArchived connection.community
  | .other => True

def OnlyOwn (self : World) : Prop :=
  ∀ connId connection cause, self.connections connId = some connection →
    cause ∈ connection.cancelled → self.Justified connection cause

end World

structure World.Sound (world : World) : Prop where
  registry : world.RegistryExact
  archived : ∀ community id, world.archived community = some id →
    ∃ archival, world.archivals id = some archival ∧ archival.community = community ∧
      archival.phase ≠ .writing
  admitted : ∀ connId connection id, world.connections connId = some connection →
    connection.Admitted → world.archived connection.community = some id →
    connection.cancelled ≠ [] ∨
      ∃ archival, world.archivals id = some archival ∧ archival.phase.reaches connId
  revalidation : ∀ community, world.revalidation.inactive = some community →
    world.WasArchived community
  causes : world.OnlyOwn

section steps

variable {world next : World}

namespace World.Sound

theorem initial : World.initial.Sound where
  registry := by
    refine ⟨nodup_nil, ?_⟩
    intro connId
    constructor
    · nofun
    · rintro ⟨connection, found, -⟩
      cases found
  archived := nofun
  admitted := nofun
  revalidation := nofun
  causes := nofun

variable {connId : ConnId} {after connection : Connection}

theorem connections_cases {other : ConnId}
    (present : (world.setConnection connId after).connections other = some connection) :
    other = connId ∧ connection = after ∨
      other ≠ connId ∧ world.connections other = some connection := by
  by_cases same : other = connId
  · subst same
    simp only [World.setConnection, update_self, Option.some.injEq] at present
    exact .inl ⟨rfl, present.symm⟩
  · simp only [World.setConnection, update_of_ne same] at present
    exact .inr ⟨same, present⟩

variable {before : Connection}

theorem of_connection (sound : world.Sound) (found : world.connections connId = some before)
    (gone : after.phase = .gone ↔ before.phase = .gone)
    (admitted : after.Admitted → world.archived after.community = none ∨ after.cancelled ≠ [] ∨
      before.Admitted ∧ after.community = before.community ∧ before.cancelled = after.cancelled)
    (causes : ∀ cause ∈ after.cancelled, world.Justified after cause) :
    (world.setConnection connId after).Sound := by
  constructor
  · refine ⟨sound.registry.1, fun other => (sound.registry.2 other).trans ?_⟩
    by_cases same : other = connId
    · subst same
      simp [World.setConnection, found, gone]
    · simp [World.setConnection, same]
  · exact sound.archived
  · intro other connection id present isAdmitted archived
    rcases connections_cases present with ⟨rfl, rfl⟩ | ⟨-, old⟩
    · rcases admitted isAdmitted with active | cancelled | ⟨wasAdmitted, community, unchanged⟩
      · have archived' : world.archived connection.community = some id := archived
        rw [active] at archived'
        cases archived'
      · exact .inl cancelled
      · have archived' : world.archived connection.community = some id := archived
        rw [community] at archived'
        rw [← unchanged]
        exact sound.admitted other before id found wasAdmitted archived'
    · exact sound.admitted other connection id old isAdmitted archived
  · exact sound.revalidation
  · intro other connection cause present member
    have kept : world.Justified connection cause →
        (world.setConnection connId after).Justified connection cause := by
      cases cause <;> exact id
    rcases connections_cases present with ⟨-, rfl⟩ | ⟨-, old⟩
    · exact kept (causes cause member)
    · exact kept (sound.causes other connection cause old member)

variable {community : CommunityId} {id : ArchivalId}

theorem wasArchived_setArchival {before : Archival} {phase : ArchivalPhase}
    (found : world.archivals id = some before) (written : before.phase ≠ .writing → phase ≠ .writing)
    (was : world.WasArchived community) :
    (world.setArchival id { before with phase }).WasArchived community := by
  rcases was with ⟨other, archival, itsArchival, itsCommunity, itsPhase⟩
  by_cases same : other = id
  · subst same
    rw [found, Option.some.injEq] at itsArchival
    subst itsArchival
    exact ⟨other, _, update_self .., itsCommunity, written itsPhase⟩
  · exact ⟨other, archival, (update_of_ne same _ _).trans itsArchival, itsCommunity,
      itsPhase⟩

section

variable (sound : world.Sound)

include sound

theorem of_archival {before : Archival}
    (found : world.archivals id = some before) (phase : ArchivalPhase)
    (written : before.phase ≠ .writing → phase ≠ .writing)
    (reached : ∀ connId connection, world.connections connId = some connection →
      connection.community = before.community → connection.Admitted →
      before.phase.reaches connId → connection.cancelled ≠ [] ∨ phase.reaches connId) :
    (world.setArchival id { before with phase }).Sound := by
  constructor
  · exact sound.registry
  · intro community other archived
    rcases sound.archived community other archived with ⟨archival, itsArchival, itsCommunity, itsPhase⟩
    by_cases same : other = id
    · subst same
      rw [found, Option.some.injEq] at itsArchival
      subst itsArchival
      exact ⟨_, update_self .., itsCommunity, written itsPhase⟩
    · exact ⟨archival, (update_of_ne same _ _).trans itsArchival, itsCommunity, itsPhase⟩
  · intro connId connection other present isAdmitted archived
    rcases sound.admitted connId connection other present isAdmitted archived with
      cancelled | ⟨archival, itsArchival, reaches⟩
    · exact .inl cancelled
    · by_cases same : other = id
      · subst same
        rcases sound.archived connection.community other archived with
          ⟨named, itsArchival', community, -⟩
        rw [found, Option.some.injEq] at itsArchival itsArchival'
        subst itsArchival
        subst itsArchival'
        rcases reached connId connection present community.symm isAdmitted reaches with
          cancelled | still
        · exact .inl cancelled
        · exact .inr ⟨{ before with phase }, update_self .., still⟩
      · exact .inr ⟨archival, (update_of_ne same _ _).trans itsArchival, reaches⟩
  · intro community inactive
    exact wasArchived_setArchival found written (sound.revalidation community inactive)
  · intro connId connection cause present member
    have justified := sound.causes connId connection cause present member
    cases cause with
    | admission | runEnded => exact justified
    | other => trivial
    | revalidation => exact wasArchived_setArchival found written justified
    | archival other =>
      rcases justified with ⟨archival, itsArchival, community⟩
      by_cases same : other = id
      · subst same
        rw [found, Option.some.injEq] at itsArchival
        subst itsArchival
        exact ⟨_, update_self .., community⟩
      · exact ⟨archival, (update_of_ne same _ _).trans itsArchival, community⟩

theorem of_revalidation (revalidation : Revalidation)
    (inactive : ∀ community, revalidation.inactive = some community →
      world.WasArchived community) : World.Sound { world with revalidation } :=
  { sound with
    revalidation := inactive
    causes := by
      intro connId connection cause present member
      have justified := sound.causes connId connection cause present member
      cases cause <;> exact justified }

theorem listed
    (found : world.connections connId = some connection) (admitted : connection.Admitted) :
    connId ∈ world.entries := by
  refine (sound.registry.2 connId).mpr ⟨connection, found, ?_⟩
  rcases admitted with checked | running
  · rw [checked]
    nofun
  · rw [running]
    nofun

theorem cancelEntry {cause : Cause}
    (connId : ConnId) (justified : ∀ connection, connection.community = community →
      world.Justified connection cause) : (world.cancelEntry cause community connId).Sound := by
  rw [World.cancelEntry]
  split
  next connection found =>
    split
    next matched =>
      refine sound.of_connection found Iff.rfl (fun _ => .inr (.inl (cons_ne_nil _ _))) ?_
      intro earlier member
      rcases mem_cons.mp member with rfl | before
      · exact justified _ matched.2
      · have old := sound.causes connId connection earlier found before
        cases earlier <;> exact old
    next => exact sound
  next => exact sound

end

theorem cancelEntry_archivals (world : World) (cause : Cause) (community : CommunityId)
    (connId : ConnId) : (world.cancelEntry cause community connId).archivals = world.archivals := by
  rw [World.cancelEntry]
  repeat' split
  all_goals rfl

section

variable (sound : world.Sound)

include sound

theorem cancelled_of_cancelEntry {cause : Cause}
    (admitted : connection.Admitted) (itsCommunity : connection.community = community)
    (present : (world.cancelEntry cause community connId).connections connId = some connection) :
    connection.cancelled ≠ [] := by
  rw [World.cancelEntry] at present
  split at present
  next before found =>
    split at present
    next matched =>
      simp only [World.setConnection, update_self, Option.some.injEq] at present
      subst present
      exact cons_ne_nil _ _
    next unmatched =>
      rw [found, Option.some.injEq] at present
      subst present
      exact absurd ⟨sound.listed found admitted, itsCommunity⟩ unmatched
  next missing =>
    rw [missing] at present
    cases present

theorem of_entries {entries : List ConnId} (nodup : entries.Nodup)
    (exact_ : ∀ other, other ∈ entries ↔
      ∃ connection, (world.setConnection connId after).connections other = some connection ∧
        connection.phase ≠ .gone) (notAdmitted : ¬after.Admitted)
    (own : ∀ cause ∈ after.cancelled, world.Justified after cause) :
    World.Sound { world.setConnection connId after with entries } := by
  constructor
  · exact ⟨nodup, exact_⟩
  · exact sound.archived
  · intro other connection id present isAdmitted archived
    rcases connections_cases present with ⟨-, rfl⟩ | ⟨-, old⟩
    · exact absurd isAdmitted notAdmitted
    · exact sound.admitted other connection id old isAdmitted archived
  · exact sound.revalidation
  · intro other connection cause present member
    rcases connections_cases present with ⟨-, rfl⟩ | ⟨-, old⟩
    · exact own cause member
    · have justified := sound.causes other connection cause old member
      cases cause <;> exact justified

theorem register (unused : world.connections connId = none)
    (community : CommunityId) :
    World.Sound { world.setConnection connId ⟨community, .checking, []⟩ with
      entries := connId :: world.entries } := by
  apply sound.of_entries
  · refine nodup_cons.mpr ⟨?_, sound.registry.1⟩
    intro listed
    rcases (sound.registry.2 connId).mp listed with ⟨connection, found, -⟩
    rw [unused] at found
    cases found
  · intro other
    rw [mem_cons, sound.registry.2 other]
    by_cases same : other = connId
    · subst same
      simp [World.setConnection]
    · simp [World.setConnection, same]
  · rintro (checked | running)
    · cases checked
    · cases running
  · nofun

theorem drop (found : world.connections connId = some before) :
    World.Sound { world.setConnection connId { before with phase := .gone } with
      entries := world.entries.erase connId } := by
  apply sound.of_entries
  · exact sound.registry.1.erase connId
  · intro other
    rw [sound.registry.1.mem_erase_iff, sound.registry.2 other]
    by_cases same : other = connId
    · subst same
      simp [World.setConnection]
    · simp [World.setConnection, same]
  · rintro (checked | running)
    · cases checked
    · cases running
  · intro cause member
    have justified := sound.causes connId before cause found member
    cases cause with
    | admission | runEnded => exact .inr rfl
    | archival id | revalidation => exact justified
    | other => trivial

theorem archive (unused : world.archivals id = none)
    (community : CommunityId) : (world.setArchival id ⟨community, .writing⟩).Sound := by
  have kept {other : ArchivalId} {archival : Archival}
      (old : world.archivals other = some archival) :
      (world.setArchival id ⟨community, .writing⟩).archivals other = some archival := by
    have different : other ≠ id := by
      rintro rfl
      rw [unused] at old
      cases old
    exact (update_of_ne different _ _).trans old
  have keptArchived {other : CommunityId} (was : world.WasArchived other) :
      (world.setArchival id ⟨community, .writing⟩).WasArchived other := by
    rcases was with ⟨old, archival, itsArchival, rest⟩
    exact ⟨old, archival, kept itsArchival, rest⟩
  constructor
  · exact sound.registry
  · intro other old archived
    rcases sound.archived other old archived with ⟨archival, itsArchival, rest⟩
    exact ⟨archival, kept itsArchival, rest⟩
  · intro connId connection old present isAdmitted archived
    rcases sound.admitted connId connection old present isAdmitted archived with
      cancelled | ⟨archival, itsArchival, reaches⟩
    · exact .inl cancelled
    · exact .inr ⟨archival, kept itsArchival, reaches⟩
  · intro other inactive
    exact keptArchived (sound.revalidation other inactive)
  · intro connId connection cause present member
    have justified := sound.causes connId connection cause present member
    cases cause with
    | admission | runEnded => exact justified
    | other => trivial
    | revalidation => exact keptArchived justified
    | archival old =>
      rcases justified with ⟨archival, itsArchival, itsCommunity⟩
      exact ⟨archival, kept itsArchival, itsCommunity⟩

theorem of_archived (community : CommunityId) (value : Option ArchivalId)
    (named : ∀ id, value = some id → world.archived community = some id ∨
      ∃ archival, world.archivals id = some archival ∧ archival.community = community ∧
        archival.phase = .written) :
    World.Sound { world with archived := Function.update world.archived community value } := by
  have cases_ {other : CommunityId} {id : ArchivalId}
      (archived : Function.update world.archived community value other = some id) :
      world.archived other = some id ∨ ∃ archival, world.archivals id = some archival ∧
        archival.community = other ∧ archival.phase = .written := by
    by_cases same : other = community
    · subst same
      rw [update_self] at archived
      exact named id archived
    · rw [update_of_ne same] at archived
      exact .inl archived
  constructor
  · exact sound.registry
  · intro other id archived
    rcases cases_ archived with before | ⟨archival, itsArchival, itsCommunity, phase⟩
    · exact sound.archived other id before
    · refine ⟨archival, itsArchival, itsCommunity, ?_⟩
      rw [phase]
      nofun
  · intro connId connection id present isAdmitted archived
    rcases cases_ archived with before | ⟨archival, itsArchival, -, phase⟩
    · exact sound.admitted connId connection id present isAdmitted before
    · refine .inr ⟨archival, itsArchival, ?_⟩
      rw [phase]
      trivial
  · exact sound.revalidation
  · intro connId connection cause present member
    have justified := sound.causes connId connection cause present member
    cases cause <;> exact justified

theorem step {action : Action} (step : Step world action next) :
    next.Sound := by
  have justify {connId : ConnId} {before after : Connection} {cause : Cause}
      (found : world.connections connId = some before)
      (community : after.community = before.community) (left : before.Over → after.Over)
      (member : cause ∈ before.cancelled) : world.Justified after cause := by
    have justified := sound.causes connId before cause found member
    cases cause with
    | admission | runEnded => exact left justified
    | other => trivial
    | archival id =>
      rcases justified with ⟨archival, itsArchival, itsCommunity⟩
      exact ⟨archival, itsArchival, itsCommunity.trans community.symm⟩
    | revalidation =>
      rcases justified with ⟨id, archival, itsArchival, itsCommunity, phase⟩
      exact ⟨id, archival, itsArchival, itsCommunity.trans community.symm, phase⟩
  cases step with
  | register unused => exact sound.register unused _
  | pass found phase active =>
    refine sound.of_connection found ⟨nofun, fun gone => ?_⟩ (fun _ => .inl active) ?_
    · rw [phase] at gone
      cases gone
    · intro cause member
      exact justify found rfl (fun left => absurd left (Connection.not_over phase nofun nofun))
        member
  | fail found phase =>
    refine sound.of_connection found ⟨nofun, fun gone => ?_⟩
      (fun _ => .inr (.inl (cons_ne_nil _ _))) ?_
    · rw [phase] at gone
      cases gone
    · intro cause member
      rcases mem_cons.mp member with rfl | before
      · exact .inl rfl
      · exact justify found rfl (fun _ => .inl rfl) before
  | stop found phase cancelled =>
    refine sound.of_connection found ⟨nofun, fun gone => ?_⟩
      (fun _ => .inr (.inl cancelled)) ?_
    · rw [phase] at gone
      cases gone
    · intro cause member
      exact justify found rfl (fun _ => .inl rfl) member
  | run found phase uncancelled =>
    refine sound.of_connection found ⟨nofun, fun gone => ?_⟩
      (fun _ => .inr (.inr ⟨.inl phase, rfl, rfl⟩)) ?_
    · rw [phase] at gone
      cases gone
    · intro cause member
      exact justify found rfl (fun left => absurd left (Connection.not_over phase nofun nofun))
        member
  | runEnds found phase =>
    refine sound.of_connection found ⟨nofun, fun gone => ?_⟩
      (fun _ => .inr (.inl (cons_ne_nil _ _))) ?_
    · rw [phase] at gone
      cases gone
    · intro cause member
      rcases mem_cons.mp member with rfl | before
      · exact .inl rfl
      · exact justify found rfl (fun _ => .inl rfl) before
  | close found =>
    refine sound.of_connection found Iff.rfl
      (fun _ => .inr (.inl (cons_ne_nil _ _))) ?_
    intro cause member
    rcases mem_cons.mp member with rfl | before
    · trivial
    · exact justify found rfl id before
  | drop found inside => exact sound.drop found
  | archive unused => exact sound.archive unused _
  | @write id archival found phase =>
    have begun := sound.of_archival found .written (fun _ => nofun) fun _ _ _ _ _ _ => .inr trivial
    refine begun.of_archived _ _ ?_
    intro owner same
    rw [Option.some.injEq] at same
    subst same
    cases earlier : world.archived archival.community with
    | none => exact .inr ⟨_, update_self .., rfl, rfl⟩
    | some first => exact .inl earlier
  | sweep found phase =>
    refine sound.of_archival found _ (fun _ => nofun) ?_
    intro connId connection present _ isAdmitted _
    exact .inr (sound.listed present isAdmitted)
  | meet found phase present =>
    refine sound.of_archival found _ (fun _ => nofun) ?_
    intro connId connection _ _ _ reaches
    rw [phase] at reaches
    exact .inr (mem_cons_of_mem _ reaches)
  | @visit id archival connId todo found phase =>
    have itsArchival : (world.cancelEntry (.archival id) archival.community connId).archivals id =
        some archival :=
      (congrFun (cancelEntry_archivals world _ _ connId) id).trans found
    refine (sound.cancelEntry connId ?_).of_archival itsArchival _ (fun _ => nofun) ?_
    · intro connection itsCommunity
      exact ⟨archival, found, itsCommunity.symm⟩
    · intro other connection present itsCommunity isAdmitted reaches
      rw [phase] at reaches
      rcases mem_cons.mp reaches with rfl | later
      · exact .inl (sound.cancelled_of_cancelEntry isAdmitted itsCommunity present)
      · exact .inr later
  | finish found phase =>
    refine sound.of_archival found _ (fun _ => nofun) ?_
    intro connId connection _ _ _ reaches
    rw [phase] at reaches
    cases reaches
  | unarchive => exact sound.of_archived _ none nofun
  | tick idle | active phase active => exact sound.of_revalidation _ nofun
  | @inactive community rest phase inactive =>
    refine sound.of_revalidation _ ?_
    rintro found ⟨⟩
    rcases Option.ne_none_iff_exists'.mp inactive with ⟨id, archived⟩
    exact ⟨id, sound.archived community id archived⟩
  | lookupFails phase => exact sound.of_revalidation _ nofun
  | tickSweeps phase | tickMeets phase present =>
    refine sound.of_revalidation _ ?_
    rintro found ⟨⟩
    exact sound.revalidation _ (by rw [phase]; rfl)
  | @tickVisits community connId todo rest phase =>
    have was := sound.revalidation community (by rw [phase]; rfl)
    have swept : (world.cancelEntry .revalidation community connId).Sound := by
      refine sound.cancelEntry connId ?_
      intro connection itsCommunity
      change world.WasArchived connection.community
      rw [itsCommunity]
      exact was
    refine swept.of_revalidation _ ?_
    rintro found ⟨⟩
    rcases was with ⟨id, archival, itsArchival, rest_⟩
    exact ⟨id, archival, (congrFun (cancelEntry_archivals world _ _ connId) id).trans itsArchival,
      rest_⟩
  | tickNext phase | tickEnds phase => exact sound.of_revalidation _ nofun

end

end World.Sound

theorem sound_of_run {actions : List Action} (run : Run Step World.initial actions world) :
    world.Sound :=
  run.invariant (fun _ _ _ sound step => World.Sound.step sound step) World.Sound.initial

theorem World.Sound.noneRunning (sound : world.Sound) : world.NoneRunning := by
  intro community id archival archived itsArchival isDone connId connection present itsCommunity
    running
  rw [← itsCommunity] at archived
  rcases sound.admitted connId connection id present (Or.inr running) archived with
    cancelled | ⟨named, itsArchival', reaches⟩
  · exact cancelled
  · rw [itsArchival, Option.some.injEq] at itsArchival'
    subst itsArchival'
    rw [isDone] at reaches
    cases reaches

end steps

/-- And the registry is exact. -/
theorem archived_admits_none {actions : List Action} {world : World}
    (run : Run Step World.initial actions world) :
    world.NoneRunning ∧ world.RegistryExact ∧ world.OnlyOwn :=
  ⟨(sound_of_run run).noneRunning, (sound_of_run run).registry, (sound_of_run run).causes⟩

def sampleConn : ConnId := .fill 1

def otherConn : ConnId := .fill 2

def sampleCommunity : CommunityId := ⟨.fill 8⟩

def otherCommunity : CommunityId := ⟨.fill 9⟩

/-- The archival comes between the check of an admission and its run. -/
theorem archived_admits_none_between :
    ∃ world, Run Step World.initial
        [.register sampleConn sampleCommunity, .pass sampleConn, .archive 0 sampleCommunity,
          .write 0, .sweep 0, .visit 0, .finish 0, .stop sampleConn, .drop sampleConn] world ∧
      world.NoneRunning ∧ world.RegistryExact ∧ world.OnlyOwn := by
  have run : Run Step World.initial
      [.register sampleConn sampleCommunity, .pass sampleConn, .archive 0 sampleCommunity,
        .write 0, .sweep 0, .visit 0, .finish 0, .stop sampleConn, .drop sampleConn] _ :=
    .cons (.register rfl) <|
    .cons (.pass rfl rfl rfl) <|
    .cons (.archive rfl) <|
    .cons (.write rfl rfl) <|
    .cons (.sweep rfl rfl) <|
    .cons (.visit rfl rfl) <|
    .cons (.finish rfl rfl) <|
    .cons (.stop rfl rfl (cons_ne_nil _ _)) <|
    .cons (.drop rfl (.inr (.inr rfl))) <| .nil _
  exact ⟨_, run, archived_admits_none run⟩

/-- A failed check cancels a connection of a community that is not archived. -/
theorem failed_check_cancels :
    ¬ ∀ actions world, Run Step World.initial actions world →
      ∀ connId connection, world.connections connId = some connection →
        (∀ id archival, world.archivals id = some archival →
          archival.community ≠ connection.community) → connection.cancelled = [] := by
  intro claim
  have run : Run Step World.initial
      [.register otherConn otherCommunity, .archive 0 sampleCommunity, .write 0, .sweep 0,
        .visit 0, .finish 0, .fail otherConn] _ :=
    .cons (.register rfl) <|
    .cons (.archive rfl) <|
    .cons (.write rfl rfl) <|
    .cons (.sweep rfl rfl) <|
    .cons (.visit rfl rfl) <|
    .cons (.finish rfl rfl) <|
    .cons (.fail rfl rfl) <| .nil _
  have uncancelled := claim _ _ run otherConn _ rfl ?_
  · cases uncancelled
  · intro id archival found
    by_cases same : id = 0
    · subst same
      cases found
      decide
    · simp [World.setConnection, World.setArchival, World.Sound.cancelEntry_archivals,
        World.initial, same] at found

end Buzz.Lifecycle
