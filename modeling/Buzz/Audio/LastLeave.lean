import Buzz.Audio.OneRoom

/-! A huddle room on its owner: whoever finds it empty gives the lease back. -/

namespace Buzz.Audio

open Nostr Library

/-- `generations` is what the connections saw the room owned at. -/
structure Lifecycle where
  key : RoomKey
  manager : Manager
  entry : Option ℕ
  generations : Keyed ℕ ℕ
  releasing : Keyed ℕ ℕ
  sessions : Keyed ℕ ℕ
  used : List ℕ
  marked : List ℕ
  released : List ℕ

inductive LifecycleStep
  | joinLocal (task generation : ℕ)
  | joinRemote (task : ℕ)
  | addPeer (task : ℕ) (peerId : Uuid) (pubkey : String) (requestedVersion : UInt8)
  | giveUp (task : ℕ) (cleansUp : Bool)
  | leave (task : ℕ)
  | archived (task : ℕ) (succeeded : Bool)
  | cleanup (task : ℕ)
  | release (task : ℕ)
  | unregister (task : ℕ)

namespace Lifecycle

variable (self : Lifecycle)

def start (key : RoomKey) : Lifecycle :=
  ⟨key, .start, none, .empty, .empty, .empty, [], [], []⟩

def Idle (task : ℕ) : Prop := self.manager.tasks.get task = none ∧ self.releasing.get task = none

instance (task : ℕ) : Decidable (self.Idle task) := inferInstanceAs (Decidable (_ ∧ _))

def entered (task : ℕ) (next : Manager) : Option (Origin × ℕ) :=
  match self.manager.tasks.get task, next.tasks.get task with
  | some (.joining origin _ room), some (.present ..) => some (origin, room)
  | _, _ => none

def ending (task : ℕ) (next : Manager) : Option ℕ :=
  match self.manager.tasks.get task, next.tasks.get task with
  | some (.present ..), some (.archiving _ room) => some room
  | _, _ => none

def attach (room generation : ℕ) : Lifecycle :=
  { self with
    entry := some (self.entry.getD generation)
    sessions :=
      match self.sessions.get room with
      | some _ => self.sessions
      | none => self.sessions.insert room generation }

def attachOwn (origin : Origin) (task room : ℕ) : Lifecycle :=
  match origin, self.generations.get task with
  | .owner, some generation => self.attach room generation
  | _, _ => self

def addPeer (task : ℕ) (peerId : Uuid) (pubkey : String) (requestedVersion : UInt8) : Lifecycle :=
  let manager := self.manager.step (.addPeer task peerId pubkey requestedVersion)
  match self.entered task manager with
  | none => { self with manager }
  | some (origin, room) =>
    { self with manager, used := room :: self.used }.attachOwn origin task room

def leave (task : ℕ) : Lifecycle :=
  let manager := self.manager.step (.leave task)
  { self with manager, marked := (self.ending task manager).toList ++ self.marked }

/-- It goes on to release the lease that it has seen. -/
def cleanup (task : ℕ) : Lifecycle :=
  let next : Lifecycle := { self with manager := self.manager.step (.cleanup task) }
  match self.manager.tasks.get task, self.manager.emptied self.key, self.generations.get task with
  | some (.leaving _), some _, some generation =>
    { next with releasing := self.releasing.insert task generation }
  | _, _, _ => next

def release (task : ℕ) : Lifecycle :=
  match self.releasing.get task with
  | none => self
  | some generation =>
    let next : Lifecycle := { self with releasing := self.releasing.erase task }
    if self.entry = some generation then
      { next with entry := none, released := generation :: self.released }
    else next

def step : LifecycleStep → Lifecycle
  | .joinLocal task generation =>
    if self.Idle task then
      { self with
        manager := self.manager.step (.getOrCreate task .owner self.key)
        generations := self.generations.insert task generation }
    else self
  | .joinRemote task =>
    if self.Idle task then
      { self with manager := self.manager.step (.getOrCreate task .stream self.key) }
    else self
  | .addPeer task peerId pubkey requestedVersion =>
    self.addPeer task peerId pubkey requestedVersion
  | .giveUp task cleansUp => { self with manager := self.manager.step (.giveUp task cleansUp) }
  | .leave task => self.leave task
  | .archived task succeeded => { self with manager := self.manager.step (.archived task succeeded) }
  | .cleanup task => self.cleanup task
  | .release task => self.release task
  | .unregister task => { self with manager := self.manager.step (.unregister task) }

end Lifecycle

end Buzz.Audio

/-! When the last peer that leaves a huddle room ends it, removes it and gives its lease back. -/

namespace Buzz.Audio

open Nostr Library Library.Runs List Option

def Manager.Occupied (manager : Manager) (room : ℕ) : Prop :=
  ∃ object, manager.objects[room]? = some object ∧ object.peers.entries ≠ []

namespace Lifecycle

def Quiet (life : Lifecycle) : Prop :=
  (∀ task, life.releasing.get task = none) ∧
    ∀ task phase, life.manager.tasks.get task = some phase →
      (∀ key room, phase ≠ .archiving key room) ∧ ∀ key, phase ≠ .leaving key

/-- All of it has happened once when the last one has left. -/
structure Proper (life : Lifecycle) : Prop where
  during : ∀ room, life.manager.Occupied room → room ∉ life.marked ∧
    life.manager.rooms.get life.key = some room ∧
      ∀ generation, life.sessions.get room = some generation → generation ∉ life.released
  after : life.Quiet → ∀ room ∈ life.used, ¬ life.manager.Occupied room →
    life.marked.count room = 1 ∧ life.manager.rooms.get life.key ≠ some room ∧
      ∃ generation, life.sessions.get room = some generation ∧
        life.released.count generation = 1 ∧ life.entry ≠ some generation

/-- The first of the relay's own peers brings a new lease. -/
def Fits (life : Lifecycle) (room generation : ℕ) : Prop :=
  match life.sessions.get room with
  | some other => other = generation
  | none => life.entry = none ∧ ∀ session ∈ life.sessions.entries, session.2 ≠ generation

def Clean (life : Lifecycle) : LifecycleStep → Prop
  | .addPeer task peerId pubkey requestedVersion =>
    ∀ entered ∈ life.entered task (life.manager.step (.addPeer task peerId pubkey requestedVersion)),
      life.manager.rooms.get life.key = some entered.2 ∧
        (entered.1 = .owner → ∀ generation ∈ life.generations.get task,
          life.Fits entered.2 generation)
  | .giveUp task cleansUp => ∀ cleaned ∈ life.manager.cleaning (.giveUp task cleansUp),
    ∀ room ∈ life.manager.emptied cleaned.2, life.sessions.get room = none
  | .archived _ succeeded => succeeded
  | .cleanup task => ∀ cleaned ∈ life.manager.cleaning (.cleanup task),
    ∀ room ∈ life.manager.emptied cleaned.2, ∀ generation ∈ life.sessions.get room,
      life.generations.get task = some generation
  | .unregister task =>
    match life.manager.tasks.get task with
    | some (.unregistering room peerId) => ∀ object ∈ life.manager.objects[room]?,
      object.peers.get peerId = none ∨ ∃ peer ∈ object.peers.entries, peer.1 ≠ peerId
    | _ => True
  | _ => True

structure Held (life : Lifecycle) (generation : ℕ) : Prop where
  entry : life.entry = some generation
  released : generation ∉ life.released
  releasing : ∀ task, life.releasing.get task ≠ some generation

def Cleaner (life : Lifecycle) (room generation : ℕ) : Prop :=
  ∃ task, (life.manager.tasks.get task = some (.archiving life.key room) ∨
    life.manager.tasks.get task = some (.leaving life.key)) ∧
      life.generations.get task = some generation

inductive Stage (life : Lifecycle) (room generation : ℕ) : Prop
  | live (isLive : life.manager.rooms.get life.key = some room) (held : life.Held generation)
      (cleaner : life.Cleaner room generation)
  | removed (notLive : life.manager.rooms.get life.key ≠ some room)
      (entry : life.entry = some generation) (kept : generation ∉ life.released)
      (pending : ∃ task, life.releasing.get task = some generation)
  | done (notLive : life.manager.rooms.get life.key ≠ some room)
      (entry : life.entry ≠ some generation) (once : life.released.count generation = 1)

def Task.Knows (life : Lifecycle) (task : ℕ) : Task → Prop
  | .joining origin key _ => key = life.key ∧
    (origin = .owner → ∃ generation, life.generations.get task = some generation)
  | .present .owner key room _ => key = life.key ∧
    ∃ generation, life.generations.get task = some generation ∧
      life.sessions.get room = some generation
  | .present .stream key _ _ => key = life.key
  | .present .ingress .. => False
  | .archiving key room => key = life.key ∧ ∃ generation,
    life.generations.get task = some generation ∧ life.sessions.get room = some generation
  | .leaving key => key = life.key ∧ ∃ generation room,
    life.generations.get task = some generation ∧ life.sessions.get room = some generation
  | .unregistering .. => True

/-- It is not cleaning up. -/
def Task.Stays : Task → Prop
  | .archiving .. => False
  | .leaving _ => False
  | _ => True

structure Orderly (life : Lifecycle) : Prop where
  inside : ∀ room ∈ life.used, ∃ object, life.manager.objects[room]? = some object
  alive : ∀ room object, life.manager.objects[room]? = some object → object.peers.entries ≠ [] →
    room ∈ life.used ∧ object.guard.ended = false ∧ room ∉ life.marked ∧
      life.manager.rooms.get life.key = some room ∧
        ∀ generation, life.sessions.get room = some generation → life.Held generation
  empty : ∀ room object, life.manager.objects[room]? = some object → object.peers.entries = [] →
    room ∈ life.used → object.guard.ended ∧ life.marked.count room = 1 ∧
      ∃ generation, life.sessions.get room = some generation ∧ life.Stage room generation
  unused : ∀ room, room ∉ life.used → room ∉ life.marked ∧ life.sessions.get room = none
  one : ∀ first second generation, life.sessions.get first = some generation →
    life.sessions.get second = some generation → first = second
  entry : ∀ generation, life.entry = some generation →
    ∃ room, life.sessions.get room = some generation
  released : ∀ generation ∈ life.released, ∃ room, life.sessions.get room = some generation
  releasing : ∀ task generation, life.releasing.get task = some generation →
    ∃ room, life.sessions.get room = some generation
  tasks : ∀ task phase, life.manager.tasks.get task = some phase →
    life.releasing.get task = none ∧ Task.Knows life task phase

variable {life : Lifecycle} {task room generation : ℕ}

theorem Orderly.proper (orderly : life.Orderly) : life.Proper where
  during room := by
    rintro ⟨object, isObject, someone⟩
    obtain ⟨-, -, unmarked, live, held⟩ := orderly.alive room object isObject someone
    exact ⟨unmarked, live, fun generation isSession => (held generation isSession).released⟩
  after quiet room isUsed empty := by
    obtain ⟨object, isObject⟩ := orderly.inside room isUsed
    have noPeers : object.peers.entries = [] := by
      by_contra someone
      exact empty ⟨object, isObject, someone⟩
    obtain ⟨-, marked, generation, isSession, stage⟩ :=
      orderly.empty room object isObject noPeers isUsed
    refine ⟨marked, ?_⟩
    cases stage with
    | live isLive held cleaner =>
      obtain ⟨task, isTask | isTask, -⟩ := cleaner
      · exact absurd rfl ((quiet.2 task _ isTask).1 _ _)
      · exact absurd rfl ((quiet.2 task _ isTask).2 _)
    | removed notLive entry kept pending =>
      obtain ⟨task, isReleasing⟩ := pending
      cases (quiet.1 task).symm.trans isReleasing
    | done notLive entry once => exact ⟨notLive, generation, isSession, once, entry⟩

variable {manager : Manager} {object next : Room} {peerId : Uuid}

section frames

variable {generations : Keyed ℕ ℕ}

theorem Stage.frame (stage : life.Stage room generation) (rooms : manager.rooms = life.manager.rooms)
    (cleaner : life.manager.rooms.get life.key = some room → life.Cleaner room generation →
      Cleaner { life with manager, generations } room generation) :
    Stage { life with manager, generations } room generation := by
  cases stage with
  | live isLive held cleans =>
    refine .live ?_ ⟨held.entry, held.released, held.releasing⟩ (cleaner isLive cleans)
    rw [rooms]
    exact isLive
  | removed notLive entry kept pending =>
    refine .removed ?_ entry kept pending
    rw [rooms]
    exact notLive
  | done notLive entry once =>
    refine .done ?_ entry once
    rw [rooms]
    exact notLive

theorem Orderly.frame (orderly : life.Orderly)
    (objects : ∀ place : ℕ, manager.objects[place]? = life.manager.objects[place]?)
    (rooms : manager.rooms = life.manager.rooms)
    (cleaner : ∀ room object generation, life.manager.objects[room]? = some object →
      object.peers.entries = [] → life.manager.rooms.get life.key = some room →
        life.Cleaner room generation → Cleaner { life with manager, generations } room generation)
    (tasks : ∀ task phase, manager.tasks.get task = some phase →
      life.releasing.get task = none ∧ Task.Knows { life with manager, generations } task phase) :
    Orderly { life with manager, generations } := { orderly with
  inside room isUsed := by
    rw [objects]
    exact orderly.inside room isUsed
  alive room object isObject someone := by
    rw [objects] at isObject
    obtain ⟨isUsed, isOpen, unmarked, live, held⟩ := orderly.alive room object isObject someone
    rw [rooms]
    exact ⟨isUsed, isOpen, unmarked, live, fun generation isSession =>
      have before := held generation isSession
      ⟨before.entry, before.released, before.releasing⟩⟩
  empty room object isObject noPeers isUsed := by
    rw [objects] at isObject
    obtain ⟨ended, marked, generation, isSession, stage⟩ :=
      orderly.empty room object isObject noPeers isUsed
    exact ⟨ended, marked, generation, isSession, stage.frame rooms fun live cleans =>
      cleaner room object generation isObject noPeers live cleans⟩
  tasks }

theorem Task.Knows.frame {phase : Task} (knows : Task.Knows life task phase)
    (same : generations.get task = life.generations.get task) :
    Task.Knows { life with manager, generations } task phase := by
  unfold Task.Knows at knows ⊢
  dsimp only
  rw [same]
  exact knows

theorem Cleaner.setTask (cleaner : life.Cleaner room generation)
    (stays : ∀ phase, life.manager.tasks.get task = some phase → Task.Stays phase)
    (tasks : ∀ place, place ≠ task → manager.tasks.get place = life.manager.tasks.get place)
    (same : ∀ place, place ≠ task → generations.get place = life.generations.get place) :
    Cleaner { life with manager, generations } room generation := by
  obtain ⟨place, isTask, isGeneration⟩ := cleaner
  have different : place ≠ task := by
    rintro rfl
    rcases isTask with isTask | isTask
    · exact stays _ isTask
    · exact stays _ isTask
  refine ⟨place, ?_, (same place different).trans isGeneration⟩
  dsimp only
  rw [tasks place different]
  exact isTask

end frames

theorem Orderly.create (orderly : life.Orderly) :
    Orderly { life with manager := (life.manager.getOrCreate life.key).2 } := by
  unfold Manager.getOrCreate
  cases known : life.manager.rooms.get life.key with
  | some room => exact orderly
  | none =>
    have inserted : (life.manager.rooms.insert life.key life.manager.objects.length).get life.key =
        some life.manager.objects.length := (Keyed.get_insert _).trans (if_pos rfl)
    constructor
    · intro room isUsed
      obtain ⟨object, isObject⟩ := orderly.inside room isUsed
      have inside := (List.getElem?_eq_some_iff.mp isObject).1
      exact ⟨object, (getElem?_append_left inside).trans isObject⟩
    · intro room object isObject someone
      rcases Locks.getElem?_concat isObject with old | ⟨-, rfl⟩
      · obtain ⟨-, -, -, live, -⟩ := orderly.alive room object old someone
        cases known.symm.trans live
      · exact absurd rfl someone
    · intro room object isObject noPeers isUsed
      obtain ⟨other, isOther⟩ := orderly.inside room isUsed
      have inside := (List.getElem?_eq_some_iff.mp isOther).1
      have notLive : (life.manager.rooms.insert life.key life.manager.objects.length).get
          life.key ≠ some room := by
        rw [inserted]
        exact fun same => Nat.ne_of_gt inside (Option.some.inj same)
      rcases Locks.getElem?_concat isObject with old | ⟨rfl, -⟩
      · obtain ⟨ended, marked, generation, isSession, stage⟩ :=
          orderly.empty room object old noPeers isUsed
        refine ⟨ended, marked, generation, isSession, ?_⟩
        cases stage with
        | live isLive held cleaner => cases known.symm.trans isLive
        | removed _ entry kept pending => exact .removed notLive entry kept pending
        | done _ entry once => exact .done notLive entry once
      · exact absurd inside (Nat.lt_irrefl _)
    · exact orderly.unused
    · exact orderly.one
    · exact orderly.entry
    · exact orderly.released
    · exact orderly.releasing
    · exact orderly.tasks

theorem Orderly.join (orderly : life.Orderly) {generations : Keyed ℕ ℕ} {origin : Origin}
    (idle : life.Idle task)
    (same : ∀ place, place ≠ task → generations.get place = life.generations.get place)
    (known : origin = .owner → ∃ generation, generations.get task = some generation) :
    Orderly { life with
      manager := life.manager.step (.getOrCreate task origin life.key), generations } := by
  rw [Manager.step, idle.1]
  have free : (life.manager.getOrCreate life.key).2.tasks.get task = none := by
    unfold Manager.getOrCreate
    split
    · exact idle.1
    · exact idle.1
  refine orderly.create.frame (fun _ => rfl) rfl ?_ ?_
  · intro room object generation _ _ _ cleaner
    refine cleaner.setTask (fun phase isTask => ?_) (fun place different => ?_) same
    · cases free.symm.trans isTask
    · exact (Keyed.get_insert _).trans (if_neg different)
  · intro place phase isTask
    rw [Manager.setTask, Keyed.get_insert] at isTask
    split at isTask
    next isPlace =>
      subst isPlace
      cases isTask
      exact ⟨idle.2, rfl, known⟩
    next different =>
      obtain ⟨apart, knows⟩ := orderly.create.tasks place phase isTask
      exact ⟨apart, knows.frame (same place different)⟩

section admissions

theorem Orderly.isOpen (orderly : life.Orderly) (isObject : life.manager.objects[room]? = some object)
    (isOpen : object.guard.ended = false) : room ∉ life.marked ∧
      ∀ generation, life.sessions.get room = some generation → life.Held generation := by
  by_cases noPeers : object.peers.entries = []
  · by_cases isUsed : room ∈ life.used
    · have ended := (orderly.empty room object isObject noPeers isUsed).1
      cases isOpen.symm.trans ended
    · obtain ⟨unmarked, noSession⟩ := orderly.unused room isUsed
      refine ⟨unmarked, fun generation isSession => ?_⟩
      cases noSession.symm.trans isSession
  · obtain ⟨-, -, unmarked, -, held⟩ := orderly.alive room object isObject noPeers
    exact ⟨unmarked, held⟩

theorem Orderly.enter (orderly : life.Orderly) {used : List ℕ}
    (nowUsed : ∀ place, place ∈ used ↔ place = room ∨ place ∈ life.used) (isObject : life.manager.objects[room]? = some object)
    (isOpen : object.guard.ended = false) (stillOpen : next.guard.ended = false)
    (someone : next.peers.entries ≠ []) (live : life.manager.rooms.get life.key = some room) :
    Orderly { life with manager := life.manager.changeRoom room fun _ => next, used } where
  inside place isUsed := by
    rw [Manager.getElem?_changeRoom]
    rcases (nowUsed place).mp isUsed with rfl | old
    · exact ⟨next, by rw [isObject]; exact congrArg some (if_pos rfl)⟩
    · obtain ⟨other, isOther⟩ := orderly.inside place old
      exact ⟨_, congrArg _ isOther⟩
  alive place changed isChanged hasPeers := by
    rw [Manager.getElem?_changeRoom] at isChanged
    obtain ⟨other, isOther, rfl⟩ := map_eq_some_iff.mp isChanged
    by_cases same : room = place
    · subst same
      rw [if_pos rfl]
      obtain ⟨unmarked, held⟩ := orderly.isOpen isObject isOpen
      refine ⟨(nowUsed room).mpr (.inl rfl), stillOpen, unmarked, live, fun generation isSession => ?_⟩
      have before := held generation isSession
      exact ⟨before.entry, before.released, before.releasing⟩
    · rw [if_neg same] at hasPeers
      have occupied := (orderly.alive place other isOther hasPeers).2.2.2.1
      exact absurd (Option.some.inj (live.symm.trans occupied)) same
  empty place changed isChanged noPeers isUsed := by
    rw [Manager.getElem?_changeRoom] at isChanged
    obtain ⟨other, isOther, rfl⟩ := map_eq_some_iff.mp isChanged
    by_cases same : room = place
    · rw [if_pos same] at noPeers
      exact absurd noPeers someone
    · rw [if_neg same] at noPeers ⊢
      have wasUsed := ((nowUsed place).mp isUsed).resolve_left fun equal => same equal.symm
      obtain ⟨ended, marked, generation, isSession, stage⟩ :=
        orderly.empty place other isOther noPeers wasUsed
      refine ⟨ended, marked, generation, isSession, ?_⟩
      cases stage with
      | live isLive held cleaner => exact absurd (Option.some.inj (live.symm.trans isLive)) same
      | removed notLive entry kept pending => exact .removed notLive entry kept pending
      | done notLive entry once => exact .done notLive entry once
  unused place notUsed := orderly.unused place fun isUsed => notUsed ((nowUsed place).mpr (.inr isUsed))
  one := orderly.one
  entry := orderly.entry
  released := orderly.released
  releasing := orderly.releasing
  tasks := orderly.tasks

theorem Orderly.attach (orderly : life.Orderly) (isObject : life.manager.objects[room]? = some object)
    (someone : object.peers.entries ≠ []) (noSession : life.sessions.get room = none)
    (noEntry : life.entry = none)
    (fresh : ∀ place, life.sessions.get place ≠ some generation) :
    (life.attach room generation).Orderly := by
  have attached : life.attach room generation =
      { life with
        entry := some generation
        sessions := life.sessions.insert room generation } := by
    rw [Lifecycle.attach, noEntry, noSession]
    rfl
  have others {place : ℕ} (different : place ≠ room) :
      (life.sessions.insert room generation).get place = life.sessions.get place :=
    (Keyed.get_insert _).trans (if_neg different)
  have keeps {place found : ℕ} (isSession : life.sessions.get place = some found) :
      (life.sessions.insert room generation).get place = some found := by
    refine (others ?_).trans isSession
    rintro rfl
    cases noSession.symm.trans isSession
  obtain ⟨isUsed, -, -, live, -⟩ := orderly.alive room object isObject someone
  rw [attached]
  constructor
  · exact orderly.inside
  · intro place other isOther hasPeers
    obtain ⟨otherUsed, isOpen, unmarked, otherLive, -⟩ := orderly.alive place other isOther hasPeers
    refine ⟨otherUsed, isOpen, unmarked, otherLive, fun found isSession => ?_⟩
    cases live.symm.trans otherLive
    rw [Keyed.get_insert, if_pos rfl] at isSession
    cases isSession
    refine ⟨rfl, fun isReleased => ?_, fun task isReleasing => ?_⟩
    · obtain ⟨place, isSession⟩ := orderly.released _ isReleased
      exact fresh place isSession
    · obtain ⟨place, isSession⟩ := orderly.releasing task _ isReleasing
      exact fresh place isSession
  · intro place other isOther noPeers otherUsed
    obtain ⟨ended, marked, found, isSession, stage⟩ :=
      orderly.empty place other isOther noPeers otherUsed
    refine ⟨ended, marked, found, keeps isSession, ?_⟩
    cases stage with
    | live isLive held cleaner => cases noEntry.symm.trans held.entry
    | removed notLive entry kept pending => cases noEntry.symm.trans entry
    | done notLive entry once =>
      refine .done notLive (fun same => ?_) once
      exact fresh place (isSession.trans same.symm)
  · intro place notUsed
    obtain ⟨unmarked, without⟩ := orderly.unused place notUsed
    refine ⟨unmarked, (others ?_).trans without⟩
    rintro rfl
    exact notUsed isUsed
  · intro first second found isFirst isSecond
    by_cases firstHere : first = room
    · by_cases secondHere : second = room
      · exact firstHere.trans secondHere.symm
      · rw [firstHere, Keyed.get_insert, if_pos rfl] at isFirst
        rw [others secondHere] at isSecond
        exact absurd (isSecond.trans isFirst.symm) (fresh second)
    · rw [others firstHere] at isFirst
      by_cases secondHere : second = room
      · rw [secondHere, Keyed.get_insert, if_pos rfl] at isSecond
        exact absurd (isFirst.trans isSecond.symm) (fresh first)
      · rw [others secondHere] at isSecond
        exact orderly.one first second found isFirst isSecond
  · intro found isFound
    cases isFound
    exact ⟨room, (Keyed.get_insert _).trans (if_pos rfl)⟩
  · intro found isReleased
    obtain ⟨place, isSession⟩ := orderly.released found isReleased
    exact ⟨place, keeps isSession⟩
  · intro task found isReleasing
    obtain ⟨place, isSession⟩ := orderly.releasing task found isReleasing
    exact ⟨place, keeps isSession⟩
  · intro task phase isTask
    obtain ⟨apart, knows⟩ := orderly.tasks task phase isTask
    refine ⟨apart, ?_⟩
    cases phase with
    | joining origin key room => exact knows
    | present origin key place peerId =>
      cases origin with
      | owner =>
        obtain ⟨isKey, found, isGeneration, isSession⟩ := knows
        exact ⟨isKey, found, isGeneration, keeps isSession⟩
      | ingress | stream => exact knows
    | archiving key place =>
      obtain ⟨isKey, found, isGeneration, isSession⟩ := knows
      exact ⟨isKey, found, isGeneration, keeps isSession⟩
    | leaving key =>
      obtain ⟨isKey, found, place, isGeneration, isSession⟩ := knows
      exact ⟨isKey, found, place, isGeneration, keeps isSession⟩
    | unregistering room peerId => trivial

theorem changeRoom_same (isObject : life.manager.objects[room]? = some object) (place : ℕ) :
    (life.manager.changeRoom room fun _ => object).objects[place]? =
      life.manager.objects[place]? := by
  rw [Manager.getElem?_changeRoom]
  cases isPlace : life.manager.objects[place]? with
  | none => rfl
  | some other =>
    by_cases same : room = place
    · subst same
      cases isObject.symm.trans isPlace
      exact congrArg some (if_pos rfl)
    · exact congrArg some (if_neg same)

section

variable (orderly : life.Orderly)

include orderly

theorem Orderly.turn (task : ℕ) {manager : Manager}
    (stays : ∀ phase, life.manager.tasks.get task = some phase → Task.Stays phase)
    (objects : ∀ place : ℕ, manager.objects[place]? = life.manager.objects[place]?)
    (rooms : manager.rooms = life.manager.rooms)
    (others : ∀ place, place ≠ task → manager.tasks.get place = life.manager.tasks.get place)
    (knows : ∀ phase, manager.tasks.get task = some phase →
      life.releasing.get task = none ∧ Task.Knows life task phase) :
    Orderly { life with manager } := by
  refine orderly.frame objects rooms ?_ ?_
  · intro room object generation _ _ _ cleaner
    exact cleaner.setTask stays others fun _ _ => rfl
  · intro place phase isTask
    by_cases same : place = task
    · subst same
      obtain ⟨apart, known⟩ := knows phase isTask
      exact ⟨apart, known.frame rfl⟩
    · rw [others place same] at isTask
      obtain ⟨apart, known⟩ := orderly.tasks place phase isTask
      exact ⟨apart, known.frame rfl⟩

theorem Orderly.setTask {before phase : Task}
    (isTask : life.manager.tasks.get task = some before) (stays : Task.Stays before)
    (knows : Task.Knows life task phase) :
    Orderly { life with manager := life.manager.setTask task phase } := by
  refine orderly.turn task ?_ (fun _ => rfl) rfl ?_ ?_
  · intro other isOther
    cases isTask.symm.trans isOther
    exact stays
  · exact fun place different => (Keyed.get_insert _).trans (if_neg different)
  · intro other isOther
    cases ((Keyed.get_insert _).trans (if_pos rfl)).symm.trans isOther
    exact ⟨(orderly.tasks task before isTask).1, knows⟩

theorem Orderly.finish {before : Task}
    (isTask : life.manager.tasks.get task = some before) (stays : Task.Stays before) :
    Orderly { life with manager := life.manager.finish task } := by
  refine orderly.turn task ?_ (fun _ => rfl) rfl ?_ ?_
  · intro other isOther
    cases isTask.symm.trans isOther
    exact stays
  · exact fun place different => (Keyed.get_erase _).trans (if_neg different)
  · intro other isOther
    cases ((Keyed.get_erase _).trans (if_pos rfl)).symm.trans isOther

theorem Orderly.sameRoom (isObject : life.manager.objects[room]? = some object) :
    Orderly { life with manager := life.manager.changeRoom room fun _ => object } := by
  refine orderly.frame (changeRoom_same isObject) rfl ?_ orderly.tasks
  exact fun _ _ _ _ _ _ cleaner => cleaner

end

theorem entered_eq_none {next : Manager} (stays : next.tasks.get task = life.manager.tasks.get task ∨
    next.tasks.get task = none) : life.entered task next = none := by
  unfold entered
  rcases stays with same | gone
  · rw [same]
    cases life.manager.tasks.get task with
    | none => rfl
    | some phase => cases phase <;> rfl
  · rw [gone]
    cases life.manager.tasks.get task with
    | none => rfl
    | some phase => cases phase <;> rfl

variable {pubkey : String} {version : UInt8} {origin : Origin} {key : RoomKey}

theorem step_refused {cause : AdmissionError}
    (isTask : life.manager.tasks.get task = some (.joining origin key room))
    (isObject : life.manager.objects[room]? = some object) (fits : origin ≠ .ingress)
    (refused : object.addPeer peerId pubkey version = (.error cause, object)) :
    life.manager.step (.addPeer task peerId pubkey version) =
      (life.manager.changeRoom room fun _ => object).finish task := by
  rw [Manager.step, Manager.enter, isTask]
  simp only [isObject, refused]
  rw [if_pos (decide_eq_true fits)]

theorem step_entered {answer : Uuid × UInt8}
    (isTask : life.manager.tasks.get task = some (.joining origin key room))
    (isObject : life.manager.objects[room]? = some object) (fits : origin ≠ .ingress)
    (entered : object.addPeer peerId pubkey version = (.ok answer, next)) :
    life.manager.step (.addPeer task peerId pubkey version) =
      (life.manager.changeRoom room fun _ => next).setTask task (.present origin key room peerId) := by
  rw [Manager.step, Manager.enter, isTask]
  simp only [isObject, entered]
  rw [if_pos (decide_eq_true fits)]

theorem addPeer_of_not_entered (same : life.manager.step (.addPeer task peerId pubkey version) =
    life.manager) : life.addPeer task peerId pubkey version = life := by
  simp only [Lifecycle.addPeer, same, entered_eq_none (.inl rfl)]

theorem Orderly.seat (orderly : life.Orderly)
    (isTask : life.manager.tasks.get task = some (.joining origin key room))
    (isObject : life.manager.objects[room]? = some object) (fits : origin ≠ .ingress)
    (isOpen : object.guard.ended = false) (stillOpen : next.guard.ended = false)
    (someone : next.peers.entries ≠ []) (live : life.manager.rooms.get life.key = some room)
    (fresh : origin = .owner → ∀ generation ∈ life.generations.get task, life.Fits room generation) :
    (Lifecycle.attachOwn { life with
        manager := (life.manager.changeRoom room fun _ => next).setTask task
          (.present origin key room peerId)
        used := room :: life.used } origin task room).Orderly := by
  have entered := orderly.enter (fun _ => mem_cons) isObject isOpen stillOpen someone live
  obtain ⟨-, isKey, known⟩ := orderly.tasks task _ isTask
  have inRoom : (life.manager.changeRoom room fun _ => next).objects[room]? = some next := by
    rw [Manager.getElem?_changeRoom, isObject]
    exact congrArg some (if_pos rfl)
  cases origin with
  | ingress => exact absurd rfl fits
  | stream => exact entered.setTask isTask trivial isKey
  | owner =>
    obtain ⟨generation, isGeneration⟩ := known rfl
    have suits := fresh rfl generation isGeneration
    simp only [attachOwn, isGeneration]
    unfold Fits at suits
    cases isSession : life.sessions.get room with
    | some found =>
      rw [isSession] at suits
      subst suits
      have held := (orderly.isOpen isObject isOpen).2 found isSession
      have unchanged : ({ life with
          manager := (life.manager.changeRoom room fun _ => next).setTask task
            (.present .owner key room peerId)
          used := room :: life.used } : Lifecycle).attach room found =
          { life with
            manager := (life.manager.changeRoom room fun _ => next).setTask task
              (.present .owner key room peerId)
            used := room :: life.used } := by
        simp only [Lifecycle.attach, held.entry, isSession, getD_some]
      rw [unchanged]
      exact entered.setTask isTask trivial ⟨isKey, found, isGeneration, isSession⟩
    | none =>
      rw [isSession] at suits
      obtain ⟨noEntry, new⟩ := suits
      have attached := entered.attach inRoom someone isSession noEntry fun place isFound =>
        new _ (life.sessions.get_eq_some.mp isFound) rfl
      have hasSession : (Lifecycle.attach { life with
          manager := life.manager.changeRoom room fun _ => next
          used := room :: life.used } room generation).sessions.get room = some generation := by
        simp only [Lifecycle.attach, isSession]
        exact (Keyed.get_insert _).trans (if_pos rfl)
      exact attached.setTask isTask trivial ⟨isKey, generation, isGeneration, hasSession⟩

theorem Orderly.addPeer (orderly : life.Orderly)
    (clean : life.Clean (.addPeer task peerId pubkey version)) :
    (life.addPeer task peerId pubkey version).Orderly := by
  cases isTask : life.manager.tasks.get task with
  | none =>
    have same : life.manager.step (.addPeer task peerId pubkey version) = life.manager := by
      rw [Manager.step, Manager.enter, isTask]
    rw [addPeer_of_not_entered same]
    exact orderly
  | some phase =>
    cases phase with
    | joining origin key room =>
      cases isObject : life.manager.objects[room]? with
      | none =>
        have same : life.manager.step (.addPeer task peerId pubkey version) = life.manager := by
          rw [Manager.step, Manager.enter, isTask]
          simp only [isObject]
        rw [addPeer_of_not_entered same]
        exact orderly
      | some object =>
        by_cases fits : origin = .ingress
        · have same : life.manager.step (.addPeer task peerId pubkey version) =
              life.manager := by
            rw [Manager.step, Manager.enter, isTask]
            simp only [isObject]
            exact if_neg (by simp [fits])
          rw [addPeer_of_not_entered same]
          exact orderly
        · rcases @History.addPeer_cases peerId pubkey version object with
            ⟨cause, refused⟩ | ⟨given, guard, entered, isOpen, -, -, allocated⟩
          · have step := step_refused isTask isObject fits refused
            have gone : life.entered task
                ((life.manager.changeRoom room fun _ => object).finish task) = none :=
              entered_eq_none (.inr ((Keyed.get_erase _).trans (if_pos rfl)))
            simp only [Lifecycle.addPeer, step, gone]
            exact (orderly.sameRoom isObject).finish isTask trivial
          · have step := step_entered isTask isObject fits entered
            have isEntered : life.entered task
                ((life.manager.changeRoom room fun _ => object.enter peerId pubkey given
                  (guard.pin version)).setTask task (.present origin key room peerId)) =
                  some (origin, room) := by
              rw [Lifecycle.entered, isTask]
              simp only [Manager.setTask, Keyed.get_insert, if_pos]
            obtain ⟨live, fresh⟩ := clean (origin, room) (by rw [step]; exact isEntered)
            simp only [Lifecycle.addPeer, step, isEntered]
            have stillOpen : guard.ended = false := (alloc_ended allocated).trans isOpen
            exact orderly.seat isTask isObject fits isOpen stillOpen (cons_ne_nil _ _)
              live fresh
    | _ =>
      have same : life.manager.step (.addPeer task peerId pubkey version) = life.manager := by
        rw [Manager.step, Manager.enter, isTask]
      rw [addPeer_of_not_entered same]
      exact orderly

end admissions

theorem removePeerAndCheckEnded_exact : object.removePeerAndCheckEnded peerId = (none, object) ∨
    ∃ peer, object.peers.get peerId = some peer ∧
      (((object.leave peerId peer).peers.entries = [] ∧ object.guard.ended = false ∧
          object.removePeerAndCheckEnded peerId =
            (some (peer.peerIndex, true), (object.leave peerId peer).markEnded.2)) ∨
        (((object.leave peerId peer).peers.entries ≠ [] ∨ object.guard.ended) ∧
          object.removePeerAndCheckEnded peerId =
            (some (peer.peerIndex, false), object.leave peerId peer))) := by
  unfold Room.removePeerAndCheckEnded
  cases present : object.peers.get peerId with
  | none => exact .inl rfl
  | some peer =>
    refine .inr ⟨peer, rfl, ?_⟩
    dsimp only
    split
    next last =>
      obtain ⟨isOpen, isEmpty⟩ := Bool.and_eq_true_iff.mp last
      have isOpen : object.guard.ended = false := by simpa [Room.leave, Room.publish, AdmissionGuard.release] using isOpen
      exact .inl ⟨List.isEmpty_iff.mp isEmpty, isOpen, rfl⟩
    next notLast =>
      refine .inr ⟨?_, rfl⟩
      by_contra neither
      obtain ⟨noPeers, isOpen⟩ := not_or.mp neither
      apply notLast
      refine Bool.and_eq_true_iff.mpr ⟨?_, List.isEmpty_iff.mpr (not_not.mp noPeers)⟩
      have isOpen : object.guard.ended = false := by simpa using isOpen
      exact congrArg (!·) isOpen

theorem Orderly.thin (orderly : life.Orderly) (isObject : life.manager.objects[room]? = some object)
    (hadPeers : object.peers.entries ≠ []) (someone : next.peers.entries ≠ [])
    (sameEnded : next.guard.ended = object.guard.ended) :
    Orderly { life with manager := life.manager.changeRoom room fun _ => next } := by
  obtain ⟨isUsed, isOpen, -, live, -⟩ := orderly.alive room object isObject hadPeers
  refine orderly.enter (fun place => ?_) isObject isOpen (sameEnded.trans isOpen) someone live
  constructor
  · exact .inr
  · rintro (rfl | used)
    · exact isUsed
    · exact used

theorem Orderly.vacate (orderly : life.Orderly) (isObject : life.manager.objects[room]? = some object)
    (hadPeers : object.peers.entries ≠ []) (noPeers : next.peers.entries = [])
    (ended : next.guard.ended) (isSession : life.sessions.get room = some generation)
    (cleaner : life.Cleaner room generation) :
    Orderly { life with
      manager := life.manager.changeRoom room fun _ => next, marked := room :: life.marked } := by
  obtain ⟨isUsed, isOpen, unmarked, live, held⟩ := orderly.alive room object isObject hadPeers
  have isHeld := held generation isSession
  constructor
  · intro place placeUsed
    obtain ⟨other, isOther⟩ := orderly.inside place placeUsed
    rw [Manager.getElem?_changeRoom]
    exact ⟨_, congrArg _ isOther⟩
  · intro place changed isChanged hasPeers
    rw [Manager.getElem?_changeRoom] at isChanged
    obtain ⟨other, isOther, rfl⟩ := map_eq_some_iff.mp isChanged
    by_cases same : room = place
    · rw [if_pos same] at hasPeers
      exact absurd noPeers hasPeers
    · rw [if_neg same] at hasPeers
      have occupied := (orderly.alive place other isOther hasPeers).2.2.2.1
      exact absurd (Option.some.inj (live.symm.trans occupied)) same
  · intro place changed isChanged empty placeUsed
    rw [Manager.getElem?_changeRoom] at isChanged
    obtain ⟨other, isOther, rfl⟩ := map_eq_some_iff.mp isChanged
    by_cases same : room = place
    · subst same
      rw [if_pos rfl, count_cons_self, count_eq_zero.mpr unmarked]
      exact ⟨ended, rfl, generation, isSession,
        .live live ⟨isHeld.entry, isHeld.released, isHeld.releasing⟩ cleaner⟩
    · rw [if_neg same] at empty ⊢
      obtain ⟨isEnded, marked, found, isFound, stage⟩ :=
        orderly.empty place other isOther empty placeUsed
      rw [count_cons_of_ne same]
      refine ⟨isEnded, marked, found, isFound, ?_⟩
      cases stage with
      | live isLive held cleaner => exact absurd (Option.some.inj (live.symm.trans isLive)) same
      | removed notLive entry kept pending => exact .removed notLive entry kept pending
      | done notLive entry once => exact .done notLive entry once
  · intro place notUsed
    obtain ⟨otherUnmarked, noSession⟩ := orderly.unused place notUsed
    refine ⟨fun isMarked => ?_, noSession⟩
    rcases mem_cons.mp isMarked with rfl | old
    · exact notUsed isUsed
    · exact otherUnmarked old
  · exact orderly.one
  · exact orderly.entry
  · exact orderly.released
  · exact orderly.releasing
  · exact orderly.tasks

theorem leave_of_not_ending {manager : Manager} (step : life.manager.step (.leave task) = manager)
    (notEnding : ∀ key room, manager.tasks.get task ≠ some (.archiving key room)) :
    life.leave task = { life with manager } := by
  have none : life.ending task manager = none := by
    unfold ending
    split
    next isEnding => exact absurd isEnding (notEnding _ _)
    · rfl
  simp only [Lifecycle.leave, step, none]
  rfl

section

variable (orderly : life.Orderly)

include orderly

theorem Orderly.leaveOwner {key : RoomKey}
    (isTask : life.manager.tasks.get task = some (.present .owner key room peerId)) :
    (life.leave task).Orderly := by
  obtain ⟨-, isKey, generation, isGeneration, isSession⟩ := orderly.tasks task _ isTask
  have knows : Task.Knows life task (.leaving key) :=
    ⟨isKey, generation, room, isGeneration, isSession⟩
  have leaving := orderly.setTask isTask trivial knows
  have notArchiving (manager : Manager) (other : RoomKey) (place : ℕ) :
      (manager.setTask task (.leaving key)).tasks.get task ≠ some (.archiving other place) := by
    rw [Manager.setTask, Keyed.get_insert, if_pos rfl]
    simp
  cases isObject : life.manager.objects[room]? with
  | none =>
    have step : life.manager.step (.leave task) = life.manager := by
      rw [Manager.step, Manager.leave, isTask]
      simp only [isObject]
    rw [leave_of_not_ending step (by rw [isTask]; simp)]
    exact orderly
  | some object =>
    rcases @removePeerAndCheckEnded_exact object peerId with
      same | ⟨peer, present, ⟨noPeers, isOpen, last⟩ | ⟨others, left⟩⟩
    · have step : life.manager.step (.leave task) =
          (life.manager.changeRoom room fun _ => object).setTask task (.leaving key) := by
        rw [Manager.step, Manager.leave, isTask]
        simp only [isObject, same]
        rfl
      rw [leave_of_not_ending step (notArchiving _)]
      exact leaving.sameRoom isObject
    · have hadPeers : object.peers.entries ≠ [] := by
        intro empty
        rw [Keyed.get_eq_some, empty] at present
        cases present
      have step : life.manager.step (.leave task) =
          (life.manager.changeRoom room fun _ => (object.leave peerId peer).markEnded.2).setTask task
            (.archiving key room) := by
        rw [Manager.step, Manager.leave, isTask]
        simp only [isObject, last]
        rfl
      have ends : Task.Knows life task (.archiving key room) :=
        ⟨isKey, generation, isGeneration, isSession⟩
      have archiving := orderly.setTask isTask trivial ends
      have isArchiving : (life.manager.setTask task (.archiving key room)).tasks.get task =
          some (.archiving life.key room) := by
        rw [Manager.setTask, Keyed.get_insert, if_pos rfl, isKey]
      have isEnding : life.ending task ((life.manager.changeRoom room fun _ =>
          (object.leave peerId peer).markEnded.2).setTask task (.archiving key room)) =
            some room := by
        rw [ending, isTask]
        simp only [Manager.setTask, Keyed.get_insert, if_pos]
      simp only [Lifecycle.leave, step, isEnding]
      exact archiving.vacate isObject hadPeers noPeers rfl isSession
        ⟨task, .inl isArchiving, isGeneration⟩
    · have hadPeers : object.peers.entries ≠ [] := by
        intro empty
        rw [Keyed.get_eq_some, empty] at present
        cases present
      have isOpen := (orderly.alive room object isObject hadPeers).2.1
      have someone := others.resolve_right (by rw [isOpen]; simp)
      have step : life.manager.step (.leave task) =
          (life.manager.changeRoom room fun _ => object.leave peerId peer).setTask task
            (.leaving key) := by
        rw [Manager.step, Manager.leave, isTask]
        simp only [isObject, left]
        rfl
      rw [leave_of_not_ending step (notArchiving _)]
      exact leaving.thin isObject hadPeers someone rfl

theorem Orderly.leaveStream {key : RoomKey}
    (isTask : life.manager.tasks.get task = some (.present .stream key room peerId)) :
    (life.leave task).Orderly := by
  cases live : life.manager.rooms.get key with
  | none =>
    have step : life.manager.step (.leave task) = life.manager.finish task := by
      rw [Manager.step, Manager.leave, isTask]
      simp only [live]
    have notEnding (other : RoomKey) (place : ℕ) :
        (life.manager.finish task).tasks.get task ≠ some (.archiving other place) := by
      rw [Manager.finish, Keyed.get_erase, if_pos rfl]
      simp
    rw [leave_of_not_ending step notEnding]
    exact orderly.finish isTask trivial
  | some found =>
    have step : life.manager.step (.leave task) =
        life.manager.setTask task (.unregistering found peerId) := by
      rw [Manager.step, Manager.leave, isTask]
      simp only [live]
    have notEnding (other : RoomKey) (place : ℕ) :
        (life.manager.setTask task (.unregistering found peerId)).tasks.get task ≠
          some (.archiving other place) := by
      rw [Manager.setTask, Keyed.get_insert, if_pos rfl]
      simp
    rw [leave_of_not_ending step notEnding]
    exact orderly.setTask isTask trivial trivial

theorem Orderly.leave : (life.leave task).Orderly := by
  have stays (same : life.manager.step (.leave task) = life.manager)
      (notArchiving : ∀ key room, life.manager.tasks.get task ≠ some (.archiving key room)) :
      (life.leave task).Orderly := by
    rw [leave_of_not_ending same notArchiving]
    exact orderly
  cases isTask : life.manager.tasks.get task with
  | none =>
    refine stays ?_ fun _ _ => ?_
    · rw [Manager.step, Manager.leave, isTask]
    · rw [isTask]
      simp
  | some phase =>
    cases phase with
    | present origin key room peerId =>
      cases origin with
      | owner => exact orderly.leaveOwner isTask
      | ingress => exact (orderly.tasks task _ isTask).2.elim
      | stream => exact orderly.leaveStream isTask
    | archiving key room =>
      have same : life.manager.step (.leave task) = life.manager := by
        rw [Manager.step, Manager.leave, isTask]
      have none : life.ending task life.manager = none := by
        rw [ending, isTask]
      simp only [Lifecycle.leave, same, none]
      exact orderly
    | joining origin key room | leaving key | unregistering room peerId =>
      refine stays ?_ fun _ _ => ?_
      · rw [Manager.step, Manager.leave, isTask]
      · rw [isTask]
        simp

theorem Orderly.archived :
    Orderly { life with manager := life.manager.step (.archived task true) } := by
  cases isTask : life.manager.tasks.get task with
  | none =>
    rw [Manager.step, isTask]
    exact orderly
  | some phase =>
    cases phase with
    | archiving key room =>
      obtain ⟨apart, isKey, generation, isGeneration, isSession⟩ := orderly.tasks task _ isTask
      rw [Manager.step, isTask]
      simp only [if_true]
      refine orderly.frame (fun _ => rfl) rfl ?_ ?_
      · rintro place object found - - - ⟨cleaner, isCleaner, known⟩
        by_cases same : cleaner = task
        · subst same
          refine ⟨cleaner, .inr ?_, known⟩
          rw [Manager.setTask, Keyed.get_insert, if_pos rfl, isKey]
        · refine ⟨cleaner, ?_, known⟩
          rw [Manager.setTask, Keyed.get_insert, if_neg same]
          exact isCleaner
      · intro place phase isPlace
        rw [Manager.setTask, Keyed.get_insert] at isPlace
        split at isPlace
        next same =>
          subst same
          cases isPlace
          exact ⟨apart, isKey, generation, room, isGeneration, isSession⟩
        · exact orderly.tasks place phase isPlace
    | _ =>
      rw [Manager.step, isTask]
      exact orderly

end

theorem changeRoom_of_get {change : Room → Room}
    (isObject : life.manager.objects[room]? = some object) :
    life.manager.changeRoom room change = life.manager.changeRoom room fun _ => change object := by
  have same : (life.manager.changeRoom room change).objects =
      (life.manager.changeRoom room fun _ => change object).objects := by
    apply ext_getElem?
    intro place
    rw [Manager.getElem?_changeRoom, Manager.getElem?_changeRoom]
    by_cases here : room = place
    · subst here
      rw [isObject]
      rfl
    · simp [here]
  rw [Manager.changeRoom, Manager.changeRoom]
  congr 1

theorem Orderly.unregister (orderly : life.Orderly) (clean : life.Clean (.unregister task)) :
    Orderly { life with manager := life.manager.step (.unregister task) } := by
  cases isTask : life.manager.tasks.get task with
  | none =>
    rw [Manager.step, isTask]
    exact orderly
  | some phase =>
    cases phase with
    | unregistering room peerId =>
      have finished := orderly.finish isTask trivial
      unfold Clean at clean
      simp only [isTask] at clean
      rw [Manager.step, isTask]
      dsimp only
      cases isObject : life.manager.objects[room]? with
      | none =>
        refine finished.frame (fun place => ?_) rfl (fun _ _ _ _ _ _ cleaner => cleaner)
          finished.tasks
        change (life.manager.changeRoom room _).objects[place]? = life.manager.objects[place]?
        rw [Manager.getElem?_changeRoom]
        by_cases here : room = place
        · rw [← here, isObject]
          rfl
        · simp [here]
      | some object =>
        rw [changeRoom_of_get isObject]
        rcases @History.removePeer_cases peerId object with same | ⟨peer, present, left⟩
        · rw [same]
          exact finished.sameRoom isObject
        · have hadPeers : object.peers.entries ≠ [] := by
            intro empty
            rw [Keyed.get_eq_some, empty] at present
            cases present
          rw [left]
          refine finished.thin isObject hadPeers ?_ rfl
          rcases clean object isObject with absent | ⟨other, isOther, different⟩
          · cases absent.symm.trans present
          · have stays := object.peers.mem_erase.mpr ⟨isOther, different⟩
            exact ne_nil_of_mem stays
    | _ =>
      rw [Manager.step, isTask]
      exact orderly

section cleanups

variable {releasing : Keyed ℕ ℕ}

theorem Orderly.remove (orderly : life.Orderly)
    (isEmptied : life.manager.emptied life.key = some room)
    (objects : manager.objects = life.manager.objects)
    (rooms : manager.rooms = life.manager.rooms.erase life.key)
    (pending : ∀ generation, life.sessions.get room = some generation →
      ∃ task, releasing.get task = some generation)
    (grows : ∀ task generation, life.releasing.get task = some generation →
      releasing.get task = some generation)
    (known : ∀ task generation, releasing.get task = some generation →
      ∃ room, life.sessions.get room = some generation)
    (tasks : ∀ task phase, manager.tasks.get task = some phase →
      life.manager.tasks.get task = some phase ∧ releasing.get task = none) :
    Orderly { life with manager, releasing } := by
  obtain ⟨live, object, isObject, noPeers⟩ := Manager.emptied_eq_some.mp isEmptied
  have gone (place : ℕ) : manager.rooms.get life.key ≠ some place := by
    rw [rooms, Keyed.get_erase, if_pos rfl]
    simp
  constructor
  · intro place isUsed
    rw [objects]
    exact orderly.inside place isUsed
  · intro place other isOther someone
    rw [objects] at isOther
    obtain ⟨-, -, -, occupied, -⟩ := orderly.alive place other isOther someone
    cases live.symm.trans occupied
    cases isObject.symm.trans isOther
    exact absurd noPeers someone
  · intro place other isOther empty isUsed
    rw [objects] at isOther
    obtain ⟨ended, marked, generation, isSession, stage⟩ :=
      orderly.empty place other isOther empty isUsed
    refine ⟨ended, marked, generation, isSession, ?_⟩
    cases stage with
    | live isLive held cleaner =>
      cases live.symm.trans isLive
      exact .removed (gone _) held.entry held.released (pending generation isSession)
    | removed _ entry kept waiting =>
      obtain ⟨task, isReleasing⟩ := waiting
      exact .removed (gone _) entry kept ⟨task, grows task generation isReleasing⟩
    | done _ entry once => exact .done (gone _) entry once
  · exact orderly.unused
  · exact orderly.one
  · exact orderly.entry
  · exact orderly.released
  · exact known
  · intro task phase isTask
    obtain ⟨wasTask, apart⟩ := tasks task phase isTask
    exact ⟨apart, (orderly.tasks task phase wasTask).2⟩

theorem cleanupIfEmpty_emptied {key : RoomKey} (isEmptied : life.manager.emptied key = some room) :
    life.manager.cleanupIfEmpty key = { life.manager with rooms := life.manager.rooms.erase key } := by
  rw [Manager.cleanupIfEmpty, isEmptied]

theorem cleanupIfEmpty_kept {key : RoomKey} (kept : life.manager.emptied key = none) :
    life.manager.cleanupIfEmpty key = life.manager := by
  rw [Manager.cleanupIfEmpty, kept]

theorem Orderly.giveUp (orderly : life.Orderly) {cleansUp : Bool}
    (clean : life.Clean (.giveUp task cleansUp)) :
    Orderly { life with manager := life.manager.step (.giveUp task cleansUp) } := by
  cases isTask : life.manager.tasks.get task with
  | none =>
    rw [Manager.step, isTask]
    exact orderly
  | some phase =>
    cases phase with
    | joining origin key room =>
      obtain ⟨apart, isKey, -⟩ := orderly.tasks task _ isTask
      rw [Manager.step, isTask]
      dsimp only
      split
      next cleans =>
        obtain ⟨rfl, different⟩ := cleans
        cases isEmptied : life.manager.emptied key with
        | none =>
          rw [cleanupIfEmpty_kept isEmptied]
          exact orderly.finish isTask trivial
        | some found =>
          have isCleaning : life.manager.cleaning (.giveUp task true) = some (task, key) := by
            rw [Manager.cleaning, isTask]
            exact if_neg different
          have noSession := clean _ isCleaning found isEmptied
          rw [cleanupIfEmpty_emptied isEmptied]
          rw [isKey] at isEmptied ⊢
          refine orderly.remove isEmptied rfl rfl ?_ (fun _ _ => id) orderly.releasing ?_
          · intro generation isSession
            cases noSession.symm.trans isSession
          · intro place phase isPlace
            have isPlace := ((Keyed.get_erase_eq_some _).mp isPlace).2
            exact ⟨isPlace, (orderly.tasks place phase isPlace).1⟩
      · exact orderly.finish isTask trivial
    | _ =>
      rw [Manager.step, isTask]
      exact orderly

theorem Orderly.cleanup (orderly : life.Orderly) (clean : life.Clean (.cleanup task)) :
    (life.cleanup task).Orderly := by
  have unchanged (same : life.manager.step (.cleanup task) = life.manager)
      (notLeaving : ∀ key, life.manager.tasks.get task ≠ some (.leaving key)) :
      (life.cleanup task).Orderly := by
    unfold Lifecycle.cleanup
    dsimp only
    split
    next isTask _ _ => exact absurd isTask (notLeaving _)
    · rw [same]
      exact orderly
  cases isTask : life.manager.tasks.get task with
  | none =>
    refine unchanged ?_ fun _ => ?_
    · rw [Manager.step, isTask]
    · rw [isTask]
      simp
  | some phase =>
    cases phase with
    | leaving key =>
      obtain ⟨apart, rfl, generation, room, isGeneration, isSession⟩ :=
        orderly.tasks task _ isTask
      have step : life.manager.step (.cleanup task) =
          (life.manager.cleanupIfEmpty life.key).finish task := by
        rw [Manager.step, isTask]
      cases isEmptied : life.manager.emptied life.key with
      | none =>
        simp only [Lifecycle.cleanup, isTask, isEmptied, step]
        rw [cleanupIfEmpty_kept isEmptied]
        refine orderly.frame (fun _ => rfl) rfl ?_ ?_
        · intro place object found isObject noPeers live
          have isEmpty := Manager.emptied_eq_some.mpr ⟨live, object, isObject, noPeers⟩
          cases isEmptied.symm.trans isEmpty
        · intro place phase isPlace
          exact orderly.tasks place phase ((Keyed.get_erase_eq_some _).mp isPlace).2
      | some found =>
        have isCleaning : life.manager.cleaning (.cleanup task) = some (task, life.key) := by
          rw [Manager.cleaning, isTask]
        have own := clean _ isCleaning found isEmptied
        simp only [Lifecycle.cleanup, isTask, isEmptied, isGeneration, step]
        rw [cleanupIfEmpty_emptied isEmptied]
        have different {place : ℕ} {other : ℕ} (isReleasing : life.releasing.get place = some other) :
            place ≠ task := by
          rintro rfl
          cases apart.symm.trans isReleasing
        refine orderly.remove isEmptied rfl rfl ?_ ?_ ?_ ?_
        · intro other isOther
          cases isGeneration.symm.trans (own other isOther)
          exact ⟨task, (Keyed.get_insert _).trans (if_pos rfl)⟩
        · intro place other isReleasing
          exact (Keyed.get_insert _).trans ((if_neg (different isReleasing)).trans isReleasing)
        · intro place other isReleasing
          rw [Keyed.get_insert] at isReleasing
          split at isReleasing
          · cases isReleasing
            exact ⟨room, isSession⟩
          · exact orderly.releasing place other isReleasing
        · intro place phase isPlace
          rw [Manager.finish, Keyed.get_erase] at isPlace
          split at isPlace
          · cases isPlace
          next other =>
            refine ⟨isPlace, (Keyed.get_insert _).trans ((if_neg other).trans ?_)⟩
            exact (orderly.tasks place phase isPlace).1
    | joining origin key room | present origin key room peerId | archiving key room
    | unregistering room peerId =>
      refine unchanged ?_ fun _ => ?_
      · rw [Manager.step, isTask]
      · rw [isTask]
        simp

end cleanups

section

variable (orderly : life.Orderly)

include orderly

theorem Orderly.giveBack (isReleasing : life.releasing.get task = some generation)
    (isEntry : life.entry = some generation) :
    Orderly { life with
      releasing := life.releasing.erase task
      entry := none
      released := generation :: life.released } := by
  have notHeld {found : ℕ} (held : life.Held found) : False := by
    cases isEntry.symm.trans held.entry
    exact held.releasing task isReleasing
  have erased {place : ℕ} (free : life.releasing.get place = none) :
      (life.releasing.erase task).get place = none := by
    rw [Keyed.get_erase, free, ite_self]
  constructor
  · exact orderly.inside
  · intro room object isObject someone
    obtain ⟨isUsed, isOpen, unmarked, live, held⟩ := orderly.alive room object isObject someone
    exact ⟨isUsed, isOpen, unmarked, live, fun found isSession => (notHeld (held found isSession)).elim⟩
  · intro room object isObject noPeers isUsed
    obtain ⟨ended, marked, found, isSession, stage⟩ :=
      orderly.empty room object isObject noPeers isUsed
    refine ⟨ended, marked, found, isSession, ?_⟩
    cases stage with
    | live isLive held cleaner => exact (notHeld held).elim
    | removed notLive entry kept pending =>
      cases isEntry.symm.trans entry
      refine .done notLive (by simp) ?_
      rw [count_cons_self, count_eq_zero.mpr kept]
    | done notLive entry once =>
      refine .done notLive (by simp) ?_
      rw [count_cons_of_ne, once]
      rintro rfl
      exact entry isEntry
  · exact orderly.unused
  · exact orderly.one
  · intro found isFound
    cases isFound
  · intro found isReleased
    rcases mem_cons.mp isReleased with rfl | old
    · exact orderly.releasing task _ isReleasing
    · exact orderly.released found old
  · exact fun place found stays => orderly.releasing place found ((Keyed.get_erase_eq_some _).mp stays).2
  · intro place phase isTask
    obtain ⟨apart, knows⟩ := orderly.tasks place phase isTask
    exact ⟨erased apart, knows⟩

theorem Orderly.forget (isReleasing : life.releasing.get task = some generation)
    (notEntry : life.entry ≠ some generation) :
    Orderly { life with releasing := life.releasing.erase task } := by
  have erased {place : ℕ} (free : life.releasing.get place = none) :
      (life.releasing.erase task).get place = none := by
    rw [Keyed.get_erase, free, ite_self]
  have held {found : ℕ} (held : life.Held found) :
      Held { life with releasing := life.releasing.erase task } found :=
    ⟨held.entry, held.released, fun place stays => held.releasing place ((Keyed.get_erase_eq_some _).mp stays).2⟩
  constructor
  · exact orderly.inside
  · intro room object isObject someone
    obtain ⟨isUsed, isOpen, unmarked, live, holds⟩ := orderly.alive room object isObject someone
    exact ⟨isUsed, isOpen, unmarked, live, fun found isSession => held (holds found isSession)⟩
  · intro room object isObject noPeers isUsed
    obtain ⟨ended, marked, found, isSession, stage⟩ :=
      orderly.empty room object isObject noPeers isUsed
    refine ⟨ended, marked, found, isSession, ?_⟩
    cases stage with
    | live isLive isHeld cleaner => exact .live isLive (held isHeld) cleaner
    | removed notLive entry kept pending =>
      obtain ⟨place, isPending⟩ := pending
      refine .removed notLive entry kept ⟨place, ?_⟩
      rw [Keyed.get_erase, if_neg, isPending]
      rintro rfl
      cases isReleasing.symm.trans isPending
      exact notEntry entry
    | done notLive entry once => exact .done notLive entry once
  · exact orderly.unused
  · exact orderly.one
  · exact orderly.entry
  · exact orderly.released
  · exact fun place found stays => orderly.releasing place found ((Keyed.get_erase_eq_some _).mp stays).2
  · intro place phase isTask
    obtain ⟨apart, knows⟩ := orderly.tasks place phase isTask
    exact ⟨erased apart, knows⟩

theorem Orderly.release : (life.release task).Orderly := by
  unfold Lifecycle.release
  cases isReleasing : life.releasing.get task with
  | none => exact orderly
  | some generation =>
    dsimp only
    split
    next isEntry => exact orderly.giveBack isReleasing isEntry
    next notEntry => exact orderly.forget isReleasing notEntry

theorem orderly_step {action : LifecycleStep} (clean : life.Clean action) :
    (life.step action).Orderly := by
  cases action with
  | joinLocal task generation =>
    rw [Lifecycle.step]
    split
    next idle =>
      refine orderly.join idle (fun place different => ?_) fun _ => ⟨generation, ?_⟩
      · exact (Keyed.get_insert _).trans (if_neg different)
      · exact (Keyed.get_insert _).trans (if_pos rfl)
    · exact orderly
  | joinRemote task =>
    rw [Lifecycle.step]
    split
    next idle => exact orderly.join idle (fun _ _ => rfl) (fun isOwner => nomatch isOwner)
    · exact orderly
  | addPeer task peerId pubkey requestedVersion => exact orderly.addPeer clean
  | giveUp task cleansUp => exact orderly.giveUp clean
  | leave task => exact orderly.leave
  | archived task succeeded =>
    cases (clean : succeeded)
    exact orderly.archived
  | cleanup task => exact orderly.cleanup clean
  | release task => exact orderly.release
  | unregister task => exact orderly.unregister clean

end

theorem orderly_start (key : RoomKey) : (start key).Orderly where
  inside _ isUsed := nomatch isUsed
  alive _ _ isObject := nomatch isObject
  empty _ _ isObject := nomatch isObject
  unused _ _ := ⟨not_mem_nil, rfl⟩
  one _ _ _ isSession := nomatch isSession
  entry _ isEntry := nomatch isEntry
  released _ isReleased := nomatch isReleased
  releasing _ _ isReleasing := nomatch isReleasing
  tasks _ _ isTask := nomatch isTask

/-- A session ends once, with its own lease and never while a peer is present. -/
theorem last_leave_exact (key : RoomKey) {actions : List LifecycleStep}
    (clean : EachStep step Clean (start key) actions) :
    (actions.foldl step (start key)).Proper := by
  have preserved : ∀ life action, Orderly life → Clean life action → Orderly (life.step action) :=
    fun _ _ orderly fits => orderly_step orderly fits
  exact (EachStep.invariant preserved (orderly_start key) clean).proper

instance (generation : ℕ) : Decidable (life.Fits room generation) :=
  match found : life.sessions.get room with
  | some other => decidable_of_iff (other = generation) (by rw [Fits, found])
  | none =>
    decidable_of_iff (life.entry = none ∧ ∀ session ∈ life.sessions.entries, session.2 ≠ generation)
      (by rw [Fits, found])

instance (action : LifecycleStep) : Decidable (life.Clean action) :=
  match action with
  | .addPeer task peerId pubkey requestedVersion =>
    inferInstanceAs (Decidable (∀ entered ∈ life.entered task
        (life.manager.step (.addPeer task peerId pubkey requestedVersion)),
      life.manager.rooms.get life.key = some entered.2 ∧
        (entered.1 = .owner → ∀ generation ∈ life.generations.get task,
          life.Fits entered.2 generation)))
  | .giveUp task cleansUp =>
    inferInstanceAs (Decidable (∀ cleaned ∈ life.manager.cleaning (.giveUp task cleansUp),
      ∀ room ∈ life.manager.emptied cleaned.2, life.sessions.get room = none))
  | .archived _ succeeded => inferInstanceAs (Decidable (succeeded))
  | .cleanup task =>
    inferInstanceAs (Decidable (∀ cleaned ∈ life.manager.cleaning (.cleanup task),
      ∀ room ∈ life.manager.emptied cleaned.2, ∀ generation ∈ life.sessions.get room,
        life.generations.get task = some generation))
  | .unregister task =>
    match isTask : life.manager.tasks.get task with
    | some (.unregistering room peerId) =>
      decidable_of_iff (∀ object ∈ life.manager.objects[room]?,
        object.peers.get peerId = none ∨ ∃ peer ∈ object.peers.entries, peer.1 ≠ peerId)
        (by simp only [Clean, isTask])
    | none => isTrue (by simp only [Clean, isTask])
    | some (.joining ..) => isTrue (by simp only [Clean, isTask])
    | some (.present ..) => isTrue (by simp only [Clean, isTask])
    | some (.archiving ..) => isTrue (by simp only [Clean, isTask])
    | some (.leaving _) => isTrue (by simp only [Clean, isTask])
  | .joinLocal .. => isTrue trivial
  | .joinRemote _ => isTrue trivial
  | .leave _ => isTrue trivial
  | .release _ => isTrue trivial

/-- The relay's own client leaves last. -/
def sampleMeeting : List LifecycleStep :=
  [.joinLocal 0 7, .addPeer 0 (samplePeer 0) "alice" 2, .joinRemote 1,
    .addPeer 1 (samplePeer 1) "bob" 2, .leave 1, .unregister 1, .leave 0, .archived 0 true,
    .cleanup 0, .release 0]

theorem sampleMeeting_proper : (sampleMeeting.foldl step (start sampleKey)).Proper :=
  last_leave_exact sampleKey (by decide +kernel)

def sampleStray : List LifecycleStep :=
  [.joinLocal 0 7, .addPeer 0 (samplePeer 0) "alice" 2, .joinRemote 1,
    .addPeer 1 (samplePeer 1) "bob" 2, .leave 0, .cleanup 0, .leave 1, .unregister 1]

theorem sampleStray_leaks :
    ¬ ∀ (key : RoomKey) (actions : List LifecycleStep), (actions.foldl step (start key)).Proper := by
  intro always
  have proper := always sampleKey sampleStray
  have quiet : (sampleStray.foldl step (start sampleKey)).Quiet := by
    have noTasks : (sampleStray.foldl step (start sampleKey)).manager.tasks.entries = [] := by
      decide +kernel
    have noReleases : (sampleStray.foldl step (start sampleKey)).releasing.entries = [] := by
      decide +kernel
    refine ⟨fun task => ?_, fun task phase isTask => ?_⟩
    · rw [Keyed.get_eq_none, noReleases]
      exact fun entry isEntry => nomatch isEntry
    · rw [Keyed.get_eq_some, noTasks] at isTask
      cases isTask
  have empty : ¬ (sampleStray.foldl step (start sampleKey)).manager.Occupied 0 := by
    rintro ⟨object, isObject, someone⟩
    have noPeers : ((sampleStray.foldl step (start sampleKey)).manager.objects[0]?).all
        (·.peers.entries.isEmpty) := by
      decide +kernel
    rw [isObject] at noPeers
    exact someone (List.isEmpty_iff.mp noPeers)
  have ended := (proper.after quiet 0 (by decide +kernel) empty).1
  have unmarked : (sampleStray.foldl step (start sampleKey)).marked = [] := by decide +kernel
  rw [unmarked] at ended
  cases ended

end Lifecycle

end Buzz.Audio
