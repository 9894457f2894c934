import Buzz.Connection.Frames
import Buzz.Library.Holdings

/-! The retained count of a topic against its subscriptions. -/

namespace Buzz.Connection

open Nostr Buzz.Subscription Buzz.Pubsub Buzz.Req Library.Transition Library.Holdings List
open Option (any_some bind_some getD_some map_some)
open Function (update_of_ne update_self)

def ReqPhase.inRegistry : ReqPhase → Bool
  | .replacing _ => true
  | .retaining => true
  | .delivering => true
  | .finished => true
  | _ => false

def ReqPhase.retained : ReqPhase → Bool
  | .delivering => true
  | .finished => true
  | _ => false

def ReqPhase.pending : ReqPhase → List Release
  | .replacing release => [release]
  | _ => []

def ReceivePhase.pending : ReceivePhase → List Release
  | .releasing release => [release]
  | .sweeping releases => releases
  | _ => []

inductive Place
  | task (id : TaskId)
  | session (connId : ConnId)
  deriving DecidableEq

def entryTopic (entry : SubEntry) : EventTopicKey := ⟨entry.2.1, topicForSubscription entry.2.2⟩

def registered (registry : SubscriptionRegistry) : List (Subscriber × SubEntry) :=
  registry.subs.entries.flatMap fun connection =>
    connection.2.entries.map fun entry => ((connection.1, entry.1), entry.2)

namespace World

def pending (self : World) : Place → List Release
  | .task id => (self.tasks id).elim [] (·.phase.pending)
  | .session connId => (self.sessions connId).receive.pending

def completed (self : World) (subscriber : Subscriber) : Bool :=
  (self.owner subscriber).any fun id =>
    (self.tasks id).any (·.phase = .finished)

def registeredCount (self : World) (topic : EventTopicKey) : ℕ :=
  (registered self.registry).countP fun entry => entryTopic entry.2 = topic

def completedCount (self : World) (topic : EventTopicKey) : ℕ :=
  (registered self.registry).countP fun entry =>
    entryTopic entry.2 = topic && self.completed entry.1

def holder (self : World) (entry : Subscriber × SubEntry) : TaskId × EventTopicKey :=
  (self.ownerOf entry.1, entryTopic entry.2)

def Quiet (self : World) : Prop :=
  (∀ id task, self.tasks id = some task → task.phase = .finished ∨ task.phase = .refused) ∧
    ∀ connId, (self.sessions connId).receive = .waiting ∨ (self.sessions connId).receive = .gone

def Follows (self : World) : Prop :=
  ∀ topic, self.completedCount topic ≤ topicRefcount self.desired topic ∧
    (self.Quiet → self.registeredCount topic = topicRefcount self.desired topic)

def nextRelease (self : World) : Action → Option Release
  | .releaseReplaced id => (self.pending (.task id)).head?
  | .releaseClosed connId => (self.pending (.session connId)).head?
  | .releaseSwept connId => (self.pending (.session connId)).head?
  | _ => none

def Retained (self : World) (action : Action) : Prop :=
  ∀ release, self.nextRelease action = some release →
    ∃ task, self.tasks release.origin = some task ∧ task.phase.retained

end World

section books

variable (parseUuid : String → Option Uuid) (tenant : ConnId → CommunityId)

def ReqTask.sheet (task : ReqTask) : Option (Sheet Subscriber EventTopicKey) :=
  if task.phase.inRegistry then
    some ⟨(task.connId, task.subId), task.topic parseUuid tenant, task.phase.retained⟩
  else none

def sheets (tasks : TaskId → Option ReqTask) (id : TaskId) :
    Option (Sheet Subscriber EventTopicKey) :=
  (tasks id).bind (ReqTask.sheet parseUuid tenant)

def World.books (self : World) : Books TaskId Subscriber Place EventTopicKey where
  sheets := sheets parseUuid tenant self.tasks
  owner := self.owner
  pending := fun place => (self.pending place).map Release.origin
  counts := self.desired

structure Linked (world : World) : Prop where
  sound : (world.books parseUuid tenant).Sound
  entry : ∀ subscriber, (world.registry.lookupSub subscriber).map entryTopic =
    (world.owner subscriber).bind fun id =>
      (sheets parseUuid tenant world.tasks id).map Sheet.key
  community : ∀ connId subId entry, world.registry.lookupSub (connId, subId) = some entry →
    entry.2.1 = tenant connId
  topics : ∀ place release, release ∈ world.pending place →
    (sheets parseUuid tenant world.tasks release.origin).map Sheet.key = some release.topic

end books

section linked

variable {parseUuid : String → Option Uuid} {tenant : ConnId → CommunityId} {world next : World}

namespace Linked

theorem initial : Linked parseUuid tenant World.initial where
  sound := by
    constructor
    · intro slot id owns
      cases owns
    · intro place id member
      cases place <;> cases member
    · intro place other id member
      cases place <;> cases member
    · intro place
      cases place <;> exact nodup_nil
    · intro id sheet found
      cases found
    · refine ⟨[], nodup_nil, Buzz.Library.RefCount.Accounts.none, ?_⟩
      intro id key
      constructor
      · intro member
        cases member
      · rintro ⟨sheet, found, -⟩
        cases found
  entry := by
    intro subscriber
    rfl
  community := by
    intro connId subId entry found
    cases found
  topics := by
    intro place release member
    cases place <;> cases member

theorem quiet (linked : Linked parseUuid tenant world)
    (sheets_ : sheets parseUuid tenant next.tasks = sheets parseUuid tenant world.tasks)
    (pending : ∀ place, next.pending place = world.pending place)
    (owner : next.owner = world.owner) (registry : next.registry = world.registry)
    (desired : next.desired = world.desired) : Linked parseUuid tenant next := by
  have books : next.books parseUuid tenant = world.books parseUuid tenant := by
    simp only [World.books, sheets_, owner, desired]
    congr 1
    funext place
    rw [pending]
  constructor
  · rw [books]
    exact linked.sound
  · rw [registry, owner, sheets_]
    exact linked.entry
  · rw [registry]
    exact linked.community
  · intro place release member
    rw [pending] at member
    rw [sheets_]
    exact linked.topics place release member

end Linked

theorem sheets_update {tasks : TaskId → Option ReqTask} {id : TaskId} {old : ReqTask}
    (found : tasks id = some old) {phase : ReqPhase}
    (inRegistry : phase.inRegistry = old.phase.inRegistry)
    (retained : phase.retained = old.phase.retained) :
    sheets parseUuid tenant (Function.update tasks id (some { old with phase })) =
      sheets parseUuid tenant tasks := by
  funext other
  by_cases same : other = id
  · subst same
    simp [sheets, ReqTask.sheet, found, inRegistry, retained, ReqTask.topic, ReqTask.channelId]
  · simp [sheets, same]

namespace Linked

theorem of_task (linked : Linked parseUuid tenant world) {id : TaskId} {old : ReqTask}
    (found : world.tasks id = some old) {phase : ReqPhase}
    (inRegistry : phase.inRegistry = old.phase.inRegistry)
    (retained : phase.retained = old.phase.retained)
    (pending : phase.pending = old.phase.pending)
    (tasks : next.tasks = Function.update world.tasks id (some { old with phase }))
    (sessions : ∀ connId, (next.sessions connId).receive = (world.sessions connId).receive)
    (owner : next.owner = world.owner) (registry : next.registry = world.registry)
    (desired : next.desired = world.desired) : Linked parseUuid tenant next := by
  apply linked.quiet _ _ owner registry desired
  · rw [tasks]
    exact sheets_update found inRegistry retained
  · intro place
    cases place with
    | session connId => exact congrArg ReceivePhase.pending (sessions connId)
    | task other =>
      simp only [World.pending, tasks]
      by_cases same : other = id
      · subst same
        simp [found, pending]
      · simp [same]

variable {connId : ConnId}

section

variable (linked : Linked parseUuid tenant world)

include linked

theorem of_session {session : Session}
    (pending : session.receive.pending = (world.sessions connId).receive.pending)
    (sessions : next.sessions = Function.update world.sessions connId session)
    (tasks : next.tasks = world.tasks) (owner : next.owner = world.owner)
    (registry : next.registry = world.registry) (desired : next.desired = world.desired) :
    Linked parseUuid tenant next := by
  apply linked.quiet _ _ owner registry desired
  · rw [tasks]
  · intro place
    cases place with
    | task other => simp only [World.pending, tasks]
    | session other =>
      simp only [World.pending, sessions]
      by_cases same : other = connId
      · subst same
        simp [pending]
      · simp [same]

theorem owner_of_entry {subId : SubId}
    {entry : SubEntry} (found : world.registry.lookupSub (connId, subId) = some entry) :
    ∃ id, world.owner (connId, subId) = some id ∧
      (sheets parseUuid tenant world.tasks id).map Sheet.key =
        some (scopeTopic tenant connId entry.2.2) := by
  have agree := linked.entry (connId, subId)
  have community := linked.community connId subId entry found
  rw [found] at agree
  cases owner : world.owner (connId, subId) with
  | none =>
    rw [owner] at agree
    cases agree
  | some id =>
    rw [owner] at agree
    refine ⟨id, rfl, agree.symm.trans ?_⟩
    simp only [map_some, entryTopic, scopeTopic, community]

theorem owner_of_missing {subscriber : Subscriber}
    (missing : world.registry.lookupSub subscriber = none) : world.owner subscriber = none := by
  have agree := linked.entry subscriber
  rw [missing] at agree
  cases owner : world.owner subscriber with
  | none => rfl
  | some id =>
    rcases linked.sound.owned subscriber id owner with ⟨sheet, found, -⟩
    have found' : sheets parseUuid tenant world.tasks id = some sheet := found
    rw [owner, bind_some, found'] at agree
    cases agree

theorem removed_cases (connId : ConnId) (subId : SubId) :
    ((world.registry.removeSubscription connId subId).2 = none ∧
        world.owner (connId, subId) = none) ∨
      ∃ removed id, (world.registry.removeSubscription connId subId).2 = some removed ∧
        world.owner (connId, subId) = some id ∧
        (sheets parseUuid tenant world.tasks id).map Sheet.key =
          some (scopeTopic tenant connId removed.channelId) := by
  cases found : world.registry.lookupSub (connId, subId) with
  | none =>
    rw [SubscriptionRegistry.removeSubscription_absent found]
    exact .inl ⟨rfl, linked.owner_of_missing found⟩
  | some entry =>
    rw [SubscriptionRegistry.removeSubscription_present found]
    rcases linked.owner_of_entry found with ⟨id, owner, key⟩
    exact .inr ⟨_, id, rfl, owner, key⟩

theorem removed_pending {subId : SubId}
    (pending : Option RemovedSubscription → List Release) (nothing : pending none = [])
    (release : ∀ removed, pending (some removed) =
      [⟨scopeTopic tenant connId removed.channelId, world.ownerOf (connId, subId)⟩]) :
    (pending (world.registry.removeSubscription connId subId).2).map Release.origin =
        (world.owner (connId, subId)).toList ∧
      ∀ release ∈ pending (world.registry.removeSubscription connId subId).2,
        (sheets parseUuid tenant world.tasks release.origin).map Sheet.key = some release.topic := by
  rcases linked.removed_cases connId subId with ⟨absent, owner⟩ | ⟨removed, id, present, owner, key⟩
  · rw [absent, owner, nothing]
    exact ⟨rfl, fun release member => absurd member not_mem_nil⟩
  · rw [present, owner, release, World.ownerOf, owner]
    exact ⟨rfl, forall_mem_singleton.mpr key⟩

end

end Linked

theorem sheets_set (tasks : TaskId → Option ReqTask) (id : TaskId) (task : ReqTask) :
    sheets parseUuid tenant (Function.update tasks id (some task)) =
      Function.update (sheets parseUuid tenant tasks) id (task.sheet parseUuid tenant) := by
  funext other
  by_cases same : other = id
  · subst same
    simp [sheets]
  · simp [sheets, same]

namespace World

theorem pending_setTask (world : World) (id : TaskId) (task : ReqTask) (place : Place) :
    (world.setTask id task).pending place =
      Function.update world.pending (.task id) task.phase.pending place := by
  cases place with
  | session connId => rfl
  | task other =>
    by_cases same : other = id
    · subst same
      simp [pending, setTask]
    · simp [pending, setTask, same]

theorem pending_setSession (world : World) (connId : ConnId) (session : Session) (place : Place) :
    (world.setSession connId session).pending place =
      Function.update world.pending (.session connId) session.receive.pending place := by
  cases place with
  | task id => rfl
  | session other =>
    by_cases same : other = connId
    · subst same
      simp [pending, setSession]
    · simp [pending, setSession, same]

theorem pending_register (world : World) (id : TaskId) (task : ReqTask) (place : Place) :
    (world.register parseUuid tenant id task).pending place =
      Function.update world.pending (.task id)
        (world.afterRegister tenant task.connId task.subId
          (world.registry.removeSubscription task.connId task.subId).2).pending place :=
  world.pending_setTask id ⟨task.connId, task.subId, task.filters, _⟩ place

end World

theorem origins_update (world : World) (place : Place) (releases : List Release) :
    (fun other => (Function.update world.pending place releases other).map Release.origin) =
      Function.update (fun other => (world.pending other).map Release.origin) place
        (releases.map Release.origin) := by
  funext other
  by_cases same : other = place
  · subst same
    simp
  · simp [same]

namespace Linked

section

variable (linked : Linked parseUuid tenant world)

include linked

theorem books_register (id : TaskId) (task : ReqTask) :
    (world.register parseUuid tenant id task).books parseUuid tenant =
      (world.books parseUuid tenant).register id (.task id) (task.connId, task.subId)
        (task.topic parseUuid tenant) := by
  have origins := (linked.removed_pending (fun removed =>
    (world.afterRegister tenant task.connId task.subId removed).pending) rfl fun _ => rfl).1
  simp only [World.books, Books.register]
  congr 1
  · simp only [World.register, World.setTask, sheets_set]
    congr 1
    cases removed : (world.registry.registerScoped (tenant task.connId) task.connId task.subId
      task.filters (task.channelId parseUuid)).2 with
    | none | some replaced => rfl
  · rw [← origins, ← origins_update]
    funext place
    rw [world.pending_register]

theorem register {id : TaskId} {task : ReqTask}
    (found : world.tasks id = some task) (phase : task.phase = .listed) :
    Linked parseUuid tenant (world.register parseUuid tenant id task) := by
  have books := linked.books_register id task
  have fresh : (world.books parseUuid tenant).sheets id = none := by
    simp [World.books, sheets, found, ReqTask.sheet, phase, ReqPhase.inRegistry]
  have empty : (world.books parseUuid tenant).pending (.task id) = [] := by
    simp [World.books, World.pending, found, phase, ReqPhase.pending]
  have sheets_ : sheets parseUuid tenant (world.register parseUuid tenant id task).tasks =
      Function.update (sheets parseUuid tenant world.tasks) id
        (some ⟨(task.connId, task.subId), task.topic parseUuid tenant, false⟩) :=
    congrArg Books.sheets books
  have other {old : TaskId} {sheet : Sheet Subscriber EventTopicKey}
      (present : sheets parseUuid tenant world.tasks old = some sheet) : old ≠ id := by
    rintro rfl
    have absent : sheets parseUuid tenant world.tasks old = none := fresh
    rw [absent] at present
    cases present
  have lookup := world.registry.lookupSub_registerScoped (tenant task.connId) task.connId
    task.subId task.filters (task.channelId parseUuid)
  constructor
  · rw [books]
    exact linked.sound.register fresh empty
  · intro subscriber
    have owner : (world.register parseUuid tenant id task).owner subscriber =
      Function.update world.owner (task.connId, task.subId) (some id) subscriber := rfl
    have entry : (world.register parseUuid tenant id task).registry.lookupSub subscriber = _ :=
      lookup subscriber
    rw [entry, owner, sheets_]
    by_cases same : subscriber = (task.connId, task.subId)
    · subst same
      simp [entryTopic, ReqTask.topic, scopeTopic]
    · rw [if_neg same, update_of_ne same, linked.entry]
      cases owns : world.owner subscriber with
      | none => rfl
      | some old =>
        rcases linked.sound.owned subscriber old owns with ⟨sheet, present, -⟩
        simp [other present]
  · intro connId subId entry present
    rw [show (world.register parseUuid tenant id task).registry.lookupSub (connId, subId) = _ from
      lookup (connId, subId)] at present
    by_cases same : (connId, subId) = (task.connId, task.subId)
    · rw [if_pos same, Option.some.injEq] at present
      rw [← present, (Prod.mk.inj same).1]
    · rw [if_neg same] at present
      exact linked.community connId subId entry present
  · intro place release member
    rw [sheets_]
    have stays {old : Release} (key : (sheets parseUuid tenant world.tasks old.origin).map
        Sheet.key = some old.topic) : (Function.update (sheets parseUuid tenant world.tasks) id
        (some ⟨(task.connId, task.subId), task.topic parseUuid tenant, false⟩)
        old.origin).map Sheet.key = some old.topic := by
      rcases Option.map_eq_some_iff.mp key with ⟨sheet, present, -⟩
      rw [update_of_ne (other present)]
      exact key
    rw [world.pending_register] at member
    by_cases here : place = .task id
    · rw [here, update_self] at member
      exact stays ((linked.removed_pending (fun removed => (world.afterRegister tenant task.connId
        task.subId removed).pending) rfl fun _ => rfl).2 release member)
    · rw [update_of_ne here] at member
      exact stays (linked.topics place release member)

theorem retain {id : TaskId} {task : ReqTask}
    (found : world.tasks id = some task) (phase : task.phase = .retaining) :
    Linked parseUuid tenant
      { world.setTask id { task with phase := .delivering } with
        desired := (retainTopic world.desired (task.topic parseUuid tenant)).1 } := by
  have sheet : sheets parseUuid tenant world.tasks id =
      some ⟨(task.connId, task.subId), task.topic parseUuid tenant, false⟩ := by
    simp [sheets, found, ReqTask.sheet, phase, ReqPhase.inRegistry, ReqPhase.retained]
  have sheets_ : sheets parseUuid tenant
      (world.setTask id { task with phase := .delivering }).tasks =
      Function.update (sheets parseUuid tenant world.tasks) id
        (some ⟨(task.connId, task.subId), task.topic parseUuid tenant, true⟩) := by
    simp only [World.setTask, sheets_set]
    rfl
  have keys (other : TaskId) : (Function.update (sheets parseUuid tenant world.tasks) id
      (some ⟨(task.connId, task.subId), task.topic parseUuid tenant, true⟩) other).map Sheet.key =
        (sheets parseUuid tenant world.tasks other).map Sheet.key := by
    by_cases same : other = id
    · subst same
      simp [sheet]
    · rw [update_of_ne same]
  have pending (place : Place) :
      (world.setTask id { task with phase := .delivering }).pending place = world.pending place := by
    rw [world.pending_setTask]
    by_cases here : place = .task id
    · subst here
      simp [World.pending, found, phase, ReqPhase.pending]
    · rw [update_of_ne here]
  constructor
  · have books : World.books parseUuid tenant
        { world.setTask id { task with phase := .delivering } with
          desired := (retainTopic world.desired (task.topic parseUuid tenant)).1 } =
        (world.books parseUuid tenant).retain id
          ⟨(task.connId, task.subId), task.topic parseUuid tenant, false⟩ := by
      simp only [World.books, Books.retain]
      congr 1
      funext place
      exact congrArg (List.map Release.origin) (pending place)
    rw [books]
    exact linked.sound.retain sheet rfl
  · intro subscriber
    have agree := linked.entry subscriber
    simp only [sheets_, keys]
    exact agree
  · exact linked.community
  · intro place release member
    simp only [sheets_, keys]
    refine linked.topics place release ?_
    rw [← pending place]
    exact member

theorem of_release {place : Place} {release : Release}
    {rest : List Release} (pending : world.pending place = release :: rest)
    (retained : ∃ task, world.tasks release.origin = some task ∧ task.phase.retained)
    (sheets_ : sheets parseUuid tenant next.tasks = sheets parseUuid tenant world.tasks)
    (left : ∀ other, next.pending other = Function.update world.pending place rest other)
    (owner : next.owner = world.owner) (registry : next.registry = world.registry)
    (desired : next.desired = (releaseTopic world.desired release.topic).1) :
    Linked parseUuid tenant next := by
  have topic := linked.topics place release (by rw [pending]; exact mem_cons_self)
  rcases Option.map_eq_some_iff.mp topic with ⟨sheet, found, key⟩
  constructor
  · have books : next.books parseUuid tenant = (world.books parseUuid tenant).release place
        (rest.map Release.origin) sheet.key := by
      simp only [World.books, Books.release, sheets_, owner, desired, key]
      congr 1
      rw [← origins_update]
      funext other
      rw [left]
    rw [books]
    have retained_ : sheet.retained := by
      rcases retained with ⟨task, present, phase⟩
      simp only [sheets, present, bind_some, ReqTask.sheet] at found
      split at found
      · rw [Option.some.injEq] at found
        rw [← found]
        exact phase
      · cases found
    refine linked.sound.release ?_ found retained_
    simp only [World.books, pending, map_cons]
  · rw [registry, owner, sheets_]
    exact linked.entry
  · rw [registry]
    exact linked.community
  · intro other old member
    rw [sheets_]
    rw [left] at member
    by_cases here : other = place
    · rw [here, update_self] at member
      exact linked.topics place old (by rw [pending]; exact mem_cons_of_mem _ member)
    · rw [update_of_ne here] at member
      exact linked.topics other old member

theorem of_remove (place : Place)
    (gone : Subscriber → Bool) {releases : List Release} (empty : world.pending place = [])
    (distinct : (releases.map Release.origin).Nodup)
    (members : ∀ id, id ∈ releases.map Release.origin ↔
      ∃ subscriber, gone subscriber ∧ world.owner subscriber = some id)
    (topics : ∀ release ∈ releases,
      (sheets parseUuid tenant world.tasks release.origin).map Sheet.key = some release.topic)
    (tasks : next.tasks = world.tasks)
    (left : ∀ other, next.pending other = Function.update world.pending place releases other)
    (owner : next.owner = fun subscriber => if gone subscriber then none else world.owner subscriber)
    (registry : ∀ subscriber, next.registry.lookupSub subscriber =
      if gone subscriber then none else world.registry.lookupSub subscriber)
    (desired : next.desired = world.desired) : Linked parseUuid tenant next := by
  constructor
  · have books : next.books parseUuid tenant =
        (world.books parseUuid tenant).remove place gone (releases.map Release.origin) := by
      simp only [World.books, Books.remove, tasks, owner, desired]
      congr 1
      rw [← origins_update]
      funext other
      rw [left]
    rw [books]
    refine linked.sound.remove ?_ distinct members
    simp only [World.books, empty, map_nil]
  · intro subscriber
    rw [registry, owner, tasks]
    cases isGone : gone subscriber with
    | true => simp [isGone]
    | false => simpa [isGone] using linked.entry subscriber
  · intro connId subId entry found
    rw [registry] at found
    cases isGone : gone (connId, subId) with
    | true => simp [isGone] at found
    | false => exact linked.community connId subId entry (by simpa [isGone] using found)
  · intro other release member
    rw [tasks]
    rw [left] at member
    by_cases here : other = place
    · rw [here, update_self] at member
      exact topics release member
    · rw [update_of_ne here] at member
      exact linked.topics other release member

theorem deregister {connId : ConnId} {subId : SubId}
    (phase : (world.sessions connId).receive = .unlisted subId) :
    Linked parseUuid tenant (world.deregister tenant connId subId) := by
  rcases linked.removed_pending (fun removed => (world.afterDeregister tenant connId subId
    removed).pending) rfl fun _ => rfl with ⟨origins, topics⟩
  refine linked.of_remove (.session connId)
    (fun subscriber => subscriber = (connId, subId)) ?_ ?_ ?_ topics rfl
    (world.pending_setSession connId _) ?_ ?_ rfl
  · simp only [World.pending, phase, ReceivePhase.pending]
  · rw [origins]
    cases world.owner (connId, subId) with
    | none => exact nodup_nil
    | some id => exact nodup_singleton id
  · intro id
    simp [origins]
  · funext subscriber
    by_cases same : subscriber = (connId, subId)
    · simp [World.deregister, same]
    · simp [World.deregister, same]
  · intro subscriber
    rw [show (world.deregister tenant connId subId).registry.lookupSub subscriber = _ from
      world.registry.lookupSub_removeSubscription connId subId subscriber]
    simp only [decide_eq_true_eq]

end

end Linked

theorem sweepReleases_eq (world : World) (connId : ConnId) :
    world.sweepReleases tenant connId (world.registry.removeConnection connId).2 =
      (world.registry.connSubs connId).entries.map fun entry =>
        Release.mk (scopeTopic tenant connId entry.2.2.2) (world.ownerOf (connId, entry.1)) := by
  have removed : (world.registry.removeConnection connId).2 =
      (world.registry.connSubs connId).entries.map fun entry =>
        RemovedSubscription.mk entry.2.2.1 entry.2.2.2 := by
    unfold SubscriptionRegistry.removeConnection SubscriptionRegistry.connSubs
    cases world.registry.subs.lookup connId <;> rfl
  rw [World.sweepReleases, removed, zipWith_map_left, zipWith_self]

theorem mem_connSubs_iff (registry : SubscriptionRegistry) (connId : ConnId)
    (entry : Sigma fun _ : SubId => SubEntry) : entry ∈ (registry.connSubs connId).entries ↔
      registry.lookupSub (connId, entry.1) = some entry.2 := by
  rw [SubscriptionRegistry.lookupSub_eq_connSubs]
  exact AList.mem_lookup_iff.symm

namespace Linked

section

variable (linked : Linked parseUuid tenant world)

include linked

theorem owner_injective {first second : Subscriber}
    {id : TaskId} (owns : world.owner first = some id) (owns' : world.owner second = some id) :
    first = second := by
  rcases linked.sound.owned first id owns with ⟨sheet, found, slot⟩
  exact slot.symm.trans (linked.sound.slot_of_owner owns' found)

theorem sweep {connId : ConnId}
    (phase : (world.sessions connId).receive = .leaving) :
    Linked parseUuid tenant (world.sweep tenant connId) := by
  have owned {entry : Sigma fun _ : SubId => SubEntry}
      (member : entry ∈ (world.registry.connSubs connId).entries) :
      world.owner (connId, entry.1) = some (world.ownerOf (connId, entry.1)) ∧
        (sheets parseUuid tenant world.tasks (world.ownerOf (connId, entry.1))).map Sheet.key =
          some (scopeTopic tenant connId entry.2.2.2) := by
    rcases linked.owner_of_entry ((mem_connSubs_iff _ connId entry).mp member) with
      ⟨id, owner, key⟩
    rw [World.ownerOf, owner, getD_some]
    exact ⟨rfl, key⟩
  refine linked.of_remove (.session connId)
    (·.1 = connId) ?_ ?_ ?_ ?_ rfl
    (world.pending_setSession connId _) ?_ ?_ rfl
  · simp only [World.pending, phase, ReceivePhase.pending]
  · rw [ReceivePhase.pending, sweepReleases_eq, map_map]
    refine List.Nodup.map_on ?_ (world.registry.connSubs connId).nodupKeys.nodup
    intro first member second member' same
    have slot := linked.owner_injective (owned member).1
      ((owned member').1.trans (congrArg some same.symm))
    have entry := (mem_connSubs_iff _ connId first).mp member
    rw [slot, (mem_connSubs_iff _ connId second).mp member', Option.some.injEq] at entry
    exact Sigma.ext (Prod.mk.inj slot).2 (heq_of_eq entry.symm)
  · intro id
    rw [ReceivePhase.pending, sweepReleases_eq, map_map, mem_map]
    constructor
    · rintro ⟨entry, member, rfl⟩
      exact ⟨(connId, entry.1), decide_eq_true rfl, (owned member).1⟩
    · rintro ⟨⟨conn, subId⟩, isGone, owns⟩
      obtain rfl : conn = connId := of_decide_eq_true isGone
      cases found : world.registry.lookupSub (conn, subId) with
      | none =>
        rw [linked.owner_of_missing found] at owns
        cases owns
      | some entry =>
        refine ⟨⟨subId, entry⟩, (mem_connSubs_iff _ conn ⟨subId, entry⟩).mpr found, ?_⟩
        simp [World.ownerOf, owns]
  · intro release member
    rw [ReceivePhase.pending, sweepReleases_eq, mem_map] at member
    rcases member with ⟨entry, member, rfl⟩
    exact (owned member).2
  · funext subscriber
    by_cases same : subscriber.1 = connId
    · simp [World.sweep, same]
    · simp [World.sweep, same]
  · intro subscriber
    rw [show (world.sweep tenant connId).registry.lookupSub subscriber = _ from
      world.registry.lookupSub_removeConnection connId subscriber]
    simp only [decide_eq_true_eq]

theorem receiveReq {connId : ConnId} {id : TaskId}
    (unused : world.tasks id = none) (subId : SubId) (filters : List Filter) (frames : List Frame) :
    Linked parseUuid tenant
      ((world.setTask id ⟨connId, subId, filters, .starting⟩).setSession connId
        { world.sessions connId with frames }) := by
  refine linked.quiet ?_ ?_ rfl rfl rfl
  · have absent : sheets parseUuid tenant world.tasks id = none := by
      simp [sheets, unused]
    exact (sheets_set world.tasks id _).trans (Function.update_eq_self_iff.mpr absent.symm)
  · intro place
    rw [World.pending_setSession]
    by_cases here : place = .session connId
    · rw [here, update_self]
      rfl
    · rw [update_of_ne here, World.pending_setTask]
      by_cases here' : place = .task id
      · subst here'
        simp [World.pending, unused, ReqPhase.pending]
      · rw [update_of_ne here']

theorem step {action : Action}
    (step : Step parseUuid tenant world action next) (retained : world.Retained action) :
    Linked parseUuid tenant next := by
  cases step with
  | @receiveReq connId id subId filters waiting unused =>
    exact linked.receiveReq unused subId filters _
  | turnAway waiting => exact linked
  | start found phase room =>
    exact linked.of_task found (by rw [phase]; rfl) (by rw [phase]; rfl) (by rw [phase]; rfl)
      rfl (fun _ => rfl) rfl rfl rfl
  | refuse found phase =>
    rcases phase with phase | phase <;>
      exact linked.of_task found (by rw [phase]; rfl) (by rw [phase]; rfl) (by rw [phase]; rfl)
        rfl (fun _ => rfl) rfl rfl rfl
  | accept found phase noSearch =>
    exact linked.of_task found (by rw [phase]; rfl) (by rw [phase]; rfl) (by rw [phase]; rfl)
      rfl (fun _ => rfl) rfl rfl rfl
  | @list id task found phase =>
    refine linked.of_task found (by rw [phase]; rfl) (by rw [phase]; rfl) (by rw [phase]; rfl)
      rfl ?_ rfl rfl rfl
    intro connId
    by_cases same : connId = task.connId
    · subst same
      simp [World.setSession]
    · simp [World.setSession, World.setTask, same]
  | register found phase => exact linked.register found phase
  | @releaseReplaced id task release found phase =>
    have pending : world.pending (.task id) = [release] := by
      simp [World.pending, found, phase, ReqPhase.pending]
    refine linked.of_release pending (retained release ?_) ?_ (world.pending_setTask id _)
      rfl rfl rfl
    · rw [World.nextRelease, pending, head?_cons]
    · exact sheets_update found (by rw [phase]; rfl) (by rw [phase]; rfl)
  | retain found phase => exact linked.retain found phase
  | finish found phase =>
    exact linked.of_task found (by rw [phase]; rfl) (by rw [phase]; rfl) (by rw [phase]; rfl)
      rfl (fun _ => rfl) rfl rfl rfl
  | receiveClose waiting =>
    exact linked.of_session (by rw [waiting]; rfl) rfl rfl rfl rfl rfl
  | unlist phase => exact linked.of_session (by rw [phase]; rfl) rfl rfl rfl rfl rfl
  | deregister phase => exact linked.deregister phase
  | @releaseClosed connId release phase =>
    have pending : world.pending (.session connId) = [release] := by
      simp [World.pending, phase, ReceivePhase.pending]
    refine linked.of_release pending (retained release ?_) rfl (world.pending_setSession connId _)
      rfl rfl rfl
    rw [World.nextRelease, pending, head?_cons]
  | leave waiting => exact linked.of_session (by rw [waiting]; rfl) rfl rfl rfl rfl rfl
  | sweep phase => exact linked.sweep phase
  | @releaseSwept connId release rest phase =>
    have pending : world.pending (.session connId) = release :: rest := by
      simp [World.pending, phase, ReceivePhase.pending]
    refine linked.of_release pending (retained release ?_) rfl (world.pending_setSession connId _)
      rfl rfl rfl
    rw [World.nextRelease, pending, head?_cons]
  | depart phase => exact linked.of_session (by rw [phase]; rfl) rfl rfl rfl rfl rfl

end

end Linked

theorem mem_registered_iff (registry : SubscriptionRegistry) (subscriber : Subscriber)
    (entry : SubEntry) : (subscriber, entry) ∈ registered registry ↔
      registry.lookupSub subscriber = some entry := by
  rcases subscriber with ⟨connId, subId⟩
  simp only [registered, mem_flatMap, mem_map, Prod.mk.injEq]
  constructor
  · rintro ⟨⟨conn, connSubs⟩, connection, ⟨sub, stored⟩, member, ⟨rfl, rfl⟩, rfl⟩
    exact Option.bind_eq_some_iff.mpr
      ⟨connSubs, AList.mem_lookup_iff.mpr connection, AList.mem_lookup_iff.mpr member⟩
  · intro found
    rcases Option.bind_eq_some_iff.mp found with ⟨connSubs, connection, present⟩
    exact ⟨⟨connId, connSubs⟩, AList.mem_lookup_iff.mp connection, ⟨subId, entry⟩,
      AList.mem_lookup_iff.mp present, ⟨rfl, rfl⟩, rfl⟩

theorem registered_nodup (registry : SubscriptionRegistry) : (registered registry).Nodup := by
  refine nodup_flatMap.mpr ⟨?_, ?_⟩
  · intro connection _
    refine List.Nodup.map_on ?_ connection.2.nodupKeys.nodup
    rintro ⟨sub, entry⟩ _ ⟨sub', entry'⟩ _ same
    rcases Prod.mk.inj same with ⟨slot, entries⟩
    exact Sigma.ext (Prod.mk.inj slot).2 (heq_of_eq entries)
  · refine List.Pairwise.imp ?_ (nodupKeys_iff_pairwise.mp registry.subs.nodupKeys)
    intro first second apart subscription member member'
    rcases mem_map.mp member with ⟨entry, -, rfl⟩
    rcases mem_map.mp member' with ⟨entry', -, same⟩
    exact apart (Prod.mk.inj (Prod.mk.inj same).1).1.symm

namespace Linked

variable {entry : Subscriber × SubEntry}

section

variable (linked : Linked parseUuid tenant world)

include linked

theorem holder_of_registered (member : entry ∈ registered world.registry) :
    ∃ id sheet, world.owner entry.1 = some id ∧
      sheets parseUuid tenant world.tasks id = some sheet ∧ sheet.slot = entry.1 ∧
      world.holder entry = (id, sheet.key) := by
  have found := (mem_registered_iff world.registry entry.1 entry.2).mp member
  have agree := linked.entry entry.1
  rw [found] at agree
  cases owner : world.owner entry.1 with
  | none =>
    rw [owner] at agree
    cases agree
  | some id =>
    rcases linked.sound.owned entry.1 id owner with ⟨sheet, present, slot⟩
    have present' : sheets parseUuid tenant world.tasks id = some sheet := present
    rw [owner, bind_some, present', map_some, map_some,
      Option.some.injEq] at agree
    refine ⟨id, sheet, rfl, present, slot, ?_⟩
    rw [World.holder, World.ownerOf, owner, getD_some, agree]

theorem holder_injective
    {first second : Subscriber × SubEntry} (member : first ∈ registered world.registry)
    (member' : second ∈ registered world.registry)
    (same : world.holder first = world.holder second) : first = second := by
  rcases linked.holder_of_registered member with ⟨id, sheet, owner, present, slot, holder⟩
  rcases linked.holder_of_registered member' with ⟨id', sheet', owner', present', slot', holder'⟩
  have ids : id = id' := (Prod.mk.inj (holder.symm.trans (same.trans holder'))).1
  rw [← ids, present, Option.some.injEq] at present'
  have slots : first.1 = second.1 := by rw [← slot, ← slot', present']
  have entries := (mem_registered_iff world.registry first.1 first.2).mp member
  rw [slots, (mem_registered_iff world.registry second.1 second.2).mp member',
    Option.some.injEq] at entries
  exact Prod.ext slots entries.symm

theorem holds_of_completed
    (member : entry ∈ registered world.registry) (completed : world.completed entry.1) :
    (world.books parseUuid tenant).Holds (world.holder entry).1 (world.holder entry).2 := by
  rcases linked.holder_of_registered member with ⟨id, sheet, owner, present, slot, holder⟩
  rw [holder]
  refine ⟨sheet, present, rfl, ?_, .inl (by rw [slot]; exact owner)⟩
  rw [World.completed, owner, any_some, Option.any_eq_true] at completed
  rcases completed with ⟨task, found, phase⟩
  simp only [sheets, found, bind_some, ReqTask.sheet, of_decide_eq_true phase,
    ReqPhase.inRegistry, ReqPhase.retained, if_true, Option.some.injEq] at present
  rw [← present]

theorem completed_le (topic : EventTopicKey) :
    world.completedCount topic ≤ topicRefcount world.desired topic := by
  rcases linked.sound.accounted with ⟨held, -, accounts, members⟩
  have distinct : (((registered world.registry).filter fun entry =>
      world.completed entry.1).map world.holder).Nodup := by
    refine List.Nodup.map_on ?_ ((registered_nodup world.registry).filter _)
    intro first member second member' same
    exact linked.holder_injective (mem_filter.mp member).1 (mem_filter.mp member').1 same
  have bound := accounts.countP_le distinct (fun holder member => by
    rcases mem_map.mp member with ⟨entry, chosen, rfl⟩
    rcases mem_filter.mp chosen with ⟨listed, completed⟩
    exact (members _ _).mpr (linked.holds_of_completed listed completed)) topic
  rw [countP_map, countP_filter] at bound
  exact bound

theorem holds_iff_of_quiet (quiet : world.Quiet)
    (id : TaskId) (topic : EventTopicKey) :
    (id, topic) ∈ (registered world.registry).map world.holder ↔
      (world.books parseUuid tenant).Holds id topic := by
  rw [mem_map]
  constructor
  · rintro ⟨entry, member, same⟩
    have completed : world.completed entry.1 := by
      rcases linked.holder_of_registered member with ⟨owner, sheet, owns, present, -, -⟩
      rcases Option.bind_eq_some_iff.mp present with ⟨task, found, inRegistry⟩
      rw [World.completed, owns, any_some, found, any_some, decide_eq_true_eq]
      rcases quiet.1 owner task found with finished | refused
      · exact finished
      · simp [ReqTask.sheet, refused, ReqPhase.inRegistry] at inRegistry
    have holds := linked.holds_of_completed member completed
    rw [same] at holds
    exact holds
  · rintro ⟨sheet, found, key, -, owns | ⟨place, pending⟩⟩
    · have owns' : world.owner sheet.slot = some id := owns
      have agree := linked.entry sheet.slot
      have found' : sheets parseUuid tenant world.tasks id = some sheet := found
      rw [owns', bind_some, found', map_some] at agree
      rcases Option.map_eq_some_iff.mp agree with ⟨entry, present, itsTopic⟩
      refine ⟨(sheet.slot, entry), (mem_registered_iff _ _ _).mpr present, ?_⟩
      rw [World.holder, World.ownerOf, owns', getD_some, itsTopic, key]
    · have none_ : world.pending place = [] := by
        cases place with
        | session connId =>
          rcases quiet.2 connId with waiting | gone
          · simp [World.pending, waiting, ReceivePhase.pending]
          · simp [World.pending, gone, ReceivePhase.pending]
        | task other =>
          cases present : world.tasks other with
          | none => simp [World.pending, present]
          | some task =>
            rcases quiet.1 other task present with finished | refused
            · simp [World.pending, present, finished, ReqPhase.pending]
            · simp [World.pending, present, refused, ReqPhase.pending]
      simp [World.books, none_] at pending

theorem registered_eq (quiet : world.Quiet)
    (topic : EventTopicKey) :
    world.registeredCount topic = topicRefcount world.desired topic := by
  rcases linked.sound.accounted with ⟨held, distinct, accounts, members⟩
  have all : ((registered world.registry).map world.holder).Nodup := by
    refine List.Nodup.map_on ?_ (registered_nodup world.registry)
    intro first member second member' same
    exact linked.holder_injective member member' same
  have counted := accounts.countP_eq all distinct (fun holder =>
    (linked.holds_iff_of_quiet quiet holder.1 holder.2).trans (members _ _).symm) topic
  rw [countP_map] at counted
  exact counted

theorem follows : world.Follows :=
  fun topic => ⟨linked.completed_le topic, fun quiet => linked.registered_eq quiet topic⟩

end

end Linked

theorem linked_of_run {actions : List Action}
    (run : Run (Guarded World.Retained (Step parseUuid tenant)) World.initial actions world) :
    Linked parseUuid tenant world :=
  run.invariant (fun _ _ _ linked step => linked.step step.2 step.1) Linked.initial

end linked

/-- No topic is released before its retain. -/
theorem counts_follow_subscriptions (parseUuid : String → Option Uuid)
    (tenant : ConnId → CommunityId) {actions : List Action} {world : World}
    (run : Run (Guarded World.Retained (Step parseUuid tenant)) World.initial actions world) :
    world.Follows :=
  (linked_of_run run).follows

theorem counts_follow_subscriptions_closed :
    ∃ world, Run (Guarded World.Retained (Step noUuid sampleTenant)) World.initial
        [.receiveReq sampleConn 0 "a" textNotes, .start 0, .accept 0, .list 0, .register 0,
          .retain 0, .finish 0, .receiveClose sampleConn "a", .unlist sampleConn,
          .deregister sampleConn, .releaseClosed sampleConn] world ∧
      world.Follows := by
  have run : Run (Guarded World.Retained (Step noUuid sampleTenant)) World.initial
      [.receiveReq sampleConn 0 "a" textNotes, .start 0, .accept 0, .list 0, .register 0,
        .retain 0, .finish 0, .receiveClose sampleConn "a", .unlist sampleConn,
        .deregister sampleConn, .releaseClosed sampleConn] _ :=
    .cons ⟨nofun, .receiveReq rfl rfl⟩ <|
    .cons ⟨nofun, .start rfl rfl (.inr (by decide))⟩ <|
    .cons ⟨nofun, .accept rfl rfl (by simp [textNotes])⟩ <|
    .cons ⟨nofun, .list rfl rfl⟩ <|
    .cons ⟨nofun, .register rfl rfl⟩ <|
    .cons ⟨nofun, .retain rfl rfl⟩ <|
    .cons ⟨nofun, .finish rfl rfl⟩ <|
    .cons ⟨nofun, .receiveClose rfl⟩ <|
    .cons ⟨nofun, .unlist rfl⟩ <|
    .cons ⟨nofun, .deregister rfl⟩ <|
    .cons ⟨fun release found => by cases found; exact ⟨_, rfl, rfl⟩, .releaseClosed rfl⟩ <| .nil _
  exact ⟨_, run, counts_follow_subscriptions noUuid sampleTenant run⟩

/-- The topic stays retained. -/
theorem early_release_forgotten :
    ¬ ∀ actions world, Run (Step noUuid sampleTenant) World.initial actions world →
      world.Follows := by
  intro claim
  have run : Run (Step noUuid sampleTenant) World.initial
      [.receiveReq sampleConn 0 "a" textNotes, .start 0, .accept 0, .list 0, .register 0,
        .receiveClose sampleConn "a", .unlist sampleConn, .deregister sampleConn,
        .releaseClosed sampleConn, .retain 0, .finish 0] _ :=
    .cons (.receiveReq rfl rfl) <|
    .cons (.start rfl rfl (.inr (by decide))) <|
    .cons (.accept rfl rfl (by simp [textNotes])) <|
    .cons (.list rfl rfl) <|
    .cons (.register rfl rfl) <|
    .cons (.receiveClose rfl) <|
    .cons (.unlist rfl) <|
    .cons (.deregister rfl) <|
    .cons (.releaseClosed rfl) <|
    .cons (.retain rfl rfl) <|
    .cons (.finish rfl rfl) <| .nil _
  have counted := (claim _ _ run ⟨sampleTenant sampleConn, .global⟩).2 ⟨?_, ?_⟩
  · exact absurd counted (by decide)
  · intro id task found
    cases id with
    | zero =>
      cases found
      exact .inl rfl
    | succ id => cases found
  · intro connId
    by_cases same : connId = sampleConn
    · subst same
      exact .inl rfl
    · simp [World.setSession, World.setTask, World.register, World.deregister, World.initial,
        Session.new, same]

end Buzz.Connection
