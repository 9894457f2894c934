import Buzz.Connection.Sessions

/-! What the registry holds for a connection once its handlers have finished. -/

namespace Buzz.Connection

open Nostr Buzz.Subscription Buzz.Pubsub Buzz.Req Library.Transition List
open Function (update_of_ne update_self)

def ReqPhase.registered : ReqPhase → Bool
  | .replacing _ => true
  | .retaining => true
  | .delivering => true
  | .finished => true
  | _ => false

def ReqPhase.over : ReqPhase → Bool
  | .finished => true
  | .refused => true
  | _ => false

def ReceivePhase.swept : ReceivePhase → Bool
  | .sweeping _ => true
  | .gone => true
  | _ => false

def ReceivePhase.pendingClose : ReceivePhase → Option SubId
  | .closing subId => some subId
  | .unlisted subId => some subId
  | _ => none

namespace Frame

def isReq : Frame → Bool
  | .req _ => true
  | .close _ _ => false

variable (tasks : TaskId → Option ReqTask) (subId : SubId)

def registers (id : TaskId) : Bool :=
  (tasks id).any fun task => task.subId = subId && task.phase.registered

def accepted : Frame → Bool
  | .req id => registers tasks subId id
  | .close closed _ => closed = subId

def effective : Frame → Bool
  | .req id => registers tasks subId id
  | .close closed taken => taken && closed = subId

end Frame

namespace World

def lastAcceptedIsReq (self : World) (connId : ConnId) (subId : SubId) : Bool :=
  ((self.sessions connId).frames.find? (Frame.accepted self.tasks subId)).any Frame.isReq

/-- Its handlers have finished, and it awaits a frame or is done. -/
def Settled (self : World) (connId : ConnId) : Prop :=
  (∀ id task, self.tasks id = some task → task.connId = connId → task.phase.over) ∧
    ((self.sessions connId).receive = .waiting ∨ (self.sessions connId).receive = .gone)

/-- The registered subscriptions are those whose last accepted frame was a REQ. -/
def InOrder (self : World) (connId : ConnId) : Prop :=
  ∀ subId, (self.registry.lookupSub (connId, subId)).isSome =
    (self.lastAcceptedIsReq connId subId && !(self.sessions connId).receive.swept)

/-- A REQ registers before a later CLOSE and the cleanup have been to the registry. -/
def Timely (self : World) : Action → Prop
  | .register id => ∀ task, self.tasks id = some task →
      (self.sessions task.connId).receive.swept = false ∧
        Frame.close task.subId true ∉
          (self.sessions task.connId).frames.takeWhile (· ≠ .req id)
  | _ => True

end World

def AllTaken (frames : List Frame) : Prop := ∀ subId, Frame.close subId false ∉ frames

/-- It is the newest frame. -/
def Shaped (session : Session) : Prop :=
  ∃ handled, AllTaken handled ∧
    session.frames = (session.receive.pendingClose.toList.map (Frame.close · false)) ++ handled

structure Ordered (tasks : TaskId → Option ReqTask) (registry : SubscriptionRegistry)
    (connId : ConnId) (session : Session) : Prop where
  known : ∀ id, .req id ∈ session.frames → ∃ task, tasks id = some task ∧ task.connId = connId
  shaped : Shaped session
  live : session.receive.swept = false → ∀ subId,
    (registry.lookupSub (connId, subId)).isSome =
      (session.frames.find? (Frame.effective tasks subId)).any Frame.isReq
  swept : session.receive.swept → ∀ subId, registry.lookupSub (connId, subId) = none

def Kept (tasks tasks' : TaskId → Option ReqTask) (id : TaskId) : Prop :=
  ∀ task, tasks id = some task → ∃ task', tasks' id = some task' ∧ task'.connId = task.connId ∧
    task'.subId = task.subId ∧ task'.phase.registered = task.phase.registered

variable {frames : List Frame}

theorem find_congr {first second : Frame → Bool}
    (same : ∀ frame ∈ frames, first frame = second frame) :
    frames.find? first = frames.find? second := by
  induction frames with
  | nil => rfl
  | cons head tail ih =>
    rw [find?_cons, find?_cons, same head mem_cons_self,
      ih fun frame member => same frame (mem_cons_of_mem _ member)]

theorem find_req {counts : Frame → Bool} {id : TaskId}
    (member : .req id ∈ frames) (self : counts (.req id))
    (newer : ∀ frame ∈ frames.takeWhile fun frame => decide (frame ≠ .req id),
      counts frame → frame.isReq) :
    (frames.find? counts).any Frame.isReq := by
  induction frames with
  | nil => cases member
  | cons head tail ih =>
    by_cases here : head = .req id
    · subst here
      simp [self, Frame.isReq]
    · have later : .req id ∈ tail := by
        rcases mem_cons.mp member with same | later
        · exact absurd same.symm here
        · exact later
      rw [takeWhile_cons_of_pos (by simp [here])] at newer
      cases counted : counts head with
      | true => simp [counted, newer head mem_cons_self counted]
      | false =>
        rw [find?_cons_of_neg (by simp [counted])]
        exact ih later fun frame member => newer frame (mem_cons_of_mem _ member)

section kept

variable {tasks tasks' : TaskId → Option ReqTask} {registry registry' : SubscriptionRegistry}
variable {connId : ConnId} {session session' : Session}

theorem Kept.refl (tasks : TaskId → Option ReqTask) (id : TaskId) : Kept tasks tasks id :=
  fun task found => ⟨task, found, rfl, rfl, rfl⟩

theorem Kept.update {id : TaskId} {old : ReqTask} (found : tasks id = some old) {phase : ReqPhase}
    (registered : phase.registered = old.phase.registered) (other : TaskId) :
    Kept tasks (Function.update tasks id (some { old with phase })) other := by
  intro task present
  by_cases same : other = id
  · subst same
    rw [found, Option.some.injEq] at present
    subst present
    exact ⟨_, update_self .., rfl, rfl, registered⟩
  · exact ⟨task, by rw [update_of_ne same, present], rfl, rfl, rfl⟩

theorem Kept.of_ne {id other : TaskId} {task : Option ReqTask} (different : other ≠ id) :
    Kept tasks (Function.update tasks id task) other := by
  intro old present
  exact ⟨old, by rw [update_of_ne different, present], rfl, rfl, rfl⟩

namespace Ordered

section

variable (ordered : Ordered tasks registry connId session)

include ordered

section

variable (kept : ∀ id, .req id ∈ session.frames → Kept tasks tasks' id)

include kept

theorem effective (subId : SubId) :
    ∀ frame ∈ session.frames,
      Frame.effective tasks' subId frame = Frame.effective tasks subId frame := by
  intro frame member
  cases frame with
  | close closed taken => rfl
  | req id =>
    rcases ordered.known id member with ⟨task, found, -⟩
    rcases kept id member task found with ⟨task', found', -, sameSub, registered⟩
    simp [Frame.effective, Frame.registers, found, found', sameSub, registered]

theorem keep (lookups : ∀ subId,
      registry'.lookupSub (connId, subId) = registry.lookupSub (connId, subId))
    (frames : session'.frames = session.frames)
    (pending : session'.receive.pendingClose = session.receive.pendingClose)
    (isSwept : session'.receive.swept = session.receive.swept) :
    Ordered tasks' registry' connId session' := by
  constructor
  · intro id member
    rw [frames] at member
    rcases ordered.known id member with ⟨task, found, owned⟩
    rcases kept id member task found with ⟨task', found', sameConn, -, -⟩
    exact ⟨task', found', sameConn.trans owned⟩
  · rcases ordered.shaped with ⟨handled, taken, shape⟩
    exact ⟨handled, taken, by rw [frames, pending, shape]⟩
  · intro notSwept subId
    rw [isSwept] at notSwept
    rw [lookups, frames, find_congr (ordered.effective kept subId)]
    exact ordered.live notSwept subId
  · intro swept subId
    rw [isSwept] at swept
    rw [lookups]
    exact ordered.swept swept subId

theorem keep_other (lookups : ∀ subId,
      registry'.lookupSub (connId, subId) = registry.lookupSub (connId, subId)) :
    Ordered tasks' registry' connId session :=
  ordered.keep kept lookups rfl rfl rfl

end

theorem receiveReq (waiting : session.receive = .waiting) {id : TaskId} (unused : tasks id = none)
    (subId : SubId) (filters : List Filter) :
    Ordered (Function.update tasks id (some ⟨connId, subId, filters, .starting⟩)) registry connId
      { session with frames := .req id :: session.frames } := by
  have apart (other : TaskId) (member : .req other ∈ session.frames) : other ≠ id := by
    rintro rfl
    rcases ordered.known other member with ⟨task, found, -⟩
    rw [unused] at found
    cases found
  have kept (other : TaskId) (member : .req other ∈ session.frames) :=
    @Kept.of_ne tasks id other (some ⟨connId, subId, filters, .starting⟩) (apart other member)
  constructor
  · intro other member
    rcases mem_cons.mp member with new | old
    · rw [Frame.req.injEq] at new
      subst new
      exact ⟨_, update_self .., rfl⟩
    · rcases ordered.known other old with ⟨task, found, owned⟩
      exact ⟨task, by rw [update_of_ne (apart other old), found], owned⟩
  · rcases ordered.shaped with ⟨handled, taken, shape⟩
    refine ⟨.req id :: handled, ?_, ?_⟩
    · intro closed member
      rcases mem_cons.mp member with new | old
      · cases new
      · exact taken closed old
    · rw [waiting] at shape ⊢
      exact congrArg (.req id :: ·) shape
  · intro notSwept wanted
    rw [ordered.live notSwept wanted, find?_cons_of_neg, find_congr]
    · intro frame member
      exact (ordered.effective kept wanted frame member).symm
    · simp [Frame.effective, Frame.registers, ReqPhase.registered]
  · exact ordered.swept

theorem receiveClose (waiting : session.receive = .waiting) (subId : SubId) :
    Ordered tasks registry connId { session with
      receive := .closing subId, frames := .close subId false :: session.frames } := by
  constructor
  · intro id member
    rcases mem_cons.mp member with new | old
    · cases new
    · exact ordered.known id old
  · rcases ordered.shaped with ⟨handled, taken, shape⟩
    rw [waiting] at shape
    exact ⟨handled, taken, congrArg (.close subId false :: ·) shape⟩
  · intro _ wanted
    rw [ordered.live (by rw [waiting]; rfl) wanted, find?_cons_of_neg]
    simp [Frame.effective]
  · intro swept
    cases swept

theorem deregister {subId : SubId}
    (unlisted : session.receive = .unlisted subId) {phase : ReceivePhase}
    (notPending : phase.pendingClose = none) (notSwept : phase.swept = false) :
    Ordered tasks (registry.removeSubscription connId subId).1 connId
      (session.take subId phase) := by
  rcases ordered.shaped with ⟨handled, taken, shape⟩
  rw [unlisted] at shape
  have tail : session.frames.tail = handled := by
    rw [shape]
    rfl
  constructor
  · intro id member
    rw [Session.take, tail] at member
    rcases mem_cons.mp member with new | old
    · cases new
    · apply ordered.known id
      rw [shape]
      exact mem_append_right _ old
  · refine ⟨.close subId true :: handled, ?_, ?_⟩
    · intro closed member
      rcases mem_cons.mp member with new | old
      · cases new
      · exact taken closed old
    · rw [Session.take, tail, notPending]
      rfl
  · intro _ wanted
    have before := ordered.live (by rw [unlisted]; rfl) wanted
    rw [shape] at before
    rw [SubscriptionRegistry.lookupSub_removeSubscription, Session.take, tail]
    by_cases same : wanted = subId
    · subst same
      simp [Frame.effective, Frame.isReq]
    · rw [if_neg (by simp [same]), before]
      simp [ReceivePhase.pendingClose, Frame.effective, Ne.symm same]
  · intro swept
    rw [Session.take, notSwept] at swept
    cases swept

theorem sweep (leaving : session.receive = .leaving) (releases : List Release) :
    Ordered tasks (registry.removeConnection connId).1 connId
      { session with receive := .sweeping releases } := by
  constructor
  · exact ordered.known
  · rcases ordered.shaped with ⟨handled, taken, shape⟩
    rw [leaving] at shape
    exact ⟨handled, taken, shape⟩
  · intro notSwept
    cases notSwept
  · intro _ subId
    rw [SubscriptionRegistry.lookupSub_removeConnection, if_pos rfl]

theorem register (notSwept : session.receive.swept = false) {id : TaskId} {task : ReqTask}
    (found : tasks id = some task) (owned : task.connId = connId)
    (framed : .req id ∈ session.frames)
    (timely : Frame.close task.subId true ∉
      session.frames.takeWhile (· ≠ .req id))
    {phase : ReqPhase} (registered : phase.registered) (communityId : CommunityId)
    (filters : List Filter) (channelId : Option Uuid) :
    Ordered (Function.update tasks id (some { task with phase }))
      (registry.registerScoped communityId connId task.subId filters channelId).1 connId
      session := by
  have same (wanted : SubId) (other : wanted ≠ task.subId) (frame : Frame) :
      Frame.effective (Function.update tasks id (some { task with phase })) wanted frame =
        Frame.effective tasks wanted frame := by
    cases frame with
    | close closed taken => rfl
    | req earlier =>
      by_cases itself : earlier = id
      · subst itself
        simp [Frame.effective, Frame.registers, found, Ne.symm other]
      · simp [Frame.effective, Frame.registers, itself]
  constructor
  · intro earlier member
    by_cases itself : earlier = id
    · subst itself
      exact ⟨_, update_self .., owned⟩
    · rcases ordered.known earlier member with ⟨task', found', owned'⟩
      exact ⟨task', by rw [update_of_ne itself, found'], owned'⟩
  · exact ordered.shaped
  · intro _ wanted
    rw [SubscriptionRegistry.lookupSub_registerScoped]
    by_cases itself : wanted = task.subId
    · subst itself
      rw [if_pos rfl, find_req framed]
      · rfl
      · simp [Frame.effective, Frame.registers, registered]
      · intro frame newer counts
        cases frame with
        | req other => rfl
        | close closed taken =>
          simp only [Frame.effective, Bool.and_eq_true, decide_eq_true_eq] at counts
          rw [counts.1, counts.2] at newer
          exact absurd newer timely
    · rw [if_neg (by simp [itself]), find_congr fun frame _ => same wanted itself frame]
      exact ordered.live notSwept wanted
  · intro swept
    rw [notSwept] at swept
    cases swept

end

end Ordered

end kept

structure FramesInv (world : World) : Prop where
  ordered : ∀ connId, Ordered world.tasks world.registry connId (world.sessions connId)
  framed : ∀ id task, world.tasks id = some task → .req id ∈ (world.sessions task.connId).frames

namespace FramesInv

variable {world : World}

theorem initial : FramesInv World.initial where
  ordered := by
    intro connId
    constructor
    · intro id member
      cases member
    · refine ⟨[], ?_, rfl⟩
      intro subId member
      cases member
    · intro _ subId
      rfl
    · intro swept
      cases swept
  framed := by
    intro id task found
    cases found

variable {id : TaskId} {task : ReqTask} {connId : ConnId}

theorem of_mem (inv : FramesInv world) (found : world.tasks id = some task)
    (member : .req id ∈ (world.sessions connId).frames) : task.connId = connId := by
  rcases (inv.ordered connId).known id member with ⟨other, present, owned⟩
  rw [found, Option.some.injEq] at present
  rw [present, owned]

variable {next : World}

theorem step (inv : FramesInv world) (connId : ConnId)
    (elsewhere : ∀ other, other ≠ connId → next.sessions other = world.sessions other)
    (lookups : ∀ other, other ≠ connId → ∀ subId,
      next.registry.lookupSub (other, subId) = world.registry.lookupSub (other, subId))
    (kept : ∀ other, other ≠ connId → ∀ id, .req id ∈ (world.sessions other).frames →
      Kept world.tasks next.tasks id)
    (here : Ordered next.tasks next.registry connId (next.sessions connId))
    (framed : ∀ id task, next.tasks id = some task → .req id ∈ (next.sessions task.connId).frames) :
    FramesInv next := by
  refine ⟨?_, framed⟩
  intro other
  by_cases same : other = connId
  · rw [same]
    exact here
  · rw [elsewhere other same]
    exact (inv.ordered other).keep_other (kept other same) (lookups other same)

theorem of_session (inv : FramesInv world) {session : Session}
    (sessions : next.sessions = Function.update world.sessions connId session)
    (tasks : next.tasks = world.tasks) (registry : next.registry = world.registry)
    (frames : session.frames = (world.sessions connId).frames)
    (pending : session.receive.pendingClose = (world.sessions connId).receive.pendingClose)
    (isSwept : session.receive.swept = (world.sessions connId).receive.swept) :
    FramesInv next := by
  apply inv.step connId
  · intro other different
    rw [sessions, update_of_ne different]
  · intro other _ subId
    rw [registry]
  · intro other _ id _
    rw [tasks]
    exact Kept.refl world.tasks id
  · rw [sessions, tasks, registry, update_self]
    exact (inv.ordered connId).keep (fun id _ => Kept.refl world.tasks id) (fun _ => rfl) frames
      pending isSwept
  · intro id task found
    rw [tasks] at found
    have member := inv.framed id task found
    by_cases same : task.connId = connId
    · rw [same] at member ⊢
      rw [sessions, update_self, frames]
      exact member
    · rw [sessions, update_of_ne same]
      exact member

variable {phase : ReqPhase}

section

variable (inv : FramesInv world)

include inv

theorem framed_update {old : ReqTask}
    (found : world.tasks id = some old) {other : TaskId}
    (present : Function.update world.tasks id (some { old with phase }) other = some task) :
    .req other ∈ (world.sessions task.connId).frames := by
  by_cases same : other = id
  · subst same
    rw [update_self, Option.some.injEq] at present
    rw [← present]
    exact inv.framed other old found
  · rw [update_of_ne same] at present
    exact inv.framed other task present

theorem of_task {old : ReqTask} (found : world.tasks id = some old)
    (registered : phase.registered = old.phase.registered)
    (sessions : next.sessions = world.sessions)
    (tasks : next.tasks = Function.update world.tasks id (some { old with phase }))
    (registry : next.registry = world.registry) : FramesInv next := by
  constructor
  · intro connId
    rw [sessions, tasks, registry]
    exact (inv.ordered connId).keep_other (fun other _ => Kept.update found registered other)
      fun _ => rfl
  · intro other task present
    rw [tasks] at present
    rw [sessions]
    exact inv.framed_update found present

variable {connId : ConnId}

theorem of_receiveReq {subId : SubId}
    {filters : List Filter} (waiting : (world.sessions connId).receive = .waiting)
    (unused : world.tasks id = none) :
    FramesInv ((world.setTask id ⟨connId, subId, filters, .starting⟩).setSession connId
      { world.sessions connId with frames := .req id :: (world.sessions connId).frames }) := by
  apply inv.step connId
  · intro other different
    exact update_of_ne different _ _
  · intro other _ wanted
    rfl
  · intro other _ earlier member
    apply Kept.of_ne
    rintro rfl
    rcases (inv.ordered other).known earlier member with ⟨task, found, -⟩
    rw [unused] at found
    cases found
  · have here := (inv.ordered connId).receiveReq waiting unused subId filters
    simpa [World.setSession, World.setTask] using here
  · intro other task present
    by_cases same : other = id
    · subst same
      simp only [World.setSession, World.setTask, update_self, Option.some.injEq]
        at present
      rw [← present]
      simp [World.setSession]
    · simp only [World.setSession, World.setTask, update_of_ne same] at present
      have member := inv.framed other task present
      by_cases itself : task.connId = connId
      · rw [itself] at member ⊢
        simp only [World.setSession, update_self]
        exact mem_cons_of_mem _ member
      · simp only [World.setSession, update_of_ne itself]
        exact member

theorem framed_session {session : Session}
    (kept : ∀ id, .req id ∈ (world.sessions connId).frames → .req id ∈ session.frames)
    (found : world.tasks id = some task) :
    .req id ∈ (Function.update world.sessions connId session task.connId).frames := by
  have member := inv.framed id task found
  by_cases same : task.connId = connId
  · rw [same] at member ⊢
    rw [update_self]
    exact kept id member
  · rw [update_of_ne same]
    exact member

theorem of_receiveClose (waiting : (world.sessions connId).receive = .waiting) (subId : SubId) :
    FramesInv (world.setSession connId { world.sessions connId with
      receive := .closing subId
      frames := .close subId false :: (world.sessions connId).frames }) := by
  apply inv.step connId
  · intro other different
    exact update_of_ne different _ _
  · intro other _ wanted
    rfl
  · intro other _ id _
    exact Kept.refl world.tasks id
  · have here := (inv.ordered connId).receiveClose waiting subId
    simpa [World.setSession] using here
  · intro id task found
    exact inv.framed_session (fun _ member => mem_cons_of_mem _ member) found

end

variable {parseUuid : String → Option Uuid} {tenant : ConnId → CommunityId}

theorem afterRegister_registered (world : World) (connId : ConnId) (subId : SubId)
    (replaced : Option RemovedSubscription) :
    (world.afterRegister tenant connId subId replaced).registered := by
  cases replaced with
  | none | some scope => rfl

theorem afterDeregister_phase (world : World) (connId : ConnId) (subId : SubId)
    (removed : Option RemovedSubscription) :
    (world.afterDeregister tenant connId subId removed).pendingClose = none ∧
      (world.afterDeregister tenant connId subId removed).swept = false := by
  cases removed with
  | none | some scope => exact ⟨rfl, rfl⟩

section

variable (inv : FramesInv world)

include inv

theorem of_register (found : world.tasks id = some task) (timely : world.Timely (.register id)) :
    FramesInv (world.register parseUuid tenant id task) := by
  rcases timely task found with ⟨notSwept, inTime⟩
  apply inv.step task.connId
  · intro other _
    rfl
  · intro other different subId
    have apart : (other, subId) ≠ (task.connId, task.subId) := by simp [different]
    exact (SubscriptionRegistry.lookupSub_registerScoped ..).trans (if_neg apart)
  · intro other different earlier member
    apply Kept.of_ne
    rintro rfl
    exact different (inv.of_mem found member).symm
  · apply (inv.ordered task.connId).register notSwept found rfl (inv.framed id task found) inTime
    exact afterRegister_registered world _ _ _
  · intro other task' present
    exact inv.framed_update found present

theorem of_deregister {connId : ConnId} {subId : SubId}
    (unlisted : (world.sessions connId).receive = .unlisted subId) :
    FramesInv (world.deregister tenant connId subId) := by
  rcases (inv.ordered connId).shaped with ⟨handled, -, shape⟩
  rw [unlisted] at shape
  apply inv.step connId
  · intro other different
    exact update_of_ne different _ _
  · intro other different wanted
    have apart : (other, wanted) ≠ (connId, subId) := by simp [different]
    exact (SubscriptionRegistry.lookupSub_removeSubscription ..).trans (if_neg apart)
  · intro other _ id _
    exact Kept.refl world.tasks id
  · rcases @afterDeregister_phase tenant world connId subId
      (world.registry.removeSubscription connId subId).2 with ⟨notPending, notSwept⟩
    have here := (inv.ordered connId).deregister unlisted notPending notSwept
    simpa [World.deregister, World.setSession] using here
  · intro id task found
    apply inv.framed_session _ found
    intro earlier member
    rw [shape] at member
    rcases mem_cons.mp member with new | old
    · cases new
    · rw [Session.take, shape]
      exact mem_cons_of_mem _ old

theorem of_sweep {connId : ConnId}
    (leaving : (world.sessions connId).receive = .leaving) :
    FramesInv (world.sweep tenant connId) := by
  apply inv.step connId
  · intro other different
    exact update_of_ne different _ _
  · intro other different wanted
    exact (SubscriptionRegistry.lookupSub_removeConnection ..).trans (if_neg different)
  · intro other _ id _
    exact Kept.refl world.tasks id
  · have here := (inv.ordered connId).sweep leaving
      (world.sweepReleases tenant connId (world.registry.removeConnection connId).2)
    simpa [World.sweep, World.setSession] using here
  · intro id task found
    apply inv.framed_session _ found
    intro earlier member
    exact member

end

theorem preserved (state : World) (action : Action) (next : World) (inv : FramesInv state)
    (step : Guarded World.Timely (Step parseUuid tenant) state action next) : FramesInv next := by
  rcases step with ⟨timely, step⟩
  cases step with
  | receiveReq waiting unused => exact inv.of_receiveReq waiting unused
  | turnAway waiting => exact inv
  | start found phase room => exact inv.of_task found (by rw [phase]; rfl) rfl rfl rfl
  | @refuse _ task found phase =>
    have unregistered : ReqPhase.refused.registered = task.phase.registered := by
      rcases phase with starting | resolving
      · rw [starting]
        rfl
      · rw [resolving]
        rfl
    exact inv.of_task found unregistered rfl rfl rfl
  | accept found phase noSearch => exact inv.of_task found (by rw [phase]; rfl) rfl rfl rfl
  | @list id task found phase =>
    have moved : FramesInv (state.setTask id { task with phase := .listed }) :=
      inv.of_task found (by rw [phase]; rfl) rfl rfl rfl
    exact moved.of_session rfl rfl rfl rfl rfl rfl
  | register found phase => exact inv.of_register found timely
  | releaseReplaced found phase | retain found phase | finish found phase =>
    exact inv.of_task found (by rw [phase]; rfl) rfl rfl rfl
  | receiveClose waiting => exact inv.of_receiveClose waiting _
  | unlist phase => exact inv.of_session rfl rfl rfl rfl (by rw [phase]; rfl) (by rw [phase]; rfl)
  | deregister phase => exact inv.of_deregister phase
  | releaseClosed phase =>
    exact inv.of_session rfl rfl rfl rfl (by rw [phase]; rfl) (by rw [phase]; rfl)
  | leave waiting =>
    exact inv.of_session rfl rfl rfl rfl (by rw [waiting]; rfl) (by rw [waiting]; rfl)
  | sweep phase => exact inv.of_sweep phase
  | releaseSwept phase | depart phase =>
    exact inv.of_session rfl rfl rfl rfl (by rw [phase]; rfl) (by rw [phase]; rfl)

theorem settled_inOrder (inv : FramesInv world)
    (settled : world.Settled connId) : world.InOrder connId := by
  rcases settled with ⟨ended, idle⟩
  intro subId
  cases isSwept : (world.sessions connId).receive.swept with
  | true => rw [(inv.ordered connId).swept isSwept subId, Bool.not_true, Bool.and_false]; rfl
  | false =>
    rw [(inv.ordered connId).live isSwept subId, Bool.not_false, Bool.and_true]
    apply congrArg fun frame : Option Frame => frame.any Frame.isReq
    apply find_congr
    intro frame member
    cases frame with
    | req id => rfl
    | close closed taken =>
      rcases (inv.ordered connId).shaped with ⟨handled, allTaken, shape⟩
      have noneInHand : (world.sessions connId).receive.pendingClose = none := by
        rcases idle with waiting | gone
        · rw [waiting]
          rfl
        · rw [gone]
          rfl
      rw [noneInHand] at shape
      cases taken with
      | true => rfl
      | false =>
        rw [shape] at member
        exact absurd member (allTaken closed)

end FramesInv

/-- A settled connection has exactly the subscriptions that its frames ask for. -/
theorem settled_in_order (parseUuid : String → Option Uuid) (tenant : ConnId → CommunityId)
    {actions : List Action} {world : World}
    (run : Run (Guarded World.Timely (Step parseUuid tenant)) World.initial actions world)
    (connId : ConnId) (settled : world.Settled connId) : world.InOrder connId :=
  (run.invariant FramesInv.preserved FramesInv.initial).settled_inOrder settled

def sampleConn : ConnId := .fill 1

def sampleTenant : ConnId → CommunityId := fun _ => ⟨.fill 9⟩

def textNotes : List Filter := [⟨none, none, some [1], none, none, none, none, ∅⟩]

def noUuid : String → Option Uuid := fun _ => none

theorem alone {world : World} {connId : ConnId}
    (first : ∀ task, world.tasks 0 = some task → task.phase.over)
    (others : ∀ id, world.tasks (id + 1) = none) : ∀ id task, world.tasks id = some task →
      task.connId = connId → task.phase.over := by
  intro id task found _
  cases id with
  | zero => exact first task found
  | succ id =>
    rw [others id] at found
    cases found

theorem settled_in_order_single :
    ∃ world, Run (Guarded World.Timely (Step noUuid sampleTenant)) World.initial
        [.receiveReq sampleConn 0 "a" textNotes, .start 0, .accept 0, .list 0, .register 0,
          .retain 0, .finish 0] world ∧
      world.Settled sampleConn ∧ world.InOrder sampleConn := by
  have run : Run (Guarded World.Timely (Step noUuid sampleTenant)) World.initial
      [.receiveReq sampleConn 0 "a" textNotes, .start 0, .accept 0, .list 0, .register 0,
        .retain 0, .finish 0] _ :=
    .cons ⟨trivial, .receiveReq rfl rfl⟩ <|
    .cons ⟨trivial, .start rfl rfl (.inr (by decide))⟩ <|
    .cons ⟨trivial, .accept rfl rfl (by simp [textNotes])⟩ <|
    .cons ⟨trivial, .list rfl rfl⟩ <|
    .cons ⟨fun task found => by cases found; exact ⟨rfl, by decide⟩, .register rfl rfl⟩ <|
    .cons ⟨trivial, .retain rfl rfl⟩ <|
    .cons ⟨trivial, .finish rfl rfl⟩ <| .nil _
  refine ⟨_, run, ?settled, settled_in_order noUuid sampleTenant run sampleConn ?settled⟩
  exact ⟨alone (fun task found => by cases found; rfl) (fun _ => rfl), Or.inl rfl⟩

/-- The CLOSE is handled while the task of the REQ before it has not started. -/
theorem close_overtakes_req :
    ¬ ∀ actions world, Run (Step noUuid sampleTenant) World.initial actions world →
      ∀ connId, world.Settled connId → world.InOrder connId := by
  intro claim
  have run : Run (Step noUuid sampleTenant) World.initial
      [.receiveReq sampleConn 0 "a" textNotes, .receiveClose sampleConn "a", .unlist sampleConn,
        .deregister sampleConn, .start 0, .accept 0, .list 0, .register 0, .retain 0,
        .finish 0] _ :=
    .cons (.receiveReq rfl rfl) <|
    .cons (.receiveClose rfl) <|
    .cons (.unlist rfl) <|
    .cons (.deregister rfl) <|
    .cons (.start rfl rfl (.inr (by decide))) <|
    .cons (.accept rfl rfl (by simp [textNotes])) <|
    .cons (.list rfl rfl) <|
    .cons (.register rfl rfl) <|
    .cons (.retain rfl rfl) <|
    .cons (.finish rfl rfl) <| .nil _
  have order := claim _ _ run sampleConn
    ⟨alone (fun task found => by cases found; rfl) (fun _ => rfl), Or.inl rfl⟩ "a"
  exact absurd order (by decide)

end Buzz.Connection
