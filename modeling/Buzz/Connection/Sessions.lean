import Buzz.Library.Runs
import Buzz.Pubsub.Topics
import Buzz.Req.Scope
import Buzz.Subscription.Indexing

/-! The connections of a pod: the receive task reads frames in order, while every REQ runs in a task
of its own. -/

namespace Buzz.Connection

open Nostr Buzz.Subscription Buzz.Pubsub Buzz.Req

def maxSubscriptions : ℕ := 1024

abbrev TaskId := ℕ

/-- `origin` is the REQ task whose registration was taken out. -/
structure Release where
  topic : EventTopicKey
  origin : TaskId
  deriving DecidableEq

inductive ReqPhase
  | starting
  | resolving
  | accepted
  | listed
  | replacing (release : Release)
  | retaining
  | delivering
  | finished
  | refused
  deriving DecidableEq

structure ReqTask where
  connId : ConnId
  subId : SubId
  filters : List Filter
  phase : ReqPhase

inductive ReceivePhase
  | waiting
  | closing (subId : SubId)
  | unlisted (subId : SubId)
  | releasing (release : Release)
  | leaving
  | sweeping (releases : List Release)
  | gone
  deriving DecidableEq

/-- `taken`: a CLOSE has been to the registry. -/
inductive Frame
  | req (task : TaskId)
  | close (subId : SubId) (taken : Bool)
  deriving DecidableEq

structure Session where
  subscriptions : AList fun _ : SubId => List Filter
  receive : ReceivePhase
  frames : List Frame

def Session.new : Session := ⟨∅, .waiting, []⟩

/-- `owner` is the task that made the current registration of a subscription. -/
structure World where
  registry : SubscriptionRegistry
  desired : DesiredTopics
  sessions : ConnId → Session
  tasks : TaskId → Option ReqTask
  owner : Subscriber → Option TaskId

namespace World

def initial : World := ⟨.empty, ∅, fun _ => .new, fun _ => none, fun _ => none⟩

def setTask (self : World) (id : TaskId) (task : ReqTask) : World :=
  { self with tasks := Function.update self.tasks id (some task) }

def setSession (self : World) (connId : ConnId) (session : Session) : World :=
  { self with sessions := Function.update self.sessions connId session }

def ownerOf (self : World) (subscriber : Subscriber) : TaskId := (self.owner subscriber).getD 0

end World

section steps

variable (parseUuid : String → Option Uuid) (tenant : ConnId → CommunityId)

def ReqTask.channelId (task : ReqTask) : Option Uuid :=
  extractChannelIdFromFilters parseUuid task.filters

def scopeTopic (connId : ConnId) (channelId : Option Uuid) : EventTopicKey :=
  ⟨tenant connId, topicForSubscription channelId⟩

def ReqTask.topic (task : ReqTask) : EventTopicKey :=
  scopeTopic tenant task.connId (task.channelId parseUuid)

inductive Action
  | receiveReq (connId : ConnId) (id : TaskId) (subId : SubId) (filters : List Filter)
  | turnAway (connId : ConnId)
  | start (id : TaskId)
  | refuse (id : TaskId)
  | accept (id : TaskId)
  | list (id : TaskId)
  | register (id : TaskId)
  | releaseReplaced (id : TaskId)
  | retain (id : TaskId)
  | finish (id : TaskId)
  | receiveClose (connId : ConnId) (subId : SubId)
  | unlist (connId : ConnId)
  | deregister (connId : ConnId)
  | releaseClosed (connId : ConnId)
  | leave (connId : ConnId)
  | sweep (connId : ConnId)
  | releaseSwept (connId : ConnId)
  | depart (connId : ConnId)

/-- A replaced scope is released before the new one is retained. -/
def World.afterRegister (self : World) (connId : ConnId) (subId : SubId) :
    Option RemovedSubscription → ReqPhase
  | some replaced =>
    .replacing ⟨scopeTopic tenant connId replaced.channelId, self.ownerOf (connId, subId)⟩
  | none => .retaining

def World.register (self : World) (id : TaskId) (task : ReqTask) : World :=
  let registered := self.registry.registerScoped (tenant task.connId) task.connId task.subId
    task.filters (task.channelId parseUuid)
  { self.setTask id { task with
      phase := self.afterRegister tenant task.connId task.subId registered.2 } with
    registry := registered.1
    owner := Function.update self.owner (task.connId, task.subId) (some id) }

def Session.take (self : Session) (subId : SubId) (phase : ReceivePhase) : Session :=
  { self with receive := phase, frames := .close subId true :: self.frames.tail }

def World.afterDeregister (self : World) (connId : ConnId) (subId : SubId) :
    Option RemovedSubscription → ReceivePhase
  | some removed =>
    .releasing ⟨scopeTopic tenant connId removed.channelId, self.ownerOf (connId, subId)⟩
  | none => .waiting

def World.deregister (self : World) (connId : ConnId) (subId : SubId) : World :=
  let removed := self.registry.removeSubscription connId subId
  { self.setSession connId ((self.sessions connId).take subId
      (self.afterDeregister tenant connId subId removed.2)) with
    registry := removed.1
    owner := Function.update self.owner (connId, subId) none }

/-- One release for each scope that it returns. -/
def World.sweepReleases (self : World) (connId : ConnId) (removed : List RemovedSubscription) :
    List Release :=
  List.zipWith
    (fun (scope : RemovedSubscription) (entry : Sigma fun _ : SubId => SubEntry) =>
      Release.mk (scopeTopic tenant connId scope.channelId) (self.ownerOf (connId, entry.1)))
    removed (self.registry.connSubs connId).entries

def World.sweep (self : World) (connId : ConnId) : World :=
  let removed := self.registry.removeConnection connId
  { self.setSession connId { self.sessions connId with
      receive := .sweeping (self.sweepReleases tenant connId removed.2) } with
    registry := removed.1
    owner := fun subscriber => if subscriber.1 = connId then none else self.owner subscriber }

/-- A search is answered without registering. -/
inductive Step : World → Action → World → Prop
  | receiveReq {world : World} {connId : ConnId} {id : TaskId} {subId : SubId}
      {filters : List Filter} (waiting : (world.sessions connId).receive = .waiting)
      (unused : world.tasks id = none) :
      Step world (.receiveReq connId id subId filters)
        ((world.setTask id ⟨connId, subId, filters, .starting⟩).setSession connId
          { world.sessions connId with frames := .req id :: (world.sessions connId).frames })
  | turnAway {world : World} {connId : ConnId}
      (waiting : (world.sessions connId).receive = .waiting) :
      Step world (.turnAway connId) world
  | start {world : World} {id : TaskId} {task : ReqTask} (found : world.tasks id = some task)
      (phase : task.phase = .starting)
      (room : ((world.sessions task.connId).subscriptions.lookup task.subId).isSome ∨
        (world.sessions task.connId).subscriptions.entries.length < maxSubscriptions) :
      Step world (.start id) (world.setTask id { task with phase := .resolving })
  | refuse {world : World} {id : TaskId} {task : ReqTask} (found : world.tasks id = some task)
      (phase : task.phase = .starting ∨ task.phase = .resolving) :
      Step world (.refuse id) (world.setTask id { task with phase := .refused })
  | accept {world : World} {id : TaskId} {task : ReqTask} (found : world.tasks id = some task)
      (phase : task.phase = .resolving) (noSearch : ∀ filter ∈ task.filters, filter.search = none) :
      Step world (.accept id) (world.setTask id { task with phase := .accepted })
  | list {world : World} {id : TaskId} {task : ReqTask} (found : world.tasks id = some task)
      (phase : task.phase = .accepted) :
      Step world (.list id)
        ((world.setTask id { task with phase := .listed }).setSession task.connId
          { world.sessions task.connId with
            subscriptions :=
              (world.sessions task.connId).subscriptions.insert task.subId task.filters })
  | register {world : World} {id : TaskId} {task : ReqTask} (found : world.tasks id = some task)
      (phase : task.phase = .listed) :
      Step world (.register id) (world.register parseUuid tenant id task)
  | releaseReplaced {world : World} {id : TaskId} {task : ReqTask} {release : Release}
      (found : world.tasks id = some task) (phase : task.phase = .replacing release) :
      Step world (.releaseReplaced id)
        { world.setTask id { task with phase := .retaining } with
          desired := (releaseTopic world.desired release.topic).1 }
  | retain {world : World} {id : TaskId} {task : ReqTask} (found : world.tasks id = some task)
      (phase : task.phase = .retaining) :
      Step world (.retain id)
        { world.setTask id { task with phase := .delivering } with
          desired := (retainTopic world.desired (task.topic parseUuid tenant)).1 }
  | finish {world : World} {id : TaskId} {task : ReqTask} (found : world.tasks id = some task)
      (phase : task.phase = .delivering) :
      Step world (.finish id) (world.setTask id { task with phase := .finished })
  | receiveClose {world : World} {connId : ConnId} {subId : SubId}
      (waiting : (world.sessions connId).receive = .waiting) :
      Step world (.receiveClose connId subId)
        (world.setSession connId { world.sessions connId with
          receive := .closing subId
          frames := .close subId false :: (world.sessions connId).frames })
  | unlist {world : World} {connId : ConnId} {subId : SubId}
      (phase : (world.sessions connId).receive = .closing subId) :
      Step world (.unlist connId)
        (world.setSession connId { world.sessions connId with
          subscriptions := (world.sessions connId).subscriptions.erase subId
          receive := .unlisted subId })
  | deregister {world : World} {connId : ConnId} {subId : SubId}
      (phase : (world.sessions connId).receive = .unlisted subId) :
      Step world (.deregister connId) (world.deregister tenant connId subId)
  | releaseClosed {world : World} {connId : ConnId} {release : Release}
      (phase : (world.sessions connId).receive = .releasing release) :
      Step world (.releaseClosed connId)
        { world.setSession connId { world.sessions connId with receive := .waiting } with
          desired := (releaseTopic world.desired release.topic).1 }
  | leave {world : World} {connId : ConnId}
      (waiting : (world.sessions connId).receive = .waiting) :
      Step world (.leave connId)
        (world.setSession connId { world.sessions connId with receive := .leaving })
  | sweep {world : World} {connId : ConnId}
      (phase : (world.sessions connId).receive = .leaving) :
      Step world (.sweep connId) (world.sweep tenant connId)
  | releaseSwept {world : World} {connId : ConnId} {release : Release} {rest : List Release}
      (phase : (world.sessions connId).receive = .sweeping (release :: rest)) :
      Step world (.releaseSwept connId)
        { world.setSession connId { world.sessions connId with receive := .sweeping rest } with
          desired := (releaseTopic world.desired release.topic).1 }
  | depart {world : World} {connId : ConnId}
      (phase : (world.sessions connId).receive = .sweeping []) :
      Step world (.depart connId)
        (world.setSession connId { world.sessions connId with receive := .gone })

end steps

end Buzz.Connection
