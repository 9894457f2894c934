import Buzz.Library.Runs
import Buzz.Pubsub.Topics
import Mathlib.Data.Finset.Basic

/-! The task that keeps the Redis subscriptions of a pod in step with the desired topics. -/

namespace Buzz.Pubsub

open Nostr Library Library.Transition List

def subscriptionCapacity : ℕ := 4096

inductive SubscriptionCommand
  | subscribe (topic : EventTopicKey)
  | unsubscribeIfIdle (topic : EventTopicKey)
  deriving DecidableEq

/-- What `connect_and_subscribe` does next on its connection. -/
inductive Phase
  | opened
  | restoring (topics : List EventTopicKey)
  | receiving
  | handling (command : SubscriptionCommand)
  | subscribing (channel : String)
  | unsubscribing (channel : String)
  deriving DecidableEq

/-- `subscribed` is what the connection is subscribed to at Redis. -/
structure Link where
  activeTopics : Finset String
  subscribed : Finset String
  phase : Phase

/-- `unsent`: topics still to be queued; `delayed`: with an unsubscribe that sleeps. -/
structure PubSub where
  desired : DesiredTopics
  unsent : List EventTopicKey
  delayed : List EventTopicKey
  queue : List SubscriptionCommand
  link : Option Link

def initialTopics (desired : DesiredTopics) : List EventTopicKey :=
  desired.entries.filterMap fun entry => if 0 < entry.2 then some entry.1 else none

namespace Link

def opened : Link := ⟨∅, ∅, .opened⟩

def restore (self : Link) (topic : EventTopicKey) (rest : List EventTopicKey) : Link :=
  ⟨insert topic.redisChannel self.activeTopics, insert topic.redisChannel self.subscribed,
    .restoring rest⟩

def handle (self : Link) (desired : DesiredTopics) : SubscriptionCommand → Link
  | .subscribe topic =>
    if topic.redisChannel ∈ self.activeTopics then { self with phase := .receiving }
    else
      { self with
        activeTopics := insert topic.redisChannel self.activeTopics
        phase := .subscribing topic.redisChannel }
  | .unsubscribeIfIdle topic =>
    if topicRefcount desired topic = 0 then
      if topic.redisChannel ∈ self.activeTopics then
        { self with
          activeTopics := self.activeTopics.erase topic.redisChannel
          phase := .unsubscribing topic.redisChannel }
      else { self with phase := .receiving }
    else { self with phase := .receiving }

end Link

/-- The task waits for Redis, and an error or the end of the stream ends the connection. -/
def Phase.awaitsRedis : Phase → Bool
  | .restoring topics => !topics.isEmpty
  | .receiving => true
  | .subscribing _ => true
  | .unsubscribing _ => true
  | _ => false

namespace PubSub

def initial : PubSub := ⟨∅, [], [], [], none⟩

def retain (self : PubSub) (topic : EventTopicKey) : PubSub :=
  let (desired, shouldSubscribe) := retainTopic self.desired topic
  { self with
    desired
    unsent := if shouldSubscribe then topic :: self.unsent else self.unsent }

def release (self : PubSub) (topic : EventTopicKey) : PubSub :=
  let (desired, becameZero) := releaseTopic self.desired topic
  { self with
    desired
    delayed := if becameZero then topic :: self.delayed else self.delayed }

end PubSub

inductive Action
  | retain (topic : EventTopicKey)
  | send (topic : EventTopicKey)
  | release (topic : EventTopicKey)
  | expire (topic : EventTopicKey)
  | connect
  | snapshot
  | restore
  | begin
  | take
  | handle
  | subscribed
  | unsubscribed
  | disconnect

/-- A failed attempt to connect and a message from Redis change nothing here. -/
inductive Step : PubSub → Action → PubSub → Prop
  | retain {self : PubSub} {topic : EventTopicKey} : Step self (.retain topic) (self.retain topic)
  | send {self : PubSub} {topic : EventTopicKey} (unsent : topic ∈ self.unsent)
      (room : self.queue.length < subscriptionCapacity) :
      Step self (.send topic)
        { self with
          unsent := self.unsent.erase topic
          queue := self.queue ++ [.subscribe topic] }
  | release {self : PubSub} {topic : EventTopicKey} :
      Step self (.release topic) (self.release topic)
  | expire {self : PubSub} {topic : EventTopicKey} (delayed : topic ∈ self.delayed)
      (room : self.queue.length < subscriptionCapacity) :
      Step self (.expire topic)
        { self with
          delayed := self.delayed.erase topic
          queue := self.queue ++ [.unsubscribeIfIdle topic] }
  | connect {self : PubSub} (down : self.link = none) :
      Step self .connect { self with link := some .opened }
  | snapshot {self : PubSub} {link : Link} (up : self.link = some link)
      (phase : link.phase = .opened) :
      Step self .snapshot
        { self with link := some { link with phase := .restoring (initialTopics self.desired) } }
  | restore {self : PubSub} {link : Link} {topic : EventTopicKey} {rest : List EventTopicKey}
      (up : self.link = some link) (phase : link.phase = .restoring (topic :: rest)) :
      Step self .restore { self with link := some (link.restore topic rest) }
  | begin {self : PubSub} {link : Link} (up : self.link = some link)
      (phase : link.phase = .restoring []) :
      Step self .begin { self with link := some { link with phase := .receiving } }
  | take {self : PubSub} {link : Link} {command : SubscriptionCommand}
      {rest : List SubscriptionCommand} (up : self.link = some link)
      (phase : link.phase = .receiving) (queued : self.queue = command :: rest) :
      Step self .take
        { self with queue := rest, link := some { link with phase := .handling command } }
  | handle {self : PubSub} {link : Link} {command : SubscriptionCommand}
      (up : self.link = some link) (phase : link.phase = .handling command) :
      Step self .handle { self with link := some (link.handle self.desired command) }
  | subscribed {self : PubSub} {link : Link} {channel : String} (up : self.link = some link)
      (phase : link.phase = .subscribing channel) :
      Step self .subscribed
        { self with
          link := some ⟨link.activeTopics, insert channel link.subscribed, .receiving⟩ }
  | unsubscribed {self : PubSub} {link : Link} {channel : String} (up : self.link = some link)
      (phase : link.phase = .unsubscribing channel) :
      Step self .unsubscribed
        { self with
          link := some ⟨link.activeTopics, link.subscribed.erase channel, .receiving⟩ }
  | disconnect {self : PubSub} {link : Link} (up : self.link = some link)
      (phase : link.phase.awaitsRedis) : Step self .disconnect { self with link := none }

/-- A topic whose SUBSCRIBE the task still has in hand. Before the snapshot that is every topic. -/
def Phase.inHand : Phase → EventTopicKey → Prop
  | .opened, _ => True
  | .restoring topics, topic => topic ∈ topics
  | .handling command, topic => command = .subscribe topic
  | .subscribing channel, topic => channel = topic.redisChannel
  | .receiving, _ => False
  | .unsubscribing _, _ => False

/-- What is active has been subscribed; a call of Redis under way is known in advance. -/
structure Link.Synced (link : Link) : Prop where
  active : ∀ channel ∈ link.activeTopics,
    channel ∈ link.subscribed ∨ link.phase = .subscribing channel
  adding : ∀ channel, link.phase = .subscribing channel → channel ∈ link.activeTopics
  dropping : ∀ channel, link.phase = .unsubscribing channel → channel ∉ link.activeTopics

/-- The SUBSCRIBE of a topic with a positive count is still to be queued, queued, in hand or made.
-/
structure PubSub.Tracked (pubsub : PubSub) : Prop where
  covered : ∀ topic, 0 < topicRefcount pubsub.desired topic →
    topic ∈ pubsub.unsent ∨ .subscribe topic ∈ pubsub.queue ∨
      ∀ link, pubsub.link = some link →
        topic.redisChannel ∈ link.activeTopics ∨ link.phase.inHand topic
  synced : ∀ link, pubsub.link = some link → link.Synced

variable {desired : DesiredTopics} {topic : EventTopicKey} {other : EventTopicKey}

theorem retainTopic_covers (wanted : 0 < topicRefcount (retainTopic desired topic).1 other) :
    0 < topicRefcount desired other ∨ other = topic ∧ (retainTopic desired topic).2 := by
  rw [topicRefcount, retainTopic, RefCount.count_retain] at wanted
  by_cases same : other = topic
  · subst same
    by_cases zero : RefCount.count desired other = 0
    · exact .inr ⟨rfl, by simp [retainTopic, RefCount.retain, zero]⟩
    · exact .inl (Nat.pos_of_ne_zero zero)
  · rw [if_neg same] at wanted
    exact .inl wanted

theorem releaseTopic_covers (wanted : 0 < topicRefcount (releaseTopic desired topic).1 other) :
    0 < topicRefcount desired other := by
  rw [topicRefcount, releaseTopic, RefCount.count_release] at wanted
  rw [topicRefcount]
  split at wanted
  next same =>
    subst same
    omega
  next => exact wanted

theorem mem_initialTopics (wanted : 0 < topicRefcount desired topic) : topic ∈ initialTopics desired := by
  rw [topicRefcount, RefCount.count] at wanted
  cases found : desired.lookup topic with
  | none =>
    rw [found] at wanted
    cases wanted
  | some count =>
    rw [found, Option.getD_some] at wanted
    refine mem_filterMap.mpr ⟨⟨topic, count⟩, AList.mem_lookup_iff.mp found, ?_⟩
    simp only [wanted, if_true]

namespace Link

variable {link : Link} {desired : DesiredTopics}

theorem handle_covers {command : SubscriptionCommand}
    {topic : EventTopicKey} (phase : link.phase = .handling command)
    (wanted : 0 < topicRefcount desired topic)
    (covered : topic.redisChannel ∈ link.activeTopics ∨ link.phase.inHand topic) :
    topic.redisChannel ∈ (link.handle desired command).activeTopics := by
  rw [phase] at covered
  cases command with
  | subscribe other =>
    simp only [handle]
    split
    next present =>
      rcases covered with active | inHand
      · exact active
      · cases inHand
        exact present
    next absent =>
      rcases covered with active | inHand
      · exact Finset.mem_insert_of_mem active
      · cases inHand
        exact Finset.mem_insert_self _ _
  | unsubscribeIfIdle other =>
    have active : topic.redisChannel ∈ link.activeTopics := by
      rcases covered with active | inHand
      · exact active
      · cases inHand
    simp only [handle]
    split
    next idle =>
      split
      · refine Finset.mem_erase.mpr ⟨?_, active⟩
        intro same
        rw [redisChannel_injective same, idle] at wanted
        exact absurd wanted (Nat.lt_irrefl 0)
      · exact active
    next => exact active

/-- The phase has no call of Redis under way. -/
def Calm (link : Link) : Prop :=
  ∀ channel, link.phase ≠ .subscribing channel ∧ link.phase ≠ .unsubscribing channel

theorem Synced.subscribed {link : Link} (synced : link.Synced) (calm : link.Calm)
    (channel : String) (active : channel ∈ link.activeTopics) : channel ∈ link.subscribed := by
  rcases synced.active channel active with made | calling
  · exact made
  · exact absurd calling (calm channel).1

theorem synced_of_calm (calm : link.Calm)
    (subscribed : ∀ channel ∈ link.activeTopics, channel ∈ link.subscribed) : link.Synced where
  active channel active := .inl (subscribed channel active)
  adding channel calling := absurd calling (calm channel).1
  dropping channel calling := absurd calling (calm channel).2

theorem handle_synced (command : SubscriptionCommand)
    (subscribed : ∀ channel ∈ link.activeTopics, channel ∈ link.subscribed) :
    (link.handle desired command).Synced := by
  have receiving : Synced { link with phase := .receiving } :=
    synced_of_calm (fun channel => ⟨nofun, nofun⟩) subscribed
  cases command with
  | subscribe topic =>
    simp only [handle]
    split
    · exact receiving
    · constructor
      · intro channel active
        rcases Finset.mem_insert.mp active with rfl | before
        · exact .inr rfl
        · exact .inl (subscribed channel before)
      · rintro channel ⟨⟩
        exact Finset.mem_insert_self _ _
      · nofun
  | unsubscribeIfIdle topic =>
    simp only [handle]
    split
    · split
      · constructor
        · intro channel active
          exact .inl (subscribed channel (Finset.mem_of_mem_erase active))
        · nofun
        · rintro channel ⟨⟩
          exact Finset.notMem_erase _ _
      · exact receiving
    · exact receiving

end Link

namespace PubSub.Tracked

theorem initial : PubSub.initial.Tracked := by
  constructor
  · intro topic wanted
    cases wanted
  · intro link up
    cases up

variable {self next : PubSub}

theorem of_queue (tracked : self.Tracked) (link : next.link = self.link)
    (wanted : ∀ topic, 0 < topicRefcount next.desired topic →
      0 < topicRefcount self.desired topic ∨ topic ∈ next.unsent)
    (unsent : ∀ topic ∈ self.unsent, topic ∈ next.unsent ∨ .subscribe topic ∈ next.queue)
    (queue : ∀ command ∈ self.queue, command ∈ next.queue) : next.Tracked := by
  constructor
  · intro topic positive
    rw [link]
    rcases wanted topic positive with before | new
    · rcases tracked.covered topic before with waits | queued | linked
      · rcases unsent topic waits with still | sent
        · exact .inl still
        · exact .inr (.inl sent)
      · exact .inr (.inl (queue _ queued))
      · exact .inr (.inr linked)
    · exact .inl new
  · rw [link]
    exact tracked.synced

theorem of_link (tracked : self.Tracked) {link other : Link}
    (up : self.link = some link) (linked : next.link = some other)
    (desired : next.desired = self.desired) (unsent : next.unsent = self.unsent)
    (queue : ∀ topic, 0 < topicRefcount self.desired topic → .subscribe topic ∈ self.queue →
      .subscribe topic ∈ next.queue ∨ other.phase.inHand topic)
    (covered : ∀ topic, 0 < topicRefcount self.desired topic →
      topic.redisChannel ∈ link.activeTopics ∨ link.phase.inHand topic →
        topic.redisChannel ∈ other.activeTopics ∨ other.phase.inHand topic)
    (synced : other.Synced) : next.Tracked := by
  constructor
  · intro topic wanted
    rw [desired] at wanted
    rw [unsent]
    have only {property : Link → Prop} (holds : property other) :
        ∀ found, next.link = some found → property found := by
      intro found present
      rw [linked, Option.some.injEq] at present
      rw [← present]
      exact holds
    rcases tracked.covered topic wanted with waits | queued | before
    · exact .inl waits
    · rcases queue topic wanted queued with still | inHand
      · exact .inr (.inl still)
      · exact .inr (.inr (only (.inr inHand)))
    · exact .inr (.inr (only (covered topic wanted (before link up))))
  · intro found present
    rw [linked, Option.some.injEq] at present
    rw [← present]
    exact synced

theorem step (tracked : self.Tracked) {action : Action}
    (step : Step self action next) : next.Tracked := by
  cases step with
  | @retain topic =>
    refine tracked.of_queue rfl ?_ ?_ fun _ member => member
    · intro other wanted
      rcases retainTopic_covers wanted with before | ⟨rfl, flag⟩
      · exact .inl before
      · refine .inr ?_
        simp only [PubSub.retain, flag, if_true]
        exact mem_cons_self
    · intro other waits
      refine .inl ?_
      simp only [PubSub.retain]
      split
      · exact mem_cons_of_mem _ waits
      · exact waits
  | @send topic unsent room =>
    refine tracked.of_queue rfl (fun _ => .inl) ?_ fun _ => mem_append_left _
    intro other waits
    by_cases same : other = topic
    · rw [same]
      exact .inr (mem_append_right _ mem_cons_self)
    · exact .inl ((mem_erase_of_ne same).mpr waits)
  | release =>
    exact tracked.of_queue rfl (fun _ wanted => .inl (releaseTopic_covers wanted))
      (fun _ => .inl) fun _ member => member
  | expire delayed room =>
    exact tracked.of_queue rfl (fun _ => .inl) (fun _ => .inl) fun _ => mem_append_left _
  | connect down =>
    constructor
    · intro topic wanted
      rcases tracked.covered topic wanted with waits | queued | -
      · exact .inl waits
      · exact .inr (.inl queued)
      · refine .inr (.inr ?_)
        intro link up
        cases up
        exact .inr trivial
    · intro link up
      cases up
      exact Link.synced_of_calm (fun channel => ⟨nofun, nofun⟩) nofun
  | snapshot up phase =>
    refine tracked.of_link up rfl rfl rfl (fun _ _ => .inl) ?_ ?_
    · intro topic wanted _
      exact .inr (mem_initialTopics wanted)
    · refine Link.synced_of_calm (fun channel => ⟨nofun, nofun⟩) ?_
      exact (tracked.synced _ up).subscribed fun channel => by simp [phase]
  | @restore link restored rest up phase =>
    refine tracked.of_link up rfl rfl rfl (fun _ _ => .inl) ?_ ?_
    · intro topic _ covered
      rw [phase] at covered
      rcases covered with active | inHand
      · exact .inl (Finset.mem_insert_of_mem active)
      · rcases mem_cons.mp inHand with rfl | later
        · exact .inl (Finset.mem_insert_self _ _)
        · exact .inr later
    · refine Link.synced_of_calm (fun channel => ⟨nofun, nofun⟩) ?_
      intro channel active
      rcases Finset.mem_insert.mp active with rfl | before
      · exact Finset.mem_insert_self _ _
      · refine Finset.mem_insert_of_mem ?_
        exact (tracked.synced _ up).subscribed (fun channel => by simp [phase]) channel before
  | begin up phase =>
    refine tracked.of_link up rfl rfl rfl (fun _ _ => .inl) ?_ ?_
    · exact fun topic _ covered => .inl (covered.resolve_right (by simp [phase, Phase.inHand]))
    · refine Link.synced_of_calm (fun channel => ⟨nofun, nofun⟩) ?_
      exact (tracked.synced _ up).subscribed fun channel => by simp [phase]
  | @take link command rest up phase queued =>
    refine tracked.of_link up rfl rfl rfl ?_ ?_ ?_
    · intro topic _ waits
      rw [queued] at waits
      rcases mem_cons.mp waits with taken | later
      · exact .inr taken.symm
      · exact .inl later
    · exact fun topic _ covered => .inl (covered.resolve_right (by simp [phase, Phase.inHand]))
    · refine Link.synced_of_calm (fun channel => ⟨nofun, nofun⟩) ?_
      exact (tracked.synced _ up).subscribed fun channel => by simp [phase]
  | handle up phase =>
    refine tracked.of_link up rfl rfl rfl (fun _ _ => .inl) ?_ ?_
    · intro topic wanted covered
      exact .inl (Link.handle_covers phase wanted covered)
    · refine Link.handle_synced _ ?_
      exact (tracked.synced _ up).subscribed fun channel => by simp [phase]
  | @subscribed link made up phase =>
    refine tracked.of_link up rfl rfl rfl (fun _ _ => .inl) ?_ ?_
    · intro topic _ covered
      rw [phase] at covered
      rcases covered with active | inHand
      · exact .inl active
      · cases inHand
        exact .inl ((tracked.synced _ up).adding _ phase)
    · refine Link.synced_of_calm (fun channel => ⟨nofun, nofun⟩) ?_
      intro channel active
      rcases (tracked.synced link up).active channel active with before | now
      · exact Finset.mem_insert_of_mem before
      · rw [phase, Phase.subscribing.injEq] at now
        rw [now]
        exact Finset.mem_insert_self _ _
  | @unsubscribed link made up phase =>
    refine tracked.of_link up rfl rfl rfl (fun _ _ => .inl) ?_ ?_
    · exact fun topic _ covered => .inl (covered.resolve_right (by simp [phase, Phase.inHand]))
    · refine Link.synced_of_calm (fun channel => ⟨nofun, nofun⟩) ?_
      intro channel active
      refine Finset.mem_erase.mpr ⟨?_, ?_⟩
      · rintro rfl
        exact (tracked.synced _ up).dropping _ phase active
      · rcases (tracked.synced link up).active channel active with before | now
        · exact before
        · rw [phase] at now
          cases now
  | disconnect up phase =>
    constructor
    · intro topic wanted
      rcases tracked.covered topic wanted with waits | queued | -
      · exact .inl waits
      · exact .inr (.inl queued)
      · refine .inr (.inr ?_)
        intro link up
        cases up
    · intro link up
      cases up

end PubSub.Tracked

theorem tracked_of_run {actions : List Action} {pubsub : PubSub}
    (run : Run Step PubSub.initial actions pubsub) : pubsub.Tracked :=
  run.invariant (fun _ _ _ tracked step => tracked.step step) PubSub.Tracked.initial

theorem desired_topics_subscribed {actions : List Action} {pubsub : PubSub}
    (run : Run Step PubSub.initial actions pubsub) (queue : pubsub.queue = [])
    (unsent : pubsub.unsent = []) {link : Link} (up : pubsub.link = some link)
    (topic : EventTopicKey) (wanted : 0 < topicRefcount pubsub.desired topic) :
    topic.redisChannel ∈ link.subscribed ∨ link.phase.inHand topic := by
  have tracked := tracked_of_run run
  rcases tracked.covered topic wanted with waits | queued | covered
  · rw [unsent] at waits
    cases waits
  · rw [queue] at queued
    cases queued
  · rcases covered link up with active | inHand
    · rcases (tracked.synced link up).active _ active with made | calling
      · exact .inl made
      · rw [calling]
        exact .inr rfl
    · exact .inr inHand

def sampleTopic : EventTopicKey := ⟨⟨.fill 9⟩, .global⟩

theorem desired_topics_subscribed_first :
    ∃ pubsub link, Run Step PubSub.initial
        [.connect, .snapshot, .begin, .retain sampleTopic, .send sampleTopic, .take, .handle,
          .subscribed] pubsub ∧
      pubsub.link = some link ∧ link.phase = .receiving ∧
      (sampleTopic.redisChannel ∈ link.subscribed ∨ link.phase.inHand sampleTopic) := by
  have run : Run Step PubSub.initial
      [.connect, .snapshot, .begin, .retain sampleTopic, .send sampleTopic, .take, .handle,
        .subscribed] _ :=
    .cons (.connect rfl) <|
    .cons (.snapshot rfl rfl) <|
    .cons (.begin rfl rfl) <|
    .cons .retain <|
    .cons (.send mem_cons_self (by decide)) <|
    .cons (.take rfl rfl rfl) <|
    .cons (.handle rfl rfl) <|
    .cons (.subscribed rfl rfl) <| .nil _
  exact ⟨_, _, run, rfl, rfl, desired_topics_subscribed run rfl rfl rfl sampleTopic (by decide)⟩

/-- The queue is empty, and the task has the command in its hand. -/
theorem taken_not_subscribed :
    ¬ ∀ actions pubsub, Run Step PubSub.initial actions pubsub → pubsub.queue = [] →
      pubsub.unsent = [] → ∀ link, pubsub.link = some link →
        ∀ topic, 0 < topicRefcount pubsub.desired topic →
          topic.redisChannel ∈ link.subscribed := by
  intro claim
  have run : Run Step PubSub.initial
      [.connect, .snapshot, .begin, .retain sampleTopic, .send sampleTopic, .take] _ :=
    .cons (.connect rfl) <|
    .cons (.snapshot rfl rfl) <|
    .cons (.begin rfl rfl) <|
    .cons .retain <|
    .cons (.send mem_cons_self (by decide)) <|
    .cons (.take rfl rfl rfl) <| .nil _
  exact absurd (claim _ _ run rfl rfl _ rfl sampleTopic (by decide)) (Finset.notMem_empty _)

end Buzz.Pubsub
