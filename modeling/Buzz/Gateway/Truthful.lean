import Buzz.Gateway.Outcomes

/-! Runs of a relay's workers against the gateway: how the jobs end. -/

namespace Buzz.Gateway

open Nostr Library Library.Runs List
open Buzz.Push (ClaimedWake GatewayResult Phase maxAttempts)

variable {config : Config} {date : Uuid → ℤ} {system : System}

section runs

variable {result : GatewayResult}

theorem SystemSound.answer (sound : SystemSound config date system) {task : ℕ}
    (silent : result = .timeoutOrConnect ∨ result = .other) :
    ∃ next, SystemSound config next (system.answer task result) := by
  have explained : ∀ other answered wake, Push.Label.answer task result = .answer other answered →
      system.relay.phase other = some (.sent wake) →
      wake.answered answered = .settling wake .complete →
      wake.id ∈ system.accepted ∨ ∃ attempt > 1, (wake.id, attempt) ∈ system.refused := by
    rintro other answered wake isAnswer _ complete
    cases isAnswer
    rcases answered_complete complete with rfl | ⟨rfl, _⟩ <;> rcases silent with same | same <;>
      cases same
  exact sound.relayed (fun _ member => member) explained

theorem SystemSound.respond (sound : SystemSound config date system) {delivery : Delivery}
    (told : result = .success (some .accepted) → delivery.wake.id ∈ system.accepted) :
    ∃ next, SystemSound config next (system.respond delivery result) := by
  unfold System.respond
  split
  next waiting =>
    have kept : ∀ entry ∈ system.refused, entry ∈ (if result = .notFound then
        (delivery.wake.id, delivery.wake.attempt) :: system.refused else system.refused) := by
      intro entry member
      split
      · exact mem_cons_of_mem _ member
      · exact member
    have explained : ∀ other answered wake,
        Push.Label.answer delivery.task result = .answer other answered →
        system.relay.phase other = some (.sent wake) →
        wake.answered answered = .settling wake .complete →
        wake.id ∈ system.accepted ∨ ∃ attempt > 1, (wake.id, attempt) ∈
          (if result = .notFound then
            (delivery.wake.id, delivery.wake.attempt) :: system.refused else system.refused) := by
      rintro other answered wake isAnswer sent complete
      cases isAnswer
      cases waiting.symm.trans sent
      rcases answered_complete complete with rfl | ⟨rfl, later⟩
      · exact .inl (told rfl)
      · right
        rw [if_pos rfl]
        exact ⟨delivery.wake.attempt, later, mem_cons_self⟩
    exact sound.relayed kept explained
  · exact ⟨date, sound⟩

theorem withoutBody_silent :
    withoutBody result ≠ .success (some .accepted) := by
  cases result <;> simp [withoutBody]

theorem Fences.reap {tables : Tables} {deliveries : List Delivery} {accepted : List Uuid}
    {reapedAt : ℤ} (fences : Fences config tables deliveries accepted reapedAt) (now : ℤ) :
    Fences config ((tables.reapExpired now).toOption.getD tables) deliveries accepted
      (max reapedAt now) := by
  have reaped : Reaped tables ((tables.reapExpired now).toOption.getD tables) now := reap_tables
  apply fences.frame
  · intro i d _ _ isRow
    by_cases live : now ≤ d.wake.expiresAt
    · exact .inl (reaped.requests _ _ isRow live)
    · exact .inr (Int.lt_of_lt_of_le (Int.not_le.mp live) (Int.le_max_right _ _))
  · exact Int.le_max_left _ _

theorem SystemSound.step (sound : SystemSound config date system) (label : SystemLabel) :
    ∃ next, SystemSound config next (system.step config label) := by
  cases label with
  | relay label =>
    have others : (∀ task result, label ≠ .answer task result) →
        ∃ next, SystemSound config next { system with relay := system.relay.step label } := by
      intro unanswered
      exact sound.relayed (fun _ member => member)
        (fun task result _ isAnswer => absurd isAnswer (unanswered task result))
    cases label with
    | answer task result => exact ⟨date, sound⟩
    | send task =>
      rw [System.step, System.relayStep]
      split
      next wake ready => exact sound.send ready
      · exact ⟨date, sound⟩
    | _ => exact others (fun _ _ isAnswer => by cases isAnswer)
  | timeout task => exact sound.answer (.inl rfl)
  | broken task => exact sound.answer (.inr rfl)
  | authorize index eventId now database =>
    rw [System.step]
    split
    next delivery found =>
      split
      next ready =>
        have fences := sound.fences.authorize found ready.1 ready.2 sound.expiry
          (@admission_asked config system.tables now delivery.wake eventId database)
        exact ⟨date, sound.handled fences (wakes_set found) (fun _ before => before)⟩
      · exact ⟨date, sound⟩
    · exact ⟨date, sound⟩
  | openToken index custody database =>
    rw [System.step]
    split
    next delivery found =>
      split
      next grant permit admitted =>
        have fences := sound.fences.openToken found admitted custody database
        exact ⟨date, sound.handled fences (wakes_set found) (fun _ before => before)⟩
      · exact ⟨date, sound⟩
    · exact ⟨date, sound⟩
  | transport index first second =>
    rw [System.step]
    split
    next delivery found =>
      split
      next grant permit sending =>
        have fences := sound.fences.transport found sending first second
        refine ⟨date, sound.handled fences (wakes_set found) ?_⟩
        intro id before
        split
        · exact mem_cons_of_mem _ before
        · exact before
      · exact ⟨date, sound⟩
    · exact ⟨date, sound⟩
  | finish index database =>
    rw [System.step]
    split
    next delivery found =>
      split
      next grant permit outcome sent =>
        have fences := sound.fences.finish found sent database
        exact ⟨date, sound.handled fences (wakes_set found) (fun _ before => before)⟩
      · exact ⟨date, sound⟩
    · exact ⟨date, sound⟩
  | respond index whole =>
    rw [System.step]
    split
    next delivery found =>
      split
      next result terminal isPhase =>
        apply sound.respond
        intro isAccepted
        cases whole with
        | false => exact absurd isAccepted withoutBody_silent
        | true =>
          apply sound.fences.told index delivery found
          rw [isPhase]
          exact decide_eq_true isAccepted
      · exact ⟨date, sound⟩
    · exact ⟨date, sound⟩
  | unauthorized index =>
    rw [System.step]
    split
    next delivery found =>
      split
      next received =>
        have fences := sound.fences.authorize found received (Int.le_refl system.reapedAt)
          sound.expiry (.turned .other (by simp))
        exact ⟨date, sound.handled fences (wakes_set found) (fun _ before => before)⟩
      · exact ⟨date, sound⟩
    · exact ⟨date, sound⟩
  | gateway call now =>
    rw [System.step]
    split
    next foreign =>
      refine ⟨date, { sound with fences := sound.fences.frame ?_ (Int.le_refl _) }⟩
      intro i d _ _ isRow
      exact .inl ((foreign_replays foreign d.wake.id).trans isRow)
    · exact ⟨date, sound⟩
  | foreignFinish permit =>
    rw [System.step]
    split
    · exact ⟨date, sound⟩
    next foreign =>
      refine ⟨date, { sound with fences := sound.fences.frame ?_ (Int.le_refl _) }⟩
      intro i d _ _ isRow
      left
      have kept := @finish_replays system.tables permit .retryable .works (requestKey config d) (by
        rintro relay decoded same
        exact foreign (decoded.trans (congrArg some (congrArg Prod.fst same).symm)))
      exact kept.trans isRow
  | reap now =>
    refine ⟨date, ?_⟩
    have fences := sound.fences.reap now
    exact { sound with fences }

theorem sound_initial (leases : List Push.LeaseRow)
    (events : CommunityId → EventId → Option (Option Uuid)) (reapedAt : ℤ) :
    SystemSound config (fun _ => 0) (.initial leases events reapedAt) where
  relay := Push.sound_initial
  dated := by
    constructor
    · intro job member
      cases member
    · intro task member
      cases member
  drawn := by
    intro i d found
    cases found
  expiry := by
    intro i d found
    cases found
  fences := by
    refine ⟨?_, ?_, ?_, ?_, nodup_nil, ?_⟩
    · intro i d found
      cases found
    · intro i d found
      cases found
    · intro i j di dj found
      cases found
    · intro id member
      cases member
    · intro i d found
      cases found
  completing := by
    intro task wake found
    cases found
  delivered := by
    intro job member
    cases member

end runs

structure Truthful (config : Config) (system : System) (label : SystemLabel) : Prop where
  once : (system.step config label).accepted.Nodup
  delivered : ∀ job ∈ (system.step config label).relay.tables.jobs, job.state = .delivered →
    (system.step config label).Explained job.id
  /-- A refused admission, for a full quota as for anything else, is a 404. -/
  refusal : ∀ index eventId now delivery grant, label = .authorize index eventId now .works →
    system.deliveries[index]? = some delivery → delivery.phase = .received →
    system.reapedAt ≤ now → config.openGrant delivery.wake.endpointGrant = some grant →
    system.tables.authorizeDelivery (config.deliveryRequest delivery.wake grant eventId) now =
      .error .rejected →
    (system.step config label).deliveries[index]? =
      some { delivery with phase := .responding .notFound false }
  /-- A 404 that reaches its worker ends the job: as failed at first, as delivered later. -/
  ends : ∀ index whole delivery terminal, label = .respond index whole →
    system.deliveries[index]? = some delivery →
    delivery.phase = .responding .notFound terminal →
    system.relay.phase delivery.task = some (.sent delivery.wake) →
    (system.step config label).relay.phase delivery.task = some (.settling delivery.wake
      (if 1 < delivery.wake.attempt then .complete else .fail))
  /-- A 503 leaves the job to be retried while attempts remain. -/
  retried : ∀ index whole delivery body terminal, label = .respond index whole →
    system.deliveries[index]? = some delivery →
    delivery.phase = .responding (.serviceUnavailable body) terminal →
    system.relay.phase delivery.task = some (.sent delivery.wake) →
    delivery.wake.attempt < maxAttempts →
    ∃ seconds, (system.step config label).relay.phase delivery.task =
      some (.settling delivery.wake (.retry seconds))
  /-- So does a timeout. -/
  waited : ∀ task wake, label = .timeout task → system.relay.phase task = some (.sent wake) →
    wake.attempt < maxAttempts →
    ∃ seconds, (system.step config label).relay.phase task =
      some (.settling wake (.retry seconds))

variable {wake : ClaimedWake} {result : GatewayResult}

theorem phase_answer {world : Push.World} {task : ℕ} (sent : world.phase task = some (.sent wake)) :
    (world.step (.answer task result)).phase task = some (wake.answered result) := by
  simp only [Push.World.step, sent, Push.phase_setPhase, if_true, Option.map_some]

theorem respond_phase {delivery : Delivery}
    (waiting : system.relay.phase delivery.task = some (.sent delivery.wake)) :
    (system.respond delivery result).relay.phase delivery.task =
      some (delivery.wake.answered result) := by
  rw [System.respond, if_pos waiting]
  exact phase_answer waiting

theorem retryOrFail_retries {delay : ℤ} (more : wake.attempt < maxAttempts) :
    ∃ seconds, wake.retryOrFail delay = .retry seconds :=
  ⟨_, if_neg (Nat.not_le.mpr more)⟩

theorem truthful_step (sound : SystemSound config date system) (label : SystemLabel) :
    Truthful config system label := by
  obtain ⟨_, after⟩ := sound.step label
  refine ⟨after.fences.nodup, after.delivered, ?_, ?_, ?_, ?_⟩
  · rintro index eventId now delivery grant rfl found received recent isGrant rejected
    have refused : config.admission system.tables delivery.wake eventId now .works =
        (.responding .notFound false, system.tables) := by
      simp only [Config.admission, isGrant, rejected]
      split <;> rfl
    simp only [System.step, found, received, recent, and_self, if_true, refused,
      System.setDelivery]
    exact getElem?_set_self (List.getElem?_eq_some_iff.mp found).1
  · rintro index whole delivery terminal rfl found isPhase waiting
    simp only [System.step, found, isPhase]
    rw [respond_phase waiting]
    cases whole <;> rfl
  · rintro index whole delivery body terminal rfl found isPhase waiting more
    simp only [System.step, found, isPhase]
    rw [respond_phase waiting]
    cases whole with
    | false =>
      obtain ⟨seconds, isRetry⟩ := @retryOrFail_retries delivery.wake
        (ClaimedWake.retryDelay none) more
      exact ⟨seconds, congrArg (fun settlement => some (Phase.settling _ settlement)) isRetry⟩
    | true =>
      obtain ⟨seconds, isRetry⟩ := @retryOrFail_retries delivery.wake
        (ClaimedWake.retryDelay body) more
      exact ⟨seconds, congrArg (fun settlement => some (Phase.settling _ settlement)) isRetry⟩
  · rintro task wake rfl sent more
    obtain ⟨seconds, isRetry⟩ := @retryOrFail_retries wake 2 more
    refine ⟨seconds, (phase_answer sent).trans ?_⟩
    exact congrArg (fun settlement => some (Phase.settling _ settlement)) isRetry

/-- As far as a 404 can tell. -/
theorem wakes_truthful (config : Config) (leases : List Push.LeaseRow)
    (events : CommunityId → EventId → Option (Option Uuid)) (reapedAt : ℤ)
    (labels : List SystemLabel) :
    EachStep (System.step config) (Truthful config) (.initial leases events reapedAt) labels := by
  have preserved : ∀ (system : System) label, (∃ date, SystemSound config date system) → True →
      ∃ date, SystemSound config date (system.step config label) :=
    fun _ label sound _ => sound.elim fun _ found => found.step label
  have ensured : ∀ (system : System) label, (∃ date, SystemSound config date system) → True →
      Truthful config system label :=
    fun _ label sound _ => sound.elim fun _ found => truthful_step found label
  exact EachStep.ensures preserved ensured ⟨_, sound_initial leases events reapedAt⟩
    (EachStep.any labels)

def phoneConfig : Config where
  sha256 := sampleHash
  relayKey := sampleBytes 17 32
  openGrant _ := some ⟨1, sampleBytes 2 16, sampleRelay, .buzzIosProduction, 1, 1, 3600⟩
  quotaWindowSeconds := 60
  quotaMaxDeliveries := 1

def phoneAttempt (n : ℕ) (now : ℤ) : List SystemLabel :=
  [.relay (.claim Push.phoneLease.communityId 32 (now + 30000000) (Push.drawnId n) now
      fun _ => false),
    .relay (.revalidate n now true), .relay (.revalidate n now true), .relay (.send n)]

def fullWindow : List SystemLabel :=
  [.gateway (.createInstallation { sampleInstallation with expiresAt := 3600 }) 0,
    .gateway (.upsertDelegation { sampleDelegation with notBefore := 0, expiresAt := 3600 }) 0,
    .relay (.enqueue Push.phoneLease.communityId 0 [(Push.phoneWake, Push.phoneJobId)])] ++
  phoneAttempt 0 0 ++
  [.authorize 0 (sampleBytes 5 32) 0 .works, .openToken 0 true .works,
    .transport 0 ⟨.retry none, false, fun _ => rfl, nofun⟩ ⟨.retry none, false, fun _ => rfl, nofun⟩,
    .finish 0 .works, .respond 0 true, .relay (.settle 0 0 true)] ++
  phoneAttempt 1 3000000 ++
  [.authorize 1 (sampleBytes 6 32) 3 .works, .respond 1 true, .relay (.settle 1 3000000 true)]

def fullWindowEnd : System :=
  fullWindow.foldl (System.step phoneConfig) (.initial [Push.phoneLease] (fun _ _ => some none) 0)

theorem fullWindow_delivered : ¬∀ (config : Config) (leases : List Push.LeaseRow)
    (events : CommunityId → EventId → Option (Option Uuid)) (reapedAt : ℤ)
    (labels : List SystemLabel),
    let system := labels.foldl (System.step config) (.initial leases events reapedAt)
    ∀ job ∈ system.relay.tables.jobs, job.state = .delivered → job.id ∈ system.accepted := by
  intro pushed
  have ends : ∃ job ∈ fullWindowEnd.relay.tables.jobs,
      job.state = .delivered ∧ job.id ∉ fullWindowEnd.accepted := by
    decide +kernel
  obtain ⟨job, member, delivered, unpushed⟩ := ends
  exact unpushed (pushed phoneConfig [Push.phoneLease] (fun _ _ => some none) 0 fullWindow job
    member delivered)

end Buzz.Gateway
