import Buzz.Library.Runs
import Buzz.Workflows.Scheduler

/-! A run is created for a claim that was won, so no instant of a workflow has two. -/

namespace Buzz.Workflows

open Nostr Library List Option

variable (parse : String → Option CronSchedule)

/-- An instant that the pod computed at the tick `now`. -/
def Offer.Computed (self : Offer) (now : DateTime) : Prop :=
  match self.trigger with
  | .cron expr => cronFireInstant parse expr now 60 = some self.scheduledFor
  | .interval dur =>
    intervalFireInstant dur now = some self.scheduledFor ∧
      ∃ last, intervalShouldFire dur last now

def Offer.claimed (self : Offer) : WorkflowKey × DateTime := (self.key, self.scheduledFor)

namespace Scheduler

variable {parse} {self : Scheduler} {label : SchedulerStep} {steps : List SchedulerStep}

/-- A claim that nothing stands in the way of. -/
def Creates (self : Scheduler) (label : SchedulerStep) (run : WorkflowRun) : Prop :=
  ∃ pod listed rest, label = .claim pod .created ∧
    (self.pods pod).phase = .claiming run.tick listed rest run.offer ∧
      run.offer.claimed ∉ self.claims

theorem Creates.unique {run other : WorkflowRun} (one : self.Creates label run)
    (two : self.Creates label other) : run = other := by
  obtain ⟨pod, listed, rest, rfl, phase, -⟩ := one
  obtain ⟨pod', listed', rest', same, phase', -⟩ := two
  injection same with samePod
  rw [← samePod, phase] at phase'
  injection phase' with tick _ _ offer
  cases run
  cases other
  cases tick
  cases offer
  rfl

def SameBooks (self next : Scheduler) : Prop :=
  next.runs = self.runs ∧ next.claims = self.claims

theorem sameBooks_tick (pod : ℕ) (rows : Option (List ScheduledRow)) :
    self.SameBooks (self.tick pod rows) := by
  unfold tick
  dsimp only
  split
  · split
    · split <;> exact ⟨rfl, rfl⟩
    · exact ⟨rfl, rfl⟩
  · exact ⟨rfl, rfl⟩

theorem sameBooks_visit (pod : ℕ) (anchorRead authorized : Bool) :
    self.SameBooks (self.visit parse pod anchorRead authorized) := by
  unfold visit
  dsimp only
  split
  · split
    · split <;> exact ⟨rfl, rfl⟩
    · exact ⟨rfl, rfl⟩
  · exact ⟨rfl, rfl⟩

theorem sameBooks_finish (pod : ℕ) : self.SameBooks (self.finish pod) := by
  unfold finish
  dsimp only
  split <;> exact ⟨rfl, rfl⟩

theorem claim_runs (pod : ℕ) (outcome : ClaimOutcome) :
    ((self.claim pod outcome).runs = self.runs ∧ (∀ run, ¬ self.Creates (.claim pod outcome) run) ∧
      self.claims ⊆ (self.claim pod outcome).claims) ∨
    ∃ run, self.Creates (.claim pod outcome) run ∧ (self.claim pod outcome).runs = run :: self.runs ∧
      (self.claim pod outcome).claims = run.offer.claimed :: self.claims := by
  unfold claim
  dsimp only
  split
  next now listed rest offer claiming =>
    cases outcome with
    | failed | noWorkflow =>
      exact .inl ⟨rfl, by rintro run ⟨_, _, _, ⟨⟩, _⟩, fun _ member => member⟩
    | runFailed =>
      left
      dsimp only
      split
      · exact ⟨rfl, by rintro run ⟨_, _, _, ⟨⟩, _⟩, fun _ member => member⟩
      · exact ⟨rfl, by rintro run ⟨_, _, _, ⟨⟩, _⟩, fun _ member => mem_cons_of_mem _ member⟩
    | created =>
      dsimp only
      split
      next taken =>
        refine .inl ⟨rfl, ?_, fun _ member => member⟩
        rintro run ⟨_, listed', rest', ⟨⟩, phase, free⟩
        rw [claiming] at phase
        injection phase with _ _ _ same
        rw [← same] at free
        exact free taken
      next free => exact .inr ⟨⟨offer, now⟩, ⟨pod, listed, rest, rfl, claiming, free⟩, rfl, rfl⟩
  next idle =>
    refine .inl ⟨rfl, ?_, fun _ member => member⟩
    rintro run ⟨_, listed, rest, ⟨⟩, phase, -⟩
    exact idle _ _ _ _ phase

theorem step_runs :
    ((self.step parse label).runs = self.runs ∧ (∀ run, ¬ self.Creates label run) ∧
      self.claims ⊆ (self.step parse label).claims) ∨
    ∃ run, self.Creates label run ∧ (self.step parse label).runs = run :: self.runs ∧
      (self.step parse label).claims = run.offer.claimed :: self.claims := by
  have same {next : Scheduler} (books : self.SameBooks next) :
      next.runs = self.runs ∧ self.claims ⊆ next.claims := by
    refine ⟨books.1, ?_⟩
    rw [books.2]
    exact List.Subset.refl _
  cases label with
  | claim pod outcome => exact claim_runs pod outcome
  | advance nanos | restart pod =>
    exact .inl ⟨rfl, by rintro run ⟨_, _, _, ⟨⟩, _⟩, List.Subset.refl _⟩
  | tick pod rows =>
    obtain ⟨runs, claims⟩ := same (sameBooks_tick pod rows)
    exact .inl ⟨runs, by rintro run ⟨_, _, _, ⟨⟩, _⟩, claims⟩
  | visit pod anchorRead authorized =>
    obtain ⟨runs, claims⟩ := same (sameBooks_visit pod anchorRead authorized)
    exact .inl ⟨runs, by rintro run ⟨_, _, _, ⟨⟩, _⟩, claims⟩
  | finish pod =>
    obtain ⟨runs, claims⟩ := same (sameBooks_finish pod)
    exact .inl ⟨runs, by rintro run ⟨_, _, _, ⟨⟩, _⟩, claims⟩

theorem pods_setPod (index other : ℕ) (pod : Pod) :
    (self.setPod index pod).pods other = if other = index then pod else self.pods other := rfl

variable (parse self) in
def Waiting : Prop :=
  ∀ pod now listed rest offer, (self.pods pod).phase = .claiming now listed rest offer →
    offer.Computed parse now

variable {pod : Pod}

theorem offer_computed {now : DateTime} {row : ScheduledRow} {anchorRead : Bool}
    {offer : Offer} {lastFired : Keyed WorkflowKey DateTime}
    (offered : self.offer parse pod now row anchorRead = (some offer, lastFired)) :
    offer.Computed parse now := by
  unfold Scheduler.offer at offered
  split at offered
  · cases offered
  next expr _ =>
    injection offered with isOffer
    obtain ⟨instant, computed, rfl⟩ := map_eq_some_iff.mp isOffer
    exact computed
  next dur _ =>
    split at offered
    · cases offered
    next lastFired passed =>
      injection offered with isOffer
      obtain ⟨instant, computed, rfl⟩ := map_eq_some_iff.mp isOffer
      refine ⟨computed, self.anchor pod row.key anchorRead, ?_⟩
      unfold intervalPrefilterShouldFire at passed
      split at passed
      · assumption
      · cases passed

theorem Waiting.setPod {index : ℕ} (waiting : Waiting parse self)
    (computed : ∀ now listed rest offer, pod.phase = .claiming now listed rest offer →
      offer.Computed parse now) : Waiting parse (self.setPod index pod) := by
  intro other now listed rest offer phase
  rw [pods_setPod] at phase
  split at phase
  · exact computed now listed rest offer phase
  · exact waiting other now listed rest offer phase

theorem Waiting.setPod_idle {index : ℕ} (waiting : Waiting parse self)
    (idle : ∀ now listed rest offer, pod.phase ≠ .claiming now listed rest offer) :
    Waiting parse (self.setPod index pod) :=
  waiting.setPod fun now listed rest offer phase => absurd phase (idle now listed rest offer)

theorem Waiting.books {claims : List (WorkflowKey × DateTime)} {runs : List WorkflowRun}
    (waiting : Waiting parse self) : Waiting parse { self with claims, runs } := waiting

theorem Waiting.step (waiting : Waiting parse self) : Waiting parse (self.step parse label) := by
  cases label with
  | advance nanos => exact waiting
  | restart pod => exact waiting.setPod_idle (by rintro _ _ _ _ ⟨⟩)
  | tick pod rows =>
    change Waiting parse (self.tick pod rows)
    unfold tick
    dsimp only
    split
    · split
      · split
        · exact waiting
        · exact waiting.setPod_idle (by rintro _ _ _ _ ⟨⟩)
        · exact waiting.setPod_idle (by rintro _ _ _ _ ⟨⟩)
      · exact waiting
    · exact waiting
  | visit pod anchorRead authorized =>
    change Waiting parse (self.visit parse pod anchorRead authorized)
    unfold visit
    dsimp only
    split
    · split
      next offer lastFired offered =>
        split
        · refine waiting.setPod ?_
          rintro _ _ _ _ ⟨⟩
          exact offer_computed offered
        · exact waiting.setPod_idle (by rintro _ _ _ _ ⟨⟩)
      · exact waiting.setPod_idle (by rintro _ _ _ _ ⟨⟩)
    · exact waiting
  | claim pod outcome =>
    change Waiting parse (self.claim pod outcome)
    unfold claim
    dsimp only
    split
    · cases outcome with
      | failed | noWorkflow => exact waiting.setPod_idle (by rintro _ _ _ _ ⟨⟩)
      | runFailed | created =>
        dsimp only
        split
        · exact waiting.setPod_idle (by rintro _ _ _ _ ⟨⟩)
        · exact Waiting.setPod_idle (Waiting.books waiting) (by rintro _ _ _ _ ⟨⟩)
    · exact waiting
  | finish pod =>
    change Waiting parse (self.finish pod)
    unfold finish
    dsimp only
    split
    · exact waiting.setPod_idle (by rintro _ _ _ _ ⟨⟩)
    · exact waiting

/-- No two have the same claim, computed at its tick. -/
structure Accounted (parse : String → Option CronSchedule) (scheduler : Scheduler) : Prop where
  waiting : Waiting parse scheduler
  computed : ∀ run ∈ scheduler.runs, run.offer.Computed parse run.tick
  claimed : ∀ run ∈ scheduler.runs, run.offer.claimed ∈ scheduler.claims
  distinct : scheduler.runs.Pairwise fun one other => one.offer.claimed ≠ other.offer.claimed

theorem accounted_start (clock : ℤ) : Accounted parse (start clock) :=
  ⟨by rintro _ _ _ _ _ ⟨⟩, forall_mem_nil _, forall_mem_nil _, List.Pairwise.nil⟩

theorem Accounted.step (accounted : Accounted parse self) :
    Accounted parse (self.step parse label) := by
  rcases self.step_runs with ⟨runs, -, claims⟩ | ⟨run, creates, runs, claims⟩
  · refine ⟨accounted.waiting.step, ?_, ?_, ?_⟩
    · rw [runs]
      exact accounted.computed
    · rw [runs]
      exact fun run member => claims (accounted.claimed run member)
    · rw [runs]
      exact accounted.distinct
  · obtain ⟨pod, listed, rest, -, phase, free⟩ := creates
    refine ⟨accounted.waiting.step, ?_, ?_, ?_⟩
    · rw [runs]
      exact forall_mem_cons.mpr ⟨accounted.waiting _ _ _ _ _ phase, accounted.computed⟩
    · rw [runs, claims]
      refine forall_mem_cons.mpr ⟨mem_cons_self, fun other member => ?_⟩
      exact mem_cons_of_mem _ (accounted.claimed other member)
    · rw [runs]
      refine pairwise_cons.mpr ⟨fun other member same => free ?_, accounted.distinct⟩
      rw [same]
      exact accounted.claimed other member

theorem Accounted.run (accounted : Accounted parse self) : Accounted parse (self.run parse steps) := by
  unfold Scheduler.run
  induction steps generalizing self with
  | nil => exact accounted
  | cons label rest ih => exact ih accounted.step

/-- Across pods a due instant of a workflow fires once. -/
theorem instant_fires_once (clock : ℤ) (steps : List SchedulerStep) :
    (((start clock).run parse steps).runs.map (·.offer.claimed)).Nodup ∧
      ∀ run ∈ ((start clock).run parse steps).runs, run.offer.Computed parse run.tick ∧
        run.offer.claimed ∈ ((start clock).run parse steps).claims := by
  have accounted : Accounted parse ((start clock).run parse steps) := (accounted_start clock).run
  exact ⟨pairwise_map.mpr accounted.distinct,
    fun run member => ⟨accounted.computed run member, accounted.claimed run member⟩⟩

end Scheduler

end Buzz.Workflows
