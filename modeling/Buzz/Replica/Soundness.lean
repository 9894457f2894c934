import Buzz.Replica.Handshake
import Mathlib.Data.List.Induction

/-! Soundness of the fence: nothing at or below a wall commits after its token. -/

namespace Buzz.Replica

open Nostr Library.Transition List

def Above (wall : ℤ) (rows : List ChannelRow) : Prop := ∀ row ∈ rows, wall < row.createdAt

/-- No transaction can still bring a row to or below the wall. -/
structure Covers (world : World) (wall : ℤ) : Prop where
  passed : wall + createdAtFloor < world.clock
  opened : ∀ transaction state, world.transactions transaction = some state →
    Above wall state.rows

/-- Everything committed after it is above its wall. -/
structure Proves (world : World) (entry : TokenEntry) : Prop where
  token : ∃ (position : ℕ) (epoch : Uuid), world.log[position]? = some (Commit.heartbeat entry.token epoch) ∧
    ∀ (i : ℕ) (rows : List ChannelRow), position < i → world.log[i]? = some (Commit.transaction rows) →
      Above entry.fenceWall rows
  covers : Covers world entry.fenceWall

def ProbeClaim (world : World) : Probe → Prop
  | .idle => True
  | .sampled sampledAt => sampledAt ≤ world.clock
  | .scanned wall => Covers world wall
  | .committed entry _ => Proves world entry
  | .rotating wall => Covers world wall
  | .rotated entry _ => Proves world entry

variable {world : World} {transaction : ℕ}

theorem setTransaction_eq_some {other : ℕ} {state : Option Transaction} {found : Transaction}
    (present : (world.setTransaction transaction state).transactions other = some found) :
    state = some found ∨ world.transactions other = some found := by
  rw [World.setTransaction_transactions] at present
  split at present
  · exact .inl present
  · exact .inr present

variable {next : World} {action : Action}

theorem step_log (step : Step world action next) :
    (next.log = world.log ∧ next.token = world.token) ∨
      (∃ transaction state, world.transactions transaction = some state ∧
        next.log = world.log ++ [.transaction state.rows] ∧ next.token = world.token) ∨
      ∃ epoch, next.log = world.log ++ [.heartbeat (world.token + 1) epoch] ∧
        next.token = world.token + 1 := by
  cases step with
  | commit opened => exact .inr (.inl ⟨_, _, opened, rfl, rfl⟩)
  | commitToken scanned | rotate rotating => exact .inr (.inr ⟨_, rfl, rfl⟩)
  | tick forward | begin closed past | guard opened admitted | rollback | sample idle
  | scan sampled covers | record committed | recordRotated rotated | fail | close =>
    exact .inl ⟨rfl, rfl⟩

variable {state : Transaction}

theorem step_transaction (step : Step world action next)
    (present : next.transactions transaction = some state) :
    world.transactions transaction = some state ∨
      (state.rows = [] ∧ state.xactStart ≤ world.clock) ∨
      ∃ before row, world.transactions transaction = some before ∧
        state = { before with rows := row :: before.rows } ∧
        world.clock - createdAtFloor ≤ row.createdAt := by
  cases step with
  | begin closed past =>
    rcases setTransaction_eq_some present with new | old
    · cases new
      exact .inr (.inl ⟨rfl, past⟩)
    · exact .inl old
  | @guard target before row opened admitted =>
    rw [World.setTransaction_transactions] at present
    split at present
    next same =>
      rw [Option.some.injEq] at present
      exact .inr (.inr ⟨before, row, same ▸ opened, present.symm, admitted⟩)
    · exact .inl present
  | commit opened | rollback =>
    rcases setTransaction_eq_some present with new | old
    · cases new
    · exact .inl old
  | tick forward | sample idle | scan sampled covers | commitToken scanned | record committed
  | rotate rotating | recordRotated rotated | fail | close => exact .inl present

theorem step_clock (step : Step world action next) :
    world.clock ≤ next.clock := by
  cases step with
  | tick forward => exact forward
  | _ => exact Int.le_refl _

theorem Covers.step {wall : ℤ}
    (covers : Covers world wall) (step : Step world action next) : Covers next wall where
  passed := by
    have passed := covers.passed
    have forward := step_clock step
    omega
  opened := by
    intro transaction state present
    rcases step_transaction step present with old | fresh | guarded
    · exact covers.opened transaction state old
    · rw [fresh.1]
      exact nofun
    · obtain ⟨before, row, old, shape, admitted⟩ := guarded
      rw [shape]
      intro found member
      rcases mem_cons.mp member with rfl | earlier
      · have passed := covers.passed
        omega
      · exact covers.opened transaction before old found earlier

theorem getElem?_snoc {α : Type} {items : List α} {last found : α} {i : ℕ}
    (here : (items ++ [last])[i]? = some found) :
    items[i]? = some found ∨ i = items.length ∧ found = last := by
  by_cases inside : i < items.length
  · rw [getElem?_append_left inside] at here
    exact .inl here
  · rw [getElem?_append_right (by omega)] at here
    obtain ⟨bound, value⟩ := List.getElem?_eq_some_iff.mp here
    rw [length_singleton] at bound
    refine .inr ⟨by omega, ?_⟩
    rw [getElem_singleton] at value
    exact value.symm

theorem getElem?_kept {α : Type} {items more : List α} {found : α} {i : ℕ}
    (here : items[i]? = some found) : (items ++ more)[i]? = some found := by
  obtain ⟨bound, value⟩ := List.getElem?_eq_some_iff.mp here
  rw [getElem?_append_left bound]
  exact here

variable {entry : TokenEntry}

theorem Proves.step
    (proves : Proves world entry) (step : Step world action next) : Proves next entry where
  token := by
    obtain ⟨position, epoch, here, later⟩ := proves.token
    rcases step_log step with same | transaction | token
    · rw [same.1]
      exact ⟨position, epoch, here, later⟩
    · obtain ⟨number, state, opened, appended, -⟩ := transaction
      rw [appended]
      refine ⟨position, epoch, getElem?_kept here, ?_⟩
      intro i rows after found
      rcases getElem?_snoc found with old | last
      · exact later i rows after old
      · cases last.2
        exact proves.covers.opened number state opened
    · obtain ⟨rotated, appended, -⟩ := token
      rw [appended]
      refine ⟨position, epoch, getElem?_kept here, ?_⟩
      intro i rows after found
      rcases getElem?_snoc found with old | last
      · exact later i rows after old
      · cases last.2
  covers := proves.covers.step step

theorem ProbeClaim.step {probe : Probe}
    (claim : ProbeClaim world probe) (step : Step world action next) : ProbeClaim next probe := by
  cases probe with
  | idle => trivial
  | sampled sampledAt => exact Int.le_trans claim (step_clock step)
  | scanned wall => exact Covers.step claim step
  | committed entry epoch => exact Proves.step claim step
  | rotating wall => exact Covers.step claim step
  | rotated entry epoch => exact Proves.step claim step

structure Inv (world : World) : Prop where
  tokens : ∀ (i : ℕ) token epoch, world.log[i]? = some (.heartbeat token epoch) →
    0 < token ∧ token ≤ world.token
  ordered : ∀ (i j : ℕ) first second firstEpoch secondEpoch, i < j →
    world.log[i]? = some (.heartbeat first firstEpoch) →
    world.log[j]? = some (.heartbeat second secondEpoch) → first < second
  seeded : 0 ≤ world.token
  started : ∀ transaction state, world.transactions transaction = some state →
    state.xactStart ≤ world.clock ∧
      ∀ row ∈ state.rows, state.xactStart - createdAtFloor ≤ row.createdAt
  probes : ∀ probe, ProbeClaim world (world.probes probe)
  rings : ∀ pod, ∀ entry ∈ (world.pods pod).ring, Proves world entry

theorem inv_initial (clock : ℤ) (epoch : Uuid) : Inv (World.initial clock epoch) where
  tokens := nofun
  ordered := nofun
  seeded := Int.le_refl 0
  started := nofun
  probes := fun _ => trivial
  rings := nofun

theorem Inv.covers_of_scan (inv : Inv world) {sampledAt : ℤ}
    {oldestXactStart : Option ℤ} (past : sampledAt ≤ world.clock)
    (scanned : ∀ transaction state, world.transactions transaction = some state →
      ∃ oldest, oldestXactStart = some oldest ∧ oldest ≤ state.xactStart) :
    Covers world (fenceWall sampledAt oldestXactStart) where
  passed := by
    have below := fenceWall_below_sample sampledAt oldestXactStart
    omega
  opened := by
    intro transaction state present row member
    obtain ⟨oldest, found, below⟩ := scanned transaction state present
    have started := (inv.started transaction state present).2 row member
    have wall := fenceWall_below_oldest sampledAt oldest
    rw [found]
    omega

theorem Inv.tokens_step (inv : Inv world) (step : Step world action next) :
    (∀ (i : ℕ) token epoch, next.log[i]? = some (.heartbeat token epoch) →
      0 < token ∧ token ≤ next.token) ∧
    (∀ (i j : ℕ) first second firstEpoch secondEpoch, i < j →
      next.log[i]? = some (.heartbeat first firstEpoch) →
      next.log[j]? = some (.heartbeat second secondEpoch) → first < second) ∧
    0 ≤ next.token := by
  have seeded := inv.seeded
  rcases step_log step with same | transaction | token
  · rw [same.1, same.2]
    exact ⟨inv.tokens, inv.ordered, inv.seeded⟩
  · obtain ⟨number, state, opened, appended, kept⟩ := transaction
    rw [appended, kept]
    have old {i : ℕ} {token : ℤ} {epoch : Uuid}
        (here : (world.log ++ [.transaction state.rows])[i]? = some (.heartbeat token epoch)) :
        world.log[i]? = some (.heartbeat token epoch) := by
      rcases getElem?_snoc here with earlier | last
      · exact earlier
      · cases last.2
    exact ⟨fun i token epoch here => inv.tokens i token epoch (old here),
      fun i j first second firstEpoch secondEpoch before left right =>
        inv.ordered i j first second firstEpoch secondEpoch before (old left) (old right),
      inv.seeded⟩
  · obtain ⟨rotated, appended, raised⟩ := token
    rw [appended, raised]
    refine ⟨?_, ?_, by omega⟩
    · intro i token epoch here
      rcases getElem?_snoc here with earlier | last
      · have bounds := inv.tokens i token epoch earlier
        omega
      · cases last.2
        omega
    · intro i j first second firstEpoch secondEpoch before left right
      rcases getElem?_snoc right with earlier | last
      · rcases getElem?_snoc left with old | impossible
        · exact inv.ordered i j first second firstEpoch secondEpoch before old earlier
        · obtain ⟨bound, -⟩ := List.getElem?_eq_some_iff.mp earlier
          omega
      · rcases getElem?_snoc left with old | impossible
        · have bounds := inv.tokens i first firstEpoch old
          cases last.2
          omega
        · omega

theorem Inv.started_step (inv : Inv world) (step : Step world action next)
    (present : next.transactions transaction = some state) :
    state.xactStart ≤ next.clock ∧
      ∀ row ∈ state.rows, state.xactStart - createdAtFloor ≤ row.createdAt := by
  have forward := step_clock step
  rcases step_transaction step present with old | fresh | guarded
  · have started := inv.started transaction state old
    exact ⟨Int.le_trans started.1 forward, started.2⟩
  · refine ⟨Int.le_trans fresh.2 forward, ?_⟩
    rw [fresh.1]
    exact nofun
  · obtain ⟨before, row, old, shape, admitted⟩ := guarded
    have started := inv.started transaction before old
    rw [shape]
    refine ⟨Int.le_trans started.1 forward, ?_⟩
    intro found member
    rcases mem_cons.mp member with rfl | earlier
    · change before.xactStart - createdAtFloor ≤ found.createdAt
      omega
    · exact started.2 found earlier

theorem Covers.proves {epoch : Uuid} (covers : Covers next entry.fenceWall)
    (appended : next.log = world.log ++ [.heartbeat entry.token epoch]) : Proves next entry where
  token := by
    rw [appended]
    refine ⟨world.log.length, epoch, getElem?_concat_length, ?_⟩
    intro i rows after found
    obtain ⟨bound, -⟩ := List.getElem?_eq_some_iff.mp found
    rw [length_append, length_singleton] at bound
    omega
  covers

theorem Inv.probes_step (inv : Inv world)
    (step : Step world action next) (probe : ℕ) : ProbeClaim next (next.probes probe) := by
  have kept : ProbeClaim next (world.probes probe) := (inv.probes probe).step step
  have carried {wall : ℤ} (covers : Covers world wall) : Covers next wall := covers.step step
  have moved (target : ℕ) (state : Probe)
      (shape : next.probes probe = if probe = target then state else world.probes probe)
      (claim : ProbeClaim next state) : ProbeClaim next (next.probes probe) := by
    rw [shape]
    split
    · exact claim
    · exact kept
  cases step with
  | @sample target idle =>
    exact moved target _ (World.setProbe_probes ..) (Int.le_refl world.clock)
  | @scan target sampledAt oldestXactStart sampled covers =>
    have past := inv.probes target
    rw [sampled] at past
    apply moved target (.scanned _) (World.setProbe_probes ..)
    exact carried (inv.covers_of_scan past covers)
  | @commitToken target wall committedAt scanned =>
    have covered := inv.probes target
    rw [scanned] at covered
    apply moved target (.committed _ _) (World.setProbe_probes ..)
    exact Covers.proves (carried covered) rfl
  | @record target pod entry epoch committed =>
    have proved := inv.probes target
    rw [committed] at proved
    apply moved target _ (World.setProbe_probes ..)
    refine ProbeClaim.step ?_ (.record committed)
    split
    · trivial
    · exact proved.covers
  | @rotate target wall committedAt epoch rotating =>
    have covered := inv.probes target
    rw [rotating] at covered
    apply moved target (.rotated _ _) (World.setProbe_probes ..)
    exact Covers.proves (carried covered) rfl
  | @recordRotated target pod entry epoch rotated =>
    exact moved target .idle (World.setProbe_probes ..) trivial
  | @fail target => exact moved target .idle (World.setProbe_probes ..) trivial
  | tick forward | begin closed past | guard opened admitted | commit opened | rollback | close =>
    exact kept

theorem Inv.rings_step (inv : Inv world)
    (step : Step world action next) (pod : ℕ) (entry : TokenEntry)
    (member : entry ∈ (next.pods pod).ring) : Proves next entry := by
  suffices known : Proves world entry from known.step step
  have recorded {target : ℕ} {committed : TokenEntry} {epoch : Uuid}
      (proved : Proves world committed)
      (shape : next.pods pod = if pod = target then
        ((world.pods target).record committed epoch).2 else world.pods pod) :
      Proves world entry := by
    rw [shape] at member
    split at member
    · rcases FenceInner.mem_record member with old | new
      · exact inv.rings target entry old
      · rw [new]
        exact proved
    · exact inv.rings pod entry member
  cases step with
  | @record target pod entry epoch committed =>
    have proved := inv.probes target
    rw [committed] at proved
    exact recorded proved (World.setPod_pods ..)
  | @recordRotated target pod entry epoch rotated =>
    have proved := inv.probes target
    rw [rotated] at proved
    exact recorded proved (World.setPod_pods ..)
  | @close target =>
    rw [World.setPod_pods] at member
    split at member
    · cases member
    · exact inv.rings pod entry member
  | tick forward | begin closed past | guard opened admitted | commit opened | rollback
  | sample idle | scan sampled covers | commitToken scanned | rotate rotating | fail =>
    exact inv.rings pod entry member

theorem Inv.step (inv : Inv world) (step : Step world action next) : Inv next := by
  obtain ⟨tokens, ordered, seeded⟩ := inv.tokens_step step
  exact ⟨tokens, ordered, seeded, fun _ _ present => inv.started_step step present,
    inv.probes_step step, inv.rings_step step⟩

variable {actions : List Action} {later : World}

theorem Inv.run (inv : Inv world) (run : Run Step world actions later) : Inv later := by
  apply run.invariant _ inv
  intro state action next known step
  exact known.step step

theorem Proves.run
    (proves : Proves world entry) (run : Run Step world actions later) : Proves later entry := by
  apply @Run.invariant _ _ _ (fun state => Proves state entry) _ _ _ _ run proves
  intro state action next known step
  exact known.step step

theorem log_run (run : Run Step world actions later) : ∃ more, later.log = world.log ++ more := by
  induction run with
  | nil state => exact ⟨[], (append_nil _).symm⟩
  | cons head tail ih =>
    obtain ⟨more, extended⟩ := ih
    rcases step_log head with same | transaction | token
    · exact ⟨more, by rw [extended, same.1]⟩
    · obtain ⟨number, state, -, appended, -⟩ := transaction
      exact ⟨.transaction state.rows :: more, by rw [extended, appended, append_assoc]; rfl⟩
    · obtain ⟨rotated, appended, -⟩ := token
      exact ⟨_ :: more, by rw [extended, appended, append_assoc]; rfl⟩

theorem observe_replayed (seed : Uuid) (replayed : List Commit) :
    observe seed replayed = (0, seed) ∨
      ∃ (i : ℕ) (epoch : Uuid), replayed[i]? =
        some (Commit.heartbeat (observe seed replayed).1 epoch) := by
  induction replayed using reverseRecOn with
  | nil => exact .inl rfl
  | append_singleton earlier last ih =>
    cases last with
    | heartbeat token epoch =>
      refine .inr ⟨earlier.length, epoch, ?_⟩
      rw [observe, foldl_append]
      exact getElem?_concat_length
    | transaction rows =>
      have same : observe seed (earlier ++ [.transaction rows]) = observe seed earlier := by
        rw [observe, foldl_append]
        rfl
      rw [same]
      rcases ih with seeded | replayed
      · exact .inl seeded
      · obtain ⟨i, epoch, here⟩ := replayed
        exact .inr ⟨i, epoch, getElem?_kept here⟩

theorem Inv.replayed_token (inv : Inv world) {seed epoch : Uuid}
    {replayed position : ℕ} {token : ℤ} (here : world.log[position]? = some (.heartbeat token epoch))
    (observed : token ≤ (observe seed (world.log.take replayed)).1) :
    position < (world.log.take replayed).length := by
  have positive := (inv.tokens position token epoch here).1
  rcases observe_replayed seed (world.log.take replayed) with seeded | heartbeat
  · rw [seeded] at observed
    change token ≤ 0 at observed
    omega
  · obtain ⟨seen, seenEpoch, seenHere⟩ := heartbeat
    obtain ⟨bound, -⟩ := List.getElem?_eq_some_iff.mp seenHere
    have seenInLog := seenHere
    rw [length_take] at bound
    rw [getElem?_take_of_lt (by omega)] at seenInLog
    by_contra outside
    have newer := inv.ordered seen position _ _ _ _ (by rw [length_take] at outside; omega)
      seenInLog here
    omega

/-- Rows at or below a proven wall are replayed. -/
theorem fence_sound {clock : ℤ} {seed : Uuid} {before after : List Action} {world later : World}
    (reached : Run Step (World.initial clock seed) before world)
    (continued : Run Step world after later) (pod replayed : ℕ) {entry : TokenEntry}
    (proved : (world.pods pod).resolve (observe seed (world.log.take replayed)).1
      (observe seed (world.log.take replayed)).2 = .proved entry) :
    ∀ (i : ℕ) (rows : List ChannelRow), later.log[i]? = some (.transaction rows) →
      ∀ row ∈ rows, row.createdAt ≤ entry.fenceWall →
        (world.log.take replayed)[i]? = some (.transaction rows) := by
  intro i rows committed row member below
  have inv : Inv world := (inv_initial clock seed).run reached
  obtain ⟨retained, observed⟩ := FenceInner.resolve_proved proved
  have known : Proves world entry := inv.rings pod entry retained
  obtain ⟨position, epoch, here, -⟩ := known.token
  have replayedToken := inv.replayed_token here observed
  obtain ⟨finalPosition, finalEpoch, finalHere, above⟩ := (known.run continued).token
  obtain ⟨more, extended⟩ := log_run continued
  -- the token's commit stays where it was, so the commits after it are those after `position`
  have samePosition : finalPosition = position := by
    have stays : later.log[position]? = some (.heartbeat entry.token epoch) := by
      rw [extended]
      exact getElem?_kept here
    have ordered := (inv.run continued).ordered
    rcases Nat.lt_trichotomy finalPosition position with earlier | same | after
    · have impossible := ordered _ _ _ _ _ _ earlier finalHere stays
      omega
    · exact same
    · have impossible := ordered _ _ _ _ _ _ after stays finalHere
      omega
  have inside : i < (world.log.take replayed).length := by
    by_contra outside
    have contradiction := above i rows (by omega) committed row member
    omega
  rw [extended, getElem?_append_left (by rw [length_take] at inside; omega)] at committed
  rw [length_take] at inside
  rw [getElem?_take_of_lt (by omega)]
  exact committed

def sampleSeed : Uuid := .fill 0

def sampleRow : ChannelRow := ⟨.fill 1, -960000000⟩

theorem fence_sound_sampleRow :
    ∃ world : World, world.log = [.transaction [sampleRow], .heartbeat 1 sampleSeed] ∧
      ∀ (i : ℕ) (rows : List ChannelRow), world.log[i]? = some (.transaction rows) →
        ∀ row ∈ rows, row.createdAt ≤ -955000000 →
          (world.log.take 2)[i]? = some (.transaction rows) := by
  have run : Run Step (World.initial 0 sampleSeed)
      [.begin 0 0, .guard 0 sampleRow, .commit 0, .tick 10000000, .sample 0, .scan 0 none,
        .commitToken 0 10000000, .record 0 0] _ :=
    .cons (.begin rfl (by decide)) <|
    .cons (.guard rfl (by decide)) <|
    .cons (.commit rfl) <|
    .cons (.tick (by decide)) <|
    .cons (.sample rfl) <|
    .cons (.scan rfl (by
      intro transaction state present
      simp only [World.setProbe, World.setTransaction, World.initial, Function.update_idem,
        Function.update_apply] at present
      split at present <;> cases present)) <|
    .cons (.commitToken rfl) <|
    .cons (.record rfl) (.nil _)
  exact ⟨_, rfl, @fence_sound _ _ _ _ _ _ run (.nil _) 0 2 ⟨1, 10000000, -955000000⟩ rfl⟩

end Buzz.Replica
