import Buzz.Library.Runs
import Mathlib.Data.List.Basic

/-! The circuit breaker of an agent slot, at nanosecond instants. -/

namespace Buzz.Harness.Circuit

open Library.Runs List

def circuitBreakerThreshold : ℕ := 3

def circuitBreakerWindow : ℕ := 60 * 10 ^ 9

def circuitBreakerCooldown : ℕ := 300 * 10 ^ 9

def respawnBaseDelay : ℕ := 10 ^ 9

def respawnMaxDelay : ℕ := 30 * 10 ^ 9

structure SlotCircuit where
  crashTimes : List ℕ
  openUntil : Option ℕ

inductive CrashVerdict
  | respawn (delay : ℕ)
  | circuitOpen
  | halfOpenProbe
  deriving DecidableEq

def recent (now time : ℕ) : Bool := now - time < circuitBreakerWindow

def halfOpen (now : ℕ) : SlotCircuit := ⟨replicate (circuitBreakerThreshold - 1) now, none⟩

/-- `jittered` is the floating-point delay, from the clock's subsecond nanos. -/
def SlotCircuit.recordCrash (self : SlotCircuit) (jittered : ℕ → ℕ → ℕ) (now subsecNanos : ℕ) :
    CrashVerdict × SlotCircuit :=
  match self.openUntil with
  | some openUntil => if openUntil ≤ now then (.halfOpenProbe, halfOpen now) else (.circuitOpen, self)
  | none =>
    let crashTimes := (self.crashTimes ++ [now]).filter (recent now)
    if circuitBreakerThreshold ≤ crashTimes.length then
      (.circuitOpen, ⟨crashTimes, some (now + circuitBreakerCooldown)⟩)
    else
      let base := respawnBaseDelay * 2 ^ min (crashTimes.length - 1) 5
      (.respawn (jittered (min base respawnMaxDelay) subsecNanos), ⟨crashTimes, none⟩)

def SlotCircuit.markSpawnFailed (self : SlotCircuit) (now : ℕ) : SlotCircuit :=
  { self with openUntil := some (now + circuitBreakerCooldown) }

def SlotCircuit.canRefill (self : SlotCircuit) (now : ℕ) : Bool × SlotCircuit :=
  match self.openUntil with
  | some openUntil => if openUntil ≤ now then (true, halfOpen now) else (false, self)
  | none => (true, self)

inductive Call
  | recordCrash (subsecNanos : ℕ)
  | markSpawnFailed
  | canRefill

/-- `probe`: when one was granted that has not ended yet. -/
structure Slot where
  now : ℕ
  circuit : SlotCircuit
  respawned : List ℕ
  opened : List ℕ
  probe : Option ℕ

namespace Slot

variable (jittered : ℕ → ℕ → ℕ) (self : Slot)

def start : Slot := ⟨0, ⟨[], none⟩, [], [], none⟩

def wait (elapsed : ℕ) : Slot := { self with now := self.now + elapsed }

def call : Call → Slot
  | .recordCrash subsecNanos =>
    let (verdict, circuit) := self.circuit.recordCrash jittered self.now subsecNanos
    match verdict with
    | .respawn _ => { self with circuit, respawned := self.respawned ++ [self.now], probe := none }
    | .circuitOpen =>
      if self.circuit.openUntil = none then
        { self with circuit, opened := self.now :: self.opened, probe := none }
      else self
    | .halfOpenProbe => { self with circuit, probe := some self.now }
  | .markSpawnFailed =>
    { self with
      circuit := self.circuit.markSpawnFailed self.now
      opened := self.now :: self.opened
      probe := none }
  | .canRefill =>
    let circuit := (self.circuit.canRefill self.now).2
    if self.circuit.openUntil.isSome ∧ circuit.openUntil = none then
      { self with circuit, probe := some self.now }
    else self

def step (action : ℕ × Call) : Slot := (self.wait action.1).call jittered action.2

def grants : Call → Bool
  | .recordCrash subsecNanos =>
    (self.circuit.recordCrash jittered self.now subsecNanos).1 ≠ .circuitOpen
  | .markSpawnFailed => false
  | .canRefill => (self.circuit.canRefill self.now).1

structure Breaks (slot : Slot) (call : Call) : Prop where
  shut : ∀ time ∈ slot.opened, slot.now < time + circuitBreakerCooldown →
    slot.grants jittered call = false
  probes : ∀ openUntil ∈ slot.circuit.openUntil, openUntil ≤ slot.now → call ≠ .markSpawnFailed →
    slot.grants jittered call ∧ (slot.call jittered call).probe = some slot.now
  reopens : call = .markSpawnFailed ∨ (∃ subsecNanos, call = .recordCrash subsecNanos) ∧
      (∃ time ∈ slot.probe, slot.now < time + circuitBreakerWindow) →
    (slot.call jittered call).circuit.openUntil = some (slot.now + circuitBreakerCooldown)

structure Sound (slot : Slot) : Prop where
  past : ∀ time ∈ slot.respawned, time ≤ slot.now
  before : ∀ time ∈ slot.opened, time ≤ slot.now
  few : ∀ first, (slot.respawned.filter fun time =>
    decide (first ≤ time ∧ time < first + circuitBreakerWindow)).length < circuitBreakerThreshold
  kept : slot.circuit.openUntil = none →
    (slot.respawned.filter (recent slot.now)).Sublist slot.circuit.crashTimes
  later : ∀ openUntil ∈ slot.circuit.openUntil, ∀ time ∈ slot.respawned,
    time + circuitBreakerWindow ≤ openUntil
  shut : ∀ time ∈ slot.opened,
    time + circuitBreakerCooldown ≤ slot.circuit.openUntil.getD slot.now
  probe : ∀ time ∈ slot.probe, slot.circuit = halfOpen time ∧ time ≤ slot.now

variable {jittered self}

theorem recent_filter {first later : ℕ} (ordered : first ≤ later) (times : List ℕ) :
    (times.filter (recent later)).Sublist (times.filter (recent first)) := by
  refine monotone_filter_right _ fun time isRecent => ?_
  simp only [recent, decide_eq_true_eq] at isRecent ⊢
  omega

section preservation

variable (sound : self.Sound)

include sound

theorem Sound.wait (elapsed : ℕ) : (self.wait elapsed).Sound where
  past time member := Nat.le_add_right_of_le (sound.past time member)
  before time member := Nat.le_add_right_of_le (sound.before time member)
  few := sound.few
  kept closed := (recent_filter (Nat.le_add_right _ _) _).trans (sound.kept closed)
  later := sound.later
  shut time member := by
    have shut := sound.shut time member
    change _ ≤ self.circuit.openUntil.getD (self.now + elapsed)
    cases isOpen : self.circuit.openUntil with
    | none =>
      rw [isOpen] at shut
      exact Nat.le_add_right_of_le shut
    | some openUntil =>
      rw [isOpen] at shut
      exact shut
  probe time isProbe := ⟨(sound.probe time isProbe).1, Nat.le_add_right_of_le (sound.probe time isProbe).2⟩

variable {crashTimes : List ℕ}

/-- The circuit opens now. -/
theorem Sound.trip : Sound { self with
    circuit := ⟨crashTimes, some (self.now + circuitBreakerCooldown)⟩
    opened := self.now :: self.opened
    probe := none } where
  past := sound.past
  before time member := by
    rcases mem_cons.mp member with rfl | earlier
    · exact Nat.le_refl _
    · exact sound.before time earlier
  few := sound.few
  kept := nofun
  later := by
    rintro _ ⟨⟩ time member
    have past := sound.past time member
    simp only [circuitBreakerWindow, circuitBreakerCooldown]
    omega
  shut time member := by
    rcases mem_cons.mp member with rfl | earlier
    · exact Nat.le_refl _
    · exact Nat.add_le_add_right (sound.before time earlier) _
  probe := nofun

/-- The cooldown has ended, and a probe is granted. -/
theorem Sound.half {openUntil : ℕ} (isOpen : self.circuit.openUntil = some openUntil)
    (ended : openUntil ≤ self.now) :
    Sound { self with circuit := halfOpen self.now, probe := some self.now } where
  past := sound.past
  before := sound.before
  few := sound.few
  kept _ := by
    have old : self.respawned.filter (recent self.now) = [] := by
      refine filter_eq_nil_iff.mpr fun time member => ?_
      have later := sound.later openUntil isOpen time member
      simp only [recent, decide_eq_true_eq]
      omega
    rw [old]
    exact nil_sublist _
  later := nofun
  shut time member := by
    have shut := sound.shut time member
    rw [isOpen] at shut
    exact Nat.le_trans shut ended
  probe := by
    rintro _ ⟨⟩
    exact ⟨rfl, Nat.le_refl _⟩

theorem Sound.respawn (closed : self.circuit.openUntil = none)
    (isTimes : (self.circuit.crashTimes ++ [self.now]).filter (recent self.now) = crashTimes)
    (below : crashTimes.length < circuitBreakerThreshold) : Sound { self with
      circuit := ⟨crashTimes, none⟩
      respawned := self.respawned ++ [self.now]
      probe := none } := by
  have counted : ((self.respawned ++ [self.now]).filter (recent self.now)).Sublist crashTimes := by
    have kept := (sound.kept closed).filter (recent self.now)
    rw [filter_filter] at kept
    simp only [Bool.and_self] at kept
    rw [← isTimes, filter_append, filter_append]
    exact kept.append_right _
  refine ⟨fun time member => ?_, sound.before, fun first => ?_, fun _ => counted, nofun, fun time member => ?_,
    nofun⟩
  · rcases mem_append.mp member with earlier | now
    · exact sound.past time earlier
    · exact Nat.le_of_eq (mem_singleton.mp now)
  · by_cases inside : first ≤ self.now ∧ self.now < first + circuitBreakerWindow
    · refine Nat.lt_of_le_of_lt ((monotone_filter_right _ fun time within => ?_).trans counted).length_le below
      simp only [recent, decide_eq_true_eq] at within ⊢
      omega
    · rw [filter_append, filter_singleton, decide_eq_false inside]
      simpa using sound.few first
  · have shut := sound.shut time member
    rwa [closed] at shut

theorem Sound.call (call : Call) : (self.call jittered call).Sound := by
  cases call with
  | recordCrash subsecNanos =>
    cases isOpen : self.circuit.openUntil with
    | none =>
      simp only [Slot.call, SlotCircuit.recordCrash, isOpen]
      by_cases tooMany : circuitBreakerThreshold ≤
          ((self.circuit.crashTimes ++ [self.now]).filter (recent self.now)).length
      · rw [if_pos tooMany]
        exact sound.trip
      · rw [if_neg tooMany]
        exact sound.respawn isOpen rfl (Nat.lt_of_not_le tooMany)
    | some openUntil =>
      simp only [Slot.call, SlotCircuit.recordCrash, isOpen]
      by_cases ended : openUntil ≤ self.now
      · rw [if_pos ended]
        exact sound.half isOpen ended
      · rw [if_neg ended]
        exact sound
  | markSpawnFailed => exact sound.trip
  | canRefill =>
    cases isOpen : self.circuit.openUntil with
    | none => simpa [Slot.call, SlotCircuit.canRefill, isOpen] using sound
    | some openUntil =>
      by_cases ended : openUntil ≤ self.now
      · simpa [Slot.call, SlotCircuit.canRefill, isOpen, ended, halfOpen] using sound.half isOpen ended
      · simpa [Slot.call, SlotCircuit.canRefill, isOpen, ended] using sound

theorem Sound.breaks (call : Call) : self.Breaks jittered call where
  shut time member early := by
    have shut := sound.shut time member
    cases isOpen : self.circuit.openUntil with
    | none =>
      rw [isOpen] at shut
      exact absurd shut (Nat.not_le_of_lt early)
    | some openUntil =>
      rw [isOpen] at shut
      have cooling : ¬ openUntil ≤ self.now := Nat.not_le_of_lt (Nat.lt_of_lt_of_le early shut)
      cases call <;> simp [grants, SlotCircuit.recordCrash, SlotCircuit.canRefill, isOpen, cooling]
  probes openUntil isOpen ended spawned := by
    cases call with
    | markSpawnFailed => exact absurd rfl spawned
    | recordCrash | canRefill =>
      have isOpen : self.circuit.openUntil = some openUntil := isOpen
      simp [grants, Slot.call, SlotCircuit.recordCrash, SlotCircuit.canRefill, isOpen, ended, halfOpen]
  reopens := by
    rintro (rfl | ⟨⟨subsecNanos, rfl⟩, time, isProbe, soon⟩)
    · rfl
    · rcases sound.probe time isProbe with ⟨isHalf, past⟩
      have isRecent : recent self.now time := by
        simp only [recent, decide_eq_true_eq]
        omega
      have now : recent self.now self.now := by simp [recent, circuitBreakerWindow]
      simp [Slot.call, SlotCircuit.recordCrash, isHalf, halfOpen, circuitBreakerThreshold, isRecent, now]

end preservation

end Slot

open Slot

/-- Few respawns in any window, none before the cooldown ends. -/
theorem circuit_breaks (jittered : ℕ → ℕ → ℕ) (actions : List (ℕ × Call)) :
    (∀ first, ((actions.foldl (step jittered) start).respawned.filter fun time =>
      decide (first ≤ time ∧ time < first + circuitBreakerWindow)).length ≤
        circuitBreakerThreshold - 1) ∧
    EachStep (step jittered) (fun slot action => (slot.wait action.1).Breaks jittered action.2) start
      actions := by
  have begins : start.Sound := by
    constructor <;> simp [start, circuitBreakerThreshold]
  have kept : ∀ slot action, Sound slot → True → (slot.step jittered action).Sound :=
    fun _ action sound _ => (sound.wait action.1).call action.2
  refine ⟨fun first => ?_, ?_⟩
  · have sound := EachStep.invariant kept begins (EachStep.any actions)
    exact Nat.le_sub_one_of_lt (sound.few first)
  · exact EachStep.ensures kept (fun _ action sound _ => (sound.wait action.1).breaks action.2) begins
      (EachStep.any actions)

/-- A refill is granted again while the probe is under way. -/
theorem not_one_probe : ¬ ∀ (jittered : ℕ → ℕ → ℕ) (actions : List (ℕ × Call)),
    EachStep (step jittered) (fun slot action => slot.probe.isSome → action.2 = .canRefill →
      (slot.wait action.1).grants jittered action.2 = false) start actions := by
  intro always
  have run := always (fun delay _ => delay)
    [(0, .markSpawnFailed), (circuitBreakerCooldown, .canRefill), (0, .canRefill)]
  exact absurd (run.2.2.1 rfl rfl) (by decide)

end Buzz.Harness.Circuit
