import Buzz.Library.Keyed
import Buzz.Library.Runs
import Mathlib.Algebra.GroupWithZero.Nat
import Mathlib.Data.List.MinMax

/-! The accounting of the Git pack cache. -/

namespace Buzz.Git.PackCache

open Library Library.Runs List

def u64Max : ℕ := 2 ^ 64 - 1

structure CacheRecord where
  totalBytes : ℕ
  lastUsed : ℕ

structure CacheState where
  entries : Keyed String CacheRecord
  totalBytes : ℕ
  tick : ℕ

namespace CacheState

variable (self : CacheState) (maxBytes : ℕ) (pinned : ℕ → String → Bool)

def initial : CacheState := ⟨.empty, 0, 0⟩

def ticked : CacheState := { self with tick := min (self.tick + 1) u64Max }

/-- The entry goes, and its bytes are subtracted. -/
def remove (digest : String) : CacheState :=
  match self.entries.get digest with
  | none => self
  | some record =>
    { self with
      entries := self.entries.erase digest
      totalBytes := self.totalBytes - record.totalBytes }

def insert (digest : String) (totalBytes : ℕ) : CacheState :=
  let state := self.ticked.remove digest
  { state with
    entries := state.entries.insert digest ⟨totalBytes, state.tick⟩
    totalBytes := min (state.totalBytes + totalBytes) u64Max }

/-- `isFile`: both files of the entry are there. -/
def lookup (digest : String) (isFile : Bool) : CacheState :=
  match self.entries.get digest with
  | none => self.ticked
  | some record =>
    if isFile then
      { self.ticked with
        entries := self.entries.insert digest { record with lastUsed := self.ticked.tick } }
    else self.ticked

def candidate (isPinned : String → Bool) : Option String :=
  ((self.entries.entries.filter fun record => !isPinned record.1).argmin
    (·.2.lastUsed)).map Prod.fst

/-- Pins may be dropped between the rounds. -/
def prune : ℕ → CacheState → CacheState
  | 0, state => state
  | rounds + 1, state =>
    if state.totalBytes ≤ maxBytes then state
    else
      match state.candidate (pinned rounds) with
      | none => state
      | some digest => prune rounds (state.remove digest)

end CacheState

inductive Op
  | insert (digest : String) (totalBytes : ℕ)
  | lookup (digest : String) (isFile : Bool)
  | invalidate (digest : String)
  | prune (pinned : ℕ → String → Bool)

def step (maxBytes : ℕ) (state : CacheState) : Op → CacheState
  | .insert digest totalBytes => state.insert digest totalBytes
  | .lookup digest isFile => state.lookup digest isFile
  | .invalidate digest => state.remove digest
  | .prune pinned => state.prune maxBytes pinned state.entries.entries.length

def sizes (entries : Keyed String CacheRecord) : ℕ :=
  (entries.entries.map (·.2.totalBytes)).sum

/-- The sizes that are present fit 64 bits, and so does the tick. -/
def Fits (state : CacheState) (op : Op) : Prop :=
  state.tick < u64Max ∧ ∀ digest totalBytes, op = .insert digest totalBytes →
    sizes (state.entries.erase digest) + totalBytes ≤ u64Max

/-- The rounds of a prune, with the least recently used of the free entries evicted in each. -/
inductive Prunes (maxBytes : ℕ) (pinned : ℕ → String → Bool) : ℕ → CacheState → CacheState → Prop
  | done {rounds : ℕ} {state : CacheState} (ended : state.totalBytes ≤ maxBytes ∨
      ∀ record ∈ state.entries.entries, ∃ round, rounds = round + 1 ∧ pinned round record.1) :
      Prunes maxBytes pinned rounds state state
  | evict {rounds : ℕ} {state next : CacheState} {record : String × CacheRecord}
      (above : maxBytes < state.totalBytes) (present : record ∈ state.entries.entries)
      (free : pinned rounds record.1 = false)
      (oldest : ∀ other ∈ state.entries.entries, pinned rounds other.1 = false → other ≠ record →
        record.2.lastUsed < other.2.lastUsed)
      (rest : Prunes maxBytes pinned rounds (state.remove record.1) next) :
      Prunes maxBytes pinned (rounds + 1) state next

structure Sound (state : CacheState) : Prop where
  total : state.totalBytes = sizes state.entries
  past : ∀ record ∈ state.entries.entries, record.2.lastUsed ≤ state.tick
  apart : (state.entries.entries.map (·.2.lastUsed)).Nodup

section sizes

variable {entries : Keyed String CacheRecord} {digest : String} {record : CacheRecord}

theorem sizes_erase (found : entries.get digest = some record) :
    sizes entries = record.totalBytes + sizes (entries.erase digest) := by
  have parts := (entries.perm_erase (entries.get_eq_some.mp found)).map (·.2.totalBytes)
  simpa [sizes] using parts.sum_nat

theorem erase_absent (absent : entries.get digest = none) : entries.erase digest = entries := by
  have kept : (entries.erase digest).entries = entries.entries :=
    filter_eq_self.mpr fun entry member => decide_eq_true (entries.get_eq_none.mp absent entry member)
  cases entries
  simp only [Keyed.erase, Keyed.mk.injEq] at kept ⊢
  exact kept

theorem sizes_insert : sizes (entries.insert digest record) =
    record.totalBytes + sizes (entries.erase digest) := by
  simp [sizes, Keyed.insert]

end sizes

namespace Sound

variable {state : CacheState} (sound : Sound state)

include sound

theorem remove_eq (digest : String) : state.remove digest =
    ⟨state.entries.erase digest, sizes (state.entries.erase digest), state.tick⟩ := by
  have total := sound.total
  unfold CacheState.remove
  cases found : state.entries.get digest with
  | none =>
    rw [erase_absent found, ← total]
  | some record =>
    rw [sizes_erase found] at total
    simp [Nat.sub_eq_of_eq_add' total]

theorem remove (digest : String) : Sound (state.remove digest) := by
  rw [sound.remove_eq]
  exact ⟨rfl, fun entry member => sound.past entry ((Keyed.mem_erase _).mp member).1,
    sound.apart.sublist (filter_sublist.map _)⟩

variable {digest : String}

theorem use {totalBytes total tick : ℕ} (later : state.tick < tick)
    (isTotal : total = totalBytes + sizes (state.entries.erase digest)) :
    Sound ⟨state.entries.insert digest ⟨totalBytes, tick⟩, total, tick⟩ where
  total := by simpa only [sizes_insert] using isTotal
  past entry member := by
    rcases (Keyed.mem_insert _).mp member with rfl | ⟨old, -⟩
    · exact Nat.le_refl _
    · exact Nat.le_trans (sound.past entry old) (Nat.le_of_lt later)
  apart := by
    refine nodup_cons.mpr ⟨fun again => ?_, sound.apart.sublist (filter_sublist.map _)⟩
    rcases mem_map.mp again with ⟨entry, member, same⟩
    have past := sound.past entry ((Keyed.mem_erase _).mp member).1
    have same : entry.2.lastUsed = tick := same
    omega

theorem ticked (fits : state.tick < u64Max) :
    Sound state.ticked ∧ state.ticked.tick = state.tick + 1 := by
  have tick : state.ticked.tick = state.tick + 1 := Nat.min_eq_left fits
  refine ⟨⟨sound.total, fun entry member => ?_, sound.apart⟩, tick⟩
  rw [tick]
  exact Nat.le_succ_of_le (sound.past entry member)

theorem insert_eq {totalBytes : ℕ} (fits : Fits state (.insert digest totalBytes)) :
    state.insert digest totalBytes =
      ⟨(state.entries.erase digest).insert digest ⟨totalBytes, state.tick + 1⟩,
        totalBytes + sizes (state.entries.erase digest), state.tick + 1⟩ := by
  rcases sound.ticked fits.1 with ⟨ticked, tick⟩
  have sum := fits.2 digest totalBytes rfl
  rw [CacheState.insert, ticked.remove_eq, tick]
  simp only [CacheState.ticked, Nat.min_eq_left sum, Nat.add_comm totalBytes]

theorem lookup_eq {record : CacheRecord} (fits : state.tick < u64Max)
    (found : state.entries.get digest = some record) : state.lookup digest true =
      ⟨state.entries.insert digest ⟨record.totalBytes, state.tick + 1⟩, state.totalBytes,
        state.tick + 1⟩ := by
  rw [CacheState.lookup, found]
  simp only [if_true, (sound.ticked fits).2]
  rfl

theorem prune (maxBytes : ℕ) (pinned : ℕ → String → Bool) {rounds : ℕ}
    (enough : state.entries.entries.length ≤ rounds) :
    Sound (state.prune maxBytes pinned rounds) ∧
      Prunes maxBytes pinned rounds state (state.prune maxBytes pinned rounds) := by
  induction rounds generalizing state with
  | zero =>
    have none := eq_nil_of_length_eq_zero (Nat.le_zero.mp enough)
    exact ⟨sound, .done (.inr (by simp [none]))⟩
  | succ rounds ih =>
    rw [CacheState.prune]
    by_cases fits : state.totalBytes ≤ maxBytes
    · rw [if_pos fits]
      exact ⟨sound, .done (.inl fits)⟩
    · rw [if_neg fits]
      cases chosen : state.candidate (pinned rounds) with
      | none =>
        refine ⟨sound, .done (.inr fun record member => ⟨rounds, rfl, ?_⟩)⟩
        rw [CacheState.candidate, Option.map_eq_none_iff, argmin_eq_none] at chosen
        simpa using filter_eq_nil_iff.mp chosen record member
      | some digest =>
        rcases Option.map_eq_some_iff.mp chosen with ⟨record, isLeast, rfl⟩
        have listed := List.mem_filter.mp (argmin_mem isLeast)
        have shorter : (state.remove record.1).entries.entries.length ≤ rounds := by
          rw [sound.remove_eq]
          have present : (record.1, record.2) ∈ state.entries.entries := listed.1
          have parts := (state.entries.perm_erase present).length_eq
          rw [length_cons] at parts
          exact Nat.le_of_succ_le_succ (Nat.le_trans (Nat.le_of_eq parts.symm) enough)
        rcases ih (sound.remove record.1) shorter with ⟨kept, rest⟩
        refine ⟨kept, .evict (Nat.lt_of_not_le fits) listed.1 (by simpa using listed.2) ?_ rest⟩
        intro other member free differs
        have least := le_of_mem_argmin (f := (·.2.lastUsed))
          (List.mem_filter.mpr ⟨member, by simp [free]⟩) isLeast
        exact Nat.lt_of_le_of_ne least fun same =>
          differs (inj_on_of_nodup_map sound.apart member listed.1 same.symm)

end Sound

/-- `newest`: what an operation has used is evicted after all others. -/
structure Exact (maxBytes : ℕ) (state : CacheState) (op : Op) : Prop where
  total : (step maxBytes state op).totalBytes = sizes (step maxBytes state op).entries
  newest : ∀ digest, (∃ totalBytes, op = .insert digest totalBytes) ∨ op = .lookup digest true →
    ∀ record ∈ (step maxBytes state op).entries.entries, record.1 = digest →
      ∀ other ∈ (step maxBytes state op).entries.entries, other.1 ≠ digest →
        other.2.lastUsed < record.2.lastUsed
  pruned : ∀ pinned, op = .prune pinned →
    Prunes maxBytes pinned state.entries.entries.length state (step maxBytes state op)

section steps

variable {maxBytes : ℕ} {state : CacheState} {op : Op} (sound : Sound state) (fits : Fits state op)

include sound fits

theorem Sound.step : Sound (PackCache.step maxBytes state op) := by
  cases op with
  | insert digest totalBytes =>
    rw [PackCache.step, sound.insert_eq fits]
    have erased := sound.remove digest
    rw [sound.remove_eq] at erased
    have again : (state.entries.erase digest).erase digest = state.entries.erase digest :=
      erase_absent (by simp)
    exact erased.use (Nat.lt_succ_self _) (by rw [again])
  | lookup digest isFile =>
    have ticked := (sound.ticked fits.1).1
    cases found : state.entries.get digest with
    | none => simpa [PackCache.step, CacheState.lookup, found] using ticked
    | some record =>
      cases isFile with
      | false => simpa [PackCache.step, CacheState.lookup, found] using ticked
      | true =>
        rw [PackCache.step, sound.lookup_eq fits.1 found]
        exact sound.use (Nat.lt_succ_self _) (sound.total.trans (sizes_erase found))
  | invalidate digest => exact sound.remove digest
  | prune pinned => exact (sound.prune maxBytes pinned (Nat.le_refl _)).1

theorem Sound.exact : Exact maxBytes state op where
  total := (sound.step fits).total
  pruned := by
    rintro pinned rfl
    exact (sound.prune maxBytes pinned (Nat.le_refl _)).2
  newest := by
    have newest {entries : Keyed String CacheRecord} {digest : String} {totalBytes : ℕ}
        (inside : ∀ other ∈ entries.entries, other ∈ state.entries.entries) :
        ∀ record ∈ (entries.insert digest ⟨totalBytes, state.tick + 1⟩).entries, record.1 = digest →
          ∀ other ∈ (entries.insert digest ⟨totalBytes, state.tick + 1⟩).entries, other.1 ≠ digest →
            other.2.lastUsed < record.2.lastUsed := by
      intro record isRecord isDigest other isOther differs
      rcases (Keyed.mem_insert _).mp isRecord with rfl | ⟨-, again⟩
      · rcases (Keyed.mem_insert _).mp isOther with rfl | ⟨member, -⟩
        · exact absurd rfl differs
        · exact Nat.lt_succ_of_le (sound.past other (inside other member))
      · exact absurd isDigest again
    rintro digest (⟨totalBytes, rfl⟩ | rfl)
    · rw [PackCache.step, sound.insert_eq fits]
      exact newest fun other member => ((Keyed.mem_erase _).mp member).1
    · rw [PackCache.step]
      cases found : state.entries.get digest with
      | none =>
        intro record isRecord isDigest
        rw [CacheState.lookup, found] at isRecord
        exact absurd isDigest (state.entries.get_eq_none.mp found record isRecord)
      | some record =>
        rw [sound.lookup_eq fits.1 found]
        exact newest fun other member => member

end steps

/-- Where the sizes fit, the total is exact and prunes evict the least recently used. -/
theorem pack_cache_exact (maxBytes : ℕ) (ops : List Op)
    (fits : EachStep (step maxBytes) Fits .initial ops) :
    EachStep (step maxBytes) (Exact maxBytes) .initial ops :=
  EachStep.ensures (fun _ _ => Sound.step) (fun _ _ => Sound.exact)
    ⟨rfl, nofun, nodup_nil⟩ fits

def sampleOps : List Op :=
  [.insert "a" 2, .insert "b" 2, .lookup "a" true, .prune fun _ _ => false, .invalidate "a"]

theorem sampleOps_exact : EachStep (step 3) (Exact 3) .initial sampleOps := by
  refine pack_cache_exact 3 sampleOps ?_
  simp only [sampleOps, EachStep, Fits, Op.insert.injEq, reduceCtorEq, false_implies, implies_true,
    and_true]
  refine ⟨⟨by decide, ?_⟩, ⟨by decide, ?_⟩, by decide +kernel, by decide +kernel, by decide +kernel⟩
  all_goals
    rintro _ _ ⟨rfl, rfl⟩
    decide +kernel

/-- The total saturates, and no longer is the sum. -/
theorem not_total_exact : ¬ ∀ (maxBytes : ℕ) (ops : List Op),
    (ops.foldl (step maxBytes) .initial).totalBytes =
      sizes (ops.foldl (step maxBytes) .initial).entries := by
  intro exact
  exact absurd (exact u64Max [.insert "a" u64Max, .insert "b" u64Max]) (by decide +kernel)

end Buzz.Git.PackCache
