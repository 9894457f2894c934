import Buzz.Library.Results
import Buzz.Library.Runs
import Buzz.Tunnel.Directory

/-! Fencing of tunnel sessions: a session's counter is the clock of everything that succeeds on
it, and only an acquisition moves it. -/

namespace Buzz.Tunnel

open Nostr Option
open Buzz.Library.Results (bind_ok)
open Library.StampedTrace

variable (lua : LuaPrinter)

inductive Request
  | acquire (keys : SessionKeys) (ownerRuntimeId : RuntimeId) (profile : Profile)
  | renew (lease : SessionLease)
  | release (lease : SessionLease)
  | validate (communityId : CommunityId) (fenced : FencedHeader)

inductive Reply
  | acquire (result : Except DirectoryError AcquireResult)
  | renew (result : Except DirectoryError RenewResult)
  | release (result : Except DirectoryError ReleaseResult)
  | validate (result : Except MeshError Unit)

structure World where
  redis : SessionKeys → Session
  streams : ℕ → Option ReliableMeshStream

def World.initial : World := ⟨fun _ => ⟨none, none⟩, fun _ => none⟩

/-- `lostReply` is a request whose reply is lost. -/
inductive Op
  | request (leaseTtl : ℕ) (request : Request)
  | lostReply (leaseTtl : ℕ) (request : Request)
  | expire (keys : SessionKeys)
  | openStream (stream : ℕ) (pinned : ReliableMeshStream)
  | receive (stream : ℕ) (incoming : MeshStreamFrame)

inductive Event
  | answered (request : Request) (reply : Reply)
  | received (incoming : MeshStreamFrame) (result : Except ReliableStreamError ReliableWireFrame)
  | silent

def serve (leaseTtl : ℕ) (redis : SessionKeys → Session) :
    Request → Reply × (SessionKeys → Session)
  | .acquire keys ownerRuntimeId profile =>
    let (result, next) := acquire lua leaseTtl keys ownerRuntimeId profile (redis keys)
    (.acquire result, Function.update redis keys next)
  | .renew lease =>
    let (result, next) := renew leaseTtl lease (redis lease.keys)
    (.renew result, Function.update redis lease.keys next)
  | .release lease =>
    let (result, next) := release lease (redis lease.keys)
    (.release result, Function.update redis lease.keys next)
  | .validate communityId fenced =>
    (.validate (validateFencedHeader communityId fenced (redis ⟨communityId, fenced.sessionId⟩)),
      redis)

def World.receive (world : World) (stream : ℕ) (incoming : MeshStreamFrame) : World × Event :=
  match world.streams stream with
  | none => (world, .silent)
  | some current =>
    let (result, next) := recvValidated current world.redis incoming
    ({ world with streams := Function.update world.streams stream (some next) },
      .received incoming result)

def step (world : World) : Op → World × Event
  | .request leaseTtl request =>
    let (reply, redis) := serve lua leaseTtl world.redis request
    ({ world with redis }, .answered request reply)
  | .lostReply leaseTtl request =>
    ({ world with redis := (serve lua leaseTtl world.redis request).2 }, .silent)
  | .expire keys =>
    let expired : Session := { world.redis keys with lease := none }
    ({ world with redis := Function.update world.redis keys expired }, .silent)
  | .openStream stream pinned =>
    ({ world with streams := Function.update world.streams stream (some pinned) }, .silent)
  | .receive stream incoming => world.receive stream incoming

namespace Event

def acquired : Event → Option SessionLease
  | .answered _ (.acquire (.ok (.acquired lease))) => some lease
  | _ => none

def renewed : Event → Option SessionLease
  | .answered (.renew lease) (.renew (.ok (.renewed _))) => some lease
  | _ => none

def released : Event → Option SessionLease
  | .answered (.release lease) (.release (.ok (.released _))) => some lease
  | _ => none

def accepted : Event → Option (CommunityId × FencedHeader)
  | .answered (.validate communityId fenced) (.validate (.ok ())) => some (communityId, fenced)
  | .received (.data fenced _) (.ok frame) => some (frame.communityId, fenced)
  | _ => none

end Event

def Session.Consistent (session : Session) : Prop :=
  ∀ value, session.lease = some value → ∃ owner generation profile, 0 < generation ∧
    session.generation = some generation ∧ value = writtenLease lua owner generation profile

def Session.clock (session : Session) : ℕ := session.generation.getD 0

variable {generation : ℕ}

theorem LuaPrinter.toString_eq_repr {lua : LuaPrinter} {n : ℕ}
    (same : lua.toString generation = Nat.repr n) : generation = n := by
  unfold LuaPrinter.toString at same
  split at same
  · have digits := congrArg String.toList same
    rw [Nat.toList_repr, Nat.toList_repr] at digits
    have values := congrArg (fun chars => Nat.ofDigitChars 10 chars 0) digits
    simpa only [Nat.ofDigitChars_ten_toDigits] using values
  · have exponent := lua.exponent generation
    rw [same] at exponent
    exact absurd (repr_digits n exponent) (by decide)

variable {keys : SessionKeys} {reply : ScriptReply} {lease : SessionLease}

theorem acquireReply_acquired (answer : acquireReply keys reply = .ok (.acquired lease)) :
    reply.1 = "acquired" ∧ parseLease keys.communityId keys.sessionId reply.2.1 = .ok lease := by
  unfold acquireReply at answer
  cases parsed : parseLease keys.communityId keys.sessionId reply.2.1 with
  | error cause =>
    rw [parsed] at answer
    cases answer
  | ok found =>
    rw [parsed] at answer
    simp only [bind, Except.bind] at answer
    split at answer
    next status =>
      rw [Except.ok.injEq, AcquireResult.acquired.injEq] at answer
      exact ⟨status, by rw [answer]⟩
    · split at answer
      · cases answer
      · cases answer

theorem renewReply_renewed
    (answer : renewReply keys reply = .ok (.renewed lease)) : reply.1 = "renewed" := by
  rcases bind_ok answer with ⟨current, -, rest⟩
  split at rest
  · assumption
  · split at rest
    · rcases bind_ok rest with ⟨known, -, lost⟩
      cases lost
    · cases rest

theorem releaseReply_released
    (answer : releaseReply keys reply = .ok (.released lease)) : reply.1 = "released" := by
  rcases bind_ok answer with ⟨current, -, rest⟩
  split at rest
  · assumption
  · split at rest
    · rcases bind_ok rest with ⟨known, -, notOwner⟩
      cases notOwner
    · cases rest

variable {session : Session}

theorem fencedScript_done {done : String} {matched : Session → Session} {owner : String}
    (consistent : session.Consistent lua) (notMissing : done ≠ "missing") (notLost : done ≠ "lost")
    (status : (fencedScript done matched owner (Nat.repr generation) session).1.1 = done) :
    session.generation = some generation := by
  unfold fencedScript at status
  cases present : session.lease with
  | none =>
    rw [present] at status
    exact absurd status.symm notMissing
  | some current =>
    obtain ⟨holder, counter, profile, -, counted, written⟩ := consistent current present
    rw [present] at status
    simp only [luaMatch, written, splitBar_writtenLease] at status
    split at status
    next currentOwner currentGeneration currentProfile found =>
      split at found
      · cases found
      · rw [Option.some.injEq, Prod.mk.injEq, Prod.mk.injEq] at found
        split at status
        next same =>
          rw [← found.2.1] at same
          rw [counted, LuaPrinter.toString_eq_repr same.2]
        · exact absurd status.symm notLost
    · exact absurd status.symm notLost

theorem fencedScript_session (done : String) (matched : Session → Session)
    (owner generation : String) (session : Session) :
    (fencedScript done matched owner generation session).2 = session ∨
      (fencedScript done matched owner generation session).2 = matched session := by
  unfold fencedScript
  repeat' split
  all_goals first
    | exact Or.inl rfl
    | exact Or.inr rfl

/-- Consistent, and the counter never lower. -/
structure Session.Advances (session next : Session) : Prop where
  consistent : session.Consistent lua → next.Consistent lua
  raised : session.clock ≤ next.clock

theorem Session.Advances.refl (session : Session) : session.Advances lua session :=
  ⟨fun consistent => consistent, Nat.le_refl _⟩

theorem Session.Advances.expire (session : Session) :
    session.Advances lua { session with lease := none } where
  consistent := by
    intro _ value present
    cases present
  raised := Nat.le_refl _

theorem acquire_advances (leaseTtl : ℕ) (keys : SessionKeys) (owner : RuntimeId)
    (profile : Profile) (session : Session) :
    session.Advances lua (acquire lua leaseTtl keys owner profile session).2 := by
  unfold acquire
  cases ttlMs leaseTtl with
  | error cause => exact Session.Advances.refl lua session
  | ok ttl =>
    unfold acquireScript
    cases present : session.lease with
    | some current => exact Session.Advances.refl lua session
    | none =>
      simp only
      by_cases room : session.generation.getD 0 + 1 < 2 ^ 63
      · rw [if_pos room]
        constructor
        · intro _ value written
          rw [Option.some.injEq] at written
          exact ⟨owner, _, profile, Nat.succ_pos _, rfl, written.symm⟩
        · exact Nat.le_succ _
      · rw [if_neg room]
        exact Session.Advances.refl lua session

variable {leaseTtl : ℕ}

theorem acquire_acquired {owner : RuntimeId} {profile : Profile}
    (answer : (acquire lua leaseTtl keys owner profile session).1 = .ok (.acquired lease)) :
    lease.keys = keys ∧ session.clock < lease.generation ∧
      lease.generation = (acquire lua leaseTtl keys owner profile session).2.clock := by
  unfold acquire at answer ⊢
  cases valid : ttlMs leaseTtl with
  | error cause =>
    rw [valid] at answer
    cases answer
  | ok ttl =>
    rw [valid] at answer
    unfold acquireScript at answer ⊢
    cases present : session.lease with
    | some current =>
      rw [present] at answer
      have status := (acquireReply_acquired answer).1
      exact absurd status (show ("exists" : String) ≠ "acquired" by decide)
    | none =>
      rw [present] at answer
      simp only at answer ⊢
      by_cases room : session.generation.getD 0 + 1 < 2 ^ 63
      · rw [if_pos room] at answer ⊢
        have parsed := (acquireReply_acquired answer).2
        change parseLease keys.communityId keys.sessionId (writtenLease lua owner _ profile) =
          .ok lease at parsed
        rw [parseLease_written lua _ _ _ (Nat.succ_pos _)] at parsed
        split at parsed
        · rw [Except.ok.injEq] at parsed
          rw [← parsed]
          exact ⟨rfl, Nat.lt_succ_self _, rfl⟩
        · cases parsed
      · rw [if_neg room] at answer
        cases answer

theorem renew_session (leaseTtl : ℕ) (lease : SessionLease) (session : Session) :
    (renew leaseTtl lease session).2 = session := by
  unfold renew
  cases ttlMs leaseTtl with
  | error cause => rfl
  | ok ttl =>
    rcases fencedScript_session "renewed" (fun session => session) lease.ownerRuntimeId.toHex
      (Nat.repr lease.generation) session with same | same
    · exact same
    · exact same

theorem renew_renewed {renewed : SessionLease} (consistent : session.Consistent lua)
    (answer : (renew leaseTtl lease session).1 = .ok (.renewed renewed)) :
    session.generation = some lease.generation := by
  unfold renew at answer
  cases valid : ttlMs leaseTtl with
  | error cause =>
    rw [valid] at answer
    cases answer
  | ok ttl =>
    rw [valid] at answer
    have status : (renewScript lease.ownerRuntimeId.toHex (Nat.repr lease.generation)
        session).1.1 = "renewed" := renewReply_renewed answer
    exact fencedScript_done lua consistent (by decide) (by decide) status

theorem release_advances (lease : SessionLease) (session : Session) :
    session.Advances lua (release lease session).2 ∧
      (release lease session).2.clock = session.clock := by
  rcases fencedScript_session "released" (fun session => { session with lease := none })
    lease.ownerRuntimeId.toHex (Nat.repr lease.generation) session with same | same
  · change (release lease session).2 = session at same
    rw [same]
    exact ⟨Session.Advances.refl lua session, rfl⟩
  · change (release lease session).2 = { session with lease := none } at same
    rw [same]
    exact ⟨Session.Advances.expire lua session, rfl⟩

theorem release_released {released : SessionLease} (consistent : session.Consistent lua)
    (answer : (release lease session).1 = .ok (.released released)) :
    session.generation = some lease.generation := by
  have status : (releaseScript lease.ownerRuntimeId.toHex (Nat.repr lease.generation)
      session).1.1 = "released" := releaseReply_released answer
  exact fencedScript_done lua consistent (by decide) (by decide) status

variable {communityId : CommunityId} {fenced : FencedHeader}

theorem validateFencedHeader_ok
    (answer : validateFencedHeader communityId fenced session = .ok ()) :
    ∃ value lease, session.lease = some value ∧
      parseLease communityId fenced.sessionId value = .ok lease ∧
      fenced.generation = lease.generation ∧ fenced.ownerRuntimeId = lease.ownerRuntimeId := by
  unfold validateFencedHeader validateScript at answer
  simp only [bind, Except.bind] at answer
  cases counted : parseOptionalGeneration communityId fenced.sessionId
      (session.knownGeneration "") with
  | error cause =>
    rw [counted] at answer
    cases answer
  | ok known =>
    rw [counted] at answer
    simp only at answer
    cases held : parseOptionalLease communityId fenced.sessionId (session.lease.getD "") with
    | error cause =>
      rw [held] at answer
      cases answer
    | ok current =>
      rw [held] at answer
      simp only at answer
      split at answer
      · cases answer
      · cases current with
        | none => cases answer
        | some lease =>
          simp only at answer
          split at answer
          · cases answer
          next sameGeneration =>
            split at answer
            · cases answer
            next sameOwner =>
              rw [not_not] at sameGeneration sameOwner
              unfold parseOptionalLease at held
              split at held
              · cases held
              · cases present : session.lease with
                | none =>
                  rw [present] at held
                  cases held
                | some value =>
                  rw [present, getD_some] at held
                  cases parsed : parseLease communityId fenced.sessionId value with
                  | error cause =>
                    rw [parsed] at held
                    cases held
                  | ok found =>
                    rw [parsed] at held
                    cases held
                    exact ⟨value, _, rfl, parsed, sameGeneration, sameOwner⟩

theorem validateFencedHeader_clock (consistent : session.Consistent lua)
    (answer : validateFencedHeader communityId fenced session = .ok ()) :
    fenced.generation = session.clock := by
  obtain ⟨value, lease, present, parsed, generation, -⟩ := validateFencedHeader_ok answer
  obtain ⟨owner, counter, profile, positive, counted, written⟩ := consistent value present
  have counter_eq : lease.generation = counter := by
    rw [written, parseLease_written lua communityId fenced.sessionId owner positive] at parsed
    by_cases small : counter < 10 ^ 14
    · rw [if_pos small, Except.ok.injEq] at parsed
      rw [← parsed]
    · rw [if_neg small] at parsed
      cases parsed
  rw [generation, counter_eq, Session.clock, counted, getD_some]

variable {redis : SessionKeys → Session}

theorem recvValidated_ok {stream : ReliableMeshStream}
    {decoded : Option ReliableWireFrame} {frame : ReliableWireFrame}
    (answer : (recvValidated stream redis (.data fenced decoded)).1 = .ok frame) :
    validateFencedHeader frame.communityId fenced (redis ⟨frame.communityId, fenced.sessionId⟩) =
      .ok () := by
  unfold recvValidated at answer
  cases decoded with
  | none => cases answer
  | some decoded =>
    simp only at answer
    cases checked : validateFrameFence stream decoded.communityId fenced redis with
    | error cause =>
      rw [checked] at answer
      cases answer
    | ok next =>
      rw [checked] at answer
      cases answer
      unfold validateFrameFence at checked
      split at checked
      · cases checked
      · repeat' split at checked
        all_goals first
          | assumption
          | cases checked

def World.Consistent (world : World) : Prop := ∀ keys, (world.redis keys).Consistent lua

def World.clock (keys : SessionKeys) (world : World) : ℕ := (world.redis keys).clock

/-- An acquisition raises the counter. -/
structure Fact (keys : SessionKeys) (before after : ℕ) (event : Event) : Prop where
  acquired : ∀ lease, event.acquired = some lease → lease.keys = keys →
    before < lease.generation ∧ lease.generation = after
  renewed : ∀ lease, event.renewed = some lease → lease.keys = keys → lease.generation = after
  released : ∀ lease, event.released = some lease → lease.keys = keys → lease.generation = after
  accepted : ∀ communityId fenced, event.accepted = some (communityId, fenced) →
    SessionKeys.mk communityId fenced.sessionId = keys → fenced.generation = after

theorem Fact.of_silent (keys : SessionKeys) (before after : ℕ) : Fact keys before after .silent :=
  ⟨nofun, nofun, nofun, nofun⟩

theorem update_advances {next : Session}
    (advances : (redis keys).Advances lua next) (other : SessionKeys) :
    (redis other).Advances lua (Function.update redis keys next other) := by
  by_cases same : other = keys
  · subst same
    rw [Function.update_self]
    exact advances
  · rw [Function.update_of_ne same]
    exact Session.Advances.refl lua _

theorem serve_advances (leaseTtl : ℕ) (redis : SessionKeys → Session) (request : Request)
    (keys : SessionKeys) :
    (redis keys).Advances lua ((serve lua leaseTtl redis request).2 keys) := by
  cases request with
  | acquire target owner profile =>
    exact update_advances lua (acquire_advances lua leaseTtl target owner profile _) keys
  | renew lease =>
    have unchanged : (redis lease.keys).Advances lua
        (renew leaseTtl lease (redis lease.keys)).2 := by
      rw [renew_session]
      exact Session.Advances.refl lua _
    exact update_advances lua unchanged keys
  | release lease => exact update_advances lua (release_advances lua lease _).1 keys
  | validate communityId fenced => exact Session.Advances.refl lua _

variable {request : Request}

theorem serve_acquired
    (success : (Event.answered request (serve lua leaseTtl redis request).1).acquired =
      some lease) :
    (redis lease.keys).clock < lease.generation ∧
      lease.generation = ((serve lua leaseTtl redis request).2 lease.keys).clock := by
  cases request with
  | acquire target owner profile =>
    have answer : (acquire lua leaseTtl target owner profile (redis target)).1 =
        .ok (.acquired lease) := by
      change (Event.answered _ (.acquire (acquire lua leaseTtl target owner profile
        (redis target)).1)).acquired = some lease at success
      cases shape : (acquire lua leaseTtl target owner profile (redis target)).1 with
      | error cause =>
        rw [shape] at success
        cases success
      | ok result =>
        rw [shape] at success
        cases result with
        | acquired found =>
          cases success
          rfl
        | «exists» found => cases success
    obtain ⟨session, raised, value⟩ := acquire_acquired lua answer
    subst session
    refine ⟨raised, ?_⟩
    change lease.generation = (Function.update redis lease.keys _ lease.keys).clock
    rw [Function.update_self]
    exact value
  | renew lease | release lease | validate communityId fenced => cases success

section

variable (consistent : ∀ keys, (redis keys).Consistent lua)

include consistent

theorem serve_renewed
    (success : (Event.answered request (serve lua leaseTtl redis request).1).renewed =
      some lease) :
    lease.generation = ((serve lua leaseTtl redis request).2 lease.keys).clock := by
  cases request with
  | renew target =>
    change (Event.answered (.renew target) (.renew (renew leaseTtl target
      (redis target.keys)).1)).renewed = some lease at success
    cases shape : (renew leaseTtl target (redis target.keys)).1 with
    | error cause =>
      rw [shape] at success
      cases success
    | ok result =>
      rw [shape] at success
      cases result with
      | renewed found =>
        cases success
        have counted := renew_renewed lua (consistent lease.keys) shape
        change lease.generation = (Function.update redis lease.keys
          (renew leaseTtl lease (redis lease.keys)).2 lease.keys).clock
        rw [Function.update_self, renew_session, Session.clock, counted, getD_some]
      | lost current known => cases success
  | acquire target owner profile | release target | validate communityId fenced => cases success

theorem serve_released
    (success : (Event.answered request (serve lua leaseTtl redis request).1).released =
      some lease) :
    lease.generation = ((serve lua leaseTtl redis request).2 lease.keys).clock := by
  cases request with
  | release target =>
    change (Event.answered (.release target) (.release (release target
      (redis target.keys)).1)).released = some lease at success
    cases shape : (release target (redis target.keys)).1 with
    | error cause =>
      rw [shape] at success
      cases success
    | ok result =>
      rw [shape] at success
      cases result with
      | released found =>
        cases success
        have counted := release_released lua (consistent lease.keys) shape
        change lease.generation = (Function.update redis lease.keys
          (release lease (redis lease.keys)).2 lease.keys).clock
        rw [Function.update_self, (release_advances lua lease _).2, Session.clock, counted,
          getD_some]
      | notOwner current known => cases success
  | acquire target owner profile | renew target | validate communityId fenced => cases success

theorem serve_accepted
    (success : (Event.answered request (serve lua leaseTtl redis request).1).accepted =
      some (communityId, fenced)) :
    fenced.generation =
      ((serve lua leaseTtl redis request).2 ⟨communityId, fenced.sessionId⟩).clock := by
  cases request with
  | validate community header =>
    change (Event.answered (.validate community header) (.validate (validateFencedHeader community
      header (redis ⟨community, header.sessionId⟩)))).accepted = _ at success
    cases shape : validateFencedHeader community header (redis ⟨community, header.sessionId⟩) with
    | error cause =>
      rw [shape] at success
      cases success
    | ok result =>
      rw [shape] at success
      cases success
      exact validateFencedHeader_clock lua (consistent _) shape
  | acquire target owner profile | renew target | release target => cases success

end

theorem serve_fact (leaseTtl : ℕ)
    (consistent : ∀ keys, (redis keys).Consistent lua) (request : Request) (keys : SessionKeys) :
    Fact keys (redis keys).clock ((serve lua leaseTtl redis request).2 keys).clock
      (.answered request (serve lua leaseTtl redis request).1) where
  acquired := by
    intro lease success session
    subst session
    exact serve_acquired lua success
  renewed := by
    intro lease success session
    subst session
    exact serve_renewed lua consistent success
  released := by
    intro lease success session
    subst session
    exact serve_released lua consistent success
  accepted := by
    intro communityId fenced success session
    subst session
    exact serve_accepted lua consistent success

theorem recvValidated_fact
    (consistent : ∀ keys, (redis keys).Consistent lua) (stream : ReliableMeshStream)
    (incoming : MeshStreamFrame) (keys : SessionKeys) (before : ℕ) :
    Fact keys before (redis keys).clock
      (.received incoming (recvValidated stream redis incoming).1) where
  acquired := nofun
  renewed := nofun
  released := nofun
  accepted := by
    intro communityId fenced success session
    cases incoming with
    | data header decoded =>
      cases answer : (recvValidated stream redis (.data header decoded)).1 with
      | error cause =>
        rw [answer] at success
        cases success
      | ok frame =>
        rw [answer] at success
        cases success
        subst session
        exact validateFencedHeader_clock lua (consistent _) (recvValidated_ok answer)
    | goodbye | hello | gossip => cases success

theorem step_advances (world : World) (op : Op) (keys : SessionKeys) :
    (world.redis keys).Advances lua ((step lua world op).1.redis keys) := by
  cases op with
  | request leaseTtl request | lostReply leaseTtl request =>
    exact serve_advances lua leaseTtl world.redis request keys
  | expire target => exact update_advances lua (Session.Advances.expire lua _) keys
  | openStream stream pinned => exact Session.Advances.refl lua _
  | receive stream incoming =>
    have unchanged : (world.receive stream incoming).1.redis = world.redis := by
      unfold World.receive
      split <;> rfl
    change (world.redis keys).Advances lua ((world.receive stream incoming).1.redis keys)
    rw [unchanged]
    exact Session.Advances.refl lua _

theorem step_fact {world : World} (consistent : world.Consistent lua) (op : Op)
    (keys : SessionKeys) :
    Fact keys (World.clock keys world) (World.clock keys (step lua world op).1) (step lua world op).2 := by
  cases op with
  | request leaseTtl request => exact serve_fact lua leaseTtl consistent request keys
  | lostReply leaseTtl request | expire target | openStream stream pinned =>
    exact Fact.of_silent keys _ _
  | receive stream incoming =>
    change Fact keys (World.clock keys world)
      (World.clock keys (world.receive stream incoming).1) (world.receive stream incoming).2
    unfold World.receive
    split
    · exact Fact.of_silent keys _ _
    · exact recvValidated_fact lua consistent _ incoming keys _

theorem step_clocked (keys : SessionKeys) :
    Clocked (step lua) (World.Consistent lua) (World.clock keys) (Fact keys) where
  preserved := by
    intro world op consistent other
    exact (step_advances lua world op other).consistent (consistent other)
  raised := by
    intro world op _
    exact (step_advances lua world op keys).raised
  stamped := by
    intro world op consistent
    exact step_fact lua consistent op keys

theorem initial_consistent : World.initial.Consistent lua := nofun

theorem trace_facts (ops : List Op) (keys : SessionKeys) {i j : ℕ} {earlier later : Event}
    (before : i < j) (first : (trace (step lua) World.initial ops)[i]? = some earlier)
    (second : (trace (step lua) World.initial ops)[j]? = some later) :
    ∃ a b c d, Fact keys a b earlier ∧ Fact keys c d later ∧ a ≤ b ∧ b ≤ c ∧ c ≤ d := by
  obtain ⟨firstBound, rfl⟩ := List.getElem?_eq_some_iff.mp first
  obtain ⟨secondBound, rfl⟩ := List.getElem?_eq_some_iff.mp second
  have pairwise := (step_clocked lua keys).trace_pairwise (initial_consistent lua) ops
  exact List.pairwise_iff_getElem.mp pairwise i j firstBound secondBound before

/-- Generations rise, and after a takeover what succeeds is newer. -/
theorem tunnel_fencing (ops : List Op) :
    let events := trace (step lua) World.initial ops
    (∀ (communityId : CommunityId) (first second : FencedHeader),
      first.sessionId = second.sessionId →
      (let session := (final (step lua) World.initial ops).redis ⟨communityId, first.sessionId⟩
       validateFencedHeader communityId first session = .ok () →
       validateFencedHeader communityId second session = .ok () →
       first.ownerRuntimeId = second.ownerRuntimeId ∧ first.generation = second.generation)) ∧
    (∀ (i j : ℕ) (earlier later : Event) (old new : SessionLease), i < j →
      events[i]? = some earlier → events[j]? = some later →
      earlier.acquired = some old → later.acquired = some new → old.keys = new.keys →
      old.generation < new.generation) ∧
    (∀ (i j k : ℕ) (taken retaken after : Event) (old new : SessionLease), i < j → j < k →
      events[i]? = some taken → events[j]? = some retaken → events[k]? = some after →
      taken.acquired = some old → retaken.acquired = some new → old.keys = new.keys →
      (∀ lease, after.renewed = some lease → lease.keys = old.keys →
        old.generation < lease.generation) ∧
      (∀ lease, after.released = some lease → lease.keys = old.keys →
        old.generation < lease.generation) ∧
      ∀ communityId fenced, after.accepted = some (communityId, fenced) →
        SessionKeys.mk communityId fenced.sessionId = old.keys →
        old.generation < fenced.generation) ∧
    ∀ (i j : ℕ) (earlier later : Event) (communityId : CommunityId) (old new : FencedHeader),
      i < j → events[i]? = some earlier → events[j]? = some later →
      earlier.accepted = some (communityId, old) → later.accepted = some (communityId, new) →
      old.sessionId = new.sessionId → old.generation ≤ new.generation := by
  intro events
  have acquisitions : ∀ (i j : ℕ) (earlier later : Event) (old new : SessionLease), i < j →
      events[i]? = some earlier → events[j]? = some later →
      earlier.acquired = some old → later.acquired = some new → old.keys = new.keys →
      old.generation < new.generation := by
    intro i j earlier later old new before first second left right same
    obtain ⟨a, b, c, d, one, two, -, ordered, -⟩ :=
      trace_facts lua ops new.keys before first second
    have low := (one.acquired old left same).2
    have high := (two.acquired new right rfl).1
    omega
  refine ⟨?_, acquisitions, ?_, ?_⟩
  · intro communityId first second same session left right
    obtain ⟨value, lease, present, parsed, generation, owner⟩ := validateFencedHeader_ok left
    obtain ⟨other, held, presentToo, parsedToo, generationToo, ownerToo⟩ :=
      validateFencedHeader_ok right
    rw [present, Option.some.injEq] at presentToo
    subst presentToo
    rw [same, parsedToo, Except.ok.injEq] at parsed
    subst parsed
    exact ⟨by rw [owner, ownerToo], by rw [generation, generationToo]⟩
  · intro i j k taken retaken after old new before later first second third left right same
    have newer := acquisitions i j taken retaken old new before first second left right same
    obtain ⟨a, b, c, d, one, two, -, ordered, rest⟩ :=
      trace_facts lua ops old.keys later second third
    have value := (one.acquired new right same.symm).2
    refine ⟨?_, ?_, ?_⟩
    · intro lease success session
      have generation := two.renewed lease success session
      omega
    · intro lease success session
      have generation := two.released lease success session
      omega
    · intro communityId fenced success session
      have generation := two.accepted communityId fenced success session
      omega
  · intro i j earlier later communityId old new before first second left right same
    obtain ⟨a, b, c, d, one, two, -, ordered, rest⟩ :=
      trace_facts lua ops ⟨communityId, new.sessionId⟩ before first second
    have low := one.accepted communityId old left (by rw [same])
    have high := two.accepted communityId new right rfl
    omega

end Buzz.Tunnel
