import Buzz.Json
import Buzz.Library.Results
import Buzz.Push.Enqueue
import Buzz.Req.Gates

/-! The matching of one accepted event against the leases of its community. -/

namespace Buzz.Push.Matching

open Nostr Buzz.Req Library.Results List

def eventUsefulSecs : ℤ := 3600

abbrev JsonObject := List (String × Json Number)

structure Suppress where
  pTagsMax : ℕ

structure Subscription where
  filter : JsonObject
  wakeClass : String
  ignore : List JsonObject
  suppress : Option Suppress

/-- `serde_json::from_value` at the two types that the matcher reads. -/
structure Serde where
  subscriptions : Json Number → Except String (List Subscription)
  filter : JsonObject → Except String Filter

structure MatchLease where
  author : Bytes
  installationId : String
  generation : ℤ
  subscriptions : Json Number
  expiresAt : ℤ

structure BatchedMatch where
  event : StoredEvent

structure MatchContext where
  leases : List MatchLease
  memberships : List (Uuid × Bytes)

def MatchLease.authorHex (self : MatchLease) : String := String.ofList (hexEncode self.author)

/-- `load_match_context`, from the leases of the community and the rows of its channel members. -/
def MatchContext.load (rows : List (Uuid × Bytes)) (jobs : List BatchedMatch)
    (leases : List MatchLease) : MatchContext where
  leases
  memberships :=
    let channels := jobs.filterMap (·.event.channelId)
    let authors := leases.map MatchLease.author
    rows.filter fun row => channels.contains row.1 && authors.contains row.2

def classRank : String → ℕ
  | "silent" => 0
  | "default" => 1
  | "time_sensitive" => 2
  | "urgent" => 3
  | _ => 0

def pushFilterAuthorizedForEvent (filter : Filter) (event : Event) (leaseAuthorHex : String) :
    Bool :=
  if eventKindU32 event ≠ kindGiftWrap then true
  else (filter.genericTags.lookup ⟨'p', rfl⟩).any fun values =>
    !values.isEmpty && values.all (· == leaseAuthorHex) &&
      (tagContents "p" event.tags).any (· == leaseAuthorHex)

section evaluate

variable (serde : Serde) (job : BatchedMatch)

def selected (authorHex : String) (filter : Filter) : Bool :=
  pushFilterAuthorizedForEvent filter job.event.event authorHex && filtersMatch [filter] job.event

/-- An ignore filter that cannot be read ignores nothing. -/
def ignored (sub : Subscription) : Bool :=
  sub.ignore.any fun raw =>
    match serde.filter raw with
    | .ok filter => filtersMatch [filter] job.event
    | .error _ => false

def pCount : ℕ := (job.event.event.tags.filter (·.kind == "p")).length

def suppressed (sub : Subscription) : Bool :=
  sub.suppress.any fun suppress => pCount job > suppress.pTagsMax

def raiseClass (wakeClass : Option String) (next : String) : Option String :=
  match wakeClass with
  | none => some next
  | some old => if classRank next > classRank old then some next else some old

def highestClass (authorHex : String) : Option String → List Subscription →
    Except String (Option String)
  | wakeClass, [] => .ok wakeClass
  | wakeClass, sub :: subs => do
    let filter ← serde.filter sub.filter
    if !selected job authorHex filter then highestClass authorHex wakeClass subs
    else if ignored serde job sub || suppressed job sub then highestClass authorHex wakeClass subs
    else highestClass authorHex (raiseClass wakeClass sub.wakeClass) subs

def visible (memberships : List (Uuid × Bytes)) (lease : MatchLease) : Bool :=
  readerAuthorizedForEvent job.event.event lease.authorHex &&
    job.event.channelId.all fun channel => memberships.contains (channel, lease.author)

def deadline (lease : MatchLease) : ℤ :=
  min lease.expiresAt ((job.event.event.createdAt + eventUsefulSecs).bmod (2 ^ 64))

def wakeRequest (lease : MatchLease) (wakeClass : String) : Enqueue.WakeRequest where
  author := lease.author
  installationId := lease.installationId
  leaseGeneration := lease.generation
  eventId := job.event.event.id.val
  wakeClass
  expiresAt := deadline job lease

/-- The loop body of `match_job`; `now` is read when the lease is reached. -/
def matchLease (memberships : List (Uuid × Bytes)) (now : ℤ) (lease : MatchLease) :
    Except String (Option Enqueue.WakeRequest) :=
  if !visible job memberships lease then .ok none
  else do
    let subscriptions ← serde.subscriptions lease.subscriptions
    match ← highestClass serde job lease.authorHex none subscriptions with
    | none => return none
    | some wakeClass =>
      if deadline job lease ≤ now then return none
      else return some (wakeRequest job lease wakeClass)

/-- `clock` is the time at which each lease is reached. -/
def matchJob (clock : ℕ → ℤ) (context : MatchContext) : Except String (List Enqueue.WakeRequest) :=
  collect (fun entry => matchLease serde job context.memberships (clock entry.2) entry.1) []
    context.leases.zipIdx

def Wanted (authorHex : String) (sub : Subscription) : Prop :=
  ∃ filter, serde.filter sub.filter = .ok filter ∧ selected job authorHex filter ∧
    ignored serde job sub = false ∧ suppressed job sub = false

def Evaluable (lease : MatchLease) : Prop :=
  ∃ subscriptions, serde.subscriptions lease.subscriptions = .ok subscriptions ∧
    ∀ sub ∈ subscriptions, ∃ filter, serde.filter sub.filter = .ok filter

/-- The author of the lease may see the event: `members` are the rows of the channel members. -/
def MaySee (members : List (Uuid × Bytes)) (lease : MatchLease) : Prop :=
  readerAuthorizedForEvent job.event.event lease.authorHex ∧
    ∀ channel ∈ job.event.channelId, (channel, lease.author) ∈ members

/-- The wake is owed to the lease, with the highest class among its matching subscriptions. -/
structure Owed (members : List (Uuid × Bytes)) (now : ℤ) (lease : MatchLease)
    (wake : Enqueue.WakeRequest) : Prop where
  maySee : MaySee job members lease
  highest : ∃ subscriptions, serde.subscriptions lease.subscriptions = .ok subscriptions ∧
    ∃ sub ∈ subscriptions, Wanted serde job lease.authorHex sub ∧
      wake = wakeRequest job lease sub.wakeClass ∧
      ∀ other ∈ subscriptions, Wanted serde job lease.authorHex other →
        classRank other.wakeClass ≤ classRank sub.wakeClass
  useful : now < deadline job lease

end evaluate

variable {serde : Serde} {job : BatchedMatch}

section classes

def wanted (serde : Serde) (job : BatchedMatch) (authorHex : String) (sub : Subscription) : Bool :=
  match serde.filter sub.filter with
  | .ok filter =>
    selected job authorHex filter && !(ignored serde job sub || suppressed job sub)
  | .error _ => false

variable {authorHex : String}

theorem wanted_iff {sub : Subscription} :
    wanted serde job authorHex sub ↔ Wanted serde job authorHex sub := by
  unfold wanted Wanted
  cases serde.filter sub.filter with
  | ok filter | error reason => simp

def wantedClasses (serde : Serde) (job : BatchedMatch) (authorHex : String)
    (subscriptions : List Subscription) : List String :=
  (subscriptions.filter (wanted serde job authorHex)).map Subscription.wakeClass

theorem raiseClass_eq_argAux : raiseClass =
    List.argAux fun next old => classRank old < classRank next := by
  funext wakeClass next
  cases wakeClass with
  | none | some old => rfl

variable {subscriptions : List Subscription}

theorem highestClass_ok {wakeClass result : Option String}
    (ok : highestClass serde job authorHex wakeClass subscriptions = .ok result) :
    result = (wantedClasses serde job authorHex subscriptions).foldl raiseClass wakeClass := by
  induction subscriptions generalizing wakeClass with
  | nil => exact (Except.ok.inj ok).symm
  | cons sub subscriptions ih =>
    rcases bind_ok ok with ⟨filter, read, rest⟩
    unfold wantedClasses at ih ⊢
    have shape : wanted serde job authorHex sub = (selected job authorHex filter &&
        !(ignored serde job sub || suppressed job sub)) := by simp [wanted, read]
    cases chosen : selected job authorHex filter with
    | false =>
      simp only [chosen, Bool.not_false, if_true] at rest
      simpa [shape, chosen] using ih rest
    | true =>
      simp only [chosen, Bool.not_true, Bool.false_eq_true, if_false] at rest
      cases dropped : ignored serde job sub || suppressed job sub with
      | true =>
        simp only [dropped, if_true] at rest
        simpa [shape, chosen, dropped] using ih rest
      | false =>
        simp only [dropped, Bool.false_eq_true, if_false] at rest
        simpa [shape, chosen, dropped] using ih rest

theorem highestClass_total
    (read : ∀ sub ∈ subscriptions, ∃ filter, serde.filter sub.filter = .ok filter)
    (job : BatchedMatch) (authorHex : String) (wakeClass : Option String) :
    ∃ result, highestClass serde job authorHex wakeClass subscriptions = .ok result := by
  induction subscriptions generalizing wakeClass with
  | nil => exact ⟨wakeClass, rfl⟩
  | cons sub subscriptions ih =>
    rw [forall_mem_cons] at read
    rcases read.1 with ⟨filter, first⟩
    rw [highestClass, first, ok_bind]
    split_ifs with other dropped
    · exact ih read.2 wakeClass
    · exact ih read.2 wakeClass
    · exact ih read.2 (raiseClass wakeClass sub.wakeClass)

end classes

section owed

variable {members : List (Uuid × Bytes)} {lease : MatchLease}

theorem visible_iff :
    visible job members lease ↔ MaySee job members lease := by
  cases channel : job.event.channelId with
  | none | some channel' => simp [visible, MaySee, channel]

/-- What a lease is owed: a function of the lease, of its author's own memberships and the job. -/
def owedWake (serde : Serde) (job : BatchedMatch) (members : List (Uuid × Bytes)) (now : ℤ)
    (lease : MatchLease) : Option Enqueue.WakeRequest :=
  if visible job members lease then
    match serde.subscriptions lease.subscriptions with
    | .error _ => none
    | .ok subscriptions =>
      if deadline job lease ≤ now then none
      else ((wantedClasses serde job lease.authorHex subscriptions).argmax classRank).map
        (wakeRequest job lease)
  else none

variable {now : ℤ}

theorem matchLease_ok {value : Option Enqueue.WakeRequest}
    (ok : matchLease serde job members now lease = .ok value) :
    value = owedWake serde job members now lease := by
  unfold matchLease at ok
  unfold owedWake
  cases seen : visible job members lease with
  | false =>
    rw [seen] at ok
    exact (Except.ok.inj ok).symm
  | true =>
    simp only [seen, Bool.not_true, Bool.false_eq_true, if_false] at ok
    rcases bind_ok ok with ⟨subscriptions, read, rest⟩
    rcases bind_ok rest with ⟨best, highest, final⟩
    have classes := highestClass_ok highest
    rw [raiseClass_eq_argAux] at classes
    simp only [if_true, read, List.argmax]
    rw [← classes]
    cases best with
    | none =>
      rw [← Except.ok.inj final]
      simp
    | some wakeClass =>
      simp only at final
      split_ifs at final with stale
      · rw [← Except.ok.inj final]
        simp [stale]
      · rw [← Except.ok.inj final]
        simp [stale]

theorem matchLease_total (evaluable : visible job members lease → Evaluable serde lease) :
    ∃ value, matchLease serde job members now lease = .ok value := by
  unfold matchLease
  cases seen : visible job members lease with
  | false => exact ⟨none, rfl⟩
  | true =>
    rcases evaluable seen with ⟨subscriptions, read, filters⟩
    rcases highestClass_total filters job lease.authorHex none with
      ⟨best, highest⟩
    simp only [Bool.not_true, Bool.false_eq_true, if_false, read, ok_bind, highest]
    cases best with
    | none => exact ⟨none, rfl⟩
    | some wakeClass =>
      simp only
      split_ifs with stale
      · exact ⟨none, rfl⟩
      · exact ⟨some (wakeRequest job lease wakeClass), rfl⟩

theorem mem_wantedClasses {authorHex wakeClass : String} {subscriptions : List Subscription} :
    wakeClass ∈ wantedClasses serde job authorHex subscriptions ↔
      ∃ sub ∈ subscriptions, Wanted serde job authorHex sub ∧ sub.wakeClass = wakeClass := by
  simp [wantedClasses, wanted_iff, and_assoc]

variable {wake : Enqueue.WakeRequest}

theorem owedWake_eq_some : owedWake serde job members now lease = some wake ↔
      MaySee job members lease ∧ now < deadline job lease ∧
        ∃ subscriptions, serde.subscriptions lease.subscriptions = .ok subscriptions ∧
          ∃ wakeClass ∈ (wantedClasses serde job lease.authorHex subscriptions).argmax classRank,
            wake = wakeRequest job lease wakeClass := by
  rw [← visible_iff]
  unfold owedWake
  cases seen : visible job members lease with
  | false => simp
  | true =>
    cases read : serde.subscriptions lease.subscriptions with
    | error reason => simp
    | ok subscriptions =>
      by_cases stale : deadline job lease ≤ now
      · simp [stale]
      · have useful : now < deadline job lease := lt_of_not_ge stale
        simp [stale, useful, eq_comm]

theorem owed_of_owedWake (given : owedWake serde job members now lease = some wake) :
    Owed serde job members now lease wake := by
  rcases owedWake_eq_some.mp given with ⟨maySee, useful, subscriptions, read, best, highest, rfl⟩
  rcases mem_wantedClasses.mp (argmax_mem highest) with ⟨sub, member, wants, rfl⟩
  refine ⟨maySee, ⟨subscriptions, read, sub, member, wants, rfl, ?_⟩, useful⟩
  intro other among also
  exact le_of_mem_argmax (mem_wantedClasses.mpr ⟨other, among, also, rfl⟩) highest

theorem owedWake_of_owed (owed : Owed serde job members now lease wake) :
    owedWake serde job members now lease ≠ none := by
  rcases owed.highest with ⟨subscriptions, read, sub, member, wants, -, -⟩
  have present := mem_wantedClasses.mpr ⟨sub, member, wants, rfl⟩
  cases best : (wantedClasses serde job lease.authorHex subscriptions).argmax classRank with
  | none =>
    rw [argmax_eq_none.mp best] at present
    cases present
  | some wakeClass =>
    have given := owedWake_eq_some.mpr
      ⟨owed.maySee, owed.useful, subscriptions, read, wakeClass, best, rfl⟩
    rw [given]
    exact Option.some_ne_none _

variable {leases : List MatchLease}

theorem visible_load {rows : List (Uuid × Bytes)} {jobs : List BatchedMatch}
    (listed : job ∈ jobs) (loaded : lease ∈ leases) :
    visible job (MatchContext.load rows jobs leases).memberships lease = visible job rows lease := by
  unfold visible MatchContext.load
  cases channel : job.event.channelId with
  | none => rfl
  | some channel' =>
    have asked : ∃ other ∈ jobs, other.event.channelId = some channel' := ⟨job, listed, channel⟩
    have known : ∃ other ∈ leases, other.author = lease.author := ⟨lease, loaded, rfl⟩
    simp [asked, known]

theorem mem_of_zipIdx {entry : MatchLease × ℕ} (member : entry ∈ leases.zipIdx) : entry.1 ∈ leases := by
  rw [← zipIdx_map_fst 0 leases]
  exact mem_map_of_mem member

/-- A job that gives wakes at all gives each lease what it is owed and nothing else. -/
theorem matchJob_wakes (serde : Serde) (rows : List (Uuid × Bytes)) (jobs : List BatchedMatch)
    (leases : List MatchLease) (clock : ℕ → ℤ) (job : BatchedMatch) (listed : job ∈ jobs) :
    (∀ wakes, matchJob serde job clock (MatchContext.load rows jobs leases) = .ok wakes →
      wakes = leases.zipIdx.filterMap fun entry =>
        owedWake serde job rows (clock entry.2) entry.1) ∧
    ((∀ lease ∈ leases, MaySee job rows lease → Evaluable serde lease) →
      ∃ wakes, matchJob serde job clock (MatchContext.load rows jobs leases) = .ok wakes) ∧
    (∀ lease now wake, owedWake serde job rows now lease = some wake →
      Owed serde job rows now lease wake) ∧
    ∀ lease now, owedWake serde job rows now lease = none →
      ∀ wake, ¬Owed serde job rows now lease wake := by
  refine ⟨?_, ?_, fun lease now wake => owed_of_owedWake, ?_⟩
  · intro wakes ok
    apply collect_ok _ ok
    intro entry member value given
    have loaded : entry.1 ∈ leases := mem_of_zipIdx member
    rw [matchLease_ok given, owedWake, visible_load listed loaded, ← owedWake]
  · intro evaluable
    apply collect_total
    intro entry member
    have loaded : entry.1 ∈ leases := mem_of_zipIdx member
    apply matchLease_total
    rw [visible_load listed loaded, visible_iff]
    exact evaluable entry.1 loaded
  · intro lease now nothing wake owed
    exact owedWake_of_owed owed nothing

end owed

def readSubscription (json : Json Number) : Except String Subscription :=
  let object := json.asObject.getD []
  match (Json.field object "filter").bind Json.asObject,
      (Json.field object "class").bind Json.asStr with
  | some filter, some wakeClass => .ok ⟨filter, wakeClass, [], none⟩
  | _, _ => .error "missing field"

def readFilter (object : JsonObject) : Except String Filter :=
  match (Json.field object "kinds").bind Json.asArray with
  | some kinds =>
    .ok ⟨none, none, some (kinds.filterMap Json.asU64 |>.map UInt16.ofNat), none, none, none, none, ∅⟩
  | none => .error "missing field"

/-- Subscriptions without `ignore` and `suppress`, and filters by kind only. -/
def kindSerde : Serde where
  subscriptions json :=
    match json.asArray with
    | some items => items.mapM readSubscription
    | none => .error "expected a sequence"
  filter := readFilter

def phoneJob : BatchedMatch where
  event := ⟨⟨.fill 1, .fill 2, 1700000000, 9, [], "hello",
    replicate 64 3⟩, none⟩

def phoneLease (owner : UInt8) (subscriptions : Json Number) : MatchLease where
  author := replicate 32 owner
  installationId := "phone"
  generation := 1
  subscriptions
  expiresAt := 1800000000

def chatSubscriptions : Json Number :=
  .array [.object [("class", .string "default"),
    ("filter", .object [("kinds", .array [.number (.posInt 9 (by decide))])])]]

theorem chatSubscriptions_read : kindSerde.subscriptions chatSubscriptions =
    .ok [⟨[("kinds", .array [.number (.posInt 9 (by decide))])], "default", [], none⟩] := by
  rfl

theorem matchJob_wakes_phone :
    (∃ wakes, matchJob kindSerde phoneJob (fun _ => 1700000060)
      (MatchContext.load [] [phoneJob] [phoneLease 4 chatSubscriptions]) = .ok wakes) ∧
    matchJob kindSerde phoneJob (fun _ => 1700000060)
      (MatchContext.load [] [phoneJob] [phoneLease 4 chatSubscriptions]) =
        .ok [wakeRequest phoneJob (phoneLease 4 chatSubscriptions) "default"] := by
  constructor
  · apply (matchJob_wakes kindSerde [] [phoneJob] [phoneLease 4 chatSubscriptions]
      (fun _ => 1700000060) phoneJob mem_cons_self).2.1
    intro lease member maySee
    rw [mem_singleton.mp member]
    refine ⟨_, chatSubscriptions_read, ?_⟩
    intro sub inside
    rw [mem_singleton.mp inside]
    exact ⟨_, rfl⟩
  · rfl

/-- The claim for one job: its wakes cover every lease that may see and wants the event. -/
def CoversLeases (serde : Serde) (job : BatchedMatch) (clock : ℕ → ℤ) (leases : List MatchLease) :
    Prop :=
  ∃ wakes, matchJob serde job clock (MatchContext.load [] [job] leases) = .ok wakes ∧
    ∀ lease ∈ leases, MaySee job [] lease →
      (∃ subscriptions, serde.subscriptions lease.subscriptions = .ok subscriptions ∧
        ∃ sub ∈ subscriptions, Wanted serde job lease.authorHex sub) →
      ∃ wake ∈ wakes, wake.author = lease.author ∧ wake.installationId = lease.installationId

theorem phone_wanted : Wanted kindSerde phoneJob (phoneLease 4 chatSubscriptions).authorHex
    ⟨[("kinds", .array [.number (.posInt 9 (by decide))])], "default", [], none⟩ :=
  ⟨_, rfl, rfl, rfl, rfl⟩

/-- A stale event wakes no lease, and one unreadable lease takes the wakes of all others. -/
theorem not_coversLeases :
    ¬CoversLeases kindSerde phoneJob (fun _ => 1700010000) [phoneLease 4 chatSubscriptions] ∧
    ¬CoversLeases kindSerde phoneJob (fun _ => 1700000060)
      [phoneLease 5 .null, phoneLease 4 chatSubscriptions] := by
  constructor
  · rintro ⟨wakes, ok, covers⟩
    have nothing : matchJob kindSerde phoneJob (fun _ => 1700010000)
        (MatchContext.load [] [phoneJob] [phoneLease 4 chatSubscriptions]) = .ok [] := by rfl
    have maySee : MaySee phoneJob [] (phoneLease 4 chatSubscriptions) := visible_iff.mp rfl
    rcases covers _ mem_cons_self maySee
      ⟨_, chatSubscriptions_read, _, mem_cons_self, phone_wanted⟩ with ⟨wake, member, -⟩
    rw [nothing] at ok
    rw [← Except.ok.inj ok] at member
    cases member
  · rintro ⟨wakes, ok, -⟩
    have failed : matchJob kindSerde phoneJob (fun _ => 1700000060)
        (MatchContext.load [] [phoneJob] [phoneLease 5 .null, phoneLease 4 chatSubscriptions]) =
          .error "expected a sequence" := by rfl
    rw [failed] at ok
    cases ok

end Buzz.Push.Matching
