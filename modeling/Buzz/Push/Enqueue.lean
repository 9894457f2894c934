import Buzz.Library.Accumulate
import Buzz.Push.Outbox
import Mathlib.Data.List.Dedup

/-! The set-wise enqueue of wakes: one statement reads the leases of all requests, one inserts, one
looks up the duplicates. -/

namespace Buzz.Push.Enqueue

open Nostr Library.Accumulate List

inductive DbError
  | sqlx
  | invalidData (message : String)
  deriving DecidableEq

structure WakeRequest where
  author : Bytes
  installationId : String
  leaseGeneration : ℤ
  eventId : Bytes
  wakeClass : String
  expiresAt : ℤ
  deriving DecidableEq

def parseClass : String → Option WakeClass
  | "silent" => some .silent
  | "default" => some .default
  | "time_sensitive" => some .timeSensitive
  | "urgent" => some .urgent
  | _ => none

def WakeRequest.checked (self : WakeRequest) : Option Push.WakeRequest :=
  if author : self.author.length = 32 then
    if eventId : self.eventId.length = 32 then
      if 0 < self.leaseGeneration then
        (parseClass self.wakeClass).map fun wakeClass =>
          ⟨⟨self.author, author⟩, self.installationId, self.leaseGeneration,
            ⟨self.eventId, eventId⟩, wakeClass, self.expiresAt⟩
      else none
    else none
  else none

abbrev Key := Bytes × Bytes

def jobKey (job : WakeJob) : Key := (job.endpointHash.val, job.eventId.val)

def leaseKey (lease : LeaseRow) : Bytes × String := (lease.author.val, lease.installationId)

structure Database where
  tables : Tables
  leaseKeys : (tables.leases.map fun lease => (lease.communityId, leaseKey lease)).Nodup
  jobKeys : (tables.jobs.map fun job => (job.communityId, jobKey job)).Nodup

structure Row where
  request : WakeRequest
  id : Uuid
  endpointHash : EndpointHash

def Row.key (self : Row) : Key := (self.endpointHash.val, self.request.eventId)

def Row.job (self : Row) (community : CommunityId) (now : ℤ) (checked : Push.WakeRequest) :
    WakeJob where
  communityId := community
  id := self.id
  author := checked.author
  installationId := checked.installationId
  leaseGeneration := checked.leaseGeneration
  endpointHash := self.endpointHash
  eventId := checked.eventId
  wakeClass := checked.wakeClass
  expiresAt := checked.expiresAt
  state := .pending
  attempts := 0
  nextAttemptAt := now
  leaseUntil := none
  claimId := none
  createdAt := now

namespace Database

def held (self : Database) (community : CommunityId) (key : Key) : Option WakeJob :=
  self.tables.jobs.find? fun job => job.communityId = community && jobKey job = key

theorem held_none_iff {self : Database} {community : CommunityId} {key : Key} :
    self.held community key = none ↔
      ∀ job ∈ self.tables.jobs, job.communityId = community → jobKey job ≠ key := by
  simp [held]

def insert (self : Database) (job : WakeJob)
    (vacant : self.held job.communityId (jobKey job) = none) : Database where
  tables := { self.tables with jobs := self.tables.jobs ++ [job] }
  leaseKeys := self.leaseKeys
  jobKeys := by
    rw [map_append]
    apply List.Nodup.append self.jobKeys (nodup_singleton _)
    intro key stored added
    rcases mem_map.mp stored with ⟨other, member, rfl⟩
    have same := mem_singleton.mp added
    exact held_none_iff.mp vacant other member (Prod.ext_iff.mp same).1 (Prod.ext_iff.mp same).2

end Database

section statements

variable (community : CommunityId) (now : ℤ)

def pairLe (first second : Bytes × String) : Bool :=
  decide (first.1.map UInt8.toNat < second.1.map UInt8.toNat ∨
    first.1 = second.1 ∧ first.2 ≤ second.2)

def pairs (requests : List (WakeRequest × Uuid)) : List (Bytes × String) :=
  ((requests.map fun request => (request.1.author, request.1.installationId)).mergeSort pairLe).dedup

/-- The eligible leases among those asked for. A check constraint gives an active lease its endpoint. -/
def leaseRows (self : Database) (pairs : List (Bytes × String)) : List (LeaseRow × ActiveLease) :=
  ((self.tables.leases.filter fun lease => lease.communityId = community &&
      pairs.contains (leaseKey lease) && lease.eligible now).mergeSort fun first second =>
        pairLe (leaseKey first) (leaseKey second)).filterMap fun lease =>
    lease.active.map fun active => (lease, active)

def leaseMap (self : Database) (pairs : List (Bytes × String)) :
    Bytes × String → Option (ℤ × EndpointHash) :=
  insertAll (fun row => leaseKey row.1) (fun row => (row.1.generation, row.2.endpointHash))
    (leaseRows community now self pairs) fun _ => none

/-- The endpoint of the request's lease, if that was read and is of the request's generation. -/
def resolve (self : Database) (pairs : List (Bytes × String)) (request : WakeRequest) :
    Option EndpointHash :=
  ((leaseMap community now self pairs (request.author, request.installationId)).filter fun lease =>
    lease.1 = request.leaseGeneration).map Prod.snd

/-- A conflicting row, also of the same statement, is not inserted. -/
def insertRows (self : Database) : List Row → Except DbError (Database × List WakeJob)
  | [] => .ok (self, [])
  | row :: rows =>
    match row.request.checked with
    | none => .error .sqlx
    | some checked =>
      if vacant : self.held community (jobKey (row.job community now checked)) = none then do
        let (after, returned) ← insertRows (self.insert (row.job community now checked) vacant) rows
        .ok (after, row.job community now checked :: returned)
      else insertRows self rows

def duplicateRows (self : Database) (rows : List Row) : List WakeJob :=
  self.tables.jobs.filter fun job =>
    job.communityId = community && (rows.map Row.key).contains (jobKey job)

/-- The transaction: the tables it leaves, the id of each key and the keys that were inserted. -/
def transact (self : Database) (rows : List Row) :
    Except DbError (Database × (Key → Option Uuid) × List Key) :=
  if rows.isEmpty then .ok (self, fun _ => none, [])
  else do
    let (after, returned) ← insertRows community now self rows
    let jobIds := insertAll jobKey WakeJob.id returned fun _ => none
    let insertedKeys := (returned.map jobKey).dedup
    if insertedKeys.length < rows.length then
      .ok (after, orInsertAll jobKey WakeJob.id (duplicateRows community after rows) jobIds,
        insertedKeys)
    else .ok (after, jobIds, insertedKeys)

/-- The first request for a key that was inserted reports it, and every other one a duplicate. -/
def report (jobIds : Key → Option Uuid) (insertedKeys : List Key) :
    List Key → List (WakeRequest × Option EndpointHash) → Except DbError (List EnqueueWakeOutcome)
  | _, [] => .ok []
  | reported, (request, resolved) :: rest =>
    match resolved with
    | none => do
      let later ← report jobIds insertedKeys reported rest
      .ok (.inactiveLease :: later)
    | some endpointHash =>
      let key := (endpointHash.val, request.eventId)
      match jobIds key with
      | none => .error (.invalidData "wake enqueue resolved neither insert nor duplicate")
      | some id =>
        if insertedKeys.contains key && !reported.contains key then do
          let later ← report jobIds insertedKeys (key :: reported) rest
          .ok (.enqueued id :: later)
        else do
          let later ← report jobIds insertedKeys reported rest
          .ok (.duplicate id :: later)

/-- `enqueue_wakes`. An error of a statement rolls the transaction back. -/
def enqueueWakes (self : Database) (requests : List (WakeRequest × Uuid)) :
    Database × Except DbError (List EnqueueWakeOutcome) :=
  if requests.isEmpty then (self, .ok [])
  else
    let pairs := pairs requests
    let resolved := requests.map fun request => resolve community now self pairs request.1
    let rows := (requests.zip resolved).filterMap fun entry =>
      entry.2.map fun endpointHash => ⟨entry.1.1, entry.1.2, endpointHash⟩
    match transact community now self rows with
    | .error error => (self, .error error)
    | .ok (after, jobIds, insertedKeys) =>
      (after, report jobIds insertedKeys [] ((requests.map Prod.fst).zip resolved))

/-- `enqueue_wake`, the batch of one. -/
def enqueueWake (self : Database) (request : WakeRequest × Uuid) :
    Database × Except DbError EnqueueWakeOutcome :=
  match enqueueWakes community now self [request] with
  | (after, .ok (outcome :: _)) => (after, .ok outcome)
  | (after, .ok []) => (after, .error (.invalidData "one outcome per request"))
  | (after, .error error) => (after, .error error)

def enqueueEach (self : Database) :
    List (WakeRequest × Uuid) → Except DbError (Database × List EnqueueWakeOutcome)
  | [] => .ok (self, [])
  | request :: requests =>
    match enqueueWake community now self request with
    | (_, .error error) => .error error
    | (after, .ok outcome) => do
      let (final, outcomes) ← enqueueEach after requests
      .ok (final, outcome :: outcomes)

def oneByOne (self : Database) (requests : List (WakeRequest × Uuid)) :
    Database × Except DbError (List EnqueueWakeOutcome) :=
  match enqueueEach community now self requests with
  | .error error => (self, .error error)
  | .ok (after, outcomes) => (after, .ok outcomes)

end statements

variable {community : CommunityId} {now : ℤ} {self after : Database} {returned : List WakeJob}

section resolving

variable {asked other : List (Bytes × String)} {request : WakeRequest} {endpointHash : EndpointHash}

theorem mem_leaseRows {row : LeaseRow × ActiveLease} :
    row ∈ leaseRows community now self asked ↔ row.1 ∈ self.tables.leases ∧
      row.1.communityId = community ∧ leaseKey row.1 ∈ asked ∧ row.1.eligible now ∧
        row.1.active = some row.2 := by
  rcases row with ⟨lease, active⟩
  simp only [leaseRows, mem_filterMap, (mergeSort_perm _ _).mem_iff, mem_filter,
    Bool.and_eq_true, decide_eq_true_eq, contains_iff_mem, Option.map_eq_some_iff,
    Prod.mk.injEq]
  constructor
  · rintro ⟨read, ⟨stored, ⟨here, isAsked⟩, eligible⟩, found, isActive, rfl, rfl⟩
    exact ⟨stored, here, isAsked, eligible, isActive⟩
  · rintro ⟨stored, here, isAsked, eligible, isActive⟩
    exact ⟨lease, ⟨stored, ⟨here, isAsked⟩, eligible⟩, active, isActive, rfl, rfl⟩

theorem leaseRows_keys (community : CommunityId) (now : ℤ) (self : Database)
    (asked : List (Bytes × String)) :
    ((leaseRows community now self asked).map fun row => leaseKey row.1).Nodup := by
  have leases : (self.tables.leases).Nodup := List.Nodup.of_map _ self.leaseKeys
  have rows : (leaseRows community now self asked).Nodup := by
    apply List.Nodup.filterMap
    · intro first second row firstRow secondRow
      simp only [Option.mem_def, Option.map_eq_some_iff] at firstRow secondRow
      rcases firstRow with ⟨_, -, rfl⟩
      rcases secondRow with ⟨_, -, same⟩
      exact (Prod.ext_iff.mp same).1.symm
    · exact (mergeSort_perm _ _).nodup_iff.mpr (leases.filter _)
  apply List.Nodup.map_on _ rows
  intro first firstIn second secondIn same
  rcases mem_leaseRows.mp firstIn with ⟨stored, here, -, -, isActive⟩
  rcases mem_leaseRows.mp secondIn with ⟨otherStored, otherHere, -, -, otherActive⟩
  have lease := inj_on_of_nodup_map self.leaseKeys stored otherStored
    (Prod.ext (here.trans otherHere.symm) same)
  rw [lease, otherActive] at isActive
  exact Prod.ext lease (Option.some.inj isActive).symm

theorem resolve_iff (isAsked : (request.author, request.installationId) ∈ asked) :
    resolve community now self asked request = some endpointHash ↔
      ∃ lease ∈ self.tables.leases, lease.communityId = community ∧
        leaseKey lease = (request.author, request.installationId) ∧ lease.eligible now ∧
        lease.generation = request.leaseGeneration ∧
        lease.active.map ActiveLease.endpointHash = some endpointHash := by
  simp only [resolve, leaseMap, Option.map_eq_some_iff, Option.filter_eq_some_iff,
    decide_eq_true_eq, insertAll_eq_some (leaseRows_keys community now self asked), mem_leaseRows]
  constructor
  · rintro ⟨_, ⟨⟨row, ⟨stored, here, -, eligible, isActive⟩, isKey, rfl⟩, generation⟩, rfl⟩
    exact ⟨row.1, stored, here, isKey, eligible, generation, row.2, isActive, rfl⟩
  · rintro ⟨lease, stored, here, isKey, eligible, generation, active, isActive, rfl⟩
    exact ⟨_, ⟨⟨(lease, active), ⟨stored, here, isKey ▸ isAsked, eligible, isActive⟩, isKey, rfl⟩,
      generation⟩, rfl⟩

theorem resolve_asked (first : (request.author, request.installationId) ∈ asked)
    (second : (request.author, request.installationId) ∈ other) :
    resolve community now self asked request = resolve community now self other request := by
  apply Option.ext
  intro endpointHash
  exact (resolve_iff first).trans (resolve_iff second).symm

theorem mem_pairs {requests : List (WakeRequest × Uuid)} {entry : WakeRequest × Uuid}
    (member : entry ∈ requests) : (entry.1.author, entry.1.installationId) ∈ pairs requests := by
  simp only [pairs, mem_dedup, (mergeSort_perm _ _).mem_iff, mem_map]
  exact ⟨entry, member, rfl⟩

end resolving

section inserting

variable {row : Row} {rows : List Row} {key : Key} {job other : WakeJob}
  {checked : Push.WakeRequest}

theorem held_some (found : self.held community key = some job) :
    job ∈ self.tables.jobs ∧ job.communityId = community ∧ jobKey job = key := by
  have kept := find?_some found
  simp only [Bool.and_eq_true, decide_eq_true_eq] at kept
  exact ⟨mem_of_find?_eq_some found, kept⟩

theorem held_of_mem (stored : job ∈ self.tables.jobs) (here : job.communityId = community) :
    self.held community (jobKey job) = some job := by
  cases found : self.held community (jobKey job) with
  | none => exact absurd rfl (Database.held_none_iff.mp found job stored here)
  | some other =>
    rcases held_some found with ⟨otherStored, otherHere, same⟩
    rw [inj_on_of_nodup_map self.jobKeys otherStored stored
      (Prod.ext (otherHere.trans here.symm) same)]

theorem held_insert_self (vacant : self.held job.communityId (jobKey job) = none) :
    (self.insert job vacant).held job.communityId (jobKey job) = some job :=
  held_of_mem (mem_append_right _ (mem_singleton_self job)) rfl

theorem held_insert (vacant : self.held job.communityId (jobKey job) = none)
    (found : self.held community key = some other) :
    (self.insert job vacant).held community key = some other := by
  rw [Database.held, Database.insert, find?_append]
  rw [Database.held] at found
  rw [found]
  rfl

theorem checked_key (found : row.request.checked = some checked) :
    jobKey (row.job community now checked) = row.key := by
  unfold WakeRequest.checked at found
  split at found
  · split at found
    · split at found
      · rcases Option.map_eq_some_iff.mp found with ⟨_, -, rfl⟩
        rfl
      · cases found
    · cases found
  · cases found

structure Inserted (community : CommunityId) (before : Database) (rows : List Row)
    (after : Database) (returned : List WakeJob) : Prop where
  leases : after.tables.leases = before.tables.leases
  persists : ∀ key job, before.held community key = some job → after.held community key = some job
  fresh : ∀ job ∈ returned, before.held community (jobKey job) = none
  present : ∀ job ∈ returned, after.held community (jobKey job) = some job
  covered : ∀ row ∈ rows, ∃ job, after.held community row.key = some job
  distinct : (returned.map jobKey).Nodup
  length : returned.length ≤ rows.length
  full : ¬ returned.length < rows.length → ∀ row ∈ rows, row.key ∈ returned.map jobKey

theorem inserted_of_ok (ok : insertRows community now self rows = .ok (after, returned)) :
    Inserted community self rows after returned := by
  induction rows generalizing self after returned with
  | nil =>
    cases ok
    refine ⟨rfl, fun _ _ found => found, ?_, ?_, ?_, nodup_nil, Nat.le_refl _, ?_⟩
    · intro job member
      cases member
    · intro job member
      cases member
    · intro row member
      cases member
    · intro _ row member
      cases member
  | cons row rows ih =>
    unfold insertRows at ok
    cases isChecked : row.request.checked with
    | none => simp [isChecked] at ok
    | some checked =>
      have sameKey : jobKey (row.job community now checked) = row.key := checked_key isChecked
      simp only [isChecked] at ok
      split at ok
      next vacant =>
        cases later : insertRows community now
            (self.insert (row.job community now checked) vacant) rows with
        | error error => simp [later, bind, Except.bind] at ok
        | ok result =>
          have tail := ih later
          have head : (self.insert (row.job community now checked) vacant).held community
              (jobKey (row.job community now checked)) = some (row.job community now checked) :=
            held_insert_self vacant
          simp only [later, bind, Except.bind, Except.ok.injEq, Prod.mk.injEq] at ok
          rcases ok with ⟨rfl, rfl⟩
          constructor
          · exact tail.leases
          · intro key job found
            exact tail.persists key job (held_insert vacant found)
          · intro job member
            rcases mem_cons.mp member with rfl | inside
            · exact vacant
            · have absent := tail.fresh job inside
              cases found : self.held community (jobKey job) with
              | none => rfl
              | some other => cases (held_insert vacant found).symm.trans absent
          · intro job member
            rcases mem_cons.mp member with rfl | inside
            · exact tail.persists _ _ head
            · exact tail.present job inside
          · intro other member
            rcases mem_cons.mp member with rfl | inside
            · exact ⟨_, sameKey ▸ tail.persists _ _ head⟩
            · exact tail.covered other inside
          · rw [map_cons, nodup_cons]
            refine ⟨?_, tail.distinct⟩
            intro again
            rcases mem_map.mp again with ⟨job, inside, same⟩
            have absent := tail.fresh job inside
            rw [same, head] at absent
            cases absent
          · simpa using tail.length
          · intro whole other member
            simp only [length_cons, Nat.add_lt_add_iff_right] at whole
            rw [map_cons, mem_cons]
            rcases mem_cons.mp member with rfl | inside
            · exact .inl sameKey.symm
            · exact .inr (tail.full whole other inside)
      next taken =>
        have tail := ih ok
        refine ⟨tail.leases, tail.persists, tail.fresh, tail.present, ?_, tail.distinct, ?_, ?_⟩
        · intro other member
          rcases mem_cons.mp member with rfl | inside
          · rcases Option.ne_none_iff_exists'.mp taken with ⟨job, found⟩
            exact ⟨job, sameKey ▸ tail.persists _ _ found⟩
          · exact tail.covered other inside
        · exact Nat.le_succ_of_le tail.length
        · intro whole
          have short := tail.length
          rw [length_cons] at whole
          omega

structure Told (community : CommunityId) (rows : List Row) (after : Database)
    (returned : List WakeJob) (jobIds : Key → Option Uuid) (insertedKeys : List Key) : Prop where
  inserted : ∀ key, key ∈ insertedKeys ↔ key ∈ returned.map jobKey
  ids : ∀ row ∈ rows, ∀ job, after.held community row.key = some job →
    jobIds row.key = some job.id

theorem transact_error {error : DbError} (failed : insertRows community now self rows = .error error) :
    transact community now self rows = .error error := by
  unfold transact
  cases rows with
  | nil => cases failed
  | cons row rows => simp [failed, bind, Except.bind]

theorem transact_ok (ok : insertRows community now self rows = .ok (after, returned)) :
    ∃ jobIds insertedKeys, transact community now self rows = .ok (after, jobIds, insertedKeys) ∧
      Told community rows after returned jobIds insertedKeys := by
  have inserted := inserted_of_ok ok
  have keys : (returned.map jobKey).dedup = returned.map jobKey :=
    List.Nodup.dedup inserted.distinct
  have ofReturned {job : WakeJob} (member : job ∈ returned) :
      insertAll jobKey WakeJob.id returned (fun _ => none) (jobKey job) = some job.id :=
    insertAll_of_mem inserted.distinct member
  unfold transact
  cases rows with
  | nil =>
    cases ok
    exact ⟨_, _, rfl, ⟨fun key => Iff.rfl, nofun⟩⟩
  | cons first rest =>
    simp only [isEmpty_cons, Bool.false_eq_true, if_false, ok, bind, Except.bind, keys,
      length_map]
    split
    · refine ⟨_, _, rfl, ⟨fun key => Iff.rfl, ?_⟩⟩
      intro row inRows job found
      rcases held_some found with ⟨stored, here, same⟩
      by_cases member : row.key ∈ returned.map jobKey
      · rcases mem_map.mp member with ⟨other, inside, sameKey⟩
        have mine := inserted.present other inside
        rw [sameKey, found, Option.some.injEq] at mine
        rw [← sameKey, orInsertAll_of_some (ofReturned inside), mine]
      · rw [← same] at member ⊢
        apply orInsertAll_of_mem
        · exact insertAll_of_not_mem member
        · simp only [duplicateRows, mem_filter, here, decide_true, Bool.true_and,
            contains_iff_mem, mem_map]
          exact ⟨stored, row, inRows, same.symm⟩
        · intro other listed sameKey
          simp only [duplicateRows, mem_filter, Bool.and_eq_true, decide_eq_true_eq] at listed
          have only := held_of_mem listed.1 listed.2.1
          rw [sameKey, same, found, Option.some.injEq] at only
          rw [only]
    next whole =>
      refine ⟨_, _, rfl, ⟨fun key => Iff.rfl, ?_⟩⟩
      intro row inRows job found
      rcases mem_map.mp (inserted.full whole row inRows) with ⟨other, inside, sameKey⟩
      have mine := inserted.present other inside
      rw [sameKey, found, Option.some.injEq] at mine
      rw [← sameKey, ofReturned inside, mine]

end inserting

section calls

variable {resolution : WakeRequest → Option EndpointHash} {requests : List (WakeRequest × Uuid)}

def wake (community : CommunityId) (now : ℤ) (self : Database) (resolved : Option EndpointHash)
    (request : WakeRequest × Uuid) : Except DbError (Database × EnqueueWakeOutcome) :=
  match resolved with
  | none => .ok (self, .inactiveLease)
  | some endpointHash =>
    let row : Row := ⟨request.1, request.2, endpointHash⟩
    match row.request.checked with
    | none => .error .sqlx
    | some checked =>
      match found : self.held community (jobKey (row.job community now checked)) with
      | none => .ok (self.insert (row.job community now checked) found, .enqueued row.id)
      | some job => .ok (self, .duplicate job.id)

def wakes (community : CommunityId) (now : ℤ) (resolution : WakeRequest → Option EndpointHash)
    (self : Database) :
    List (WakeRequest × Uuid) → Except DbError (Database × List EnqueueWakeOutcome)
  | [] => .ok (self, [])
  | request :: requests =>
    match wake community now self (resolution request.1) request with
    | .error error => .error error
    | .ok (after, outcome) => do
      let (final, outcomes) ← wakes community now resolution after requests
      .ok (final, outcome :: outcomes)

def rowsOf (resolution : WakeRequest → Option EndpointHash) (requests : List (WakeRequest × Uuid)) :
    List Row :=
  requests.filterMap fun request =>
    (resolution request.1).map fun endpointHash => ⟨request.1, request.2, endpointHash⟩

theorem rowsOf_none {request : WakeRequest × Uuid} (resolved : resolution request.1 = none) :
    rowsOf resolution (request :: requests) = rowsOf resolution requests := by
  simp [rowsOf, resolved]

theorem rowsOf_some {request : WakeRequest × Uuid} {endpointHash : EndpointHash}
    (resolved : resolution request.1 = some endpointHash) :
    rowsOf resolution (request :: requests) =
      ⟨request.1, request.2, endpointHash⟩ :: rowsOf resolution requests := by
  simp [rowsOf, resolved]

section step

variable {request : WakeRequest × Uuid} {endpointHash : EndpointHash} {checked : Push.WakeRequest}
  {job : WakeJob}

abbrev rowOf (request : WakeRequest × Uuid) (endpointHash : EndpointHash) : Row :=
  ⟨request.1, request.2, endpointHash⟩

theorem wake_refused (isChecked : request.1.checked = none) :
    wake community now self (some endpointHash) request = .error .sqlx := by
  simp [wake, isChecked]

theorem wake_enqueued (isChecked : request.1.checked = some checked)
    (vacant : self.held community (jobKey ((rowOf request endpointHash).job community now checked)) =
      none) : wake community now self (some endpointHash) request =
    .ok (self.insert ((rowOf request endpointHash).job community now checked) vacant,
      .enqueued request.2) := by
  simp only [wake, isChecked]
  split
  · rfl
  next job found => cases found.symm.trans vacant

theorem wake_duplicate (isChecked : request.1.checked = some checked)
    (found : self.held community (jobKey ((rowOf request endpointHash).job community now checked)) =
      some job) : wake community now self (some endpointHash) request =
    .ok (self, .duplicate job.id) := by
  simp only [wake, isChecked]
  split
  next vacant => cases found.symm.trans vacant
  next other same => rw [Option.some.inj (same.symm.trans found)]

end step

theorem wakes_error {error : DbError}
    (failed : insertRows community now self (rowsOf resolution requests) = .error error) :
    wakes community now resolution self requests = .error error := by
  induction requests generalizing self with
  | nil => cases failed
  | cons request requests ih =>
    rw [wakes]
    cases resolved : resolution request.1 with
    | none =>
      rw [rowsOf_none resolved] at failed
      simp only [wake, ih failed, bind, Except.bind]
    | some endpointHash =>
      rw [rowsOf_some resolved, insertRows] at failed
      cases isChecked : request.1.checked with
      | none =>
        simp only [isChecked, Except.error.injEq] at failed
        rw [wake_refused isChecked, failed]
      | some checked =>
        simp only [isChecked] at failed
        split at failed
        next vacant =>
          rw [wake_enqueued isChecked vacant]
          cases later : insertRows community now
              (self.insert ((rowOf request endpointHash).job community now checked) vacant)
              (rowsOf resolution requests) with
          | ok result => simp [later, bind, Except.bind] at failed
          | error other =>
            simp only [later, bind, Except.bind, Except.error.injEq] at failed
            subst failed
            simp only [ih later, bind, Except.bind]
        next taken =>
          rcases Option.ne_none_iff_exists'.mp taken with ⟨job, found⟩
          rw [wake_duplicate isChecked found]
          simp only [ih failed, bind, Except.bind]

theorem wakes_ok
    (ok : insertRows community now self (rowsOf resolution requests) = .ok (after, returned)) :
    ∃ outcomes, wakes community now resolution self requests = .ok (after, outcomes) ∧
      ∀ jobIds insertedKeys reported,
        (∀ row ∈ rowsOf resolution requests, ∀ job, after.held community row.key = some job →
          jobIds row.key = some job.id) →
        (∀ key, key ∈ insertedKeys ↔ key ∈ reported ∨ key ∈ returned.map jobKey) →
        (∀ key ∈ reported, (self.held community key).isSome) →
        report jobIds insertedKeys reported
          (requests.map fun request => (request.1, resolution request.1)) = .ok outcomes := by
  induction requests generalizing self returned with
  | nil =>
    cases ok
    exact ⟨[], rfl, fun _ _ _ _ _ _ => rfl⟩
  | cons request requests ih =>
    rw [wakes]
    cases resolved : resolution request.1 with
    | none =>
      rw [rowsOf_none resolved] at ok ⊢
      rcases ih ok with ⟨outcomes, done, reports⟩
      refine ⟨.inactiveLease :: outcomes, by simp [wake, done, bind, Except.bind], ?_⟩
      intro jobIds insertedKeys reported ids keys held
      simp [report, resolved, reports jobIds insertedKeys reported ids keys held, bind, Except.bind]
    | some endpointHash =>
      rw [rowsOf_some resolved] at ok ⊢
      have inserted := inserted_of_ok ok
      rw [insertRows] at ok
      cases isChecked : request.1.checked with
      | none => simp [isChecked] at ok
      | some checked =>
        have sameKey : jobKey ((rowOf request endpointHash).job community now checked) =
            (endpointHash.val, request.1.eventId) := checked_key isChecked
        simp only [isChecked] at ok
        split at ok
        next vacant =>
          rw [wake_enqueued isChecked vacant]
          cases later : insertRows community now
              (self.insert ((rowOf request endpointHash).job community now checked) vacant)
              (rowsOf resolution requests) with
          | error error => simp [later, bind, Except.bind] at ok
          | ok result =>
            simp only [later, bind, Except.bind, Except.ok.injEq, Prod.mk.injEq] at ok
            rcases ok with ⟨rfl, rfl⟩
            rcases ih later with ⟨outcomes, done, reports⟩
            refine ⟨.enqueued request.2 :: outcomes, by simp [done, bind, Except.bind], ?_⟩
            intro jobIds insertedKeys reported ids keys held
            have id : jobIds (endpointHash.val, request.1.eventId) = some request.2 := by
              have present := inserted.present _ mem_cons_self
              rw [sameKey] at present
              exact ids _ mem_cons_self _ present
            have isInserted : (endpointHash.val, request.1.eventId) ∈ insertedKeys := by
              rw [keys, map_cons, sameKey]
              exact .inr mem_cons_self
            have first : (endpointHash.val, request.1.eventId) ∉ reported := by
              intro again
              have taken := held _ again
              rw [← sameKey, vacant] at taken
              cases taken
            have tail := reports jobIds insertedKeys
              ((endpointHash.val, request.1.eventId) :: reported)
              (fun row member => ids row (mem_cons_of_mem _ member))
              (by
                intro key
                rw [keys, map_cons, sameKey, mem_cons, mem_cons, or_left_comm,
                  or_assoc])
              (by
                intro key member
                rcases mem_cons.mp member with rfl | earlier
                · rw [← sameKey]
                  exact Option.isSome_of_eq_some (held_insert_self vacant)
                · rcases Option.isSome_iff_exists.mp (held key earlier) with ⟨job, found⟩
                  exact Option.isSome_of_eq_some (held_insert vacant found))
            simp [report, resolved, id, isInserted, first, tail, bind, Except.bind]
        next taken =>
          rcases Option.ne_none_iff_exists'.mp taken with ⟨job, found⟩
          rw [wake_duplicate isChecked found]
          rcases ih ok with ⟨outcomes, done, reports⟩
          refine ⟨.duplicate job.id :: outcomes, by simp [done, bind, Except.bind], ?_⟩
          intro jobIds insertedKeys reported ids keys held
          rw [sameKey] at found
          have id := ids _ mem_cons_self _ (inserted.persists _ _ found)
          have known : (endpointHash.val, request.1.eventId) ∈ insertedKeys →
              (endpointHash.val, request.1.eventId) ∈ reported := by
            intro isInserted
            rcases (keys _).mp isInserted with earlier | now
            · exact earlier
            · rcases mem_map.mp now with ⟨other, member, same⟩
              have fresh := inserted.fresh other member
              rw [same, found] at fresh
              cases fresh
          have tail := reports jobIds insertedKeys reported
            (fun row member => ids row (mem_cons_of_mem _ member)) keys held
          simp only [Row.key] at id
          simp [report, resolved, id, tail, bind, Except.bind]
          exact fun isInserted first => absurd (known isInserted) first

theorem enqueueWakes_eq (community : CommunityId) (now : ℤ) (self : Database)
    (requests : List (WakeRequest × Uuid)) : enqueueWakes community now self requests =
      match wakes community now (resolve community now self (pairs requests)) self requests with
      | .error error => (self, .error error)
      | .ok (after, outcomes) => (after, .ok outcomes) := by
  have entries : requests.zip (requests.map fun request =>
      resolve community now self (pairs requests) request.1) = requests.map fun request =>
        (request, resolve community now self (pairs requests) request.1) := by
    simpa using zip_map' (f := id) (l := requests) (g := fun request : WakeRequest × Uuid =>
      resolve community now self (pairs requests) request.1)
  have rows : ((requests.zip (requests.map fun request =>
      resolve community now self (pairs requests) request.1)).filterMap fun entry =>
        entry.2.map fun endpointHash => (⟨entry.1.1, entry.1.2, endpointHash⟩ : Row)) =
      rowsOf (resolve community now self (pairs requests)) requests := by
    rw [entries, filterMap_map]
    rfl
  unfold enqueueWakes
  cases requests with
  | nil => rfl
  | cons first rest =>
    rw [isEmpty_cons, if_neg Bool.false_ne_true]
    simp only [rows, zip_map']
    cases statement : insertRows community now self (rowsOf (resolve community now self
        (pairs (first :: rest))) (first :: rest)) with
    | error error => simp only [transact_error statement, wakes_error statement]
    | ok result =>
      rcases wakes_ok statement with ⟨outcomes, done, reports⟩
      rcases transact_ok statement with ⟨jobIds, insertedKeys, committed, told⟩
      have told := reports jobIds insertedKeys [] told.ids
        (fun key => by simp [told.inserted key]) nofun
      simp only [committed, done, told]

theorem wakes_singleton (resolution : WakeRequest → Option EndpointHash) (self : Database)
    (request : WakeRequest × Uuid) : wakes community now resolution self [request] =
      match wake community now self (resolution request.1) request with
      | .error error => .error error
      | .ok (after, outcome) => .ok (after, [outcome]) := by
  rw [wakes]
  cases wake community now self (resolution request.1) request with
  | error error | ok result => rfl

theorem enqueueWake_eq (community : CommunityId) (now : ℤ) (self : Database)
    (request : WakeRequest × Uuid) : enqueueWake community now self request =
      match wake community now self (resolve community now self (pairs [request]) request.1)
          request with
      | .error error => (self, .error error)
      | .ok (after, outcome) => (after, .ok outcome) := by
  rw [enqueueWake, enqueueWakes_eq, wakes_singleton]
  cases wake community now self (resolve community now self (pairs [request]) request.1) request with
  | error error | ok result => rfl

theorem wake_leases {resolved : Option EndpointHash} {request : WakeRequest × Uuid}
    {outcome : EnqueueWakeOutcome}
    (ok : wake community now self resolved request = .ok (after, outcome)) :
    after.tables.leases = self.tables.leases := by
  cases resolved with
  | none =>
    cases ok
    rfl
  | some endpointHash =>
    cases isChecked : request.1.checked with
    | none => cases (wake_refused isChecked).symm.trans ok
    | some checked =>
      cases found : self.held community
          (jobKey ((rowOf request endpointHash).job community now checked)) with
      | none =>
        cases (wake_enqueued isChecked found).symm.trans ok
        rfl
      | some job =>
        cases (wake_duplicate isChecked found).symm.trans ok
        rfl

theorem resolve_leases {other : Database} (same : other.tables.leases = self.tables.leases)
    (asked : List (Bytes × String)) :
    resolve community now other asked = resolve community now self asked := by
  funext request
  simp only [resolve, leaseMap, leaseRows, same]

theorem enqueueEach_eq
    (agrees : ∀ request ∈ requests,
      resolution request.1 = resolve community now self (pairs [request]) request.1) :
    enqueueEach community now self requests = wakes community now resolution self requests := by
  induction requests generalizing self with
  | nil => rfl
  | cons request requests ih =>
    rw [enqueueEach, enqueueWake_eq, wakes, ← agrees request mem_cons_self]
    cases done : wake community now self (resolution request.1) request with
    | error error => rfl
    | ok result =>
      have later : ∀ other ∈ requests, resolution other.1 =
          resolve community now result.1 (pairs [other]) other.1 := by
        intro other member
        rw [agrees other (mem_cons_of_mem _ member), resolve_leases (wake_leases done)]
      simp only [ih later]

theorem enqueueEach_length {outcomes : List EnqueueWakeOutcome}
    (ok : enqueueEach community now self requests = .ok (after, outcomes)) :
    outcomes.length = requests.length := by
  induction requests generalizing self outcomes with
  | nil =>
    cases ok
    rfl
  | cons request requests ih =>
    rw [enqueueEach] at ok
    split at ok
    · cases ok
    next middle outcome _ =>
      cases later : enqueueEach community now middle requests with
      | error error => simp [later, bind, Except.bind] at ok
      | ok result =>
        simp only [later, bind, Except.bind, Except.ok.injEq, Prod.mk.injEq] at ok
        rcases ok with ⟨rfl, rfl⟩
        simp [ih later]

/-- The jobs and outcomes of single calls in order. -/
theorem enqueueWakes_eq_oneByOne (community : CommunityId) (now : ℤ) (self : Database)
    (requests : List (WakeRequest × Uuid)) :
    enqueueWakes community now self requests = oneByOne community now self requests ∧
      ∀ outcomes, (enqueueWakes community now self requests).2 = .ok outcomes →
        outcomes.length = requests.length := by
  have agrees : ∀ request ∈ requests, resolve community now self (pairs requests) request.1 =
      resolve community now self (pairs [request]) request.1 := by
    intro request member
    exact resolve_asked (mem_pairs member) (mem_pairs (mem_singleton_self request))
  have same : enqueueWakes community now self requests = oneByOne community now self requests := by
    rw [enqueueWakes_eq, oneByOne, enqueueEach_eq agrees]
  refine ⟨same, ?_⟩
  intro outcomes reported
  rw [same, oneByOne] at reported
  split at reported
  · cases reported
  next after other done =>
    cases reported
    exact enqueueEach_length done

end calls

end Buzz.Push.Enqueue
