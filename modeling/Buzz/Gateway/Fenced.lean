import Buzz.Gateway.Admissions
import Buzz.Gateway.Commits
import Mathlib.Data.List.Perm.Basic

/-! Admissions are fenced in every interleaving in which the reaper runs only while no outstanding
permit has outlived its recorded expiry. -/

namespace Buzz.Gateway

open Nostr Library Library.Results Library.Runs List

variable {sha256 : Bytes → FixedBytes 32} {world after : World} {label : Label}

structure Admitted (world : World) (request : DeliveryRequest) (admission : Admission)
    (next : Tables) (event : Bytes) (d : DelegationRow) (i : InstallationRow) (quota : QuotaRow) :
    Prop where
  granted : Granted world.tables request world.clock admission.permit next admission.relay event
    d i quota
  expiry : admission.requestExpiresAt = request.requestExpiresAt
  fingerprint : admission.fingerprint = i.tokenFingerprint
  windowStartedAt : admission.windowStartedAt = quota.windowStartedAt

inductive Commits (world : World) : Call → World → Prop
  | refused (call : Call) : Commits world call world
  | challenges (call : Call) (challenges : Keyed Uuid ChallengeRow) :
      Commits world call { world with tables := { world.tables with challenges } }
  | created (call : Call) (id : Uuid) (row : InstallationRow)
      (absent : world.tables.installations.get id = none) :
      Commits world call { world with
        tables := { world.tables with installations := world.tables.installations.insert id row } }
  | forward (call : Call) (id : Uuid) (old row : InstallationRow)
      (present : world.tables.installations.get id = some old) (onward : old.Forward row) :
      Commits world call { world with
        tables := { world.tables with installations := world.tables.installations.insert id row } }
  | stored (call : Call) (key : Uuid × Bytes) (row : DelegationRow) :
      Commits world call { world with
        tables := { world.tables with delegations := world.tables.delegations.insert key row }
        stored := (key, row.id) :: world.stored }
  | revoked (call : Call) (key : Uuid × Bytes) (old row : DelegationRow)
      (present : world.tables.delegations.get key = some old) (same : row.id = old.id) :
      Commits world call { world with
        tables := { world.tables with delegations := world.tables.delegations.insert key row } }
  | admitted (request : DeliveryRequest) (admission : Admission) (next : Tables) (event : Bytes)
      (d : DelegationRow) (i : InstallationRow) (quota : QuotaRow)
      (admitted : Admitted world request admission next event d i quota) :
      Commits world (.authorizeDelivery request) { world with
        tables := next
        outstanding := admission :: world.outstanding
        issued := admission :: world.issued }

theorem admission_eq {request : DeliveryRequest} {permit : DeliveryPermit} {next : Tables}
    {relay event : Bytes} {d : DelegationRow} {i : InstallationRow} {quota : QuotaRow}
    (granted : Granted world.tables request world.clock permit next relay event d i quota) :
    world.admission request permit next =
      some ⟨permit, relay, request.requestExpiresAt, i.tokenFingerprint, quota.windowStartedAt⟩ := by
  have charged : next.endpointQuotas.get i.tokenFingerprint = some quota := by
    rw [granted.writes, Keyed.get_insert, if_pos rfl]
  simp [World.admission, granted.decoded, granted.installation, charged]

theorem authorize_world (sha256 : Bytes → FixedBytes 32) {request : DeliveryRequest}
    {permit : DeliveryPermit} {next : Tables}
    (ok : world.tables.authorizeDelivery request world.clock = .ok (permit, next)) :
    ∃ admission event d i quota, admission.permit = permit ∧
      Admitted world request admission next event d i quota ∧
      world.call sha256 (.authorizeDelivery request) = { world with
        tables := next
        outstanding := admission :: world.outstanding
        issued := admission :: world.issued } := by
  obtain ⟨relay, event, d, i, quota, granted⟩ := authorizeDelivery_ok ok
  let admission : Admission :=
    ⟨permit, relay, request.requestExpiresAt, i.tokenFingerprint, quota.windowStartedAt⟩
  refine ⟨admission, event, d, i, quota, rfl, ⟨granted, rfl, rfl, rfl⟩, ?_⟩
  have answered : world.tables.call sha256 world.clock (.authorizeDelivery request) =
      .ok (.permit permit, next) := by
    rw [Tables.call, ok]
    rfl
  rw [World.call, answered]
  change { world with
    tables := next
    outstanding := (world.admission request permit next).toList ++ world.outstanding
    issued := (world.admission request permit next).toList ++ world.issued } = _
  rw [admission_eq granted]
  rfl

theorem call_commits (call : Call) : Commits world call (world.call sha256 call) := by
  unfold World.call
  cases outcome : world.tables.call sha256 world.clock call with
  | error error => exact .refused call
  | ok result =>
    obtain ⟨answer, next⟩ := result
    cases call with
    | putChallenge challenge =>
      obtain ⟨tables, ok, same⟩ := bind_ok outcome
      obtain ⟨_, _, rest⟩ := bind_ok ok
      obtain ⟨_, _, written⟩ := bind_ok rest
      cases same
      cases written
      exact .challenges _ _
    | consumeChallenge id value =>
      obtain ⟨tables, ok, same⟩ := bind_ok outcome
      obtain ⟨_, _, rest⟩ := bind_ok ok
      obtain ⟨_, _, rest⟩ := bind_ok rest
      obtain ⟨_, _, written⟩ := bind_ok rest
      cases same
      cases written
      exact .challenges _ _
    | createInstallation new =>
      obtain ⟨tables, ok, same⟩ := bind_ok outcome
      cases same
      obtain ⟨absent, row, rfl⟩ := createInstallation_ok ok
      exact .created _ _ row absent
    | installation id =>
      obtain ⟨found, _, same⟩ := bind_ok outcome
      cases same
      exact .refused _
    | advanceAssertionCounter id previous counter =>
      obtain ⟨tables, ok, same⟩ := bind_ok outcome
      cases same
      obtain ⟨old, row, present, onward, rfl⟩ := advanceAssertionCounter_ok ok
      exact .forward _ _ old row present onward
    | upsertDelegation delegation =>
      obtain ⟨tables, ok, same⟩ := bind_ok outcome
      cases same
      obtain ⟨relay, row, decoded, isId, rfl⟩ := upsertDelegation_ok ok
      simp only [World.committed, decoded, Option.toList_some, map_cons, map_nil,
        singleton_append, ← isId]
      exact .stored _ _ row
    | rotateEndpoint id expected new ciphertext fingerprint =>
      obtain ⟨tables, ok, same⟩ := bind_ok outcome
      cases same
      obtain ⟨old, row, present, onward, rfl⟩ := rotateEndpoint_ok ok
      exact .forward _ _ old row present onward
    | revokeDelegation id relay generation =>
      obtain ⟨tables, ok, same⟩ := bind_ok outcome
      cases same
      obtain ⟨key, old, row, present, isId, rfl⟩ := revokeDelegation_ok ok
      exact .revoked _ key old row present isId
    | revokeInstallation id expected new =>
      obtain ⟨tables, ok, same⟩ := bind_ok outcome
      cases same
      obtain ⟨old, row, present, onward, rfl⟩ := revokeInstallation_ok ok
      exact .forward _ _ old row present onward
    | authorizeDelivery request =>
      obtain ⟨⟨permit, tables⟩, ok, same⟩ := bind_ok outcome
      cases same
      obtain ⟨admission, event, d, i, quota, _, admitted, written⟩ :=
        authorize_world sha256 ok
      rw [World.call, outcome] at written
      rw [written]
      exact .admitted request admission _ event d i quota admitted

def World.counted (world : World) (window : Fingerprint × ℤ) : ℤ :=
  (world.issued.map Admission.window).count window

/-- With or without the reaper. -/
structure Recorded (world : World) : Prop where
  newest : ∀ entry ∈ world.tables.delegations.entries, world.newest entry.1 = some entry.2.id
  admitted : ∀ fingerprint row, world.tables.endpointQuotas.get fingerprint = some row →
    row.admitted = world.counted (fingerprint, row.windowStartedAt)
  updated : ∀ fingerprint row, world.tables.endpointQuotas.get fingerprint = some row →
    row.windowStartedAt ≤ row.updatedAt ∧ row.updatedAt ≤ world.clock
  latest : ∀ fingerprint row, world.tables.endpointQuotas.get fingerprint = some row →
    ∀ admission ∈ world.issued, admission.fingerprint = fingerprint →
      admission.windowStartedAt ≤ row.windowStartedAt
  ended : ∀ fingerprint, world.tables.endpointQuotas.get fingerprint = none →
    ∀ admission ∈ world.issued, admission.fingerprint = fingerprint →
      admission.windowStartedAt < world.clock

theorem recorded_initial (clock : ℤ) : Recorded (.initial clock) where
  newest := by
    intro entry member
    cases member
  admitted := by
    intro fingerprint row present
    cases present
  updated := by
    intro fingerprint row present
    cases present
  latest := by
    intro fingerprint row present
    cases present
  ended := by
    intro fingerprint _ admission member
    cases member

theorem Recorded.frame (recorded : Recorded world)
    (newest : ∀ entry ∈ after.tables.delegations.entries, after.newest entry.1 = some entry.2.id)
    (quotas : after.tables.endpointQuotas = world.tables.endpointQuotas)
    (issued : after.issued = world.issued) (later : world.clock ≤ after.clock) :
    Recorded after where
  newest
  admitted := by
    rw [quotas]
    simpa only [World.counted, issued] using recorded.admitted
  updated := by
    intro fingerprint row present
    rw [quotas] at present
    have bounds := recorded.updated fingerprint row present
    exact ⟨bounds.1, Int.le_trans bounds.2 later⟩
  latest := by
    rw [quotas, issued]
    exact recorded.latest
  ended := by
    intro fingerprint absent admission member same
    rw [quotas] at absent
    rw [issued] at member
    exact Int.lt_of_lt_of_le (recorded.ended fingerprint absent admission member same) later

theorem charged_window {request : DeliveryRequest} {fingerprint : Fingerprint} {quota : QuotaRow}
    (recorded : Recorded world)
    (bounds : 1 ≤ request.quotaWindowSeconds ∧ 1 ≤ request.quotaMaxDeliveries)
    (charged : world.tables.chargeQuota fingerprint world.clock request.quotaWindowSeconds
      request.quotaMaxDeliveries = .ok quota) :
    quota.admitted = world.counted (fingerprint, quota.windowStartedAt) + 1 ∧
      quota.admitted ≤ request.quotaMaxDeliveries ∧ quota.updatedAt = world.clock ∧
      (quota.windowStartedAt ≤ world.clock ∧
        world.clock < quota.windowStartedAt + request.quotaWindowSeconds) ∧
      ∀ admission ∈ world.issued, admission.fingerprint = fingerprint →
        admission.windowStartedAt ≤ quota.windowStartedAt := by
  rcases chargeQuota_ok charged with ⟨rfl, ended⟩ | ⟨row, present, lasting, below, rfl⟩
  · -- A window that starts now holds no admission yet: the ones before it started earlier.
    have earlier : ∀ admission ∈ world.issued, admission.fingerprint = fingerprint →
        admission.windowStartedAt < world.clock := by
      intro admission member same
      cases present : world.tables.endpointQuotas.get fingerprint with
      | none => exact recorded.ended fingerprint present admission member same
      | some row =>
        have before := recorded.latest fingerprint row present admission member same
        have past := ended row present
        omega
    have none : world.counted (fingerprint, world.clock) = 0 := by
      apply Int.natCast_eq_zero.mpr
      apply count_eq_zero.mpr
      intro member
      obtain ⟨admission, isAdmission, same⟩ := mem_map.mp member
      have before := earlier admission isAdmission (congrArg Prod.fst same)
      exact Int.ne_of_lt before (congrArg Prod.snd same)
    refine ⟨by rw [none]; rfl, bounds.2, rfl, ⟨Int.le_refl _, ?_⟩, ?_⟩
    · have positive := bounds.1
      change world.clock < world.clock + _
      omega
    · intro admission member same
      exact Int.le_of_lt (earlier admission member same)
  · have counted := recorded.admitted fingerprint row present
    have times := recorded.updated fingerprint row present
    refine ⟨by rw [← counted], ?_, rfl, ⟨?_, ?_⟩, recorded.latest fingerprint row present⟩
    · exact below
    · exact Int.le_trans times.1 times.2
    · change world.clock < row.windowStartedAt + _
      omega

theorem Recorded.admission {request : DeliveryRequest} {admission : Admission} {next : Tables}
    {event : Bytes} {d : DelegationRow} {i : InstallationRow} {quota : QuotaRow}
    (recorded : Recorded world) (admitted : Admitted world request admission next event d i quota) :
    Recorded { world with
      tables := next
      outstanding := admission :: world.outstanding
      issued := admission :: world.issued } := by
  have granted := admitted.granted
  obtain ⟨counted, _, updated, times, latest⟩ :=
    charged_window recorded granted.bounds granted.charged
  have isWindow : admission.window = (i.tokenFingerprint, quota.windowStartedAt) :=
    Prod.ext admitted.fingerprint admitted.windowStartedAt
  have quotas : ∀ fingerprint, next.endpointQuotas.get fingerprint =
      if fingerprint = i.tokenFingerprint then some quota
      else world.tables.endpointQuotas.get fingerprint := by
    intro fingerprint
    rw [granted.writes, Keyed.get_insert]
  refine ⟨?_, ?_, ?_, ?_, ?_⟩
  · rw [granted.writes]
    exact recorded.newest
  · intro fingerprint row present
    rw [quotas] at present
    split at present
    next same =>
      cases present
      subst same
      rw [counted, World.counted, World.counted, map_cons, isWindow, count_cons_self]
      rfl
    next other =>
      rw [recorded.admitted fingerprint row present, World.counted, World.counted, map_cons,
        count_cons_of_ne]
      intro same
      rw [isWindow] at same
      exact other (congrArg Prod.fst same).symm
  · intro fingerprint row present
    rw [quotas] at present
    split at present
    · cases present
      rw [updated]
      exact ⟨times.1, Int.le_refl _⟩
    · exact recorded.updated fingerprint row present
  · intro fingerprint row present other member same
    rw [quotas] at present
    split at present
    next isFingerprint =>
      cases present
      rcases mem_cons.mp member with rfl | before
      · exact Int.le_of_eq admitted.windowStartedAt
      · exact latest other before (same.trans isFingerprint)
    next apart =>
      rcases mem_cons.mp member with rfl | before
      · exact absurd (same.symm.trans admitted.fingerprint) apart
      · exact recorded.latest fingerprint row present other before same
  · intro fingerprint absent other member same
    rw [quotas] at absent
    split at absent
    · cases absent
    next apart =>
      rcases mem_cons.mp member with rfl | before
      · exact absurd (same.symm.trans admitted.fingerprint) apart
      · exact recorded.ended fingerprint absent other before same

theorem Recorded.call {request : Call} (recorded : Recorded world) (commits : Commits world request after) :
    Recorded after := by
  cases commits with
  | refused => exact recorded
  | challenges | created | forward =>
    exact recorded.frame recorded.newest rfl rfl (Int.le_refl _)
  | stored _ key row =>
    refine recorded.frame ?_ rfl rfl (Int.le_refl _)
    intro entry member
    rcases (Keyed.mem_insert _).mp member with rfl | ⟨before, other⟩
    · simp [World.newest]
    · have isNewest := recorded.newest entry before
      simpa [World.newest, Ne.symm other] using isNewest
  | revoked _ key old row present same =>
    refine recorded.frame ?_ rfl rfl (Int.le_refl _)
    intro entry member
    rcases (Keyed.mem_insert _).mp member with rfl | ⟨before, _⟩
    · exact (recorded.newest _ ((Keyed.get_eq_some _).mp present)).trans (congrArg some same.symm)
    · exact recorded.newest entry before
  | admitted request admission next event d i quota admitted => exact recorded.admission admitted

inductive Finishes (world : World) (index : ℕ) : World → Prop
  | absent : Finishes world index world
  | burned (admission : Admission) (found : world.outstanding[index]? = some admission) :
      Finishes world index { world with
        outstanding := world.outstanding.eraseIdx index
        terminal := (admission.requestKey, admission.requestExpiresAt) :: world.terminal }
  | kept : Finishes world index { world with outstanding := world.outstanding.eraseIdx index }
  | released (admission : Admission) (relay : Bytes)
      (found : world.outstanding[index]? = some admission)
      (decoded : hexDecode admission.permit.relayPubkey = some relay) :
      Finishes world index { world with
        tables := { world.tables with deliveryRequestReplays :=
          world.tables.deliveryRequestReplays.erase (relay, admission.permit.requestId) }
        outstanding := world.outstanding.eraseIdx index }

theorem finish_finishes (index : ℕ) (disposition : DeliveryDisposition) :
    Finishes world index (world.finish index disposition) := by
  rw [World.finish]
  cases found : world.outstanding[index]? with
  | none => exact .absent
  | some admission =>
    cases disposition with
    | terminal => exact .burned admission found
    | retryable =>
      cases decoded : hexDecode admission.permit.relayPubkey with
      | none =>
        simp only [Tables.finishDelivery, decoded]
        exact .kept
      | some relay =>
        simp only [Tables.finishDelivery, decoded]
        exact .released admission relay found decoded

theorem Recorded.finish {index : ℕ} (recorded : Recorded world)
    (finishes : Finishes world index after) : Recorded after := by
  cases finishes with
  | absent => exact recorded
  | burned | kept | released => exact recorded.frame recorded.newest rfl rfl (Int.le_refl _)

structure Reaped (tables next : Tables) (now : ℤ) : Prop where
  delegations : ∀ entry ∈ next.delegations.entries, entry ∈ tables.delegations.entries
  installations : ∀ id row, next.installations.get id = some row →
    tables.installations.get id = some row
  quotas : ∀ fingerprint row, next.endpointQuotas.get fingerprint = some row →
    tables.endpointQuotas.get fingerprint = some row
  forgotten : ∀ fingerprint row, next.endpointQuotas.get fingerprint = none →
    tables.endpointQuotas.get fingerprint = some row → row.updatedAt < now
  requests : ∀ key expiry, tables.deliveryRequestReplays.get key = some expiry → now ≤ expiry →
    next.deliveryRequestReplays.get key = some expiry

theorem Reaped.refl {tables : Tables} {now : ℤ} : Reaped tables tables now where
  delegations _ member := member
  installations _ _ present := present
  quotas _ _ present := present
  forgotten _ _ absent present := by cases absent.symm.trans present
  requests _ _ present _ := present

theorem reap_tables {tables : Tables} {now : ℤ} :
    Reaped tables ((tables.reapExpired now).toOption.getD tables) now := by
  cases outcome : tables.reapExpired now with
  | error error => exact .refl
  | ok next =>
    obtain ⟨date, isDate, rest⟩ := bind_ok outcome
    obtain ⟨_, _, written⟩ := bind_ok rest
    cases bindDate_ok isDate
    cases written
    refine ⟨?_, ?_, ?_, ?_, ?_⟩
    · intro entry member
      exact (Keyed.mem_filter.mp member).1
    · intro id row present
      exact ((Keyed.get_filter _).mp present).1
    · intro fingerprint row present
      exact ((Keyed.get_filter _).mp present).1
    · intro fingerprint row absent present
      apply Int.lt_of_not_ge
      intro recent
      have kept : now - Tables.retention ≤ row.updatedAt := by
        unfold Tables.retention
        omega
      cases absent.symm.trans ((Keyed.get_filter _).mpr ⟨present, decide_eq_true kept⟩)
    · intro key expiry present recent
      exact (Keyed.get_filter _).mpr ⟨present, decide_eq_true recent⟩

theorem Recorded.reap {next : Tables} (recorded : Recorded world)
    (reaped : Reaped world.tables next world.clock) : Recorded { world with tables := next } where
  newest entry member := recorded.newest entry (reaped.delegations entry member)
  admitted fingerprint row present := recorded.admitted _ row (reaped.quotas _ row present)
  updated fingerprint row present := recorded.updated _ row (reaped.quotas _ row present)
  latest fingerprint row present := recorded.latest _ row (reaped.quotas _ row present)
  ended := by
    intro fingerprint absent admission member same
    cases present : world.tables.endpointQuotas.get fingerprint with
    | none => exact recorded.ended fingerprint present admission member same
    | some row =>
      -- The row was last charged in the past, and its window started before that.
      calc
        admission.windowStartedAt ≤ row.windowStartedAt :=
          recorded.latest fingerprint row present admission member same
        _ ≤ row.updatedAt := (recorded.updated fingerprint row present).1
        _ < world.clock := reaped.forgotten fingerprint row absent present

theorem Recorded.step (recorded : Recorded world) (label : Label) :
    Recorded (world.step sha256 label) := by
  cases label with
  | tick seconds =>
    refine recorded.frame recorded.newest rfl rfl ?_
    exact Int.le_add_of_nonneg_right (Int.natCast_nonneg seconds)
  | call request => exact recorded.call (call_commits request)
  | finish index disposition =>
    exact recorded.finish (finish_finishes index disposition)
  | lose index => exact recorded.frame recorded.newest rfl rfl (Int.le_refl _)
  | reapExpired => exact recorded.reap reap_tables

structure Reserved (world : World) : Prop where
  decoded : ∀ admission ∈ world.outstanding,
    hexDecode admission.permit.relayPubkey = some admission.relay
  held : ∀ admission ∈ world.outstanding,
    world.tables.deliveryRequestReplays.get admission.requestKey = some admission.requestExpiresAt
  once : (world.outstanding.map Admission.requestKey).Nodup
  burned : ∀ finished ∈ world.terminal, world.clock ≤ finished.2 →
    world.tables.deliveryRequestReplays.get finished.1 = some finished.2 ∧
      ∀ admission ∈ world.outstanding, admission.requestKey ≠ finished.1

theorem reserved_initial (clock : ℤ) : Reserved (.initial clock) where
  decoded := by
    intro admission member
    cases member
  held := by
    intro admission member
    cases member
  once := nodup_nil
  burned := by
    intro finished member
    cases member

theorem Reserved.frame (reserved : Reserved world)
    (fewer : after.outstanding.Sublist world.outstanding)
    (terminal : after.terminal = world.terminal)
    (held : ∀ admission ∈ after.outstanding,
      world.tables.deliveryRequestReplays.get admission.requestKey =
        some admission.requestExpiresAt →
      after.tables.deliveryRequestReplays.get admission.requestKey =
        some admission.requestExpiresAt)
    (burned : ∀ finished ∈ world.terminal, after.clock ≤ finished.2 →
      (∀ admission ∈ world.outstanding, admission.requestKey ≠ finished.1) →
      world.tables.deliveryRequestReplays.get finished.1 = some finished.2 →
      after.tables.deliveryRequestReplays.get finished.1 = some finished.2)
    (later : world.clock ≤ after.clock) : Reserved after where
  decoded admission member := reserved.decoded admission (fewer.subset member)
  held admission member := held _ member (reserved.held admission (fewer.subset member))
  once := reserved.once.sublist (fewer.map _)
  burned := by
    intro finished member unexpired
    rw [terminal] at member
    obtain ⟨isRow, apart⟩ := reserved.burned finished member (Int.le_trans later unexpired)
    exact ⟨burned _ member unexpired apart isRow,
      fun admission isOutstanding => apart admission (fewer.subset isOutstanding)⟩

theorem Reserved.same (reserved : Reserved world)
    (fewer : after.outstanding.Sublist world.outstanding)
    (terminal : after.terminal = world.terminal)
    (rows : after.tables.deliveryRequestReplays = world.tables.deliveryRequestReplays)
    (later : world.clock ≤ after.clock) : Reserved after := by
  refine reserved.frame fewer terminal ?_ ?_ later
  · rw [rows]
    exact fun _ _ present => present
  · rw [rows]
    exact fun _ _ _ _ present => present

theorem Reserved.admission {request : DeliveryRequest} {admission : Admission} {next : Tables}
    {event : Bytes} {d : DelegationRow} {i : InstallationRow} {quota : QuotaRow}
    (reserved : Reserved world) (admitted : Admitted world request admission next event d i quota) :
    Reserved { world with
      tables := next
      outstanding := admission :: world.outstanding
      issued := admission :: world.issued } := by
  have granted := admitted.granted
  have isKey : admission.requestKey = (admission.relay, request.requestId) :=
    Prod.ext rfl granted.requestId
  have rows : ∀ key, next.deliveryRequestReplays.get key =
      if key = admission.requestKey then some admission.requestExpiresAt
      else world.tables.deliveryRequestReplays.get key := by
    intro key
    rw [granted.writes, Keyed.get_insert, isKey, admitted.expiry]
  have fresh : world.tables.deliveryRequestReplays.get admission.requestKey = none :=
    isKey ▸ granted.fresh
  have apart : ∀ other ∈ world.outstanding, other.requestKey ≠ admission.requestKey := by
    intro other member same
    cases (same ▸ reserved.held other member).symm.trans fresh
  refine ⟨?_, ?_, ?_, ?_⟩
  · intro other member
    rcases mem_cons.mp member with rfl | before
    · rw [granted.relayPubkey]
      exact granted.decoded
    · exact reserved.decoded other before
  · intro other member
    rw [rows]
    rcases mem_cons.mp member with rfl | before
    · rw [if_pos rfl]
    · rw [if_neg (apart other before)]
      exact reserved.held other before
  · rw [map_cons, nodup_cons]
    refine ⟨?_, reserved.once⟩
    intro member
    obtain ⟨other, isOther, same⟩ := mem_map.mp member
    exact apart other isOther same
  · intro finished member unexpired
    obtain ⟨isRow, free⟩ := reserved.burned finished member unexpired
    have other : finished.1 ≠ admission.requestKey := by
      intro same
      cases (same ▸ isRow).symm.trans fresh
    refine ⟨by rw [rows, if_neg other]; exact isRow, ?_⟩
    intro candidate isCandidate
    rcases mem_cons.mp isCandidate with rfl | before
    · exact Ne.symm other
    · exact free candidate before

theorem Reserved.call {request : Call} (reserved : Reserved world)
    (commits : Commits world request after) : Reserved after := by
  cases commits with
  | admitted request admission next event d i quota admitted => exact reserved.admission admitted
  | _ => exact reserved.same (.refl _) rfl rfl (Int.le_refl _)

theorem Reserved.apart (reserved : Reserved world) {index : ℕ} {admission : Admission}
    (found : world.outstanding[index]? = some admission) :
    ∀ other ∈ world.outstanding.eraseIdx index, other.requestKey ≠ admission.requestKey := by
  obtain ⟨bound, rfl⟩ := List.getElem?_eq_some_iff.mp found
  have keys := (getElem_cons_eraseIdx_perm bound).map Admission.requestKey
  have nodup := keys.nodup_iff.mpr reserved.once
  rw [map_cons, nodup_cons] at nodup
  intro other member same
  exact nodup.1 (mem_map.mpr ⟨other, member, same⟩)

theorem Reserved.finish {index : ℕ} (reserved : Reserved world)
    (finishes : Finishes world index after) : Reserved after := by
  have fewer : (world.outstanding.eraseIdx index).Sublist world.outstanding :=
    eraseIdx_sublist _ _
  cases finishes with
  | absent => exact reserved
  | kept => exact reserved.same fewer rfl rfl (Int.le_refl _)
  | burned admission found =>
    have released : Reserved { world with
        outstanding := world.outstanding.eraseIdx index } :=
      reserved.same fewer rfl rfl (Int.le_refl _)
    refine ⟨released.decoded, released.held, released.once, ?_⟩
    intro finished member unexpired
    rcases mem_cons.mp member with rfl | before
    · exact ⟨reserved.held admission (mem_of_getElem? found), reserved.apart found⟩
    · exact released.burned finished before unexpired
  | released admission relay found decoded =>
    have isRelay := reserved.decoded admission (mem_of_getElem? found)
    cases decoded.symm.trans isRelay
    have others : ∀ key ≠ admission.requestKey,
        (world.tables.deliveryRequestReplays.erase admission.requestKey).get key =
          world.tables.deliveryRequestReplays.get key := by
      intro key other
      rw [Keyed.get_erase, if_neg other]
    refine reserved.frame fewer rfl ?_ ?_ (Int.le_refl _)
    · intro other member present
      exact (others _ (reserved.apart found other member)).trans present
    · intro finished _ _ apart present
      have free := apart admission (mem_of_getElem? found)
      exact (others _ (Ne.symm free)).trans present

def ReapsFinished (world : World) (label : Label) : Prop :=
  label = .reapExpired → ∀ admission ∈ world.outstanding, world.clock ≤ admission.requestExpiresAt

instance (world : World) (label : Label) : Decidable (ReapsFinished world label) :=
  inferInstanceAs (Decidable (_ → _))

theorem Reserved.step (reserved : Reserved world) (finished : ReapsFinished world label) :
    Reserved (world.step sha256 label) := by
  cases label with
  | tick seconds =>
    exact reserved.same (.refl _) rfl rfl
      (Int.le_add_of_nonneg_right (Int.natCast_nonneg seconds))
  | call request => exact reserved.call (call_commits request)
  | finish index disposition => exact reserved.finish (finish_finishes index disposition)
  | lose index => exact reserved.same (eraseIdx_sublist _ _) rfl rfl (Int.le_refl _)
  | reapExpired =>
    have reaped := @reap_tables world.tables world.clock
    refine reserved.frame (.refl _) rfl ?_ ?_ (Int.le_refl _)
    · intro admission member present
      exact reaped.requests _ _ present (finished rfl admission member)
    · intro burned _ unexpired _ present
      exact reaped.requests _ _ present unexpired

/-- It is the newest of its installation and relay, and of the current epoch. -/
def Warranted (world : World) (request : DeliveryRequest) (admission : Admission) : Prop :=
  ∃ d i, hexDecode request.relay = some admission.relay ∧
    world.tables.delegations.get (admission.permit.authority.installationId, admission.relay) =
      some d ∧
    world.newest (admission.permit.authority.installationId, admission.relay) =
      some request.delegationId ∧
    d.id = request.delegationId ∧ d.revokedAt = none ∧
    (d.notBefore ≤ world.clock ∧ world.clock ≤ d.expiresAt) ∧
    world.tables.installations.get admission.permit.authority.installationId = some i ∧
    d.endpointEpoch = i.endpointEpoch ∧ i.revokedAt = none ∧ world.clock ≤ i.expiresAt ∧
    i.tokenFingerprint = admission.fingerprint

structure Fenced (sha256 : Bytes → FixedBytes 32) (world : World) (label : Label) : Prop where
  issued : ∀ request permit next, label = .call (.authorizeDelivery request) →
    world.tables.authorizeDelivery request world.clock = .ok (permit, next) →
    ∃ admission, admission.permit = permit ∧ permit.requestId = request.requestId ∧
      admission.requestExpiresAt = request.requestExpiresAt ∧
      (world.step sha256 label).outstanding = admission :: world.outstanding ∧
      (world.step sha256 label).issued = admission :: world.issued ∧
      Warranted world request admission ∧
      (∀ finished ∈ world.terminal, finished.1 = admission.requestKey →
        finished.2 < world.clock) ∧
      (admission.windowStartedAt ≤ world.clock ∧
        world.clock < admission.windowStartedAt + request.quotaWindowSeconds) ∧
      (world.step sha256 label).counted admission.window ≤ request.quotaMaxDeliveries
  once : ((world.step sha256 label).outstanding.map Admission.requestKey).Nodup
  forward : ∀ id old row, world.tables.installations.get id = some old →
    (world.step sha256 label).tables.installations.get id = some row → old.Forward row
  refused : ∀ request error, label = .call (.authorizeDelivery request) →
    world.tables.authorizeDelivery request world.clock = .error error →
    (world.step sha256 label).tables = world.tables

theorem InstallationRow.Forward.refl {row : InstallationRow} : row.Forward row :=
  ⟨UInt32.le_refl _, Int.le_refl _⟩

theorem step_forward (label : Label) {id : Uuid} {old row : InstallationRow}
    (before : world.tables.installations.get id = some old)
    (present : (world.step sha256 label).tables.installations.get id = some row) :
    old.Forward row := by
  have same : world.tables.installations.get id = some row → old.Forward row := by
    intro unchanged
    cases before.symm.trans unchanged
    exact .refl
  cases label with
  | tick | lose => exact same present
  | finish index disposition =>
    have finishes : Finishes world index (world.step sha256 (.finish index disposition)) :=
      finish_finishes index disposition
    generalize world.step sha256 (.finish index disposition) = next at finishes present
    cases finishes <;> exact same present
  | reapExpired => exact same (reap_tables.installations id row present)
  | call request =>
    have commits : Commits world request (world.step sha256 (.call request)) :=
      call_commits request
    generalize world.step sha256 (.call request) = next at commits present
    cases commits with
    | refused | challenges | stored | revoked => exact same present
    | created _ other new absent =>
      rw [Keyed.get_insert] at present
      split at present
      next isNew => cases (isNew ▸ before).symm.trans absent
      · exact same present
    | forward _ other previous new was onward =>
      rw [Keyed.get_insert] at present
      split at present
      next isOther =>
        subst isOther
        cases present
        cases before.symm.trans was
        exact onward
      · exact same present
    | admitted request admission next event d i quota admitted =>
      rw [admitted.granted.writes] at present
      exact same present

theorem step_refused {request : DeliveryRequest} {error : AuthorityError}
    (refused : world.tables.authorizeDelivery request world.clock = .error error) :
    world.step sha256 (.call (.authorizeDelivery request)) = world := by
  have answered : world.tables.call sha256 world.clock (.authorizeDelivery request) =
      .error error := by
    rw [Tables.call, refused]
    rfl
  rw [World.step, World.call, answered]

theorem fenced_step (recorded : Recorded world) (reserved : Reserved world)
    (finished : ReapsFinished world label) : Fenced sha256 world label where
  issued := by
    rintro request permit next rfl ok
    obtain ⟨admission, event, d, i, quota, rfl, admitted, written⟩ :=
      authorize_world sha256 ok
    have granted := admitted.granted
    have isKey : admission.requestKey = (admission.relay, request.requestId) :=
      Prod.ext rfl granted.requestId
    obtain ⟨counted, below, _, times, _⟩ :=
      charged_window recorded granted.bounds granted.charged
    refine ⟨admission, rfl, granted.requestId, admitted.expiry, ?_, ?_, ?_, ?_, ?_, ?_⟩
    · exact congrArg World.outstanding written
    · exact congrArg World.issued written
    · have isRow := recorded.newest _ ((Keyed.get_eq_some _).mp granted.delegation)
      exact ⟨d, i, granted.decoded, granted.delegation, isRow.trans (congrArg some granted.delegationId),
        granted.delegationId, granted.valid.1, granted.valid.2, granted.installation,
        granted.epochs.2.trans granted.epochs.1.symm, granted.live.1, granted.live.2, admitted.fingerprint.symm⟩
    · intro ended member same
      apply Int.not_le.mp
      intro unexpired
      have isRow := (reserved.burned ended member unexpired).1
      rw [same, isKey, granted.fresh] at isRow
      cases isRow
    · rw [admitted.windowStartedAt]
      exact times
    · have isWindow : admission.window = (i.tokenFingerprint, quota.windowStartedAt) :=
        Prod.ext admitted.fingerprint admitted.windowStartedAt
      calc
        (world.step sha256 (.call (.authorizeDelivery request))).counted admission.window =
            world.counted admission.window + 1 := by
          rw [World.step, written, World.counted, World.counted, map_cons,
            count_cons_self]
          rfl
        _ = quota.admitted := by rw [counted, isWindow]
        _ ≤ request.quotaMaxDeliveries := below
  once := (reserved.step finished).once
  forward id old row before present := step_forward label before present
  refused := by
    rintro request error rfl refused
    rw [step_refused refused]

theorem admissions_fenced (sha256 : Bytes → FixedBytes 32) (clock : ℤ) (labels : List Label)
    (finished : EachStep (World.step sha256) ReapsFinished (.initial clock) labels) :
    EachStep (World.step sha256) (Fenced sha256) (.initial clock) labels := by
  have preserved : ∀ (world : World) label, Recorded world ∧ Reserved world →
      ReapsFinished world label →
      Recorded (world.step sha256 label) ∧ Reserved (world.step sha256 label) :=
    fun _ label sound within => ⟨sound.1.step label, sound.2.step within⟩
  exact EachStep.ensures preserved (fun _ _ sound within => fenced_step sound.1 sound.2 within)
    ⟨recorded_initial clock, reserved_initial clock⟩ finished

def sampleBytes (byte : UInt8) (length : ℕ) : FixedBytes length :=
  ⟨replicate length byte, length_replicate⟩

def sampleHash (_ : Bytes) : FixedBytes 32 := sampleBytes 0 32

def sampleRelay : HexText := replicate 64 '1'

def sampleInstallation : NewInstallation where
  id := sampleBytes 1 16
  appAttestKeyId := [1]
  appAttestPublicKey := replicate 33 2
  assertionCounter := 0
  profile := .buzzIosProduction
  tokenCiphertext := [3]
  tokenFingerprint := sampleBytes 4 32
  endpointEpoch := 1
  expiresAt := 2000

def sampleDelegation : Delegation where
  id := sampleBytes 2 16
  installationId := sampleBytes 1 16
  relayPubkey := sampleRelay
  endpointEpoch := 1
  generation := 1
  notBefore := 900
  expiresAt := 1500
  revoked := false

def sampleRequest (digit : Char) (expiresAt : ℤ) : DeliveryRequest where
  delegationId := sampleBytes 2 16
  relay := sampleRelay
  epoch := 1
  generation := 1
  eventId := replicate 64 digit
  requestId := sampleBytes 3 16
  requestExpiresAt := expiresAt
  quotaWindowSeconds := 60
  quotaMaxDeliveries := 10

def sampleSetup : List Label :=
  [.call (.createInstallation sampleInstallation), .call (.upsertDelegation sampleDelegation)]

def sampleRetry : List Label :=
  sampleSetup ++ [.call (.authorizeDelivery (sampleRequest '2' 1100)), .finish 0 .retryable,
    .call (.authorizeDelivery (sampleRequest '3' 1100)), .finish 0 .terminal, .tick 200,
    .reapExpired]

theorem sampleRetry_fenced :
    EachStep (World.step sampleHash) (Fenced sampleHash) (.initial 1000) sampleRetry :=
  admissions_fenced sampleHash 1000 sampleRetry (by decide +kernel)

/-- The reaper deletes a row still under way, and the request is admitted again. -/
def sampleOverdue : List Label :=
  sampleSetup ++ [.call (.authorizeDelivery (sampleRequest '2' 1000)), .tick 1, .reapExpired,
    .call (.authorizeDelivery (sampleRequest '3' 1100))]

theorem sampleOverdue_twice : ¬∀ (sha256 : Bytes → FixedBytes 32) (clock : ℤ)
    (labels : List Label), EachStep (World.step sha256) (Fenced sha256) (.initial clock) labels := by
  intro fenced
  obtain ⟨_, _, _, _, _, last, _⟩ := fenced sampleHash 1000 sampleOverdue
  exact absurd last.once (by decide +kernel)

end Buzz.Gateway
