import Buzz.Gateway.Deliver
import Buzz.Gateway.Fenced
import Buzz.Push.Settled

/-! What the end of a wake job says: the transport accepts at most one push for it. -/

namespace Buzz.Gateway

open Nostr Library Library.Results Library.Runs List
open Buzz.Push (ClaimedWake GatewayResult Phase)

variable {config : Config} {tables next : Tables} {now : ℤ}

theorem foreign_replays {call : Call} (foreign : System.foreign config call) (id : Uuid) :
    (tables.transaction (tables.call config.sha256 now call)).2.deliveryRequestReplays.get
        (config.relayKey.val, id) =
      tables.deliveryRequestReplays.get (config.relayKey.val, id) := by
  let world : World := ⟨tables, now, [], [], [], []⟩
  have isTables : (tables.transaction (tables.call config.sha256 now call)).2 =
      (world.call config.sha256 call).tables := by
    unfold World.call Tables.transaction
    cases tables.call config.sha256 now call with
    | error error => rfl
    | ok result =>
      obtain ⟨answer, written⟩ := result
      change written = (world.committed call answer written).tables
      unfold World.committed
      split <;> rfl
  have commits : Commits world call (world.call config.sha256 call) := call_commits call
  rw [isTables]
  generalize world.call config.sha256 call = after at commits
  cases commits with
  | admitted request admission written event d i quota admitted =>
    have granted := admitted.granted
    have apart : (config.relayKey.val, id) ≠ (admission.relay, request.requestId) := by
      intro same
      have own : hexDecode request.relay = some config.relayKey.val :=
        granted.decoded.trans (congrArg some (congrArg Prod.fst same).symm)
      exact of_decide_eq_true foreign own
    rw [granted.writes]
    change (tables.deliveryRequestReplays.insert _ _).get _ = _
    rw [Keyed.get_insert, if_neg apart]
  | _ => rfl

theorem finish_replays {permit : DeliveryPermit} {disposition : DeliveryDisposition}
    {database : Database} {key : Bytes × Uuid}
    (apart : ∀ relay, hexDecode permit.relayPubkey = some relay → key ≠ (relay, permit.requestId)) :
    (tables.finish permit disposition database).1.deliveryRequestReplays.get key =
      tables.deliveryRequestReplays.get key := by
  cases disposition with
  | terminal => rfl
  | retryable =>
    unfold Tables.finish Tables.finishDelivery
    cases decoded : hexDecode permit.relayPubkey with
    | none => cases database <;> rfl
    | some relay =>
      have kept : (tables.deliveryRequestReplays.erase (relay, permit.requestId)).get key =
          tables.deliveryRequestReplays.get key := by
        rw [Keyed.get_erase, if_neg (apart relay decoded)]
      cases database with
      | fails => rfl
      | works | losesAnswer => exact kept

variable {index : ℕ} {delivery : Delivery} {phase : DeliverPhase}

section phases

namespace DeliverPhase

def permit : DeliverPhase → Option DeliveryPermit
  | .admitted _ permit | .sending _ permit | .sent _ permit _ => some permit
  | _ => none

def burning : DeliverPhase → Bool
  | .admitted _ _ | .sending _ _ | .sent _ _ _ | .responding _ true => true
  | _ => false

def spent : DeliverPhase → Bool
  | .sent _ _ outcome => outcome.disposition = .terminal
  | .responding _ true => true
  | _ => false

def tells : DeliverPhase → Bool
  | .sent _ _ outcome => outcome = .accepted
  | .responding result _ => result = .success (some .accepted)
  | _ => false

theorem burning_of_spent {phase : DeliverPhase} (spent : phase.spent) : phase.burning := by
  match phase, spent with
  | .sent _ _ _, _ => rfl
  | .responding _ true, _ => rfl

end DeliverPhase

def requestKey (config : Config) (delivery : Delivery) : Bytes × Uuid :=
  (config.relayKey.val, delivery.wake.id)

structure Fences (config : Config) (tables : Tables) (deliveries : List Delivery)
    (accepted : List Uuid) (reapedAt : ℤ) : Prop where
  permits : ∀ (i : ℕ) d, deliveries[i]? = some d → ∀ permit, d.phase.permit = some permit →
    hexDecode permit.relayPubkey = some config.relayKey.val ∧ permit.requestId = d.wake.id
  held : ∀ (i : ℕ) d, deliveries[i]? = some d → d.phase.burning →
    tables.deliveryRequestReplays.get (requestKey config d) = some d.wake.expiresAt ∨
      d.wake.expiresAt < reapedAt
  once : ∀ (i j : ℕ) di dj, deliveries[i]? = some di → deliveries[j]? = some dj →
    di.phase.burning → dj.phase.burning → di.wake.id = dj.wake.id → i = j
  spent : ∀ id ∈ accepted, ∃ (i : ℕ) (d : Delivery), deliveries[i]? = some d ∧ d.wake.id = id ∧
    d.phase.spent
  nodup : accepted.Nodup
  told : ∀ (i : ℕ) d, deliveries[i]? = some d → d.phase.tells → d.wake.id ∈ accepted

variable {deliveries : List Delivery} {accepted : List Uuid} {reapedAt : ℤ}

theorem getElem?_set_cases {i : ℕ} {d : Delivery} {changed : Delivery}
    (found : (deliveries.set index changed)[i]? = some d) :
    i = index ∧ d = changed ∨ i ≠ index ∧ deliveries[i]? = some d := by
  rw [getElem?_set] at found
  split at found
  next same =>
    split at found
    · cases found
      exact .inl ⟨same.symm, rfl⟩
    · cases found
  next apart => exact .inr ⟨Ne.symm apart, found⟩

section

variable (fences : Fences config tables deliveries accepted reapedAt)

include fences

theorem Fences.frame {later : ℤ}
    (rows : ∀ (i : ℕ) d, deliveries[i]? = some d → d.phase.burning →
      tables.deliveryRequestReplays.get (requestKey config d) = some d.wake.expiresAt →
      next.deliveryRequestReplays.get (requestKey config d) = some d.wake.expiresAt ∨
        d.wake.expiresAt < later) (forward : reapedAt ≤ later) :
    Fences config next deliveries accepted later :=
  { fences with
    held := by
      intro i d found burning
      rcases fences.held i d found burning with isRow | past
      · exact rows i d found burning isRow
      · exact .inr (Int.lt_of_lt_of_le past forward) }

theorem Fences.change {more : List Uuid} (found : deliveries[index]? = some delivery)
    (permit : ∀ permit, phase.permit = some permit →
      hexDecode permit.relayPubkey = some config.relayKey.val ∧
        permit.requestId = delivery.wake.id)
    (held : phase.burning →
      next.deliveryRequestReplays.get (requestKey config delivery) =
        some delivery.wake.expiresAt ∨ delivery.wake.expiresAt < reapedAt)
    (others : ∀ (i : ℕ) d, deliveries[i]? = some d → i ≠ index → d.phase.burning →
      tables.deliveryRequestReplays.get (requestKey config d) = some d.wake.expiresAt →
      next.deliveryRequestReplays.get (requestKey config d) = some d.wake.expiresAt)
    (alone : phase.burning → ∀ (i : ℕ) d, deliveries[i]? = some d → i ≠ index →
      d.phase.burning → d.wake.id ≠ delivery.wake.id)
    (spent : delivery.phase.spent → phase.spent) (nodup : more.Nodup)
    (kept : ∀ id ∈ accepted, id ∈ more)
    (grown : ∀ id ∈ more, id ∈ accepted ∨ id = delivery.wake.id ∧ phase.spent)
    (told : phase.tells → delivery.wake.id ∈ more) :
    Fences config next (deliveries.set index { delivery with phase }) more
      reapedAt where
  permits := by
    intro i d isDelivery
    rcases getElem?_set_cases isDelivery with ⟨-, rfl⟩ | ⟨-, before⟩
    · exact permit
    · exact fences.permits i d before
  held := by
    intro i d isDelivery burning
    rcases getElem?_set_cases isDelivery with ⟨-, rfl⟩ | ⟨apart, before⟩
    · exact held burning
    · rcases fences.held i d before burning with isRow | past
      · exact .inl (others i d before apart burning isRow)
      · exact .inr past
  once := by
    intro i j di dj isFirst isSecond first second same
    rcases getElem?_set_cases isFirst with ⟨rfl, rfl⟩ | ⟨apartFirst, beforeFirst⟩ <;>
      rcases getElem?_set_cases isSecond with ⟨rfl, rfl⟩ | ⟨apartSecond, beforeSecond⟩
    · rfl
    · exact absurd same.symm (alone first j dj beforeSecond apartSecond second)
    · exact absurd same (alone second i di beforeFirst apartFirst first)
    · exact fences.once i j di dj beforeFirst beforeSecond first second same
  spent := by
    have here : (deliveries.set index { delivery with phase })[index]? =
        some { delivery with phase } :=
      getElem?_set_self (List.getElem?_eq_some_iff.mp found).1
    intro id isAccepted
    rcases grown id isAccepted with before | ⟨rfl, isSpent⟩
    · obtain ⟨i, d, isDelivery, isId, isSpent⟩ := fences.spent id before
      by_cases same : i = index
      · subst same
        cases isDelivery.symm.trans found
        exact ⟨i, { delivery with phase }, here, isId, spent isSpent⟩
      · refine ⟨i, d, ?_, isId, isSpent⟩
        rw [getElem?_set_ne (Ne.symm same)]
        exact isDelivery
    · exact ⟨index, { delivery with phase }, here, rfl, isSpent⟩
  nodup
  told := by
    intro i d isDelivery tells
    rcases getElem?_set_cases isDelivery with ⟨-, rfl⟩ | ⟨-, before⟩
    · exact told tells
    · exact kept _ (fences.told i d before tells)

theorem Fences.apart
    (found : deliveries[index]? = some delivery) (burning : delivery.phase.burning) :
    ∀ (i : ℕ) d, deliveries[i]? = some d → i ≠ index → d.phase.burning →
      d.wake.id ≠ delivery.wake.id :=
  fun i d isDelivery other isBurning same =>
    other (fences.once i index d delivery isDelivery found isBurning burning same)

end

inductive Asked (config : Config) (tables : Tables) (wake : ClaimedWake) (now : ℤ) :
    DeliverPhase × Tables → Prop
  | turned (result : GatewayResult) (silent : result ≠ .success (some .accepted)) :
      Asked config tables wake now (.responding result false, tables)
  | granted (grant : EndpointGrant) (eventId : EventId) (permit : DeliveryPermit) (next : Tables)
      (ok : tables.authorizeDelivery (config.deliveryRequest wake grant eventId) now =
        .ok (permit, next)) (phase : DeliverPhase)
      (isPhase : phase = .admitted grant permit ∨
        phase = .responding (.serviceUnavailable none) false) :
      Asked config tables wake now (phase, next)

theorem admission_asked {wake : ClaimedWake} {eventId : EventId} {database : Database} :
    Asked config tables wake now (config.admission tables wake eventId now database) := by
  unfold Config.admission
  split
  · exact .turned _ (by simp)
  next grant _ =>
    split
    · exact .turned _ (by simp)
    · split
      · exact .turned _ (by simp)
      · split
        · exact .turned _ (by simp)
        · exact .turned _ (by simp)
        next permit next ok =>
          split
          · exact .granted grant eventId permit next ok _ (.inl rfl)
          · exact .granted grant eventId permit next ok _ (.inr rfl)

theorem Fences.authorize (fences : Fences config tables deliveries accepted reapedAt)
    (found : deliveries[index]? = some delivery) (received : delivery.phase = .received)
    (recent : reapedAt ≤ now) {date : Uuid → ℤ}
    (dated : ∀ (i : ℕ) d, deliveries[i]? = some d → d.wake.expiresAt = date d.wake.id)
    {result : DeliverPhase × Tables} (asked : Asked config tables delivery.wake now result) :
    Fences config result.2 (deliveries.set index { delivery with phase := result.1 }) accepted
      reapedAt := by
  have unspent : ¬delivery.phase.spent := by
    rw [received]
    exact Bool.false_ne_true
  cases asked with
  | turned answer silent =>
    refine fences.change found ?_ ?_ ?_ ?_ ?_ fences.nodup (fun _ before => before)
      (fun _ before => .inl before) ?_
    · intro permit isPermit
      cases isPermit
    · intro burning
      cases burning
    · exact fun _ _ _ _ _ isRow => isRow
    · intro burning
      cases burning
    · exact fun spent => absurd spent unspent
    · intro tells
      exact absurd (of_decide_eq_true tells) silent
  | granted grant eventId permit next ok phase isPhase =>
    obtain ⟨relay, event, d, i, quota, granted⟩ := authorizeDelivery_ok ok
    have isRelay : relay = config.relayKey.val := by
      have decoded := granted.decoded
      change hexDecode (hexEncode config.relayKey.val) = some relay at decoded
      rw [hexDecode_hexEncode] at decoded
      exact (Option.some.inj decoded).symm
    subst isRelay
    have fresh : tables.deliveryRequestReplays.get (requestKey config delivery) = none :=
      granted.fresh
    have rows : ∀ key, next.deliveryRequestReplays.get key =
        if key = requestKey config delivery then some delivery.wake.expiresAt
        else tables.deliveryRequestReplays.get key := by
      intro key
      rw [granted.writes, Keyed.get_insert]
      rfl
    have live : now ≤ delivery.wake.expiresAt := granted.expiry.1
    refine fences.change found ?_ ?_ ?_ ?_ ?_ fences.nodup (fun _ before => before)
      (fun _ before => .inl before) ?_
    · intro other isPermit
      rcases isPhase with rfl | rfl
      · cases isPermit
        refine ⟨?_, granted.requestId⟩
        rw [granted.relayPubkey]
        exact granted.decoded
      · cases isPermit
    · intro _
      left
      rw [rows, if_pos rfl]
    · intro i d isDelivery _ _ isRow
      rw [rows, if_neg]
      · exact isRow
      · intro same
        rw [same, fresh] at isRow
        cases isRow
    · intro _ i d isDelivery _ burning same
      rcases fences.held i d isDelivery burning with isRow | past
      · have sameKey : requestKey config d = requestKey config delivery :=
          congrArg (Prod.mk _) same
        rw [sameKey, fresh] at isRow
        cases isRow
      · -- The other request has the same expiry, which this one has not reached.
        have ofOther := dated i d isDelivery
        have ofThis := dated index delivery found
        rw [same] at ofOther
        omega
    · exact fun spent => absurd spent unspent
    · intro tells
      rcases isPhase with rfl | rfl <;> cases tells

variable {grant : EndpointGrant} {permit : DeliveryPermit}

theorem Fences.openToken (fences : Fences config tables deliveries accepted reapedAt)
    (found : deliveries[index]? = some delivery)
    (admitted : delivery.phase = .admitted grant permit) (custody : Bool) (database : Database) :
    Fences config (Gateway.openToken tables grant permit custody database).2 (deliveries.set index
        { delivery with phase := (Gateway.openToken tables grant permit custody database).1 })
      accepted reapedAt := by
  have burning : delivery.phase.burning := by
    rw [admitted]
    rfl
  have unspent : ¬delivery.phase.spent := by
    rw [admitted]
    exact Bool.false_ne_true
  have own := fences.permits index delivery found permit (by rw [admitted]; rfl)
  have apart := fences.apart found burning
  unfold Gateway.openToken
  split
  · refine fences.change found ?_ (fun _ => fences.held index delivery found burning)
      (fun _ _ _ _ _ isRow => isRow) (fun _ => apart) (fun spent => absurd spent unspent)
      fences.nodup (fun _ before => before) (fun _ before => .inl before) ?_
    · intro other isPermit
      cases isPermit
    · intro tells
      cases tells
  · split
    · refine fences.change found ?_ (fun _ => fences.held index delivery found burning)
        (fun _ _ _ _ _ isRow => isRow) (fun _ => apart) (fun spent => absurd spent unspent)
        fences.nodup (fun _ before => before) (fun _ before => .inl before) ?_
      · intro other isPermit
        cases isPermit
        exact own
      · intro tells
        cases tells
    · refine fences.change found ?_ ?_ ?_ ?_ (fun spent => absurd spent unspent)
        fences.nodup (fun _ before => before) (fun _ before => .inl before) ?_
      · intro other isPermit
        cases isPermit
      · intro burning
        cases burning
      · intro i d isDelivery other isBurning isRow
        rw [finish_replays]
        · exact isRow
        · intro relay _ same
          have sameId : d.wake.id = permit.requestId := congrArg Prod.snd same
          exact apart i d isDelivery other isBurning (sameId.trans own.2)
      · intro burning
        cases burning
      · intro tells
        cases tells

theorem transportOutcome_terminal {first second : Send}
    (accepted : (transportOutcome first second).2) :
    (transportOutcome first second).1.disposition = .terminal := by
  have honest : ∀ send : Send, send.accepted → send.outcome.disposition = .terminal := by
    intro send isAccepted
    cases disposition : send.outcome.disposition with
    | terminal => rfl
    | retryable => cases (send.honest disposition).symm.trans isAccepted
  unfold transportOutcome at accepted ⊢
  split at accepted
  next refreshed =>
    have nothing := first.honest (by rw [refreshed]; rfl)
    rw [nothing, Bool.false_or] at accepted
    rw [if_pos refreshed]
    exact honest second accepted
  next final =>
    rw [if_neg final]
    exact honest first accepted

theorem transportOutcome_told {first second : Send}
    (isAccepted : (transportOutcome first second).1 = .accepted) :
    (transportOutcome first second).2 := by
  unfold transportOutcome at isAccepted ⊢
  split at isAccepted
  next refreshed =>
    rw [if_pos refreshed]
    exact Bool.or_eq_true_iff.mpr (.inr (second.told isAccepted))
  next final =>
    rw [if_neg final]
    exact first.told isAccepted

theorem Fences.transport (fences : Fences config tables deliveries accepted reapedAt)
    (found : deliveries[index]? = some delivery)
    (sending : delivery.phase = .sending grant permit) (first second : Send) :
    Fences config tables (deliveries.set index
        { delivery with phase := .sent grant permit (transportOutcome first second).1 })
      (if (transportOutcome first second).2 then delivery.wake.id :: accepted else accepted)
      reapedAt := by
  have burning : delivery.phase.burning := by
    rw [sending]
    rfl
  have unspent : ¬delivery.phase.spent := by
    rw [sending]
    exact Bool.false_ne_true
  have own := fences.permits index delivery found permit (by rw [sending]; rfl)
  -- Nothing was accepted for this request yet: what was is spent, and burns alone.
  have fresh : delivery.wake.id ∉ accepted := by
    intro before
    obtain ⟨i, d, isDelivery, sameId, spent⟩ := fences.spent _ before
    have same := fences.once i index d delivery isDelivery found
      (DeliverPhase.burning_of_spent spent) burning sameId
    subst same
    cases isDelivery.symm.trans found
    exact unspent spent
  have keeps : ∀ permit', (DeliverPhase.sent grant permit
      (transportOutcome first second).1).permit = some permit' →
      hexDecode permit'.relayPubkey = some config.relayKey.val ∧
        permit'.requestId = delivery.wake.id := by
    intro other isPermit
    cases isPermit
    exact own
  split
  next isAccepted =>
    refine fences.change found keeps (fun _ => fences.held index delivery found burning)
      (fun _ _ _ _ _ isRow => isRow) (fun _ => fences.apart found burning)
      (fun spent => absurd spent unspent) (nodup_cons.mpr ⟨fresh, fences.nodup⟩)
      (fun _ before => mem_cons_of_mem _ before) ?_ (fun _ => mem_cons_self)
    intro id member
    rcases mem_cons.mp member with rfl | before
    · exact .inr ⟨rfl, decide_eq_true (transportOutcome_terminal isAccepted)⟩
    · exact .inl before
  next nothing =>
    refine fences.change found keeps (fun _ => fences.held index delivery found burning)
      (fun _ _ _ _ _ isRow => isRow) (fun _ => fences.apart found burning)
      (fun spent => absurd spent unspent)
      fences.nodup (fun _ before => before) (fun _ before => .inl before) ?_
    intro tells
    exact absurd (transportOutcome_told (of_decide_eq_true tells)) nothing

theorem Fences.finish (fences : Fences config tables deliveries accepted reapedAt)
    (found : deliveries[index]? = some delivery)
    {outcome : DeliveryOutcome} (sent : delivery.phase = .sent grant permit outcome)
    (database : Database) :
    Fences config (finishSent tables grant permit outcome database).2 (deliveries.set index
        { delivery with phase := (finishSent tables grant permit outcome database).1 })
      accepted reapedAt := by
  have burning : delivery.phase.burning := by
    rw [sent]
    rfl
  have own := fences.permits index delivery found permit (by rw [sent]; rfl)
  have apart := fences.apart found burning
  have tells : ∀ result, (result = outcome.response grant.generation ∨
      result = .serviceUnavailable none) → result = .success (some .accepted) →
      delivery.wake.id ∈ accepted := by
    rintro result (rfl | rfl) isAccepted
    · apply fences.told index delivery found
      rw [sent]
      cases outcome <;> first | rfl | cases isAccepted
    · cases isAccepted
  have isResult : (finishSent tables grant permit outcome database).1 = .responding
      (if (tables.finish permit outcome.disposition database).2 then
        outcome.response grant.generation else .serviceUnavailable none)
      (outcome.disposition = .terminal) := rfl
  rw [isResult]
  refine fences.change found ?_ ?_ ?_ ?_ ?_ fences.nodup (fun _ before => before)
    (fun _ before => .inl before) ?_
  · intro other isPermit
    cases isPermit
  · intro isBurning
    cases disposition : outcome.disposition with
    | terminal =>
      have kept : (finishSent tables grant permit outcome database).2 = tables := by
        unfold finishSent
        rw [disposition]
        rfl
      rw [kept]
      exact fences.held index delivery found burning
    | retryable =>
      rw [disposition] at isBurning
      cases isBurning
  · intro i d isDelivery other isBurning isRow
    have kept := @finish_replays tables permit outcome.disposition database (requestKey config d) (by
      intro relay _ same
      have sameId : d.wake.id = permit.requestId := congrArg Prod.snd same
      exact apart i d isDelivery other isBurning (sameId.trans own.2))
    exact kept.trans isRow
  · exact fun _ => apart
  · intro spent
    rw [sent] at spent
    have terminal : outcome.disposition = .terminal := of_decide_eq_true spent
    rw [terminal]
    rfl
  · intro told
    refine tells _ ?_ (of_decide_eq_true told)
    split
    · exact .inl rfl
    · exact .inr rfl

end phases

section systems

/-- The transport accepted a push for it, or a later attempt was told 404. -/
def System.Explained (system : System) (id : Uuid) : Prop :=
  id ∈ system.accepted ∨ ∃ attempt > 1, (id, attempt) ∈ system.refused

structure SystemSound (config : Config) (date : Uuid → ℤ) (system : System) : Prop where
  relay : Push.Sound system.relay
  dated : Push.Dated date system.relay
  drawn : ∀ (i : ℕ) d, system.deliveries[i]? = some d → d.wake.id ∈ system.relay.jobIds
  expiry : ∀ (i : ℕ) d, system.deliveries[i]? = some d → d.wake.expiresAt = date d.wake.id
  fences : Fences config system.tables system.deliveries system.accepted system.reapedAt
  completing : ∀ task wake, system.relay.phase task = some (.settling wake .complete) →
    system.Explained wake.id
  delivered : ∀ job ∈ system.relay.tables.jobs, job.state = .delivered → system.Explained job.id

variable {date : Uuid → ℤ} {system : System} {label : Push.Label}

theorem SystemSound.relayed (sound : SystemSound config date system) {refused : List (Uuid × ℕ)}
    (kept : ∀ entry ∈ system.refused, entry ∈ refused)
    (explained : ∀ task result wake, label = .answer task result →
      system.relay.phase task = some (.sent wake) →
      wake.answered result = .settling wake .complete →
      wake.id ∈ system.accepted ∨ ∃ attempt > 1, (wake.id, attempt) ∈ refused) :
    ∃ next, SystemSound config next
      { system with relay := system.relay.step label, refused } := by
  obtain ⟨later, same, dated⟩ := sound.dated.step sound.relay label
  have still : ∀ id, system.Explained id →
      id ∈ system.accepted ∨ ∃ attempt > 1, (id, attempt) ∈ refused := by
    rintro id (isAccepted | ⟨attempt, later, member⟩)
    · exact .inl isAccepted
    · exact .inr ⟨attempt, later, kept _ member⟩
  refine ⟨later, sound.relay.step label, dated, ?_, ?_, sound.fences, ?_, ?_⟩
  · exact fun i d found => Push.drawn_of_step (sound.drawn i d found)
  · intro i d found
    rw [same _ (sound.drawn i d found)]
    exact sound.expiry i d found
  · intro task wake completing
    rcases Push.completing_of_step completing with before | ⟨result, isAnswer, sent, answered⟩
    · exact still _ (sound.completing task wake before)
    · exact explained task result wake isAnswer sent answered
  · intro job member delivered
    rcases Push.delivered_of_step sound.relay member delivered with before | ⟨task, wake, found, key⟩
    · exact still _ (sound.delivered job before delivered)
    · have sameId : job.id = wake.id := congrArg Prod.snd key
      rw [sameId]
      exact still _ (sound.completing task wake found)

variable {deliveries : List Delivery}

theorem SystemSound.handled (sound : SystemSound config date system)
    {tables : Tables} {accepted : List Uuid} {reapedAt : ℤ}
    (fences : Fences config tables deliveries accepted reapedAt)
    (wakes : ∀ (i : ℕ) d, deliveries[i]? = some d → ∃ (j : ℕ) (old : Delivery),
      system.deliveries[j]? = some old ∧ d.wake = old.wake)
    (kept : ∀ id ∈ system.accepted, id ∈ accepted) :
    SystemSound config date { system with
      deliveries
      tables
      accepted
      reapedAt } := { sound with
  drawn := by
    intro i d found
    obtain ⟨j, old, before, same⟩ := wakes i d found
    rw [same]
    exact sound.drawn j old before
  expiry := by
    intro i d found
    obtain ⟨j, old, before, same⟩ := wakes i d found
    rw [same]
    exact sound.expiry j old before
  fences
  completing := by
    intro task wake found
    exact (sound.completing task wake found).imp_left (kept _)
  delivered := by
    intro job member isDelivered
    exact (sound.delivered job member isDelivered).imp_left (kept _) }

theorem wakes_set (found : deliveries[index]? = some delivery) :
    ∀ (i : ℕ) d, (deliveries.set index { delivery with phase })[i]? = some d →
      ∃ (j : ℕ) (old : Delivery), deliveries[j]? = some old ∧ d.wake = old.wake := by
  intro i d isDelivery
  rcases getElem?_set_cases isDelivery with ⟨-, rfl⟩ | ⟨-, before⟩
  · exact ⟨index, delivery, found, rfl⟩
  · exact ⟨i, d, before, rfl⟩

variable {wake : ClaimedWake}

theorem SystemSound.send (sound : SystemSound config date system) {task : ℕ}
    (ready : system.relay.phase task = some (.ready wake)) :
    ∃ next, SystemSound config next { system with
      relay := system.relay.step (.send task)
      deliveries := system.deliveries ++ [⟨task, wake, .received⟩] } := by
  have expiry := sound.dated.held ready rfl
  have drawn : wake.id ∈ system.relay.jobIds := by
    obtain ⟨entry, here, isReady⟩ := Option.map_eq_some_iff.mp ready
    have member := mem_of_getElem? here
    have same := sound.relay.phases entry member wake (by rw [isReady]; rfl)
    have claimed := sound.relay.claimed entry.wake (mem_map_of_mem member)
    rw [ClaimedWake.claim, ClaimedWake.claim, Prod.mk.injEq, Prod.mk.injEq] at same
    rw [same.2.1]
    exact claimed.1
  have appended : SystemSound config date { system with
      deliveries := system.deliveries ++ [⟨task, wake, .received⟩] } := by
    have cases_ : ∀ (i : ℕ) d, (system.deliveries ++ [⟨task, wake, .received⟩])[i]? = some d →
        system.deliveries[i]? = some d ∨ d = ⟨task, wake, .received⟩ := by
      intro i d found
      rw [getElem?_append] at found
      split at found
      · exact .inl found
      · have member := mem_of_getElem? found
        exact .inr (mem_singleton.mp member)
    have fences := sound.fences
    refine { sound with drawn := ?_, expiry := ?_, fences := ?_ }
    · intro i d found
      rcases cases_ i d found with before | rfl
      · exact sound.drawn i d before
      · exact drawn
    · intro i d found
      rcases cases_ i d found with before | rfl
      · exact sound.expiry i d before
      · exact expiry
    · refine ⟨?_, ?_, ?_, ?_, fences.nodup, ?_⟩
      · intro i d found permit isPermit
        rcases cases_ i d found with before | rfl
        · exact fences.permits i d before permit isPermit
        · cases isPermit
      · intro i d found burning
        rcases cases_ i d found with before | rfl
        · exact fences.held i d before burning
        · cases burning
      · intro i j di dj isFirst isSecond first second same
        rcases cases_ i di isFirst with beforeFirst | rfl
        · rcases cases_ j dj isSecond with beforeSecond | rfl
          · exact fences.once i j di dj beforeFirst beforeSecond first second same
          · cases second
        · cases first
      · intro id isAccepted
        obtain ⟨i, d, found, isId, spent⟩ := fences.spent id isAccepted
        refine ⟨i, d, ?_, isId, spent⟩
        rw [getElem?_append_left (List.getElem?_eq_some_iff.mp found).1]
        exact found
      · intro i d found tells
        rcases cases_ i d found with before | rfl
        · exact fences.told i d before tells
        · cases tells
  have explained : ∀ other answered wake, Push.Label.send task = .answer other answered →
      system.relay.phase other = some (.sent wake) →
      wake.answered answered = .settling wake .complete →
      wake.id ∈ system.accepted ∨ ∃ attempt > 1, (wake.id, attempt) ∈ system.refused :=
    fun _ _ _ isAnswer => by cases isAnswer
  exact appended.relayed (fun _ member => member) explained

theorem answered_complete {result : GatewayResult}
    (complete : wake.answered result = .settling wake .complete) :
    result = .success (some .accepted) ∨ result = .notFound ∧ 1 < wake.attempt := by
  unfold ClaimedWake.answered at complete
  split at complete
  · exact .inl rfl
  · cases complete
  · split at complete <;> cases complete
  · cases complete
  next body =>
    unfold ClaimedWake.retryOrFail at complete
    split at complete <;> cases complete
  · unfold ClaimedWake.retryOrFail at complete
    split at complete <;> cases complete
  · split at complete
    next later => exact .inr ⟨rfl, later⟩
    · cases complete
  · unfold ClaimedWake.retryOrFail at complete
    split at complete <;> cases complete
  · cases complete

end systems

end Buzz.Gateway
