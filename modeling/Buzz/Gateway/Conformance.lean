import Buzz.Gateway.Commits
import Buzz.Gateway.Memory

/-! The two stores side by side, call by call: the relation that they keep, and what each call needs
to keep it and to answer the same in both. -/

namespace Buzz.Gateway

open Nostr Buzz.Req Library Library.Results List
open Option (isNone_iff_eq_none map_some)

theorem toNat_le {first second : Char} (le : first ≤ second) : first.toNat ≤ second.toNat :=
  UInt32.le_iff_toNat_le.mp le

theorem hexDigit_surjective {c : Char}
    (lower : ('0' ≤ c ∧ c ≤ '9') ∨ ('a' ≤ c ∧ c ≤ 'f')) : ∃ n < 16, hexDigit n = c := by
  have digits : ∀ n < 10, hexDigit n = Char.ofNat (48 + n) := by decide
  have letters : ∀ n < 6, hexDigit (10 + n) = Char.ofNat (97 + n) := by decide
  rcases lower with ⟨low, high⟩ | ⟨low, high⟩
  · have above : 48 ≤ c.toNat := toNat_le low
    have below : c.toNat ≤ 57 := toNat_le high
    refine ⟨c.toNat - 48, by omega, ?_⟩
    rw [digits _ (by omega), Nat.add_sub_cancel' above, Char.ofNat_toNat]
  · have above : 97 ≤ c.toNat := toNat_le low
    have below : c.toNat ≤ 102 := toNat_le high
    refine ⟨10 + (c.toNat - 97), by omega, ?_⟩
    rw [letters _ (by omega), Nat.add_sub_cancel' above, Char.ofNat_toNat]

theorem hexEncode_surjective (count : ℕ) (text : HexText) (length : text.length = 2 * count)
    (lower : ∀ c ∈ text, ('0' ≤ c ∧ c ≤ '9') ∨ ('a' ≤ c ∧ c ≤ 'f')) :
    ∃ bytes : Bytes, bytes.length = count ∧ hexEncode bytes = text := by
  induction count generalizing text with
  | zero => exact ⟨[], rfl, (eq_nil_of_length_eq_zero length).symm⟩
  | succ count ih =>
    match text, length with
    | high :: low :: rest, length =>
      simp only [length_cons] at length
      obtain ⟨bytes, size, isRest⟩ := ih rest (by omega)
        (fun c member => lower c (mem_cons_of_mem _ (mem_cons_of_mem _ member)))
      obtain ⟨first, firstBound, isHigh⟩ := hexDigit_surjective (lower high (by simp))
      obtain ⟨second, secondBound, isLow⟩ := hexDigit_surjective (lower low (by simp))
      have value : (UInt8.ofNat (16 * first + second)).toNat = 16 * first + second := by
        exact UInt8.toNat_ofNat_of_lt (show _ < 256 by omega)
      have upper : (16 * first + second) / 16 = first := by omega
      have lowerDigit : (16 * first + second) % 16 = second := by omega
      refine ⟨UInt8.ofNat (16 * first + second) :: bytes, by simp [size], ?_⟩
      rw [hexEncode, flatMap_cons, hexByte, value, upper, lowerDigit, isHigh, isLow,
        ← isRest]
      rfl

theorem validRelayPubkey_hex {text : HexText} (valid : validRelayPubkey text) :
    ∃ relay : Bytes, relay.length = 32 ∧ hexEncode relay = text := by
  obtain ⟨length, lower⟩ := Bool.and_eq_true_iff.mp valid
  refine hexEncode_surjective 32 text (of_decide_eq_true length) ?_
  intro c member
  have digit := all_eq_true.mp lower c member
  simpa using digit

section related

variable {sha256 : Bytes → FixedBytes 32} {tables next : Tables} {memory : MemoryState} {now : ℤ}

def InstallationRow.toInstallation (id : Uuid) (row : InstallationRow) : Installation where
  id
  appAttestKeyId := row.appAttestKeyId
  appAttestPublicKey := row.appAttestPublicKey
  assertionCounter := row.assertionCounter
  profile := row.appProfile
  tokenCiphertext := row.tokenCiphertext
  tokenFingerprint := row.tokenFingerprint
  endpointEpoch := row.endpointEpoch
  expiresAt := row.expiresAt
  revoked := row.revokedAt.isSome

def DelegationRow.toDelegation (key : Uuid × Bytes) (row : DelegationRow) : Delegation where
  id := row.id
  installationId := key.1
  relayPubkey := hexEncode key.2
  endpointEpoch := row.endpointEpoch
  generation := row.generation
  notBefore := row.notBefore
  expiresAt := row.expiresAt
  revoked := row.revokedAt.isSome

def QuotaRow.toEntry (row : QuotaRow) : ℤ × ℤ := (row.windowStartedAt, row.admitted)

structure Related (sha256 : Bytes → FixedBytes 32) (tables : Tables) (memory : MemoryState) :
    Prop where
  challenges : ∀ id challenge, memory.challenges.get id = some challenge →
    tables.challenges.get id = some ⟨sha256 challenge.value, challenge.expiresAt⟩
  installations : ∀ id, memory.installations.get id =
    (tables.installations.get id).map (InstallationRow.toInstallation id)
  checked : ∀ id row, tables.installations.get id = some row → row.Checked
  owners : ∀ profile fingerprint id, memory.tokenOwners.get (profile, fingerprint) = some id ↔
    ∃ row, tables.installations.get id = some row ∧ row.appProfile = profile ∧
      row.tokenFingerprint = fingerprint
  delegations : ∀ id relay, memory.delegations.get (id, hexEncode relay) =
    (tables.delegations.get (id, relay)).map (DelegationRow.toDelegation (id, relay))
  named : ∀ id key, memory.delegationIds.get id = some key → ∃ relay, key.2 = hexEncode relay
  known : ∀ key row, tables.delegations.get key = some row →
    memory.delegationIds.get row.id = some (key.1, hexEncode key.2)
  dated : ∀ key row, tables.delegations.get key = some row → row.expiresAt ≤ dateMax
  authReplays : ∀ relay event, memory.deliveryAuthReplays.get (hexEncode relay, hexEncode event) =
    tables.deliveryAuthReplays.get (relay, event)
  requestReplays : ∀ relay id, memory.deliveryRequestReplays.get (hexEncode relay, id) =
    tables.deliveryRequestReplays.get (relay, id)
  quotas : ∀ fingerprint, memory.endpointQuotas.get fingerprint =
    (tables.endpointQuotas.get fingerprint).map QuotaRow.toEntry

def Conforms (sha256 : Bytes → FixedBytes 32) (tables : Tables)
    (outcome : Except AuthorityError (Answer × Tables))
    (result : Except AuthorityError Answer × MemoryState) : Prop :=
  (tables.transaction outcome).1 = result.1 ∧
    Related sha256 (tables.transaction outcome).2 result.2

inductive Paired (sha256 : Bytes → FixedBytes 32) :
    Except AuthorityError Tables → Except AuthorityError MemoryState → Prop
  | refused : Paired sha256 (.error .rejected) (.error .rejected)
  | stored (tables : Tables) (memory : MemoryState) (related : Related sha256 tables memory) :
      Paired sha256 (.ok tables) (.ok memory)

theorem Paired.conforms {first : Except AuthorityError Tables}
    {second : Except AuthorityError MemoryState} (related : Related sha256 tables memory)
    (paired : Paired sha256 first second) :
    Conforms sha256 tables (do return (.done, ← first)) (memory.updated second) := by
  cases paired with
  | refused => exact ⟨rfl, related⟩
  | stored next state after => exact ⟨rfl, after⟩

def InRange (now : ℤ) : Prop := timestamptzMin + 86400 ≤ now ∧ now + 31536000 ≤ dateMax

theorem bindDate_eq {ts : ℤ} (low : timestamptzMin ≤ ts) (high : ts ≤ dateMax) :
    bindDate ts = .ok ts := by
  have least : dateMin ≤ ts := Int.le_trans (by decide) low
  have isDate : dateFromTimestamp ts = some ts := if_pos ⟨least, high⟩
  simp only [bindDate, dateAt, isDate, okOr_some, ok_bind, require_pos low]
  rfl

theorem dateAt_eq {ts : ℤ} (low : timestamptzMin ≤ ts) (high : ts ≤ dateMax) :
    dateAt ts = .ok ts := by
  have least : dateMin ≤ ts := Int.le_trans (by decide) low
  have isDate : dateFromTimestamp ts = some ts := if_pos ⟨least, high⟩
  rw [dateAt, isDate, okOr_some]

theorem putChallenge_conforms (related : Related sha256 tables memory) (inRange : InRange now)
    {challenge : Challenge} (valid : challenge.expiresAt = now + 300)
    (fresh : tables.challenges.get challenge.id = none) :
    Conforms sha256 tables (tables.call sha256 now (.putChallenge challenge))
      (memory.call now (.putChallenge challenge)) := by
  have absent : memory.challenges.get challenge.id = none := by
    cases present : memory.challenges.get challenge.id with
    | none => rfl
    | some other => cases (related.challenges _ other present).symm.trans fresh
  have dated : bindDate challenge.expiresAt = .ok challenge.expiresAt :=
    bindDate_eq (by unfold InRange at inRange; omega) (by unfold InRange at inRange; omega)
  simp only [Tables.call, Tables.putChallenge, dated, ok_bind, fresh, Option.isNone_none,
    require_pos, MemoryState.call, MemoryState.putChallenge, absent, Option.isSome_none]
  refine ⟨rfl, { related with challenges := ?_ }⟩
  intro id other present
  change (tables.challenges.insert _ _).get id = _
  change (memory.challenges.insert _ _).get id = _ at present
  rw [Keyed.get_insert] at present ⊢
  split at present
  next same =>
    cases present
    rw [if_pos same]
  next apart =>
    rw [if_neg apart]
    exact related.challenges id other present

variable {id : Uuid}

theorem consumeChallenge_conforms (related : Related sha256 tables memory) (inRange : InRange now)
    {value : FixedBytes 32}
    (kept : ∀ row, tables.challenges.get id = some row → row.challengeHash = sha256 value →
      now ≤ row.expiresAt →
      ∃ challenge, memory.challenges.get id = some challenge ∧ challenge.value = value) :
    Conforms sha256 tables (tables.call sha256 now (.consumeChallenge id value))
      (memory.call now (.consumeChallenge id value)) := by
  have dated : bindDate now = .ok now :=
    bindDate_eq (by unfold InRange at inRange; omega) (by unfold InRange at inRange; omega)
  have dropped : ∀ (other : Tables), (∀ key, key ≠ id →
      other.challenges.get key = tables.challenges.get key) →
      other = { tables with challenges := other.challenges } →
      Related sha256 other { memory with challenges := memory.challenges.erase id } := by
    rintro other same written
    rw [written]
    refine { related with challenges := ?_ }
    intro key challenge present
    change (memory.challenges.erase id).get key = _ at present
    rw [Keyed.get_erase] at present
    split at present
    · cases present
    next apart => exact (same key apart).trans (related.challenges key challenge present)
  simp only [Tables.call, Tables.consumeChallenge, dated, ok_bind, MemoryState.call,
    MemoryState.consumeChallenge]
  cases stored : tables.challenges.get id with
  | none =>
    cases present : memory.challenges.get id with
    | none => exact ⟨rfl, related⟩
    | some other => cases (related.challenges _ other present).symm.trans stored
  | some row =>
    simp only [okOr_some, ok_bind]
    by_cases live : row.challengeHash = sha256 value ∧ now ≤ row.expiresAt
    · obtain ⟨challenge, present, isValue⟩ := kept row stored live.1 live.2
      cases stored.symm.trans (related.challenges id challenge present)
      simp only [require_pos live, ok_bind, present]
      rw [if_neg (by simpa [isValue] using live.2)]
      refine ⟨rfl, dropped _ ?_ rfl⟩
      intro key apart
      change (tables.challenges.erase id).get key = _
      rw [Keyed.get_erase, if_neg apart]
    · simp only [require_neg live, error_bind]
      cases present : memory.challenges.get id with
      | none => exact ⟨rfl, related⟩
      | some challenge =>
        cases stored.symm.trans (related.challenges id challenge present)
        dsimp only
        rw [if_pos]
        · exact ⟨rfl, dropped tables (fun _ _ => rfl) rfl⟩
        · by_cases isValue : challenge.value = value
          · right
            apply Int.not_le.mp
            intro unexpired
            exact live ⟨congrArg sha256 (congrArg Subtype.val isValue), unexpired⟩
          · exact .inl isValue

variable {row : InstallationRow} {new : Installation}

theorem Related.insertRow (related : Related sha256 tables memory)
    {tokenOwners : Keyed (AppProfile × Fingerprint) Uuid}
    (checked : row.Checked) (isNew : new = row.toInstallation id)
    (owners : ∀ profile print other, tokenOwners.get (profile, print) = some other ↔
      ∃ found, (tables.installations.insert id row).get other = some found ∧
        found.appProfile = profile ∧ found.tokenFingerprint = print) :
    Related sha256 { tables with installations := tables.installations.insert id row } { memory with
        installations := memory.installations.insert id new
        tokenOwners } := by
  refine { related with installations := ?_, checked := ?_, owners }
  · intro other
    change (memory.installations.insert id new).get other =
      ((tables.installations.insert id row).get other).map _
    rw [Keyed.get_insert, Keyed.get_insert]
    split
    next same =>
      rw [isNew, same]
      rfl
    · exact related.installations other
  · intro other found isRow
    change (tables.installations.insert id row).get other = _ at isRow
    rw [Keyed.get_insert] at isRow
    split at isRow
    · cases isRow
      exact checked
    · exact related.checked other found isRow

theorem Related.update (related : Related sha256 tables memory) {old : InstallationRow}
    (present : tables.installations.get id = some old) (checked : row.Checked)
    (isNew : new = row.toInstallation id) (profile : row.appProfile = old.appProfile)
    (fingerprint : row.tokenFingerprint = old.tokenFingerprint) :
    Related sha256 { tables with installations := tables.installations.insert id row }
      { memory with installations := memory.installations.insert id new } := by
  refine related.insertRow checked isNew ?_
  intro ofProfile ofFingerprint other
  rw [related.owners, Keyed.get_insert]
  split
  next same =>
    rw [same, present]
    simp [profile, fingerprint]
  · rfl

theorem toInstallation_live :
    (row.toInstallation id).revoked = false ↔ row.revokedAt = none := by
  simp [InstallationRow.toInstallation]

theorem toInstallation_current (id : Uuid) {epoch : ℤ} :
    (row.toInstallation id).revoked = false ∧ (row.toInstallation id).endpointEpoch = epoch ↔
      row.endpointEpoch = epoch ∧ row.revokedAt = none := by
  rw [toInstallation_live, and_comm]
  rfl

section

variable (related : Related sha256 tables memory)

include related

theorem advanceAssertionCounter_conforms {previous counter : UInt32} :
    Conforms sha256 tables (tables.call sha256 now (.advanceAssertionCounter id previous counter))
      (memory.call now (.advanceAssertionCounter id previous counter)) := by
  apply Paired.conforms related
  unfold Tables.advanceAssertionCounter MemoryState.advanceAssertionCounter
  by_cases more : previous < counter
  swap
  · simp only [require_neg more, error_bind]
    exact .refused
  simp only [require_pos more, ok_bind, related.installations id]
  cases present : tables.installations.get id with
  | none => exact .refused
  | some row =>
    simp only [okOr_some, map_some, ok_bind]
    by_cases current : row.assertionCounter = previous ∧ row.revokedAt = none
    · have same : (row.toInstallation id).revoked = false ∧
          (row.toInstallation id).assertionCounter = previous :=
        ⟨toInstallation_live.mpr current.2, current.1⟩
      simp only [require_pos current, require_pos same, ok_bind]
      exact .stored _ _ (related.update present (related.checked id row present) rfl rfl rfl)
    · have other : ¬((row.toInstallation id).revoked = false ∧
          (row.toInstallation id).assertionCounter = previous) := by
        rintro ⟨unrevoked, isCounter⟩
        exact current ⟨isCounter, toInstallation_live.mp unrevoked⟩
      simp only [require_neg current, require_neg other, error_bind]
      exact .refused

theorem revokeInstallation_conforms {expected new : ℤ} (positive : 1 ≤ expected) :
    Conforms sha256 tables (tables.call sha256 now (.revokeInstallation id expected new))
      (memory.call now (.revokeInstallation id expected new)) := by
  apply Paired.conforms related
  unfold Tables.revokeInstallation MemoryState.revokeInstallation
  by_cases isNext : nextEpoch expected = some new
  swap
  · simp only [require_neg isNext, error_bind]
    exact .refused
  simp only [require_pos isNext, ok_bind, related.installations id]
  cases present : tables.installations.get id with
  | none => exact .refused
  | some row =>
    simp only [okOr_some, map_some, ok_bind]
    by_cases current : row.endpointEpoch = expected ∧ row.revokedAt = none
    · have same := (toInstallation_current id).mpr current
      have sound := related.checked id row present
      have checked : InstallationRow.Checked
          { row with endpointEpoch := new, revokedAt := some now } :=
        ⟨sound.1, sound.2.1, sound.2.2.1,
          Int.lt_of_lt_of_le (Int.lt_of_lt_of_le Int.zero_lt_one positive) (nextEpoch_le isNext)⟩
      simp only [require_pos current, require_pos same, require_pos checked, ok_bind]
      exact .stored _ _ (related.update present checked rfl rfl rfl)
    · have other := mt (toInstallation_current id).mp current
      simp only [require_neg current, require_neg other, error_bind]
      exact .refused

theorem installation_conforms (inRange : InRange now) :
    Conforms sha256 tables (tables.call sha256 now (.installation id))
      (memory.call now (.installation id)) := by
  have dated : bindDate now = .ok now :=
    bindDate_eq (by unfold InRange at inRange; omega) (by unfold InRange at inRange; omega)
  simp only [Tables.call, Tables.installation, dated, ok_bind, MemoryState.call,
    MemoryState.installation, related.installations id]
  cases present : tables.installations.get id with
  | none => exact ⟨rfl, related⟩
  | some row =>
    simp only [okOr_some, map_some, ok_bind]
    by_cases live : row.revokedAt = none ∧ now ≤ row.expiresAt
    · have same : (row.toInstallation id).revoked = false ∧
          now ≤ (row.toInstallation id).expiresAt :=
        ⟨toInstallation_live.mpr live.1, live.2⟩
      simp only [require_pos live, require_pos same, ok_bind]
      refine ⟨?_, related⟩
      simp only [InstallationRow.toInstallation, live.1, Option.isSome_none]
      rfl
    · have other : ¬((row.toInstallation id).revoked = false ∧
          now ≤ (row.toInstallation id).expiresAt) := by
        rintro ⟨unrevoked, unexpired⟩
        exact live ⟨toInstallation_live.mp unrevoked, unexpired⟩
      simp only [require_neg live, require_neg other, error_bind]
      exact ⟨rfl, related⟩

theorem Related.owner_unique {first second : Uuid}
    {one other : InstallationRow} (isOne : tables.installations.get first = some one)
    (isOther : tables.installations.get second = some other)
    (profile : one.appProfile = other.appProfile)
    (fingerprint : one.tokenFingerprint = other.tokenFingerprint) : first = second := by
  have ofOne := (related.owners one.appProfile one.tokenFingerprint first).mpr
    ⟨one, isOne, rfl, rfl⟩
  have ofOther := (related.owners one.appProfile one.tokenFingerprint second).mpr
    ⟨other, isOther, profile.symm, fingerprint.symm⟩
  exact Option.some.inj (ofOne.symm.trans ofOther)

theorem rotateEndpoint_conforms
    {expected new : ℤ} {ciphertext : Bytes} {fingerprint : Fingerprint} (positive : 1 ≤ expected)
    (size : 1 ≤ ciphertext.length ∧ ciphertext.length ≤ 2048)
    (free : ∀ row, tables.installations.get id = some row → row.endpointEpoch = expected →
      row.revokedAt = none → ∀ entry ∈ tables.installations.entries,
        entry.2.appProfile = row.appProfile → entry.2.tokenFingerprint = fingerprint →
        entry.1 = id) :
    Conforms sha256 tables
      (tables.call sha256 now (.rotateEndpoint id expected new ciphertext fingerprint))
      (memory.call now (.rotateEndpoint id expected new ciphertext fingerprint)) := by
  apply Paired.conforms related
  unfold Tables.rotateEndpoint MemoryState.rotateEndpoint
  by_cases isNext : nextEpoch expected = some new
  swap
  · simp only [require_neg isNext, error_bind]
    exact .refused
  simp only [require_pos isNext, ok_bind, related.installations id]
  cases present : tables.installations.get id with
  | none => exact .refused
  | some row =>
    simp only [okOr_some, map_some, ok_bind]
    by_cases current : row.endpointEpoch = expected ∧ row.revokedAt = none
    swap
    · have other := mt (toInstallation_current id).mp current
      simp only [require_neg current, require_neg other, error_bind]
      exact .refused
    have same := (toInstallation_current id).mpr current
    have sound := related.checked id row present
    have checked : InstallationRow.Checked { row with
        endpointEpoch := new
        tokenCiphertext := ciphertext
        tokenFingerprint := fingerprint } :=
      ⟨sound.1, sound.2.1, size,
        Int.lt_of_lt_of_le (Int.lt_of_lt_of_le Int.zero_lt_one positive) (nextEpoch_le isNext)⟩
    have unowned := free row present current.1 current.2
    have owned : ∀ owner ∈ memory.tokenOwners.get
        ((row.toInstallation id).profile, fingerprint), owner = id := by
      intro owner isOwner
      obtain ⟨found, isFound, profile, print⟩ := (related.owners _ _ owner).mp isOwner
      exact unowned (owner, found) ((Keyed.get_eq_some _).mp isFound) profile print
    simp only [require_pos current, require_pos same, require_pos checked, require_pos unowned,
      require_pos owned, ok_bind]
    refine .stored _ _ (related.insertRow checked rfl ?_)
    intro profile print other
    change ((memory.tokenOwners.erase (row.appProfile, row.tokenFingerprint)).insert
        (row.appProfile, fingerprint) id).get _ = _ ↔
      ∃ found, (tables.installations.insert id _).get other = some found ∧ _
    rw [Keyed.get_insert, Keyed.get_insert, Keyed.get_erase]
    by_cases isNew : (profile, print) = (row.appProfile, fingerprint)
    · cases isNew
      rw [if_pos rfl]
      constructor
      · rintro ⟨⟩
        rw [if_pos rfl]
        exact ⟨_, rfl, rfl, rfl⟩
      · rintro ⟨found, isFound, isProfile, isPrint⟩
        split at isFound
        next isId => rw [isId]
        · have member := (Keyed.get_eq_some _).mp isFound
          exact congrArg some (unowned (other, found) member isProfile isPrint).symm
    · rw [if_neg isNew]
      by_cases isOther : other = id
      · -- The installation has its new fingerprint alone.
        subst isOther
        rw [if_pos rfl]
        constructor
        · intro found
          split at found
          · cases found
          next notOld =>
            obtain ⟨old, isOld, rfl, rfl⟩ := (related.owners _ _ _).mp found
            cases isOld.symm.trans present
            exact absurd rfl notOld
        · rintro ⟨found, isFound, rfl, rfl⟩
          cases isFound
          exact absurd rfl isNew
      · rw [if_neg isOther]
        split
        next isOld =>
          cases isOld
          constructor
          · intro found
            cases found
          · rintro ⟨found, isFound, isProfile, isPrint⟩
            exact absurd (related.owner_unique isFound present isProfile isPrint) isOther
        · exact related.owners profile print other

theorem createInstallation_conforms (inRange : InRange now) {n : NewInstallation}
    (key : n.appAttestKeyId.length = 32)
    (publicKey : 33 ≤ n.appAttestPublicKey.length ∧ n.appAttestPublicKey.length ≤ 256)
    (ciphertext : 1 ≤ n.tokenCiphertext.length ∧ n.tokenCiphertext.length ≤ 2048)
    (epoch : n.endpointEpoch = 1) (later : now < n.expiresAt) (soon : n.expiresAt ≤ now + 31536000)
    (newKey : ∀ entry ∈ tables.installations.entries, entry.2.appAttestKeyId = n.appAttestKeyId →
      ∃ other ∈ tables.installations.entries, other.1 = n.id ∨
        other.2.appProfile = n.profile ∧ other.2.tokenFingerprint = n.tokenFingerprint) :
    Conforms sha256 tables (tables.call sha256 now (.createInstallation n))
      (memory.call now (.createInstallation n)) := by
  apply Paired.conforms related
  have dated : bindDate n.expiresAt = .ok n.expiresAt :=
    bindDate_eq (by unfold InRange at inRange; omega) (by unfold InRange at inRange; omega)
  simp only [Tables.createInstallation, MemoryState.createInstallation, dated, ok_bind]
  generalize isRow : InstallationRow.mk n.appAttestKeyId n.appAttestPublicKey n.assertionCounter
    n.profile n.tokenCiphertext n.tokenFingerprint n.endpointEpoch n.expiresAt none = row
  have profile : row.appProfile = n.profile := by rw [← isRow]
  have print : row.tokenFingerprint = n.tokenFingerprint := by rw [← isRow]
  have keyId : row.appAttestKeyId = n.appAttestKeyId := by rw [← isRow]
  have checked : row.Checked := by
    rw [← isRow]
    have size : 1 ≤ n.appAttestKeyId.length ∧ n.appAttestKeyId.length ≤ 128 := by
      rw [key]
      decide
    exact ⟨size, publicKey, ciphertext, Int.lt_of_lt_of_le Int.zero_lt_one (Int.le_of_eq epoch.symm)⟩
  simp only [require_pos checked, ok_bind]
  have free : tables.conflicts n.id row = false ↔ (memory.installations.get n.id).isNone ∧
      (memory.tokenOwners.get (n.profile, n.tokenFingerprint)).isNone := by
    rw [Tables.conflicts, any_eq_false, related.installations, Option.isNone_map,
      isNone_iff_eq_none, isNone_iff_eq_none, Keyed.get_eq_none]
    constructor
    · intro clear
      have apart : ∀ entry ∈ tables.installations.entries, ¬(entry.1 = n.id ∨
          entry.2.appAttestKeyId = row.appAttestKeyId ∨ entry.2.appProfile = row.appProfile ∧
            entry.2.tokenFingerprint = row.tokenFingerprint) :=
        fun entry member taken => clear entry member (decide_eq_true taken)
      refine ⟨fun entry member same => apart entry member (.inl same), ?_⟩
      cases owner : memory.tokenOwners.get (n.profile, n.tokenFingerprint) with
      | none => rfl
      | some other =>
        obtain ⟨found, isFound, sameProfile, samePrint⟩ := (related.owners _ _ other).mp owner
        exact absurd (.inr (.inr ⟨sameProfile.trans profile.symm, samePrint.trans print.symm⟩))
          (apart (other, found) ((Keyed.get_eq_some _).mp isFound))
    · rintro ⟨noId, noOwner⟩ entry member taken
      have unowned : ∀ other ∈ tables.installations.entries, ¬(other.2.appProfile = n.profile ∧
          other.2.tokenFingerprint = n.tokenFingerprint) := by
        intro other isOther same
        have owner := (related.owners n.profile n.tokenFingerprint other.1).mpr
          ⟨other.2, (Keyed.get_eq_some _).mpr isOther, same⟩
        cases owner.symm.trans noOwner
      rcases of_decide_eq_true taken with isId | isKey | isToken
      · exact noId entry member isId
      · obtain ⟨other, isOther, isId | isToken⟩ := newKey entry member (isKey.trans keyId)
        · exact noId other isOther isId
        · exact unowned other isOther isToken
      · exact unowned entry member ⟨isToken.1.trans profile, isToken.2.trans print⟩
  by_cases clear : tables.conflicts n.id row = false
  swap
  · simp only [require_neg clear, require_neg (mt free.mpr clear), error_bind]
    exact .refused
  have absent := free.mp clear
  simp only [require_pos clear, require_pos absent, ok_bind]
  have noRow : tables.installations.get n.id = none := by
    have none := absent.1
    rw [related.installations, Option.isNone_map] at none
    exact Option.isNone_iff_eq_none.mp none
  refine .stored _ _ (related.insertRow checked ?_ ?_)
  · rw [← isRow]
    rfl
  · intro ofProfile ofPrint other
    rw [Keyed.get_insert, Keyed.get_insert]
    by_cases isNew : (ofProfile, ofPrint) = (n.profile, n.tokenFingerprint)
    · cases isNew
      rw [if_pos rfl]
      constructor
      · rintro ⟨⟩
        rw [if_pos rfl]
        exact ⟨row, rfl, profile, print⟩
      · rintro ⟨found, isFound, isProfile, isPrint⟩
        split at isFound
        next isId => rw [isId]
        · have owner := (related.owners _ _ other).mpr ⟨found, isFound, isProfile, isPrint⟩
          rw [Option.isNone_iff_eq_none.mp absent.2] at owner
          cases owner
    · rw [if_neg isNew, related.owners]
      by_cases isOther : other = n.id
      · subst isOther
        rw [if_pos rfl, noRow]
        constructor
        · rintro ⟨found, isFound, _⟩
          cases isFound
        · rintro ⟨found, isFound, rfl, rfl⟩
          cases isFound
          exact absurd (Prod.ext profile print) isNew
      · rw [if_neg isOther]

end

theorem decodeHex_eq {bytes : Bytes} : decodeHex (hexEncode bytes) = .ok bytes := by
  rw [decodeHex, hexDecode_hexEncode, okOr_some]

section

variable (related : Related sha256 tables memory)

include related

theorem Related.delegate {key : Uuid × Bytes}
    {row : DelegationRow} {new : Delegation} {ids : Keyed Uuid (Uuid × HexText)}
    (isNew : new = row.toDelegation key)
    (kept : ∀ id, ids.get id =
      if id = row.id then some (key.1, hexEncode key.2) else memory.delegationIds.get id)
    (own : ∀ other found, tables.delegations.get other = some found → other ≠ key →
      found.id ≠ row.id)
    (dated : row.expiresAt ≤ dateMax) :
    Related sha256 { tables with delegations := tables.delegations.insert key row }
      { memory with
        delegations := memory.delegations.insert (key.1, hexEncode key.2) new
        delegationIds := ids } := by
  refine { related with delegations := ?_, named := ?_, known := ?_, dated := ?_ }
  · intro id relay
    change (memory.delegations.insert _ new).get _ = ((tables.delegations.insert key row).get _).map _
    rw [Keyed.get_insert, Keyed.get_insert]
    by_cases same : (id, relay) = key
    · subst same
      rw [if_pos rfl, if_pos rfl, isNew]
      rfl
    · rw [if_neg same, if_neg, related.delegations]
      intro sameText
      have ofId : id = key.1 := congrArg Prod.fst sameText
      have ofText : hexEncode relay = hexEncode key.2 := congrArg Prod.snd sameText
      exact same (Prod.ext ofId (hexEncode_injective ofText))
  · intro id found isKey
    change ids.get id = _ at isKey
    rw [kept] at isKey
    split at isKey
    · cases isKey
      exact ⟨key.2, rfl⟩
    · exact related.named id found isKey
  · intro other found isFound
    change ids.get found.id = _
    change (tables.delegations.insert key row).get other = _ at isFound
    rw [kept]
    rw [Keyed.get_insert] at isFound
    split at isFound
    next same =>
      cases isFound
      rw [if_pos rfl, same]
    next apart =>
      rw [if_neg (own other found isFound apart)]
      exact related.known other found isFound
  · intro other found isFound
    change (tables.delegations.insert key row).get other = _ at isFound
    rw [Keyed.get_insert] at isFound
    split at isFound
    · cases isFound
      exact dated
    · exact related.dated other found isFound

theorem revokeDelegation_conforms
    {text : HexText} {generation : ℤ} (valid : validRelayPubkey text) :
    Conforms sha256 tables (tables.call sha256 now (.revokeDelegation id text generation))
      (memory.call now (.revokeDelegation id text generation)) := by
  apply Paired.conforms related
  obtain ⟨relay, _, rfl⟩ := validRelayPubkey_hex valid
  simp only [Tables.revokeDelegation, MemoryState.revokeDelegation, decodeHex_eq, ok_bind,
    related.delegations]
  cases present : tables.delegations.get (id, relay) with
  | none => exact .refused
  | some row =>
    simp only [okOr_some, map_some, ok_bind]
    by_cases older : row.generation < generation
    · have same : (row.toDelegation (id, relay)).generation < generation := older
      simp only [require_pos older, require_pos same, ok_bind]
      refine .stored _ _ (@Related.delegate _ _ _ related (id, relay) _ _ _ rfl ?_ ?_
        (related.dated _ row present))
      · intro other
        split
        next isId =>
          rw [isId]
          exact related.known _ row present
        · rfl
      · intro other found isFound apart isId
        have ofOther := related.known other found isFound
        have ofRow := related.known _ row present
        have sameKey : (other.1, hexEncode other.2) = (id, hexEncode relay) :=
          Option.some.inj (ofOther.symm.trans ((congrArg _ isId).trans ofRow))
        have ofId : other.1 = id := congrArg Prod.fst sameKey
        have ofText : hexEncode other.2 = hexEncode relay := congrArg Prod.snd sameKey
        exact apart (Prod.ext ofId (hexEncode_injective ofText))
    · have same : ¬(row.toDelegation (id, relay)).generation < generation := older
      simp only [require_neg older, require_neg same, error_bind]
      exact .refused

theorem upsertDelegation_conforms (inRange : InRange now)
    {d : Delegation} (valid : validRelayPubkey d.relayPubkey) (epoch : 1 ≤ d.endpointEpoch)
    (generation : 1 ≤ d.generation) (ordered : d.notBefore < d.expiresAt)
    (soon : d.expiresAt ≤ now + 31536000) (active : d.revoked = false)
    (fresh : memory.delegationIds.get d.id = none)
    (storable : ∀ row, tables.installations.get d.installationId = some row →
      row.revokedAt = none → row.endpointEpoch = d.endpointEpoch → d.expiresAt ≤ row.expiresAt →
      timestamptzMin ≤ d.notBefore) :
    Conforms sha256 tables (tables.call sha256 now (.upsertDelegation d))
      (memory.call now (.upsertDelegation d)) := by
  apply Paired.conforms related
  obtain ⟨relay, length, isRelay⟩ := validRelayPubkey_hex valid
  unfold Tables.upsertDelegation MemoryState.upsertDelegation
  rw [related.installations]
  cases present : tables.installations.get d.installationId with
  | none => exact .refused
  | some i =>
    simp only [okOr_some, map_some, ok_bind]
    by_cases current : i.revokedAt = none ∧ i.endpointEpoch = d.endpointEpoch
    swap
    · have other : ¬((i.toInstallation d.installationId).revoked = false ∧
          (i.toInstallation d.installationId).endpointEpoch = d.endpointEpoch ∧
          1 ≤ d.generation ∧ d.notBefore < d.expiresAt ∧
          d.expiresAt ≤ (i.toInstallation d.installationId).expiresAt) := by
        rintro ⟨unrevoked, isEpoch, _⟩
        exact current ⟨toInstallation_live.mp unrevoked, isEpoch⟩
      simp only [require_neg current, require_neg other, error_bind]
      exact .refused
    simp only [require_pos current, ok_bind]
    by_cases within : d.expiresAt ≤ i.expiresAt
    swap
    · have other : ¬((i.toInstallation d.installationId).revoked = false ∧
          (i.toInstallation d.installationId).endpointEpoch = d.endpointEpoch ∧
          1 ≤ d.generation ∧ d.notBefore < d.expiresAt ∧
          d.expiresAt ≤ (i.toInstallation d.installationId).expiresAt) :=
        fun conditions => within conditions.2.2.2.2
      simp only [require_neg other, error_bind]
      -- Whether the expiry is a date or not, it is refused.
      cases dated : dateAt d.expiresAt with
      | error error =>
        have isError := (okOr_error.mp dated).2
        rw [← isError]
        exact .refused
      | ok date =>
        cases dateAt_ok dated
        simp only [ok_bind, require_neg within, error_bind]
        exact .refused
    have same : (i.toInstallation d.installationId).revoked = false ∧
        (i.toInstallation d.installationId).endpointEpoch = d.endpointEpoch ∧
        1 ≤ d.generation ∧ d.notBefore < d.expiresAt ∧
        d.expiresAt ≤ (i.toInstallation d.installationId).expiresAt :=
      ⟨toInstallation_live.mpr current.1, current.2, generation, ordered, within⟩
    have low := storable i present current.1 current.2 within
    have high : d.expiresAt ≤ dateMax := by
      unfold InRange at inRange
      omega
    have expiry : dateAt d.expiresAt = .ok d.expiresAt := dateAt_eq (by omega) high
    have bound : bindDate d.expiresAt = .ok d.expiresAt := bindDate_eq (by omega) high
    have start : bindDate d.notBefore = .ok d.notBefore := bindDate_eq low (by omega)
    have checked : DelegationRow.Checked
        ⟨d.id, d.endpointEpoch, d.generation, d.notBefore, d.expiresAt, none⟩ relay :=
      ⟨length, epoch, generation, ordered⟩
    have unused : ∀ key row, tables.delegations.get key = some row → row.id ≠ d.id := by
      intro key row isRow isId
      have known := related.known key row isRow
      rw [isId, fresh] at known
      cases known
    have unique : ∀ entry ∈ tables.delegations.entries, entry.2.id = d.id →
        entry.1 = (d.installationId, relay) :=
      fun entry member isId =>
        absurd isId (unused entry.1 entry.2 ((Keyed.get_eq_some _).mpr member))
    simp only [require_pos same, expiry, require_pos within, ← isRelay, decodeHex_eq, start,
      bound, require_pos checked, ok_bind, require_pos unique]
    by_cases newer : ∀ old ∈ tables.delegations.get (d.installationId, relay),
        old.generation < d.generation
    · have accepted : (∀ old ∈ memory.delegations.get (d.installationId, hexEncode relay),
          old.generation < d.generation) ∧ (memory.delegationIds.get d.id).isNone := by
        rw [related.delegations, fresh]
        refine ⟨?_, rfl⟩
        intro old isOld
        obtain ⟨row, isRow, rfl⟩ := Option.map_eq_some_iff.mp isOld
        exact newer row isRow
      simp only [require_pos newer, require_pos accepted, ok_bind]
      refine .stored _ _ (@Related.delegate _ _ _ related (d.installationId, relay) _ _ _ ?_ ?_ ?_ high)
      · obtain ⟨id, installationId, relayPubkey, endpointEpoch, gen, notBefore, expiresAt,
          revoked⟩ := d
        cases active
        cases isRelay
        rfl
      · intro id
        rw [Keyed.get_insert]
      · intro other found isFound _
        exact unused other found isFound
    · have refused : ¬((∀ old ∈ memory.delegations.get (d.installationId, hexEncode relay),
          old.generation < d.generation) ∧ (memory.delegationIds.get d.id).isNone) := by
        rintro ⟨accepted, _⟩
        apply newer
        intro old isOld
        have stored : old.toDelegation (d.installationId, relay) ∈
            memory.delegations.get (d.installationId, hexEncode relay) := by
          rw [related.delegations]
          exact Option.map_eq_some_iff.mpr ⟨old, isOld, rfl⟩
        exact accepted _ stored
      simp only [require_neg newer, require_neg refused, error_bind]
      exact .refused

theorem chargeQuota_entry (inRange : InRange now)
    (fingerprint : Fingerprint) {window quotaMax : ℤ} (bounds : 1 ≤ window ∧ window ≤ 86400)
    (positive : 1 ≤ quotaMax) :
    (tables.chargeQuota fingerprint now window quotaMax = .error .rejected ∧
      quotaMax ≤ (memory.quotaEntry fingerprint now window).2 ∧
      memory.endpointQuotas.get fingerprint = some (memory.quotaEntry fingerprint now window)) ∨
    ∃ quota, tables.chargeQuota fingerprint now window quotaMax = .ok quota ∧
      (memory.quotaEntry fingerprint now window).2 < quotaMax ∧
      quota.toEntry = ((memory.quotaEntry fingerprint now window).1,
        (memory.quotaEntry fingerprint now window).2 + 1) := by
  have clamped : ∀ start, window ≤ saturatingSub now start ↔ start ≤ now - window := by
    intro start
    unfold saturatingSub i64Min i64Max
    omega
  have charge := related.quotas fingerprint
  unfold Tables.chargeQuota MemoryState.quotaEntry
  rw [charge]
  cases tables.endpointQuotas.get fingerprint with
  | none =>
    right
    have started : ¬window ≤ saturatingSub now now := by
      rw [clamped]
      omega
    refine ⟨_, rfl, ?_, ?_⟩ <;> simp only [Option.map_none, Option.getD_none, if_neg started]
    · exact positive
    · rfl
  | some row =>
    have early : timestamptzMin ≤ now - window := by
      unfold InRange at inRange
      omega
    simp only [require_pos early, ok_bind, map_some, Option.getD_some]
    have isStart : row.toEntry.1 = row.windowStartedAt := rfl
    rw [isStart]
    by_cases ended : row.windowStartedAt ≤ now - window
    · right
      rw [if_pos ended, if_pos ((clamped _).mpr ended)]
      exact ⟨_, rfl, positive, rfl⟩
    · rw [if_neg ended, if_neg (mt (clamped _).mp ended)]
      by_cases below : row.admitted < quotaMax
      · right
        rw [require_pos below]
        exact ⟨_, rfl, below, rfl⟩
      · left
        rw [require_neg below]
        exact ⟨rfl, Int.not_lt.mp below, rfl⟩

end

variable {error : AuthorityError}

theorem refusal {condition : Prop} [Decidable condition]
    (fails : require condition AuthorityError.rejected = .error error) : error = .rejected :=
  (require_error.mp fails).2.symm

theorem missing {Value : Type} {value : Option Value}
    (fails : okOr value AuthorityError.rejected = .error error) : error = .rejected :=
  (okOr_error.mp fails).2.symm

theorem authorizeDelivery_rejects (related : Related sha256 tables memory) (inRange : InRange now)
    {request : DeliveryRequest} {relay event : Bytes} (isRelay : request.relay = hexEncode relay)
    (length : relay.length = 32) (isEvent : request.eventId = hexEncode event)
    (size : event.length = 32)
    (window : 1 ≤ request.quotaWindowSeconds ∧ request.quotaWindowSeconds ≤ 86400)
    (positive : 1 ≤ request.quotaMaxDeliveries)
    (failed : tables.authorizeDelivery request now = .error error) : error = .rejected := by
  have today : bindDate now = .ok now :=
    bindDate_eq (by unfold InRange at inRange; omega) (by unfold InRange at inRange; omega)
  have date : dateAt now = .ok now :=
    dateAt_eq (by unfold InRange at inRange; omega) (by unfold InRange at inRange; omega)
  simp only [Tables.authorizeDelivery, isRelay, isEvent, decodeHex_eq, ok_bind, require_pos size,
    today, date, require_pos length,
    require_pos (show _ ∧ _ from ⟨window.1, positive⟩)] at failed
  rcases bind_error failed with fails | ⟨⟨⟨installationId, relayPubkey⟩, d⟩, isDelegation, rest⟩
  · exact missing fails
  rcases bind_error rest with fails | ⟨i, isInstallation, rest⟩
  · exact missing fails
  rcases bind_error rest with fails | ⟨_, unrevoked, rest⟩
  · exact refusal fails
  rcases bind_error rest with fails | ⟨_, unexpired, rest⟩
  · exact refusal fails
  rcases bind_error rest with fails | ⟨_, valid, rest⟩
  · exact refusal fails
  rcases bind_error rest with fails | ⟨_, expiry, rest⟩
  · exact refusal fails
  rcases bind_error rest with fails | ⟨quota, charged, rest⟩
  · rcases chargeQuota_entry related inRange i.tokenFingerprint window positive
      with ⟨refused, _⟩ | ⟨quota, charged, _⟩
    · cases refused.symm.trans fails
      rfl
    · cases charged.symm.trans fails
  obtain ⟨found, _⟩ := delegationById_some (okOr_ok.mp isDelegation)
  have ends := require_ok.mp expiry
  have last := related.dated _ d found
  have bound : bindDate request.requestExpiresAt = .ok request.requestExpiresAt :=
    bindDate_eq (by unfold InRange at inRange; omega) (Int.le_trans ends.2 last)
  simp only [bound, ok_bind] at rest
  rcases bind_error rest with fails | ⟨_, free, rest⟩
  · exact refusal fails
  · cases rest

structure Admissible (tables : Tables) (request : DeliveryRequest) (now : ℤ) (relay event : Bytes)
    (installationId : Uuid) (d : DelegationRow) (i : InstallationRow) : Prop where
  delegation : tables.delegations.get (installationId, relay) = some d
  delegationId : d.id = request.delegationId
  installation : tables.installations.get installationId = some i
  live : i.revokedAt = none ∧ now ≤ i.expiresAt
  epochs : i.endpointEpoch = request.epoch ∧ d.endpointEpoch = request.epoch
  generation : d.generation = request.generation
  valid : d.revokedAt = none ∧ d.notBefore ≤ now ∧ now ≤ d.expiresAt
  expiry : now ≤ request.requestExpiresAt ∧ request.requestExpiresAt ≤ d.expiresAt
  unused : tables.deliveryAuthReplays.get (relay, event) = none
  fresh : tables.deliveryRequestReplays.get (relay, request.requestId) = none

def authorityOf (request : DeliveryRequest) (installationId : Uuid) (d : DelegationRow)
    (i : InstallationRow) : DeliveryAuthority where
  delegationId := request.delegationId
  installationId
  relayPubkey := request.relay
  profile := i.appProfile
  tokenCiphertext := i.tokenCiphertext
  endpointEpoch := request.epoch
  generation := request.generation
  expiresAt := d.expiresAt

section admissible

variable {request : DeliveryRequest} {relay event : Bytes} {installationId : Uuid}
  {d : DelegationRow} {i : InstallationRow}

theorem toDelegation_active {key : Uuid × Bytes} {row : DelegationRow} :
    (row.toDelegation key).revoked = false ↔ row.revokedAt = none := by
  simp [DelegationRow.toDelegation]

section

variable (related : Related sha256 tables memory)

include related

theorem Admissible.admitted
    (isRelay : request.relay = hexEncode relay) (isEvent : request.eventId = hexEncode event)
    (admissible : Admissible tables request now relay event installationId d i) :
    memory.admissible request now =
      .ok (authorityOf request installationId d i, i.tokenFingerprint) := by
  have named : memory.delegationIds.get request.delegationId =
      some (installationId, hexEncode relay) :=
    admissible.delegationId ▸ related.known _ d admissible.delegation
  have delegation := related.delegations installationId relay
  have installation := related.installations installationId
  rw [admissible.delegation, map_some] at delegation
  rw [admissible.installation, map_some] at installation
  generalize isDelegated : d.toDelegation (installationId, relay) = delegated at delegation
  generalize isInstalled : i.toInstallation installationId = installed at installation
  have conditions : delegated.revoked = false ∧ installed.revoked = false ∧
      delegated.id = request.delegationId ∧ delegated.relayPubkey = request.relay ∧
      delegated.endpointEpoch = request.epoch ∧ delegated.generation = request.generation ∧
      installed.endpointEpoch = request.epoch ∧ delegated.notBefore ≤ now ∧
      now ≤ delegated.expiresAt ∧ now ≤ installed.expiresAt ∧ now ≤ request.requestExpiresAt ∧
      request.requestExpiresAt ≤ delegated.expiresAt := by
    subst isDelegated isInstalled
    exact ⟨toDelegation_active.mpr admissible.valid.1, toInstallation_live.mpr admissible.live.1,
      admissible.delegationId, isRelay.symm, admissible.epochs.2, admissible.generation,
      admissible.epochs.1, admissible.valid.2.1, admissible.valid.2.2, admissible.live.2,
      admissible.expiry⟩
  have clear : (memory.deliveryAuthReplays.get (request.relay, request.eventId)).isNone ∧
      (memory.deliveryRequestReplays.get (request.relay, request.requestId)).isNone := by
    rw [isRelay, isEvent, related.authReplays, related.requestReplays, admissible.unused,
      admissible.fresh]
    exact ⟨rfl, rfl⟩
  have isInstallation : delegated.installationId = installationId := by rw [← isDelegated]; rfl
  simp only [MemoryState.admissible, named, delegation, okOr_some, ok_bind, isInstallation,
    installation, require_pos conditions, require_pos clear]
  subst isDelegated isInstalled
  rfl

theorem admissible_tables
    (isRelay : request.relay = hexEncode relay) (isEvent : request.eventId = hexEncode event)
    {result : DeliveryAuthority × Fingerprint} (ok : memory.admissible request now = .ok result) :
    ∃ installationId d i, Admissible tables request now relay event installationId d i := by
  obtain ⟨⟨installationId, text⟩, isKey, rest⟩ := bind_ok ok
  obtain ⟨delegation, isDelegation, rest⟩ := bind_ok rest
  obtain ⟨installation, isInstallation, rest⟩ := bind_ok rest
  obtain ⟨_, conditions, rest⟩ := bind_ok rest
  obtain ⟨_, clear, _⟩ := bind_ok rest
  obtain ⟨bytes, rfl⟩ := related.named _ _ (okOr_ok.mp isKey)
  have found := okOr_ok.mp isDelegation
  rw [related.delegations] at found
  obtain ⟨d, isRow, rfl⟩ := Option.map_eq_some_iff.mp found
  have owner := okOr_ok.mp isInstallation
  rw [related.installations] at owner
  obtain ⟨i, isOwner, rfl⟩ := Option.map_eq_some_iff.mp owner
  obtain ⟨active, unrevoked, isId, isText, epoch, generation, current, started, lasting, live,
    expiry⟩ := require_ok.mp conditions
  have sameRelay : bytes = relay := hexEncode_injective (isText.trans isRelay)
  subst sameRelay
  have free := require_ok.mp clear
  rw [isRelay, isEvent, related.authReplays, related.requestReplays,
    isNone_iff_eq_none, isNone_iff_eq_none] at free
  exact ⟨installationId, d, i, {
    delegation := isRow
    delegationId := isId
    installation := isOwner
    live := ⟨toInstallation_live.mp unrevoked, live⟩
    epochs := ⟨current, epoch⟩
    generation
    valid := ⟨toDelegation_active.mp active, started, lasting⟩
    expiry
    unused := free.1
    fresh := free.2 }⟩

theorem Related.delegationById (present : tables.delegations.get (installationId, relay) = some d) :
    tables.delegationById d.id = some ((installationId, relay), d) := by
  unfold Tables.delegationById
  cases found : tables.delegations.entries.find? fun entry => decide (entry.2.id = d.id) with
  | none =>
    have absent := find?_eq_none.mp found _ ((Keyed.get_eq_some _).mp present)
    exact absurd (decide_eq_true rfl) absent
  | some entry =>
    obtain ⟨isEntry, isId⟩ := delegationById_some found
    have ofEntry := related.known entry.1 entry.2 isEntry
    rw [isId, related.known _ d present] at ofEntry
    have sameKey := Option.some.inj ofEntry
    have ofId : installationId = entry.1.1 := congrArg Prod.fst sameKey
    have ofText : hexEncode relay = hexEncode entry.1.2 := congrArg Prod.snd sameKey
    have isKey : (installationId, relay) = entry.1 := Prod.ext ofId (hexEncode_injective ofText)
    rw [← isKey, present] at isEntry
    exact congrArg some (Prod.ext isKey.symm (Option.some.inj isEntry).symm)

theorem authorizeDelivery_eq (inRange : InRange now)
    (isRelay : request.relay = hexEncode relay) (length : relay.length = 32)
    (isEvent : request.eventId = hexEncode event) (size : event.length = 32)
    (bounds : 1 ≤ request.quotaWindowSeconds ∧ 1 ≤ request.quotaMaxDeliveries)
    (admissible : Admissible tables request now relay event installationId d i) :
    tables.authorizeDelivery request now = do
      let quota ← tables.chargeQuota i.tokenFingerprint now request.quotaWindowSeconds
        request.quotaMaxDeliveries
      return (⟨authorityOf request installationId d i, request.relay, request.requestId⟩,
        { tables with
          endpointQuotas := tables.endpointQuotas.insert i.tokenFingerprint quota
          deliveryAuthReplays :=
            tables.deliveryAuthReplays.insert (relay, event) request.requestExpiresAt
          deliveryRequestReplays :=
            tables.deliveryRequestReplays.insert (relay, request.requestId)
              request.requestExpiresAt }) := by
  have today : bindDate now = .ok now :=
    bindDate_eq (by unfold InRange at inRange; omega) (by unfold InRange at inRange; omega)
  have date : dateAt now = .ok now :=
    dateAt_eq (by unfold InRange at inRange; omega) (by unfold InRange at inRange; omega)
  have bound : bindDate request.requestExpiresAt = .ok request.requestExpiresAt :=
    bindDate_eq
      (Int.le_trans (by unfold InRange at inRange; omega) admissible.expiry.1)
      (Int.le_trans admissible.expiry.2 (related.dated _ d admissible.delegation))
  have named := admissible.delegationId ▸ related.delegationById admissible.delegation
  have current : i.revokedAt = none ∧ i.endpointEpoch = request.epoch :=
    ⟨admissible.live.1, admissible.epochs.1⟩
  have valid : d.endpointEpoch = request.epoch ∧ d.generation = request.generation ∧
      d.revokedAt = none ∧ d.notBefore ≤ now ∧ now ≤ d.expiresAt :=
    ⟨admissible.epochs.2, admissible.generation, admissible.valid⟩
  have clear : (tables.deliveryAuthReplays.get (relay, event)).isNone ∧
      (tables.deliveryRequestReplays.get (relay, request.requestId)).isNone := by
    rw [admissible.unused, admissible.fresh]
    exact ⟨rfl, rfl⟩
  simp only [Tables.authorizeDelivery, isRelay, isEvent, decodeHex_eq, ok_bind, require_pos size,
    named, okOr_some, admissible.installation, require_pos current, date,
    require_pos admissible.live.2, today, require_pos admissible.expiry, require_pos bounds, bound,
    require_pos length, require_pos clear, authorityOf]
  simp only [require, valid, and_self, if_true, ok_bind]

end

theorem admissible_error {error : AuthorityError}
    (failed : memory.admissible request now = .error error) : error = .rejected := by
  rcases bind_error failed with fails | ⟨_, _, rest⟩
  · exact missing fails
  rcases bind_error rest with fails | ⟨_, _, rest⟩
  · exact missing fails
  rcases bind_error rest with fails | ⟨_, _, rest⟩
  · exact missing fails
  rcases bind_error rest with fails | ⟨_, _, rest⟩
  · exact refusal fails
  rcases bind_error rest with fails | ⟨_, _, rest⟩
  · exact refusal fails
  · cases rest

theorem Related.replays (related : Related sha256 tables memory) {fingerprint : Fingerprint}
    {quota : QuotaRow} {entry : ℤ × ℤ} {expiry : ℤ} (same : quota.toEntry = entry) {id : Uuid} :
    Related sha256
      { tables with
        endpointQuotas := tables.endpointQuotas.insert fingerprint quota
        deliveryAuthReplays := tables.deliveryAuthReplays.insert (relay, event) expiry
        deliveryRequestReplays := tables.deliveryRequestReplays.insert (relay, id) expiry }
      { memory with
        endpointQuotas := memory.endpointQuotas.insert fingerprint entry
        deliveryAuthReplays :=
          memory.deliveryAuthReplays.insert (hexEncode relay, hexEncode event) expiry
        deliveryRequestReplays :=
          memory.deliveryRequestReplays.insert (hexEncode relay, id) expiry } := by
  refine { related with authReplays := ?_, requestReplays := ?_, quotas := ?_ }
  · intro ofRelay ofEvent
    change (memory.deliveryAuthReplays.insert _ _).get _ =
      (tables.deliveryAuthReplays.insert _ _).get _
    rw [Keyed.get_insert, Keyed.get_insert]
    simp only [Prod.mk.injEq, hexEncode_injective.eq_iff, related.authReplays]
  · intro ofRelay other
    change (memory.deliveryRequestReplays.insert _ _).get _ =
      (tables.deliveryRequestReplays.insert _ _).get _
    rw [Keyed.get_insert, Keyed.get_insert]
    simp only [Prod.mk.injEq, hexEncode_injective.eq_iff, related.requestReplays]
  · intro other
    change (memory.endpointQuotas.insert _ _).get _ =
      ((tables.endpointQuotas.insert _ _).get _).map _
    rw [Keyed.get_insert, Keyed.get_insert]
    split
    · rw [map_some, same]
    · exact related.quotas other

theorem authorizeDelivery_conforms (related : Related sha256 tables memory)
    (inRange : InRange now) (valid : validRelayPubkey request.relay) {eventId : EventId}
    (isEvent : request.eventId = hexEncode eventId.val)
    (window : 1 ≤ request.quotaWindowSeconds ∧ request.quotaWindowSeconds ≤ 86400)
    (positive : 1 ≤ request.quotaMaxDeliveries) :
    Conforms sha256 tables (tables.call sha256 now (.authorizeDelivery request))
      (memory.call now (.authorizeDelivery request)) := by
  obtain ⟨bytes, length, decoded⟩ := validRelayPubkey_hex valid
  have isRelay := decoded.symm
  simp only [Tables.call, MemoryState.call, MemoryState.authorizeDelivery]
  cases checked : memory.admissible request now with
  | error error =>
    cases admissible_error checked
    cases outcome : tables.authorizeDelivery request now with
    | error error =>
      cases authorizeDelivery_rejects related inRange isRelay length isEvent eventId.property
        window positive outcome
      exact ⟨rfl, related⟩
    | ok result =>
      obtain ⟨permit, next⟩ := result
      obtain ⟨relay, event, d, i, quota, granted⟩ := authorizeDelivery_ok outcome
      have ofRelay := granted.decoded
      have ofEvent := granted.eventDecoded
      rw [isRelay, hexDecode_hexEncode] at ofRelay
      rw [isEvent, hexDecode_hexEncode] at ofEvent
      cases ofRelay
      cases ofEvent
      have admissible : Admissible tables request now bytes eventId.val
          permit.authority.installationId d i :=
        ⟨granted.delegation, granted.delegationId, granted.installation, granted.live,
          granted.epochs, granted.generation, granted.valid, granted.expiry, granted.unused,
          granted.fresh⟩
      cases checked.symm.trans (admissible.admitted related isRelay isEvent)
  | ok result =>
    obtain ⟨installationId, d, i, admissible⟩ :=
      admissible_tables related isRelay isEvent checked
    cases checked.symm.trans (admissible.admitted related isRelay isEvent)
    rw [authorizeDelivery_eq related inRange isRelay length isEvent eventId.property
      ⟨window.1, positive⟩ admissible]
    rcases chargeQuota_entry related inRange i.tokenFingerprint window positive
      with ⟨refused, full, isEntry⟩ | ⟨quota, charged, below, same⟩
    · -- The reference store writes the entry back as it was.
      rw [refused, error_bind, error_bind]
      dsimp only
      rw [if_pos full]
      refine ⟨rfl, { related with quotas := ?_ }⟩
      intro other
      change (memory.endpointQuotas.insert _ _).get other =
        (tables.endpointQuotas.get other).map _
      rw [Keyed.get_insert, ← related.quotas]
      split
      next isFingerprint => rw [isFingerprint, isEntry]
      · rfl
    · rw [charged, ok_bind]
      dsimp only
      rw [if_neg (Int.not_le.mpr below), isRelay, isEvent]
      exact ⟨rfl, related.replays same⟩

end admissible

theorem finishDelivery_conforms (related : Related sha256 tables memory) {permit : DeliveryPermit}
    (valid : validRelayPubkey permit.relayPubkey) (disposition : DeliveryDisposition) :
    Conforms sha256 tables (do return (.done, ← tables.finishDelivery permit disposition))
      (memory.finishDelivery permit disposition) := by
  obtain ⟨relay, _, decoded⟩ := validRelayPubkey_hex valid
  cases disposition with
  | terminal => exact ⟨rfl, related⟩
  | retryable =>
    simp only [Tables.finishDelivery, MemoryState.finishDelivery, ← decoded,
      hexDecode_hexEncode, okOr_some, ok_bind]
    refine ⟨rfl, { related with requestReplays := ?_ }⟩
    intro ofRelay id
    change (memory.deliveryRequestReplays.erase _).get _ =
      (tables.deliveryRequestReplays.erase _).get _
    rw [Keyed.get_erase, Keyed.get_erase]
    simp only [Prod.mk.injEq, hexEncode_injective.eq_iff, related.requestReplays]

end related

end Buzz.Gateway
