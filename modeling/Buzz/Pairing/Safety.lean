import Buzz.Library.Runs
import Buzz.Pairing.Roles

/-! A source, the target that scans its QR code, and an adversary who writes every event that
they are given, signatures by their keys apart. -/

namespace Buzz.Pairing

open Nostr List Option
open Buzz.Library.Results (bind_ok)
open Library.PastTime Library.Transition

structure World where
  qr : QrPayload
  source : Party
  target : Option Party

inductive Action
  | join (keys : SecretKey) (draw : Draw) (now : ℕ)
  | source (call : Call)
  | target (call : Call)

variable (primitives : Primitives)

namespace World

def initial (relayUrl : String) (keys : SecretKey) (sessionSecret : FixedBytes 32) (now : ℕ) :
    World :=
  let created := PairingSession.newSource primitives relayUrl keys sessionSecret now
  ⟨created.2, ⟨created.1, [], []⟩, none⟩

def parties (self : World) : List Party := self.source :: self.target.toList

def pubkeys (self : World) : List PublicKey :=
  self.parties.map (·.session.pubkey primitives)

def emitted (self : World) : List Event := self.parties.flatMap Party.emitted

/-- It is a copy, up to its signature, of one that a party has emitted. -/
def Authentic (self : World) (event : Event) : Prop :=
  primitives.verify event = .ok () → event.pubkey ∈ self.pubkeys primitives →
    ∃ sent ∈ self.emitted, { event with sig := sent.sig } = sent

/-- The callers sign only drafts for the authentication to the relay. -/
def Allowed (self : World) (call : Call) : Prop :=
  call.Drafts ∧ ∀ event, call.delivers = some event → self.Authentic primitives event

end World

inductive Step : World → Action → World → Prop
  | join {world : World} {keys : SecretKey} {draw : Draw} {now : ℕ} {session : PairingSession}
      {offer : Event} (absent : world.target = none)
      (joined : PairingSession.newTarget primitives world.qr keys draw now =
        .ok (session, offer)) :
      Step world (.join keys draw now) { world with target := some ⟨session, [], [offer]⟩ }
  | source {world : World} {call : Call} (allowed : world.Allowed primitives call) :
      Step world (.source call) { world with source := world.source.perform primitives call }
  | target {world : World} {call : Call} {target : Party} (present : world.target = some target)
      (allowed : world.Allowed primitives call) :
      Step world (.target call) { world with target := some (target.perform primitives call) }

def Joined (qr : QrPayload) (origin : PairingSession) : Prop :=
  ∃ keys draw now offer, PairingSession.newTarget primitives qr keys draw now = .ok (origin, offer)

structure Inv (origin : PairingSession) (world : World) : Prop where
  source : SourceInv primitives origin world.source
  qrKey : world.qr.sourcePubkey = primitives.publicKey origin.keys
  qrSecret : world.qr.sessionSecret = origin.sessionSecret
  sessionId : origin.sessionId = deriveSessionId primitives world.qr.sessionSecret
  target : ∀ target, world.target = some target → ∃ joined, Joined primitives world.qr joined ∧
    TargetInv primitives joined world.qr.sourcePubkey target ∧
    ∀ entry ∈ target.log, ∀ event, entry.call.delivers = some event →
      world.Authentic primitives event

variable {primitives}

structure Origin (primitives : Primitives) (qr : QrPayload) (session : PairingSession) : Prop where
  role : session.role = .target
  peer : session.peerPubkey = some qr.sourcePubkey
  sessionId : session.sessionId = deriveSessionId primitives qr.sessionSecret
  derived : ∃ ecdh, primitives.generateSharedKey session.keys qr.sourcePubkey = .ok ecdh ∧
    session.sasCode = some (deriveSas primitives ecdh qr.sessionSecret).1

variable {keys : SecretKey} {session : PairingSession} {qr : QrPayload}

theorem newTarget_ok (lawful : primitives.Lawful) {draw : Draw} {now : ℕ} {offer : Event}
    (joined : PairingSession.newTarget primitives qr keys draw now = .ok (session, offer)) :
    Origin primitives qr session ∧
      TargetInv primitives session qr.sourcePubkey ⟨session, [], [offer]⟩ := by
  rcases bind_ok joined with ⟨ecdh, shared, afterShared⟩
  rcases bind_ok afterShared with ⟨event, built, returned⟩
  cases returned
  rcases PairingSession.buildEvent_ok lawful built with ⟨peer, known, -, sealed⟩
  refine ⟨⟨rfl, rfl, rfl, ecdh, mapError_eq_ok shared, rfl⟩, rfl, rfl, trivial, ?_⟩
  intro other member kind
  rw [mem_singleton.mp member]
  exact ⟨peer, _, sealed, nofun⟩

theorem Joined.origin (lawful : primitives.Lawful)
    (joined : Joined primitives qr session) : Origin primitives qr session := by
  rcases joined with ⟨keys, draw, now, offer, created⟩
  exact (newTarget_ok lawful created).1

variable {world : World} {event : Event}

theorem World.Authentic.grow {next : World}
    (keys : next.pubkeys primitives = world.pubkeys primitives)
    (grown : world.emitted ⊆ next.emitted) (authentic : world.Authentic primitives event) :
    next.Authentic primitives event := by
  intro verified known
  rw [keys] at known
  rcases authentic verified known with ⟨sent, member, copy⟩
  exact ⟨sent, grown member, copy⟩

theorem emitted_subset (party : Party) (call : Call) :
    party.emitted ⊆ (party.perform primitives call).emitted :=
  subset_append_right _ _

variable {origin : PairingSession}

theorem Inv.step {next : World} {action : Action}
    (lawful : primitives.Lawful) (inv : Inv primitives origin world)
    (step : Step primitives world action next) : Inv primitives origin next := by
  cases step with
  | @join keys draw now session offer absent joined =>
    refine ⟨inv.source, inv.qrKey, inv.qrSecret, inv.sessionId, ?_⟩
    intro target same
    cases same
    exact ⟨session, ⟨keys, draw, now, offer, joined⟩, (newTarget_ok lawful joined).2, nofun⟩
  | @source call allowed =>
    have source := inv.source.perform lawful allowed.1
    refine ⟨source, inv.qrKey, inv.qrSecret, inv.sessionId, ?_⟩
    intro target present
    rcases inv.target target present with ⟨joined, created, known, delivered⟩
    refine ⟨joined, created, known, ?_⟩
    intro entry member event delivers
    apply (delivered entry member event delivers).grow
    · have keys := source.keys.trans inv.source.keys.symm
      simp only [World.pubkeys, World.parties, map_cons, PairingSession.pubkey, keys]
    · simp only [World.emitted, World.parties, flatMap_cons]
      exact append_subset.mpr ⟨List.Subset.trans (emitted_subset world.source call)
          (subset_append_left _ _), subset_append_right _ _⟩
  | @target call target present allowed =>
    refine ⟨inv.source, inv.qrKey, inv.qrSecret, inv.sessionId, ?_⟩
    intro later same
    cases same
    rcases inv.target target present with ⟨joined, created, known, delivered⟩
    have start := created.origin lawful
    rcases start.derived with ⟨ecdh, -, code⟩
    have moved := known.perform lawful start.role start.peer code allowed.1
    refine ⟨joined, created, moved, ?_⟩
    have grow (event : Event) (authentic : world.Authentic primitives event) :
        World.Authentic primitives
          { world with target := some (target.perform primitives call) } event := by
      apply authentic.grow
      · have keys : (target.perform primitives call).session.keys = target.session.keys := by
          rw [moved.frame, known.frame]
        simp only [World.pubkeys, World.parties, present, toList_some, map_cons,
          map_nil, PairingSession.pubkey, keys]
      · simp only [World.emitted, World.parties, present, toList_some,
          flatMap_cons, flatMap_nil, append_nil]
        exact append_subset.mpr ⟨subset_append_left _ _,
          List.Subset.trans (emitted_subset target call) (subset_append_right _ _)⟩
    intro entry member event delivers
    rcases mem_cons.mp member with new | old
    · rw [new] at delivers
      exact grow event (allowed.2 event delivers)
    · exact grow event (delivered entry old event delivers)

theorem Inv.run {relayUrl : String} {sessionSecret : FixedBytes 32} {now : ℕ}
    {actions : List Action} (lawful : primitives.Lawful)
    (run : Run (Step primitives) (.initial primitives relayUrl keys sessionSecret now) actions
      world) :
    Inv primitives (PairingSession.newSource primitives relayUrl keys sessionSecret now).1 world := by
  apply run.invariant
  · intro state action next known step
    exact known.step lawful step
  · exact ⟨⟨rfl, rfl, rfl, rfl, .inl ⟨rfl, .inl rfl⟩, nofun, trivial, nofun⟩, rfl, rfl, rfl, nofun⟩

variable {message : PairingMessage}

theorem decryptMessage_ok (decrypted : session.decryptMessage primitives event = .ok message) :
    ∃ text, primitives.decrypt session.keys event.pubkey event.content = .ok text ∧
      primitives.fromJson text = .ok message := by
  rw [PairingSession.decryptMessage] at decrypted
  split at decrypted
  · cases decrypted
  · rcases bind_ok decrypted with ⟨text, opened, afterText⟩
    split at afterText
    · cases afterText
    · exact ⟨text, mapError_eq_ok opened, mapError_eq_ok afterText⟩

theorem Matches.sealed (lawful : primitives.Lawful) {author peer : PublicKey} {sent : Event}
    (found : Matches primitives origin author event) (copy : { event with sig := sent.sig } = sent)
    (sealed : Seals primitives keys peer message sent) :
    peer = origin.pubkey primitives ∧ ∃ hash, message = .sasConfirm hash := by
  have tags : event.tags = sent.tags := by rw [← copy]
  have content : event.content = sent.content := by rw [← copy]
  have pubkey : event.pubkey = sent.pubkey := by rw [← copy]
  have same : peer = origin.pubkey primitives := by
    rcases found.addressed with ⟨tag, member, -, value⟩
    rw [tags] at member
    rw [sealed.addressed tag member] at value
    exact toHex_injective (Option.some.inj value)
  refine ⟨same, ?_⟩
  rcases found.confirms with ⟨hash, decrypted, -⟩
  rcases decryptMessage_ok decrypted with ⟨text, opened, parsed⟩
  rcases sealed.content with ⟨original, nonce, written, encrypted⟩
  rw [same] at encrypted
  have read := lawful.nip44 _ _ _ _ _ encrypted
  rw [pubkey, content, sealed.author, read, Except.ok.injEq] at opened
  rw [← opened, lawful.json _ _ written, Except.ok.injEq] at parsed
  exact ⟨hash, parsed⟩

theorem delivers_acceptedConfirm {entry : Entry}
    (accepted : entry.acceptedConfirm = some event) : entry.call.delivers = some event := by
  rcases entry with ⟨call, outcome⟩
  cases call with
  | handleSasConfirm now other =>
    cases outcome with
    | error error => cases accepted
    | ok returned => exact accepted
  | _ => cases accepted

variable {target : Party}

theorem Inv.agree (lawful : primitives.Lawful) (inv : Inv primitives origin world)
    (present : world.target = some target) (received : receivedPayloads target.log ≠ []) :
    world.source.session.sessionId = target.session.sessionId ∧
      ∃ code, world.source.session.sasCode = some code ∧ target.session.sasCode = some code := by
  rcases inv.target target present with ⟨joined, created, known, delivered⟩
  have start := created.origin lawful
  rcases exists_mem_of_ne_nil _ received with ⟨⟨event, payloadType, payload⟩, member⟩
  rcases mem_filterMap.mp member with ⟨entry, logged, isPayload⟩
  rcases append_of_mem logged with ⟨later, earlier, shape⟩
  have justified := known.justified
  rw [shape] at justified
  rcases (justified.split event payloadType payload isPayload).2.split with
    ⟨between, approval, before, past, -, matched⟩
  rcases once_iff.mp matched with ⟨confirm, memberBefore, sasConfirm, accepted, found⟩
  have authentic : world.Authentic primitives sasConfirm := by
    apply delivered confirm _ _ (delivers_acceptedConfirm accepted)
    rw [shape, past]
    exact mem_append_right _ (mem_cons_of_mem _
      (mem_append_right _ (mem_cons_of_mem _ memberBefore)))
  have own : sasConfirm.pubkey ∈ world.pubkeys primitives := by
    rw [found.author, inv.qrKey, World.pubkeys, World.parties, map_cons,
      PairingSession.pubkey, inv.source.keys]
    exact mem_cons_self
  rcases authentic found.verified own with ⟨sent, emitted, copy⟩
  have kind : sent.kind = pairingKind := by
    rw [← copy]
    exact found.kind
  have locked : Locked primitives world.source.session (joined.pubkey primitives) := by
    rcases mem_flatMap.mp emitted with ⟨party, isParty, fromParty⟩
    rw [World.parties, present] at isParty
    rcases mem_cons.mp isParty with isSource | isTarget
    · rw [isSource] at fromParty
      rcases inv.source.emitted sent fromParty kind with ⟨peer, message, sealed, confirms⟩
      rcases found.sealed lawful copy sealed with ⟨samePeer, hash, isConfirm⟩
      rw [← samePeer]
      exact confirms hash isConfirm
    · rw [mem_singleton.mp isTarget] at fromParty
      rcases known.emitted sent fromParty kind with ⟨peer, message, sealed, other⟩
      rcases found.sealed lawful copy sealed with ⟨-, hash, isConfirm⟩
      exact absurd isConfirm (other hash)
  constructor
  · rw [inv.source.sessionId, inv.sessionId, known.frame]
    exact start.sessionId.symm
  · rcases locked.derived with ⟨ecdh, shared, sourceCode⟩
    rcases start.derived with ⟨targetEcdh, targetShared, targetCode⟩
    rw [inv.source.keys] at shared
    have symmetric := lawful.sharedKey _ _ _ shared
    rw [← inv.qrKey, targetShared, Except.ok.injEq] at symmetric
    refine ⟨_, sourceCode, ?_⟩
    rw [inv.source.secret, ← inv.qrSecret, ← symmetric, known.frame]
    exact targetCode

/-- The target takes one payload at most, from the author of the QR code and after approval. -/
theorem pairing_safe {relayUrl : String} {keys : SecretKey} {sessionSecret : FixedBytes 32}
    {now : ℕ} {actions : List Action} {world : World} (lawful : primitives.Lawful)
    (run : Run (Step primitives) (.initial primitives relayUrl keys sessionSecret now) actions
      world) :
    ((acceptedOffers world.source.log).length ≤ 1 ∧
      Explained (SendJustified primitives keys) world.source.log) ∧
    ∀ target, world.target = some target →
      (receivedPayloads target.log).length ≤ 1 ∧
      (∃ joined, Joined primitives world.qr joined ∧
        Explained (ReceiveJustified primitives joined world.qr.sourcePubkey) target.log) ∧
      (receivedPayloads target.log ≠ [] →
        world.source.session.sessionId = target.session.sessionId ∧
          ∃ code, world.source.session.sasCode = some code ∧
            target.session.sasCode = some code) := by
  have inv := Inv.run lawful run
  refine ⟨⟨?_, inv.source.justified⟩, ?_⟩
  · rcases inv.source.offers with ⟨none, -⟩ | ⟨offer, one, -⟩
    · rw [none]
      exact Nat.zero_le 1
    · rw [one]
      exact Nat.le_refl 1
  · intro target present
    rcases inv.target target present with ⟨joined, created, known, -⟩
    exact ⟨known.phase.received, ⟨joined, created, known.justified⟩, inv.agree lawful present⟩

/-! A pairing with the keys and the secret of the protocol's test vectors. -/

def sampleSource : FixedBytes 32 :=
  ⟨[127, 76, 17, 169, 201, 209, 227, 181, 167, 242, 228, 214, 200, 176, 162, 244,
    230, 216, 192, 178, 164, 246, 232, 208, 194, 180, 166, 248, 224, 210, 196, 181], rfl⟩

def sampleTarget : FixedBytes 32 :=
  ⟨[58, 91, 124, 157, 30, 63, 90, 123, 156, 29, 62, 95, 122, 155, 28, 61,
    94, 127, 154, 27, 60, 93, 126, 159, 26, 59, 92, 125, 158, 31, 58, 91], rfl⟩

def sampleSecret : FixedBytes 32 :=
  ⟨[161, 178, 195, 212, 229, 246, 167, 184, 201, 208, 225, 242, 163, 180, 197, 214,
    231, 248, 169, 176, 193, 210, 227, 244, 165, 182, 199, 216, 233, 240, 161, 178], rfl⟩

def sampleSourcePubkey : FixedBytes 32 :=
  ⟨[25, 158, 100, 202, 96, 102, 44, 178, 214, 233, 29, 22, 203, 6, 91, 229,
    26, 215, 74, 110, 229, 248, 197, 176, 253, 197, 61, 36, 102, 17, 237, 154], rfl⟩

def sampleTargetPubkey : FixedBytes 32 :=
  ⟨[137, 169, 250, 118, 33, 5, 208, 174, 226, 177, 150, 120, 36, 111, 231, 184,
    35, 170, 187, 196, 244, 191, 105, 26, 28, 232, 167, 15, 205, 54, 214, 228], rfl⟩

def sampleShared : FixedBytes 32 :=
  ⟨[155, 75, 109, 105, 144, 113, 61, 137, 214, 217, 152, 46, 80, 110, 225, 187,
    205, 230, 240, 92, 84, 217, 210, 151, 134, 150, 232, 167, 39, 77, 68, 8], rfl⟩

def sampleSessionId : FixedBytes 32 :=
  ⟨[251, 53, 125, 15, 142, 141, 90, 91, 163, 178, 169, 28, 177, 140, 17, 158,
    21, 103, 176, 127, 250, 56, 205, 235, 183, 62, 104, 223, 120, 245, 163, 128], rfl⟩

def sampleSasInput : FixedBytes 32 :=
  ⟨[232, 176, 58, 50, 159, 58, 10, 195, 127, 231, 251, 233, 41, 23, 30, 20,
    183, 40, 18, 190, 103, 227, 60, 93, 110, 25, 53, 67, 196, 23, 152, 211], rfl⟩

def sampleTranscriptHash : FixedBytes 32 :=
  ⟨[214, 98, 129, 143, 248, 145, 31, 198, 10, 45, 2, 95, 139, 139, 71, 86,
    16, 113, 4, 232, 88, 136, 221, 32, 45, 40, 219, 92, 162, 207, 40, 211], rfl⟩

def sampleSessionPrk : FixedBytes 32 :=
  ⟨[226, 14, 247, 29, 243, 39, 132, 211, 208, 31, 124, 125, 48, 93, 54, 66,
    35, 75, 111, 181, 184, 162, 112, 74, 37, 64, 141, 81, 160, 216, 216, 34], rfl⟩

def sampleSasPrk : FixedBytes 32 :=
  ⟨[223, 215, 109, 46, 152, 54, 78, 131, 228, 59, 59, 163, 24, 64, 63, 11,
    55, 43, 55, 234, 191, 76, 215, 55, 97, 198, 2, 253, 2, 225, 228, 24], rfl⟩

def sampleTranscriptPrk : FixedBytes 32 :=
  ⟨[149, 111, 32, 142, 215, 14, 73, 227, 236, 112, 79, 254, 108, 43, 141, 165,
    8, 132, 103, 170, 218, 89, 231, 154, 247, 206, 175, 191, 252, 47, 67, 202], rfl⟩

structure SampleRow where
  keys : SecretKey
  reader : SecretKey
  nonce : Bytes
  message : PairingMessage
  text : String
  event : Event

def sampleOffer : SampleRow where
  keys := sampleTarget
  reader := sampleSource
  nonce := replicate 32 1
  message := .offer sampleSessionId.toHex 1
  text :=
    "\x7b\"type\":\"offer\",\"session_id\":\"fb357d0f8e8d5a5ba3b2a91cb18c119e1567b07f" ++
    "fa38cdebb73e68df78f5a380\",\"version\":1\x7d"
  event :=
    { id := ⟨[50, 21, 4, 181, 13, 172, 30, 47, 81, 229, 155, 143, 123, 81, 33, 207,
        181, 6, 57, 149, 43, 218, 195, 168, 160, 230, 130, 213, 230, 123, 185, 234], rfl⟩
      pubkey := sampleTargetPubkey
      createdAt := 1700000000
      kind := pairingKind
      tags := [publicKeyTag sampleSourcePubkey]
      content :=
        "AgEBAQEBAQEBAQEBAQEBAQEBAQEBAQEBAQEBAQEBAQEBdNCMJtA+0U9bDufT9Ewc9IXEg8dpj3mL5ww8" ++
        "9euplWhTVUZJKWfudEnyLLUvEC5BB7ID58mcGI2F8YHTGGEDef1pxodDqKPllHwRrQwIP5aLvhS6Ctyk" ++
        "TmGFgLD/wuzp5CEhy/Q60LhlGqaAM8Bq3HVKjrLYw/8Q1yWaRlq54vWJ7aTeR2ho3C/6q4dhiZ1RABxM" ++
        "3VwOl+5W9LLzVGNecW5p"
      sig := [169, 169, 125, 118, 208, 243, 49, 224, 175, 115, 239, 187, 238, 165, 106, 127,
        105, 157, 239, 175, 9, 225, 239, 199, 249, 96, 110, 151, 188, 19, 227, 76,
        11, 174, 199, 216, 111, 144, 63, 139, 39, 160, 109, 238, 108, 113, 78, 29,
        118, 207, 114, 43, 171, 125, 144, 5, 198, 131, 147, 220, 65, 214, 21, 176] }

def sampleConfirm : SampleRow where
  keys := sampleSource
  reader := sampleTarget
  nonce := replicate 32 2
  message := .sasConfirm sampleTranscriptHash.toHex
  text :=
    "\x7b\"type\":\"sas-confirm\",\"transcript_hash\":\"d662818ff8911fc60a2d025f8b8b4" ++
    "756107104e85888dd202d28db5ca2cf28d3\"\x7d"
  event :=
    { id := ⟨[143, 5, 15, 182, 96, 242, 113, 23, 189, 225, 234, 30, 66, 69, 21, 81,
        60, 209, 112, 41, 23, 17, 156, 116, 137, 20, 119, 179, 187, 77, 124, 50], rfl⟩
      pubkey := sampleSourcePubkey
      createdAt := 1700000000
      kind := pairingKind
      tags := [publicKeyTag sampleTargetPubkey]
      content :=
        "AgICAgICAgICAgICAgICAgICAgICAgICAgICAgICAgICflghqU6YbIk0j/nrp5I0favUr/w+033arLcz" ++
        "MEaenNKMhb5XBf3uxEFPkaX0/X+pPFPWYdDAAjHpRgyHSV1JBty/7N6COy5RvUCBRbI4gTBBi8fKuDXK" ++
        "VUh/8njVhJs7G1VilpWxYFf0eBCJ7wcyonGQa6BT4Y/2wklu2Msy+v7lYAUZ+lizOssQk1wym4GF+DfK" ++
        "GW7u4GL51Pdmjdbq9n50"
      sig := [53, 14, 182, 169, 142, 239, 110, 26, 164, 152, 84, 117, 141, 207, 224, 181,
        208, 51, 95, 22, 121, 119, 21, 108, 173, 100, 87, 72, 151, 190, 148, 182,
        211, 100, 183, 47, 108, 17, 108, 219, 5, 119, 154, 21, 249, 173, 47, 37,
        198, 204, 32, 230, 69, 212, 181, 48, 172, 153, 248, 250, 116, 132, 116, 100] }

def samplePayload : SampleRow where
  keys := sampleSource
  reader := sampleTarget
  nonce := replicate 32 3
  message := .payload .custom "hello"
  text :=
    "\x7b\"type\":\"payload\",\"payload_type\":\"custom\",\"payload\":\"hello\"\x7d"
  event :=
    { id := ⟨[9, 207, 219, 190, 132, 72, 67, 229, 123, 122, 219, 189, 229, 138, 28, 207,
        140, 207, 250, 145, 0, 200, 152, 225, 31, 11, 145, 158, 95, 95, 125, 123], rfl⟩
      pubkey := sampleSourcePubkey
      createdAt := 1700000000
      kind := pairingKind
      tags := [publicKeyTag sampleTargetPubkey]
      content :=
        "AgMDAwMDAwMDAwMDAwMDAwMDAwMDAwMDAwMDAwMDAwMDYNKvZ+1fjP7p28yJyT6CpBPKF3lC3qi96Eej" ++
        "EmXHC3YMBN8Y91jkyB1HyB15hHtvTE2d0/xWKUVsQ8hS0mU/AK6Kej9txQHM6pj+/idi56WCyz9Ad98r" ++
        "Eqg4k80OABnu71c="
      sig := [171, 224, 211, 106, 152, 91, 214, 109, 48, 217, 230, 237, 83, 9, 164, 21,
        77, 164, 142, 224, 131, 153, 164, 56, 159, 115, 153, 165, 51, 85, 3, 171,
        30, 18, 22, 118, 19, 187, 31, 114, 126, 190, 147, 59, 25, 57, 206, 231,
        210, 226, 78, 1, 245, 181, 100, 159, 244, 145, 255, 223, 150, 193, 150, 156] }

def sampleRows : List SampleRow := [sampleOffer, sampleConfirm, samplePayload]

def samplePublicKey (keys : SecretKey) : PublicKey :=
  if keys = sampleSource then sampleSourcePubkey
  else if keys = sampleTarget then sampleTargetPubkey
  else .fill 0

def sampleFound (found : SampleRow → Bool) : Except String SampleRow :=
  match sampleRows.find? found with
  | some row => .ok row
  | none => .error "outside the sample"

def samplePrimitives : Primitives where
  publicKey := samplePublicKey
  hkdfExtract salt ikm :=
    if salt = [] then sampleSessionPrk.val
    else if ikm = sampleShared.val then sampleSasPrk.val
    else sampleTranscriptPrk.val
  hkdfExpand prk _ length :=
    let out := if prk = sampleSessionPrk.val then sampleSessionId.val
      else if prk = sampleSasPrk.val then sampleSasInput.val
      else sampleTranscriptHash.val
    ⟨(out ++ replicate length 0).take length, by simp⟩
  generateSharedKey keys peer :=
    if (keys = sampleSource ∧ peer = sampleTargetPubkey) ∨
        (keys = sampleTarget ∧ peer = sampleSourcePubkey) then .ok sampleShared
    else .error "outside the sample"
  encrypt keys peer text nonce :=
    (sampleFound fun row => row.keys = keys ∧ samplePublicKey row.reader = peer ∧
      row.text = text ∧ row.nonce = nonce).map (·.event.content)
  decrypt keys author content :=
    (sampleFound fun row => row.reader = keys ∧ samplePublicKey row.keys = author ∧
      row.event.content = content).map (·.text)
  toJson message := (sampleFound (·.message = message)).map (·.text)
  fromJson text := (sampleFound (·.text = text)).map (·.message)
  sign keys draft _ :=
    (sampleFound fun row => row.keys = keys ∧ row.event.createdAt = draft.createdAt ∧
      row.event.kind = draft.kind ∧ row.event.tags = draft.tags ∧
      row.event.content = draft.content).map (·.event)
  verify event := (sampleFound (·.event.id = event.id)).map fun _ => ()

variable {found : SampleRow → Bool}

theorem sampleFound_ok {α : Type} {read : SampleRow → α} {result : α}
    (ran : (sampleFound found).map read = .ok result) :
    ∃ row ∈ sampleRows, found row ∧ read row = result := by
  rw [sampleFound] at ran
  cases search : sampleRows.find? found with
  | none =>
    rw [search] at ran
    cases ran
  | some row =>
    rw [search] at ran
    cases ran
    exact ⟨row, mem_of_find?_eq_some search, find?_some search, rfl⟩

theorem sampleFound_eq {α : Type} {read : SampleRow → α}
    {row : SampleRow} (member : row ∈ sampleRows) (matches_ : found row)
    (same : ∀ other ∈ sampleRows, found other → read other = read row) :
    (sampleFound found).map read = .ok (read row) := by
  cases search : sampleRows.find? found with
  | none => exact absurd matches_ (find?_eq_none.mp search row member)
  | some other =>
    rw [sampleFound, search]
    exact congrArg Except.ok
      (same other (mem_of_find?_eq_some search) (find?_some search))

theorem sample_pubkeys : samplePublicKey sampleSource = sampleSourcePubkey ∧
    samplePublicKey sampleTarget = sampleTargetPubkey ∧ sampleSourcePubkey ≠ sampleTargetPubkey := by
  decide +kernel

theorem samplePublicKey_eq :
    (samplePublicKey keys = sampleSourcePubkey → keys = sampleSource) ∧
      (samplePublicKey keys = sampleTargetPubkey → keys = sampleTarget) := by
  have different := sample_pubkeys.2.2
  rw [samplePublicKey]
  split
  next source => exact ⟨fun _ => source, fun same => absurd same different⟩
  · split
    next target => exact ⟨fun same => absurd same.symm different, fun _ => target⟩
    · exact ⟨fun same => absurd same (by decide +kernel),
        fun same => absurd same (by decide +kernel)⟩

theorem sample_rows : ∀ row ∈ sampleRows,
    (row.reader = sampleSource ∨ row.reader = sampleTarget) ∧
    row.event.pubkey = samplePublicKey row.keys ∧
    ∀ other ∈ sampleRows, (other.event.content = row.event.content → other.text = row.text) ∧
      (other.text = row.text → other.message = row.message) := by
  decide +kernel

theorem sample_reader : ∀ row ∈ sampleRows, ∀ keys,
    samplePublicKey row.reader = samplePublicKey keys → row.reader = keys := by
  intro row member keys same
  rcases (sample_rows row member).1 with isSource | isTarget
  · rw [isSource, sample_pubkeys.1] at same
    exact isSource.trans (samplePublicKey_eq.1 same.symm).symm
  · rw [isTarget, sample_pubkeys.2.1] at same
    exact isTarget.trans (samplePublicKey_eq.2 same.symm).symm

theorem sample_lawful : samplePrimitives.Lawful where
  sharedKey := by
    intro first second key shared
    obtain ⟨source, target, -⟩ := sample_pubkeys
    change (if _ then Except.ok sampleShared else Except.error _) = Except.ok key at shared
    change (if (second = sampleSource ∧ samplePublicKey first = sampleTargetPubkey) ∨
      (second = sampleTarget ∧ samplePublicKey first = sampleSourcePubkey) then
      Except.ok sampleShared else Except.error _) = Except.ok key
    split at shared
    next pair =>
      rcases pair with ⟨isSource, toTarget⟩ | ⟨isTarget, toSource⟩
      · rw [if_pos (.inr ⟨samplePublicKey_eq.2 toTarget, isSource ▸ source⟩)]
        exact shared
      · rw [if_pos (.inl ⟨samplePublicKey_eq.1 toSource, isTarget ▸ target⟩)]
        exact shared
    · cases shared
  nip44 := by
    intro first second text nonce sealed encrypted
    rcases sampleFound_ok encrypted with ⟨row, member, found, same⟩
    rw [decide_eq_true_eq] at found
    rcases found with ⟨keys, reader, rowText, -⟩
    change (sampleFound fun row => row.reader = second ∧
      samplePublicKey row.keys = samplePublicKey first ∧ row.event.content = sealed).map _ = _
    rw [← rowText]
    apply sampleFound_eq member
    · rw [decide_eq_true_eq]
      exact ⟨sample_reader row member second reader, by rw [keys], same⟩
    · intro other otherMember otherFound
      rw [decide_eq_true_eq] at otherFound
      exact ((sample_rows row member).2.2 other otherMember).1 (otherFound.2.2.trans same.symm)
  json := by
    intro message text written
    rcases sampleFound_ok written with ⟨row, member, found, same⟩
    rw [decide_eq_true_eq] at found
    change (sampleFound fun row => row.text = text).map _ = _
    rw [← found]
    apply sampleFound_eq member
    · rw [decide_eq_true_eq]
      exact same
    · intro other otherMember otherFound
      rw [decide_eq_true_eq] at otherFound
      exact ((sample_rows row member).2.2 other otherMember).2 (otherFound.trans same.symm)
  signed := by
    intro keys draft aux event signed
    rcases sampleFound_ok signed with ⟨row, member, found, same⟩
    rw [decide_eq_true_eq] at found
    rcases found with ⟨rowKeys, -, kind, tags, content⟩
    rw [← same]
    refine ⟨?_, kind, ?_, content⟩
    · rw [← rowKeys]
      exact (sample_rows row member).2.1
    · rw [tags]
      exact List.Subset.refl _

def sampleDraw (row : SampleRow) : Draw := ⟨row.nonce, 1700000012, 12, []⟩

def sampleJoined : PairingSession where
  role := .target
  state := .confirming
  keys := sampleTarget
  sessionSecret := sampleSecret
  relayUrls := ["wss://relay.example"]
  peerPubkey := some sampleSourcePubkey
  sessionId := sampleSessionId
  sasCode := some 863346
  sasInput := some sampleSasInput
  processedIds := []
  createdAt := 2
  timeout := defaultTimeout

def sampleQr : QrPayload := ⟨sampleSourcePubkey, sampleSecret, ["wss://relay.example"], 1⟩

def sampleStart : PairingSession where
  role := .source
  state := .waiting
  keys := sampleSource
  sessionSecret := sampleSecret
  relayUrls := ["wss://relay.example"]
  peerPubkey := none
  sessionId := sampleSessionId
  sasCode := none
  sasInput := none
  processedIds := []
  createdAt := 1
  timeout := defaultTimeout

def sampleSourceCalls : List Call :=
  [.handleOffer 3 sampleOffer.event, .confirmSas 4 (sampleDraw sampleConfirm),
    .sendPayload 7 (sampleDraw samplePayload) .custom "hello"]

def sampleTargetCalls : List Call :=
  [.handleSasConfirm 5 sampleConfirm.event, .confirmTargetSas 6,
    .handlePayload 8 samplePayload.event]

def Party.performs (self : Party) (calls : List Call) : Party :=
  calls.foldl (Party.perform samplePrimitives) self

def sampleWorld (source target : Party) : World := ⟨sampleQr, source, some target⟩

theorem sample_calls :
    PairingSession.newSource samplePrimitives "wss://relay.example" sampleSource sampleSecret 1 =
      (sampleStart, sampleQr) ∧
    PairingSession.newTarget samplePrimitives sampleQr sampleTarget (sampleDraw sampleOffer) 2 =
      .ok (sampleJoined, sampleOffer.event) ∧
    (Party.performs ⟨sampleStart, [], []⟩ sampleSourceCalls).emitted =
      [samplePayload.event, sampleConfirm.event] ∧
    receivedPayloads (Party.performs ⟨sampleJoined, [], [sampleOffer.event]⟩
      sampleTargetCalls).log = [(samplePayload.event, .custom, "hello")] := by
  refine ⟨?_, ?_, ?_, ?_⟩ <;> decide +kernel

variable {calls : List Call}

theorem sample_sourceRun (allowed : ∀ call ∈ calls, ∀ source,
      (sampleWorld source target).Allowed samplePrimitives call) (source : Party) :
    Run (Step samplePrimitives) (sampleWorld source target) (calls.map .source)
      (sampleWorld (source.performs calls) target) := by
  induction calls generalizing source with
  | nil => exact .nil _
  | cons call calls ih =>
    apply Run.cons (.source (allowed call mem_cons_self source))
    exact ih (fun later member => allowed later (mem_cons_of_mem call member)) _

variable {source : Party}

theorem sample_targetRun (allowed : ∀ call ∈ calls, ∀ target,
      (sampleWorld source target).Allowed samplePrimitives call) (target : Party) :
    Run (Step samplePrimitives) (sampleWorld source target) (calls.map .target)
      (sampleWorld source (target.performs calls)) := by
  induction calls generalizing target with
  | nil => exact .nil _
  | cons call calls ih =>
    apply Run.cons (.target rfl (allowed call mem_cons_self target))
    exact ih (fun later member => allowed later (mem_cons_of_mem call member)) _

theorem sample_allowed {call : Call} (drafts : ∀ draft aux, call ≠ .signEvent draft aux)
    (emitted : ∀ event, call.delivers = some event → event ∈ world.emitted) :
    world.Allowed samplePrimitives call := by
  constructor
  · intro draft aux same
    exact absurd same (drafts draft aux)
  · intro event delivered verified known
    exact ⟨event, emitted event delivered, rfl⟩

theorem sample_sourceAllowed (session : PairingSession) : ∀ call ∈ sampleSourceCalls, ∀ source,
    (sampleWorld source ⟨session, [], [sampleOffer.event]⟩).Allowed samplePrimitives call := by
  intro call member source
  have offered : sampleOffer.event ∈
      (sampleWorld source ⟨session, [], [sampleOffer.event]⟩).emitted :=
    mem_append_right _ (mem_singleton_self _)
  simp only [sampleSourceCalls, mem_cons, not_mem_nil, or_false] at member
  rcases member with rfl | rfl | rfl
  · refine sample_allowed (by intro draft aux same; cases same) ?_
    intro event delivered
    cases delivered
    exact offered
  · exact sample_allowed nofun nofun
  · exact sample_allowed nofun nofun

theorem sample_targetAllowed
    (emitted : source.emitted = [samplePayload.event, sampleConfirm.event]) :
    ∀ call ∈ sampleTargetCalls, ∀ target,
      (sampleWorld source target).Allowed samplePrimitives call := by
  intro call member target
  have sent (event : Event) (known : event ∈ source.emitted) :
      event ∈ (sampleWorld source target).emitted := mem_append_left _ known
  simp only [sampleTargetCalls, mem_cons, not_mem_nil, or_false] at member
  rcases member with rfl | rfl | rfl
  · refine sample_allowed (by intro draft aux same; cases same) ?_
    intro event delivered
    cases delivered
    apply sent
    rw [emitted]
    exact mem_cons_of_mem _ mem_cons_self
  · exact sample_allowed nofun nofun
  · refine sample_allowed (by intro draft aux same; cases same) ?_
    intro event delivered
    cases delivered
    apply sent
    rw [emitted]
    exact mem_cons_self

/-- The pairing goes through: the target receives the payload. -/
theorem pairing_safe_received : ∃ world : World, ∃ target : Party,
    (world.target = some target ∧
      receivedPayloads target.log = [(samplePayload.event, .custom, "hello")]) ∧
    ((acceptedOffers world.source.log).length ≤ 1 ∧
      Explained (SendJustified samplePrimitives sampleSource) world.source.log) ∧
    ∀ target, world.target = some target →
      (receivedPayloads target.log).length ≤ 1 ∧
      (∃ joined, Joined samplePrimitives world.qr joined ∧
        Explained (ReceiveJustified samplePrimitives joined world.qr.sourcePubkey) target.log) ∧
      (receivedPayloads target.log ≠ [] →
        world.source.session.sessionId = target.session.sessionId ∧
          ∃ code, world.source.session.sasCode = some code ∧
            target.session.sasCode = some code) := by
  obtain ⟨started, accepted, emitted, delivered⟩ := sample_calls
  have start : World.initial samplePrimitives "wss://relay.example" sampleSource sampleSecret 1 =
      ⟨sampleQr, ⟨sampleStart, [], []⟩, none⟩ := by
    simp only [World.initial, started]
  have joined : Step samplePrimitives ⟨sampleQr, ⟨sampleStart, [], []⟩, none⟩
      (.join sampleTarget (sampleDraw sampleOffer) 2)
      (sampleWorld ⟨sampleStart, [], []⟩ ⟨sampleJoined, [], [sampleOffer.event]⟩) :=
    .join rfl accepted
  have sent := sample_sourceRun (sample_sourceAllowed sampleJoined) ⟨sampleStart, [], []⟩
  have received := sample_targetRun (sample_targetAllowed emitted)
    ⟨sampleJoined, [], [sampleOffer.event]⟩
  have run := Run.cons joined (sent.append received)
  rw [← start] at run
  exact ⟨_, _, ⟨rfl, delivered⟩, pairing_safe sample_lawful run⟩

end Buzz.Pairing
