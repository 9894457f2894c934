import Buzz.Tunnel.Fencing

/-! Framing of reliable streams: the codec of the frames, the chunks that bytes are sent in, and
the community that a stream is held to. -/

namespace Buzz.Tunnel

open Nostr Library.Results Library.StampedTrace List

def maxReliablePayloadBytes : ℕ := 1024 * 1024

namespace GoodbyeReason

def toWireByte : GoodbyeReason → UInt8
  | sessionEnded => 1
  | draining => 2
  | staleGeneration => 3

def fromWireByte (byte : UInt8) : Except String GoodbyeReason :=
  if byte = 1 then .ok sessionEnded
  else if byte = 2 then .ok draining
  else if byte = 3 then .ok staleGeneration
  else .error "unknown goodbye reason"

@[simp] theorem fromWireByte_toWireByte (reason : GoodbyeReason) :
    fromWireByte reason.toWireByte = .ok reason := by
  cases reason <;> rfl

theorem toWireByte_of_fromWireByte {byte : UInt8} {reason : GoodbyeReason}
    (read : fromWireByte byte = .ok reason) : reason.toWireByte = byte := by
  unfold fromWireByte at read
  split at read
  · cases read
    simp_all [toWireByte]
  · split at read
    · cases read
      simp_all [toWireByte]
    · split at read
      · cases read
        simp_all [toWireByte]
      · cases read

end GoodbyeReason

namespace ReliableWireFrame

def version : UInt8 := 1
def dataKind : UInt8 := 1
def goodbyeKind : UInt8 := 2

def encode : ReliableWireFrame → Bytes
  | .data communityId payload => version :: dataKind :: (communityId.uuid.val ++ payload)
  | .goodbye communityId reason =>
    version :: goodbyeKind :: (communityId.uuid.val ++ [reason.toWireByte])

/-- The error is the text of `MalformedReliableFrame`. -/
def decode (bytes : Bytes) : Except String ReliableWireFrame :=
  if short : bytes.length < 18 then .error "too short"
  else if bytes[0] ≠ version then .error "unknown version"
  else
    let communityId : CommunityId := ⟨⟨(bytes.drop 2).take 16, by simp; omega⟩⟩
    if bytes[1] = dataKind then .ok (.data communityId (bytes.drop 18))
    else if bytes[1] = goodbyeKind then
      if long : bytes.length ≠ 19 then .error "bad goodbye length"
      else (GoodbyeReason.fromWireByte bytes[18]).map (.goodbye communityId)
    else .error "unknown kind"

theorem decode_encode (frame : ReliableWireFrame) : decode (encode frame) = .ok frame := by
  rcases frame with ⟨⟨id, length⟩, payload⟩ | ⟨⟨id, length⟩, reason⟩
  · have long : ¬16 + payload.length + 1 + 1 < 18 := by omega
    simp [decode, encode, length, drop_left', take_left', long]
  · have size : 16 < (id ++ [reason.toWireByte]).length := by simp [length]
    have last : (id ++ [reason.toWireByte])[16] = reason.toWireByte := by
      simp [getElem_append_right, length]
    simp [decode, encode, length, take_left', last, Except.map, goodbyeKind, dataKind]

theorem encode_of_decode {bytes : Bytes} {frame : ReliableWireFrame}
    (decoded : decode bytes = .ok frame) : encode frame = bytes := by
  unfold decode at decoded
  split at decoded
  · cases decoded
  next long =>
    rcases bytes with _ | ⟨first, _ | ⟨kind, rest⟩⟩
    · simp at long
    · simp at long
    · simp only [getElem_cons_zero, getElem_cons_succ, drop_succ_cons,
        drop_zero, length_cons] at decoded long
      split at decoded
      · cases decoded
      next version =>
        split at decoded
        next isData =>
          cases decoded
          simp_all [encode]
        · split at decoded
          next isGoodbye =>
            split at decoded
            · cases decoded
            next exact =>
              cases read : GoodbyeReason.fromWireByte rest[16] with
              | error text => simp [read, Except.map] at decoded
              | ok reason =>
                simp only [read, Except.map, Except.ok.injEq] at decoded
                subst decoded
                have last : rest.drop 16 = [rest[16]] := by
                  rw [drop_eq_getElem_cons (by omega), drop_eq_nil_of_le (by omega)]
                have whole := take_append_drop 16 rest
                rw [last] at whole
                simp_all [encode, GoodbyeReason.toWireByte_of_fromWireByte read]
          · cases decoded

end ReliableWireFrame

/-- `slice::chunks`. -/
def chunks (size : ℕ) (bytes : Bytes) : List Bytes :=
  if bytes = [] ∨ size = 0 then []
  else bytes.take size :: chunks size (bytes.drop size)
termination_by bytes.length
decreasing_by
  have filled := length_pos_iff.mpr (show bytes ≠ [] by simp_all)
  simp only [length_drop]
  omega

theorem chunks_flatten {size : ℕ} (positive : 0 < size) (bytes : Bytes) :
    (chunks size bytes).flatten = bytes := by
  induction bytes using chunks.induct size with
  | case1 bytes isEnd =>
    rw [chunks, if_pos isEnd]
    rcases isEnd with rfl | zero
    · rfl
    · omega
  | case2 bytes more ih =>
    rw [chunks, if_neg more, flatten_cons, ih, take_append_drop]

theorem chunks_length {size : ℕ} (bytes : Bytes) :
    ∀ chunk ∈ chunks size bytes, chunk ≠ [] ∧ chunk.length ≤ size := by
  induction bytes using chunks.induct size with
  | case1 bytes isEnd =>
    rw [chunks, if_pos isEnd]
    simp
  | case2 bytes more ih =>
    rw [chunks, if_neg more, forall_mem_cons]
    rw [not_or] at more
    exact ⟨⟨by simp [more.1, more.2], length_take_le size bytes⟩, ih⟩

inductive MeshFrame
  | data (fenced : FencedHeader) (payload : Bytes)
  | goodbye (fenced : FencedHeader) (reason : GoodbyeReason)
  | hello
  | gossip
  deriving DecidableEq

def MeshFrame.decoded : MeshFrame → MeshStreamFrame
  | .data fenced payload => .data fenced (ReliableWireFrame.decode payload).toOption
  | .goodbye _ _ => .goodbye
  | .hello => .hello
  | .gossip => .gossip

inductive ReliableFrame
  | data (payload : Bytes)
  | goodbye (reason : GoodbyeReason)
  deriving DecidableEq

def ReliableWireFrame.received : ReliableWireFrame → ReliableFrame
  | .data _ payload => .data payload
  | .goodbye _ reason => .goodbye reason

namespace ReliableMeshStream

def new (fenced : FencedHeader) : ReliableMeshStream := ⟨fenced, none⟩

def withCommunity (self : ReliableMeshStream) (communityId : CommunityId) : ReliableMeshStream :=
  { self with communityId := some communityId }

def ensureOutboundCommunity (self : ReliableMeshStream) (communityId : CommunityId) :
    Except ReliableStreamError ReliableMeshStream :=
  match self.communityId with
  | some expected =>
    if expected ≠ communityId then .error (.communityMismatch expected communityId) else .ok self
  | none => .ok { self with communityId := some communityId }

/-- Every frame was taken, one refused, or the call refused. -/
inductive SendResult
  | sent
  | transport
  | error (cause : ReliableStreamError)
  deriving DecidableEq

/-- Until it refuses one. -/
def sendFrames (accepts : List MeshFrame → MeshFrame → Bool) (taken : List MeshFrame) :
    List MeshFrame → SendResult × List MeshFrame
  | [] => (.sent, taken)
  | frame :: rest =>
    if accepts taken frame then sendFrames accepts (taken ++ [frame]) rest
    else (.transport, taken)

def send (accepts : List MeshFrame → MeshFrame → Bool) (self : ReliableMeshStream)
    (communityId : CommunityId) (frames : List ReliableWireFrame) :
    ReliableMeshStream × SendResult × List MeshFrame :=
  match self.ensureOutboundCommunity communityId with
  | .error cause => (self, .error cause, [])
  | .ok next =>
    (next, sendFrames accepts [] (frames.map fun frame => .data self.fenced frame.encode))

def sendBytes (accepts : List MeshFrame → MeshFrame → Bool) (self : ReliableMeshStream)
    (communityId : CommunityId) (bytes : Bytes) :
    ReliableMeshStream × SendResult × List MeshFrame :=
  self.send accepts communityId
    ((chunks maxReliablePayloadBytes bytes).map (.data communityId))

def sendGoodbye (accepts : List MeshFrame → MeshFrame → Bool) (self : ReliableMeshStream)
    (communityId : CommunityId) (reason : GoodbyeReason) :
    ReliableMeshStream × SendResult × List MeshFrame :=
  self.send accepts communityId [.goodbye communityId reason]

/-- `recv_validated` on the frame that the transport has next. -/
def recv (self : ReliableMeshStream) (redis : SessionKeys → Session) (frame : MeshFrame) :
    Except ReliableStreamError ReliableWireFrame × ReliableMeshStream :=
  recvValidated self redis frame.decoded

/-- Each with the keys of its time, up to the first error. -/
def receive (redis : ℕ → SessionKeys → Session) :
    ℕ → ReliableMeshStream → List MeshFrame → List ReliableFrame
  | _, _, [] => []
  | moment, self, frame :: rest =>
    match self.recv (redis moment) frame with
    | (.ok received, next) => received.received :: receive redis (moment + 1) next rest
    | (.error _, _) => []

end ReliableMeshStream

def ReliableFrame.bytes : ReliableFrame → Bytes
  | .data payload => payload
  | .goodbye _ => []

def deliveredBytes (frames : List ReliableFrame) : Bytes := frames.flatMap ReliableFrame.bytes

namespace ReliableMeshStream

/-- The stream belongs to the community, or to none so far. -/
def MayCarry (self : ReliableMeshStream) (communityId : CommunityId) : Prop :=
  ∀ latched ∈ self.communityId, latched = communityId

theorem sendFrames_taken (accepts : List MeshFrame → MeshFrame → Bool)
    (taken frames : List MeshFrame) :
    ∃ sent, sent <+: frames ∧ (sendFrames accepts taken frames).2 = taken ++ sent ∧
      ((sendFrames accepts taken frames).1 = .sent → sent = frames) := by
  induction frames generalizing taken with
  | nil => exact ⟨[], by simp [sendFrames]⟩
  | cons frame rest ih =>
    cases accepted : accepts taken frame with
    | false => exact ⟨[], by simp [sendFrames, accepted]⟩
    | true =>
      rcases ih (taken ++ [frame]) with ⟨sent, lead, took, whole⟩
      refine ⟨frame :: sent, cons_prefix_cons.mpr ⟨rfl, lead⟩, ?_, ?_⟩
      · simpa [sendFrames, accepted] using took
      · intro isSent
        simp only [sendFrames, accepted, if_true] at isSent
        rw [whole isSent]

variable {receiver : ReliableMeshStream} {communityId : CommunityId}

theorem recv_data {redis : SessionKeys → Session} (carries : receiver.MayCarry communityId)
    (valid : validateFencedHeader communityId receiver.fenced
      (redis ⟨communityId, receiver.fenced.sessionId⟩) = .ok ()) (chunk : Bytes) :
    receiver.recv redis (.data receiver.fenced (ReliableWireFrame.data communityId chunk).encode)
      = (.ok (.data communityId chunk), receiver.withCommunity communityId) := by
  rcases receiver with ⟨fenced, latched⟩
  cases latched with
  | none =>
    simp [recv, MeshFrame.decoded, ReliableWireFrame.decode_encode, Except.toOption,
      recvValidated, validateFrameFence, ReliableWireFrame.communityId, valid, withCommunity]
  | some expected =>
    have same : expected = communityId := carries expected rfl
    subst same
    simp [recv, MeshFrame.decoded, ReliableWireFrame.decode_encode, Except.toOption,
      recvValidated, validateFrameFence, ReliableWireFrame.communityId, valid, withCommunity]

variable {redis : ℕ → SessionKeys → Session}

theorem receive_chunks (carries : receiver.MayCarry communityId)
    (valid : ∀ moment, validateFencedHeader communityId receiver.fenced
      (redis moment ⟨communityId, receiver.fenced.sessionId⟩) = .ok ())
    (moment : ℕ) (pieces : List Bytes) :
    receive redis moment receiver (pieces.map fun piece =>
        .data receiver.fenced (ReliableWireFrame.data communityId piece).encode)
      = pieces.map .data := by
  induction pieces generalizing moment receiver with
  | nil => rfl
  | cons piece rest ih =>
    have carriesNext : (receiver.withCommunity communityId).MayCarry communityId := by
      simp [MayCarry, withCommunity]
    have next := ih carriesNext valid (moment + 1)
    simp only [map_cons, receive, recv_data carries (valid moment)]
    exact congrArg _ next

theorem deliveredBytes_data (pieces : List Bytes) :
    deliveredBytes (pieces.map .data) = pieces.flatten := by
  induction pieces with
  | nil => rfl
  | cons piece rest ih =>
    simp only [deliveredBytes] at ih
    simp [deliveredBytes, ReliableFrame.bytes, ih]

variable {accepts : List MeshFrame → MeshFrame → Bool} {sender next : ReliableMeshStream}
  {result : SendResult} {frames : List MeshFrame}

theorem receive_sendBytes {bytes : Bytes}
    (sends : sender.sendBytes accepts communityId bytes = (next, result, frames))
    (fence : receiver.fenced = sender.fenced) (carries : receiver.MayCarry communityId)
    (valid : ∀ moment, validateFencedHeader communityId receiver.fenced
      (redis moment ⟨communityId, receiver.fenced.sessionId⟩) = .ok ()) (moment : ℕ) :
    deliveredBytes (receive redis moment receiver frames) <+: bytes ∧
      (result = .sent → deliveredBytes (receive redis moment receiver frames) = bytes) := by
  have positive : 0 < maxReliablePayloadBytes := by decide
  have whole := chunks_flatten positive bytes
  unfold sendBytes send at sends
  cases ensured : sender.ensureOutboundCommunity communityId with
  | error cause =>
    simp only [ensured, Prod.mk.injEq] at sends
    rcases sends with ⟨-, rfl, rfl⟩
    simp [receive, deliveredBytes]
  | ok held =>
    simp only [ensured, Prod.mk.injEq, map_map] at sends
    rcases sends with ⟨-, sends⟩
    rcases sendFrames_taken accepts [] ((chunks maxReliablePayloadBytes bytes).map
      fun piece => .data sender.fenced (ReliableWireFrame.data communityId piece).encode)
      with ⟨sent, lead, took, complete⟩
    have shape : sendFrames accepts [] ((chunks maxReliablePayloadBytes bytes).map
        fun piece => .data sender.fenced (ReliableWireFrame.data communityId piece).encode)
          = (result, frames) := sends
    simp only [shape, nil_append] at took complete
    rcases prefix_map_iff.mp lead with ⟨pieces, someChunks, rfl⟩
    have arrived : deliveredBytes (receive redis moment receiver frames) = pieces.flatten := by
      rw [took, ← fence, receive_chunks carries valid, deliveredBytes_data]
    rw [arrived]
    constructor
    · rcases someChunks with ⟨rest, all⟩
      rw [← whole, ← all, flatten_append]
      exact prefix_append _ _
    · intro isSent
      have sameCount := congrArg List.length (complete isSent)
      simp only [length_map] at sameCount
      rw [someChunks.eq_of_length sameCount, whole]

theorem sendBytes_fits (sender : ReliableMeshStream) (accepts : List MeshFrame → MeshFrame → Bool)
    (communityId : CommunityId) (bytes : Bytes) :
    ∃ payloads, (sender.sendBytes accepts communityId bytes).2.2 = map (.data sender.fenced) payloads ∧
      ∀ payload ∈ payloads, 18 < payload.length ∧
        payload.length ≤ 18 + maxReliablePayloadBytes := by
  unfold sendBytes send
  split
  · exact ⟨[], by simp⟩
  · rcases sendFrames_taken accepts [] (((chunks maxReliablePayloadBytes bytes).map
      (ReliableWireFrame.data communityId)).map fun frame => .data sender.fenced frame.encode)
      with ⟨sent, lead, took, -⟩
    rw [map_map] at lead
    rcases prefix_map_iff.mp lead with ⟨some, inside, rfl⟩
    refine ⟨some.map fun chunk => (ReliableWireFrame.data communityId chunk).encode, ?_, ?_⟩
    · rw [took, nil_append, map_map]
      rfl
    intro payload member
    rcases mem_map.mp member with ⟨chunk, isChunk, rfl⟩
    rcases chunks_length bytes chunk (inside.subset isChunk) with ⟨filled, size⟩
    have some := length_pos_iff.mpr filled
    have header := communityId.uuid.property
    simp only [ReliableWireFrame.encode, length_cons, length_append, header]
    omega

end ReliableMeshStream

namespace ReliableMeshStream

inductive StreamOp
  | sendBytes (accepts : List MeshFrame → MeshFrame → Bool) (communityId : CommunityId)
      (bytes : Bytes)
  | sendGoodbye (accepts : List MeshFrame → MeshFrame → Bool) (communityId : CommunityId)
      (reason : GoodbyeReason)
  | recv (redis : SessionKeys → Session) (frame : MeshFrame)

inductive StreamEvent
  | sent (result : SendResult) (frames : List MeshFrame)
  | yielded (result : Except ReliableStreamError ReliableWireFrame)

def step (self : ReliableMeshStream) : StreamOp → ReliableMeshStream × StreamEvent
  | .sendBytes accepts communityId bytes =>
    let (next, result, frames) := self.sendBytes accepts communityId bytes
    (next, .sent result frames)
  | .sendGoodbye accepts communityId reason =>
    let (next, result, frames) := self.sendGoodbye accepts communityId reason
    (next, .sent result frames)
  | .recv redis frame =>
    let (result, next) := self.recv redis frame
    (next, .yielded result)

def YieldsOnly (communityId : CommunityId) (events : List StreamEvent) : Prop :=
  ∀ frame, .yielded (.ok frame) ∈ events → frame.communityId = communityId

variable {self : ReliableMeshStream} {communityId : CommunityId} {next : ReliableMeshStream}

theorem ensureOutboundCommunity_ok (ensured : self.ensureOutboundCommunity communityId = .ok next) :
    self.MayCarry communityId ∧ next = self.withCommunity communityId := by
  rcases self with ⟨fenced, latched⟩
  cases latched with
  | none => simp_all [ensureOutboundCommunity, MayCarry, withCommunity]
  | some expected =>
    simp only [ensureOutboundCommunity] at ensured
    split at ensured
    · cases ensured
    · simp_all [MayCarry, withCommunity]

theorem send_fst (accepts : List MeshFrame → MeshFrame → Bool) (self : ReliableMeshStream)
    (communityId : CommunityId) (frames : List ReliableWireFrame) :
    (self.send accepts communityId frames).1 = self ∨
      self.MayCarry communityId ∧
        (self.send accepts communityId frames).1 = self.withCommunity communityId := by
  unfold send
  cases ensured : self.ensureOutboundCommunity communityId with
  | error cause => exact .inl rfl
  | ok next => exact .inr (ensureOutboundCommunity_ok ensured)

theorem validateFrameFence_ok {fenced : FencedHeader} {redis : SessionKeys → Session}
    (checked : validateFrameFence self communityId fenced redis = .ok next) :
    self.MayCarry communityId ∧ next = self.withCommunity communityId := by
  rcases self with ⟨own, latched⟩
  unfold validateFrameFence at checked
  split at checked
  · cases checked
  · cases latched with
    | none =>
      simp only at checked
      split at checked
      · simp_all [MayCarry, withCommunity]
      · cases checked
    | some expected =>
      simp only at checked
      split at checked
      · cases checked
      · split at checked
        · simp_all [MayCarry, withCommunity]
        · cases checked

theorem recv_cases (self : ReliableMeshStream) (redis : SessionKeys → Session) (frame : MeshFrame) :
    (∃ cause, self.recv redis frame = (.error cause, self)) ∨
      ∃ received : ReliableWireFrame, self.MayCarry received.communityId ∧
        self.recv redis frame = (.ok received, self.withCommunity received.communityId) := by
  unfold recv recvValidated
  cases frame.decoded with
  | data fenced decoded =>
    cases decoded with
    | none => exact .inl ⟨_, rfl⟩
    | some received =>
      cases checked : validateFrameFence self received.communityId fenced redis with
      | error cause => exact .inl ⟨cause, by simp [checked]⟩
      | ok next =>
        rcases validateFrameFence_ok checked with ⟨carries, rfl⟩
        exact .inr ⟨received, carries, by simp [checked]⟩
  | goodbye | hello | gossip => exact .inl ⟨_, rfl⟩

theorem step_cases (self : ReliableMeshStream) (op : StreamOp) :
    ((self.step op).1 = self ∧ ∀ frame, (self.step op).2 ≠ .yielded (.ok frame)) ∨
      ∃ communityId, self.MayCarry communityId ∧
        (self.step op).1 = self.withCommunity communityId ∧
        ∀ frame, (self.step op).2 = .yielded (.ok frame) → frame.communityId = communityId := by
  cases op with
  | sendBytes accepts communityId bytes =>
    rcases send_fst accepts self communityId
      ((chunks maxReliablePayloadBytes bytes).map (.data communityId)) with same | ⟨carries, held⟩
    · exact .inl ⟨same, by simp [step]⟩
    · exact .inr ⟨communityId, carries, held, by simp [step]⟩
  | sendGoodbye accepts communityId reason =>
    rcases send_fst accepts self communityId [.goodbye communityId reason]
      with same | ⟨carries, held⟩
    · exact .inl ⟨same, by simp [step]⟩
    · exact .inr ⟨communityId, carries, held, by simp [step]⟩
  | recv redis frame =>
    rcases recv_cases self redis frame with ⟨cause, failed⟩ | ⟨received, carries, yielded⟩
    · exact .inl ⟨by simp [step, failed], by simp [step, failed]⟩
    · exact .inr ⟨received.communityId, carries, by simp [step, yielded],
        by simp +contextual [step, yielded]⟩

theorem yieldsOnly_cons {event : StreamEvent} {events : List StreamEvent} :
    YieldsOnly communityId (event :: events)
      ↔ (∀ frame, event = .yielded (.ok frame) → frame.communityId = communityId) ∧
          YieldsOnly communityId events := by
  simp [YieldsOnly, or_imp, forall_and, eq_comm]

theorem trace_held (held : self.communityId = some communityId) (ops : List StreamOp) :
    YieldsOnly communityId (trace step self ops) := by
  induction ops generalizing self with
  | nil => simp [trace, YieldsOnly]
  | cons op rest ih =>
    rw [trace, yieldsOnly_cons]
    rcases step_cases self op with ⟨same, silent⟩ | ⟨other, carries, next, yields⟩
    · exact ⟨fun frame yielded => absurd yielded (silent frame), ih (by rw [same, held])⟩
    · have isOwn : communityId = other := carries communityId held
      subst isOwn
      exact ⟨yields, ih (by rw [next]; rfl)⟩

/-- That of the first send or of the first accepted frame. -/
theorem trace_one_community {ops : List StreamOp}
    {frame : ReliableWireFrame} (yielded : .yielded (.ok frame) ∈ trace step self ops) :
    self.MayCarry frame.communityId ∧ YieldsOnly frame.communityId (trace step self ops) := by
  induction ops generalizing self with
  | nil => simp [trace] at yielded
  | cons op rest ih =>
    rw [trace, mem_cons] at yielded
    rw [trace, yieldsOnly_cons]
    rcases step_cases self op with ⟨same, silent⟩ | ⟨other, carries, next, yields⟩
    · rcases yielded with now | later
      · exact absurd now.symm (silent frame)
      · rw [same] at later ⊢
        rcases ih later with ⟨mayCarry, others⟩
        exact ⟨mayCarry, fun frame now => absurd now (silent frame), others⟩
    · have held : (self.step op).1.communityId = some other := by
        rw [next]
        rfl
      have others := trace_held held rest
      have isOther : frame.communityId = other := by
        rcases yielded with now | later
        · exact yields frame now.symm
        · exact others frame later
      rw [isOther]
      exact ⟨carries, yields, others⟩

end ReliableMeshStream

section joins

variable (lua : LuaPrinter)

inductive JoinError
  | directory (cause : DirectoryError)
  | profileMismatch (sessionId : Uuid) (expected actual : Profile)
  | mesh
  deriving DecidableEq

inductive ReliableJoin
  | owned (lease : SessionLease)
  | forwarded (lease : SessionLease) (stream : ReliableMeshStream)
  deriving DecidableEq

/-- `opens`: the transport opens a stream to the owner. -/
def join (leaseTtl : ℕ) (opens : RuntimeId → Bool) (localRuntimeId : RuntimeId)
    (communityId : CommunityId) (sessionId : Uuid) (session : Session) :
    Except JoinError ReliableJoin × Session :=
  let (result, next) :=
    acquire lua leaseTtl ⟨communityId, sessionId⟩ localRuntimeId .reliableStream session
  match result with
  | .error cause => (.error (.directory cause), next)
  | .ok (.acquired lease) => (.ok (.owned lease), next)
  | .ok (.exists lease) =>
    if lease.profile ≠ .reliableStream then
      (.error (.profileMismatch sessionId .reliableStream lease.profile), next)
    else if lease.ownerRuntimeId = localRuntimeId then (.ok (.owned lease), next)
    else if opens lease.ownerRuntimeId then
      (.ok (.forwarded lease (.new lease.fencedHeader)), next)
    else (.error .mesh, next)

theorem join_forwarded {leaseTtl : ℕ} {opens : RuntimeId → Bool} {localRuntimeId : RuntimeId}
    {communityId : CommunityId} {sessionId : Uuid} {session : Session} {lease : SessionLease}
    {stream : ReliableMeshStream}
    (joined : (join lua leaseTtl opens localRuntimeId communityId sessionId session).1
      = .ok (.forwarded lease stream)) : stream = .new lease.fencedHeader := by
  unfold join at joined
  simp only at joined
  split at joined
  · cases joined
  · cases joined
  · split at joined
    · cases joined
    · split at joined
      · cases joined
      · split at joined
        · cases joined
          rfl
        · cases joined

/-- In any reachable state. -/
def YieldsJoined : Prop :=
  ∀ (before : List Op) (leaseTtl : ℕ) (opens : RuntimeId → Bool) (localRuntimeId : RuntimeId)
    (communityId : CommunityId) (sessionId : Uuid) (lease : SessionLease)
    (stream : ReliableMeshStream),
    (join lua leaseTtl opens localRuntimeId communityId sessionId
      ((final (step lua) World.initial before).redis ⟨communityId, sessionId⟩)).1
        = .ok (.forwarded lease stream) →
    ∀ ops, ReliableMeshStream.YieldsOnly communityId (trace ReliableMeshStream.step stream ops)

def sampleCommunity (byte : UInt8) : CommunityId := ⟨.fill byte⟩

def sampleSession : Uuid := .fill 5

def sampleRuntime (byte : UInt8) : RuntimeId := .fill byte

/-- One runtime owns the session in two communities. -/
def ownedTwice : List Op :=
  [.request 30000 (.acquire ⟨sampleCommunity 1, sampleSession⟩ (sampleRuntime 7) .reliableStream),
    .request 30000 (.acquire ⟨sampleCommunity 2, sampleSession⟩ (sampleRuntime 7) .reliableStream)]

def sharedFence : FencedHeader := ⟨sampleSession, 1, sampleRuntime 7⟩

/-- It takes the community of what it receives. -/
theorem not_yieldsJoined : ¬∀ lua, YieldsJoined lua := by
  intro claim
  let redis := (final (step default) World.initial ownedTwice).redis
  have joined : (join default 30000 (fun _ => true) (sampleRuntime 9) (sampleCommunity 1)
      sampleSession (redis ⟨sampleCommunity 1, sampleSession⟩)).1
        = .ok (.forwarded ⟨sampleCommunity 1, sampleSession, sampleRuntime 7, 1, .reliableStream⟩
            (.new sharedFence)) := by
    decide +kernel
  have valid : validateFencedHeader (sampleCommunity 2) sharedFence
      (redis ⟨sampleCommunity 2, sampleSession⟩) = .ok () := by
    decide +kernel
  have carries : (ReliableMeshStream.new sharedFence).MayCarry (sampleCommunity 2) := by
    simp [ReliableMeshStream.MayCarry, ReliableMeshStream.new]
  have received := ReliableMeshStream.recv_data carries valid [104, 105]
  have yields := claim default ownedTwice 30000 (fun _ => true) (sampleRuntime 9)
    (sampleCommunity 1) sampleSession _ _ joined
    [.recv redis (.data sharedFence
      (ReliableWireFrame.data (sampleCommunity 2) [104, 105]).encode)]
  have other := yields (.data (sampleCommunity 2) [104, 105]) (by
    simp only [trace, ReliableMeshStream.step, mem_singleton]
    exact congrArg (fun answer => ReliableMeshStream.StreamEvent.yielded answer.1) received.symm)
  revert other
  decide

/-- The codec loses nothing, and a stream yields frames of one community only. -/
theorem reliable_framing :
    (∀ frame, ReliableWireFrame.decode frame.encode = .ok frame) ∧
    (∀ bytes frame, ReliableWireFrame.decode bytes = .ok frame → frame.encode = bytes) ∧
    (∀ (accepts : List MeshFrame → MeshFrame → Bool) (sender receiver next : ReliableMeshStream)
      (communityId : CommunityId) (bytes : Bytes) (result : ReliableMeshStream.SendResult)
      (frames : List MeshFrame) (redis : ℕ → SessionKeys → Session) (moment : ℕ),
      sender.sendBytes accepts communityId bytes = (next, result, frames) →
      receiver.fenced = sender.fenced → receiver.MayCarry communityId →
      (∀ moment, validateFencedHeader communityId receiver.fenced
        (redis moment ⟨communityId, receiver.fenced.sessionId⟩) = .ok ()) →
      deliveredBytes (receiver.receive redis moment frames) <+: bytes ∧
        (result = .sent → deliveredBytes (receiver.receive redis moment frames) = bytes)) ∧
    (∀ (self : ReliableMeshStream) (ops : List ReliableMeshStream.StreamOp)
      (frame : ReliableWireFrame),
      .yielded (.ok frame) ∈ trace ReliableMeshStream.step self ops →
      self.MayCarry frame.communityId ∧
        ReliableMeshStream.YieldsOnly frame.communityId (trace ReliableMeshStream.step self ops)) ∧
    ∀ (lua : LuaPrinter) (leaseTtl : ℕ) (opens : RuntimeId → Bool) (localRuntimeId : RuntimeId)
      (communityId : CommunityId) (sessionId : Uuid) (session : Session) (lease : SessionLease)
      (stream : ReliableMeshStream),
      (join lua leaseTtl opens localRuntimeId communityId sessionId session).1
        = .ok (.forwarded lease stream) →
      ∀ accepts bytes ops, ReliableMeshStream.YieldsOnly communityId
        (trace ReliableMeshStream.step stream (.sendBytes accepts communityId bytes :: ops)) := by
  refine ⟨ReliableWireFrame.decode_encode, fun _ _ => ReliableWireFrame.encode_of_decode, ?_, ?_, ?_⟩
  · intro accepts sender receiver next communityId bytes result frames redis moment sends fence
      carries valid
    exact ReliableMeshStream.receive_sendBytes sends fence carries valid moment
  · intro self ops frame yielded
    exact ReliableMeshStream.trace_one_community yielded
  · intro lua leaseTtl opens localRuntimeId communityId sessionId session lease stream joined
      accepts bytes ops
    rw [join_forwarded lua joined, trace, ReliableMeshStream.yieldsOnly_cons]
    exact ⟨by simp [ReliableMeshStream.step], ReliableMeshStream.trace_held rfl ops⟩

theorem reliable_framing_hi :
    let redis := (final (step default) World.initial ownedTwice).redis
    let sender : ReliableMeshStream := .new sharedFence
    let sent := (sender.sendBytes (fun _ _ => true) (sampleCommunity 1) [104, 105]).2.2
    deliveredBytes (sender.receive (fun _ => redis) 0 sent) = [104, 105] := by
  intro redis sender sent
  have valid : validateFencedHeader (sampleCommunity 1) sharedFence
      (redis ⟨sampleCommunity 1, sampleSession⟩) = .ok () := by
    decide +kernel
  have delivered := reliable_framing.2.2.1 (fun _ _ => true) sender sender _ (sampleCommunity 1)
    [104, 105] _ sent (fun _ => redis) 0 rfl rfl
    (by simp [sender, ReliableMeshStream.MayCarry, ReliableMeshStream.new]) (fun _ => valid)
  apply delivered.2
  simp [sender, ReliableMeshStream.new, chunks, maxReliablePayloadBytes,
    ReliableMeshStream.sendFrames]

end joins

end Buzz.Tunnel
