import Buzz.Library.Runs
import Buzz.Replica.Fence

/-! The writer, the probes of all pods and the readers that replay its commits. -/

namespace Buzz.Replica

open Nostr Library.Transition

structure ChannelRow where
  id : EventId
  createdAt : ℤ
  deriving DecidableEq

structure Transaction where
  xactStart : ℤ
  rows : List ChannelRow

inductive Commit
  | transaction (rows : List ChannelRow)
  | heartbeat (token : ℤ) (epoch : Uuid)

inductive Probe
  | idle
  | sampled (sampledAt : ℤ)
  | scanned (wall : ℤ)
  | committed (entry : TokenEntry) (epoch : Uuid)
  | rotating (wall : ℤ)
  | rotated (entry : TokenEntry) (epoch : Uuid)

structure World where
  clock : ℤ
  log : List Commit
  token : ℤ
  epoch : Uuid
  transactions : ℕ → Option Transaction
  pods : ℕ → FenceInner
  probes : ℕ → Probe

/-- Any writer clock and epoch may be the first. -/
def World.initial (clock : ℤ) (epoch : Uuid) : World where
  clock
  log := []
  token := 0
  epoch
  transactions := fun _ => none
  pods := fun _ => .new
  probes := fun _ => .idle

inductive Action
  | tick (clock : ℤ)
  | begin (transaction : ℕ) (xactStart : ℤ)
  | guard (transaction : ℕ) (row : ChannelRow)
  | commit (transaction : ℕ)
  | rollback (transaction : ℕ)
  | sample (probe : ℕ)
  | scan (probe : ℕ) (oldestXactStart : Option ℤ)
  | commitToken (probe : ℕ) (committedAt : ℤ)
  | record (probe pod : ℕ)
  | rotate (probe : ℕ) (committedAt : ℤ) (epoch : Uuid)
  | recordRotated (probe pod : ℕ)
  | fail (probe : ℕ)
  | close (pod : ℕ)

namespace World

def setTransaction (self : World) (transaction : ℕ) (state : Option Transaction) : World :=
  { self with transactions := Function.update self.transactions transaction state }

def setProbe (self : World) (probe : ℕ) (state : Probe) : World :=
  { self with probes := Function.update self.probes probe state }

def setPod (self : World) (pod : ℕ) (inner : FenceInner) : World :=
  { self with pods := Function.update self.pods pod inner }

@[simp] theorem setTransaction_transactions (self : World) (transaction other : ℕ)
    (state : Option Transaction) : (self.setTransaction transaction state).transactions other =
      if other = transaction then state else self.transactions other :=
  Function.update_apply self.transactions transaction state other

@[simp] theorem setProbe_probes (self : World) (probe other : ℕ) (state : Probe) :
    (self.setProbe probe state).probes other =
      if other = probe then state else self.probes other :=
  Function.update_apply self.probes probe state other

@[simp] theorem setPod_pods (self : World) (pod other : ℕ) (inner : FenceInner) :
    (self.setPod pod inner).pods other = if other = pod then inner else self.pods other :=
  Function.update_apply self.pods pod inner other

end World

/-- The scan covers every open transaction; masked backends make it fail. -/
inductive Step : World → Action → World → Prop
  | tick {world : World} {clock : ℤ} (forward : world.clock ≤ clock) :
      Step world (.tick clock) { world with clock }
  | begin {world : World} {transaction : ℕ} {xactStart : ℤ}
      (closed : world.transactions transaction = none) (past : xactStart ≤ world.clock) :
      Step world (.begin transaction xactStart)
        (world.setTransaction transaction (some ⟨xactStart, []⟩))
  | guard {world : World} {transaction : ℕ} {state : Transaction} {row : ChannelRow}
      (opened : world.transactions transaction = some state)
      (admitted : world.clock - createdAtFloor ≤ row.createdAt) :
      Step world (.guard transaction row)
        (world.setTransaction transaction (some { state with rows := row :: state.rows }))
  | commit {world : World} {transaction : ℕ} {state : Transaction}
      (opened : world.transactions transaction = some state) :
      Step world (.commit transaction)
        { world.setTransaction transaction none with
          log := world.log ++ [.transaction state.rows] }
  | rollback {world : World} {transaction : ℕ} :
      Step world (.rollback transaction) (world.setTransaction transaction none)
  | sample {world : World} {probe : ℕ} (idle : world.probes probe = .idle) :
      Step world (.sample probe) (world.setProbe probe (.sampled world.clock))
  | scan {world : World} {probe : ℕ} {sampledAt : ℤ} {oldestXactStart : Option ℤ}
      (sampled : world.probes probe = .sampled sampledAt)
      (covers : ∀ transaction state, world.transactions transaction = some state →
        ∃ oldest, oldestXactStart = some oldest ∧ oldest ≤ state.xactStart) :
      Step world (.scan probe oldestXactStart)
        (world.setProbe probe (.scanned (fenceWall sampledAt oldestXactStart)))
  | commitToken {world : World} {probe : ℕ} {wall committedAt : ℤ}
      (scanned : world.probes probe = .scanned wall) :
      Step world (.commitToken probe committedAt)
        { world.setProbe probe (.committed ⟨world.token + 1, committedAt, wall⟩ world.epoch) with
          token := world.token + 1
          log := world.log ++ [.heartbeat (world.token + 1) world.epoch] }
  | record {world : World} {probe pod : ℕ} {entry : TokenEntry} {epoch : Uuid}
      (committed : world.probes probe = .committed entry epoch) :
      Step world (.record probe pod)
        ((world.setPod pod ((world.pods pod).record entry epoch).2).setProbe probe
          (match ((world.pods pod).record entry epoch).1 with
            | .recorded => .idle
            | .tokenRegression => .rotating entry.fenceWall))
  | rotate {world : World} {probe : ℕ} {wall committedAt : ℤ} {epoch : Uuid}
      (rotating : world.probes probe = .rotating wall) :
      Step world (.rotate probe committedAt epoch)
        { world.setProbe probe (.rotated ⟨world.token + 1, committedAt, wall⟩ epoch) with
          token := world.token + 1
          epoch
          log := world.log ++ [.heartbeat (world.token + 1) epoch] }
  | recordRotated {world : World} {probe pod : ℕ} {entry : TokenEntry} {epoch : Uuid}
      (rotated : world.probes probe = .rotated entry epoch) :
      Step world (.recordRotated probe pod)
        ((world.setPod pod ((world.pods pod).record entry epoch).2).setProbe probe .idle)
  | fail {world : World} {probe : ℕ} : Step world (.fail probe) (world.setProbe probe .idle)
  | close {world : World} {pod : ℕ} :
      Step world (.close pod) (world.setPod pod (world.pods pod).close)

def observe (seed : Uuid) (replayed : List Commit) : ℤ × Uuid :=
  replayed.foldl (fun row commit =>
    match commit with
    | .heartbeat token epoch => (token, epoch)
    | .transaction _ => row) (0, seed)

end Buzz.Replica
