import Buzz.Library.Keyed
import Buzz.Tunnel.Directory

/-! The rooms that a relay owns: one lease and one renewer for a room, over a directory that decides
who owns what. -/

namespace Buzz.Audio

open Nostr Library
open Buzz.Tunnel (SessionKeys SessionLease RuntimeId)

/-- `callerCancelled` says why the renewer has left its loop. -/
inductive RenewerStage
  | renewing
  | releasing (callerCancelled : Bool)
  | done
  deriving DecidableEq

/-- `emptied`: the room has become empty; `calls` counts the release calls. -/
structure Renewer where
  lease : SessionLease
  lost : Bool
  draining : Bool
  cancel : Bool
  emptied : Bool
  stage : RenewerStage
  calls : ℕ
  deriving DecidableEq

structure HuddleOwnerEntry where
  epoch : ℕ
  generation : ℕ
  deriving DecidableEq

structure HuddleOwnerRegistry where
  entries : Keyed Uuid HuddleOwnerEntry
  draining : Bool

/-- `refused`: no one fires the loss, the drain has fired. -/
inductive HuddleOwnerSignals
  | ofEpoch (epoch : ℕ)
  | refused
  deriving DecidableEq

inductive Attaching
  | acquired (lease : SessionLease)
  | inserting (lease : SessionLease)
  | rechecking (sessionId : Uuid) (epoch generation : ℕ)
  deriving DecidableEq

structure Directory where
  live : Keyed SessionKeys SessionLease
  counter : Keyed SessionKeys ℕ
  acquired : List SessionLease
  ended : List SessionLease

structure Owners where
  registry : HuddleOwnerRegistry
  renewers : List Renewer
  attaching : Keyed ℕ Attaching
  directory : Directory

/-- `reaches`: a call gets to the directory; `answered`: its answer gets back. -/
inductive OwnerStep
  | acquire (task : Option ℕ) (keys : SessionKeys) (ownerRuntimeId : RuntimeId)
  | expire (keys : SessionKeys)
  | attach (task : ℕ)
  | insert (task : ℕ)
  | recheck (task : ℕ)
  | giveUp (task : ℕ)
  | release (keys : SessionKeys) (generation : ℕ)
  | drain (sessionId : Uuid) (generation : ℕ)
  | startDrainAll
  | renew (epoch : ℕ) (reaches : Bool)
  | cancelled (epoch : ℕ)
  | callRelease (epoch : ℕ) (reaches answered : Bool)
  deriving DecidableEq

namespace HuddleOwnerRegistry

variable (self : HuddleOwnerRegistry)

/-- `lost_for` and `drain_for` read two tokens of the same entry. -/
def lostFor (sessionId : Uuid) : Option ℕ := (self.entries.get sessionId).map HuddleOwnerEntry.epoch

def drainFor (sessionId : Uuid) : Option ℕ := (self.entries.get sessionId).map HuddleOwnerEntry.epoch

/-- `remove_if` of the generation: the epoch of the entry that it takes out. -/
def removeIf (sessionId : Uuid) (generation : ℕ) : Option ℕ × HuddleOwnerRegistry :=
  match self.entries.get sessionId with
  | some entry =>
    if entry.generation = generation then
      (some entry.epoch, { self with entries := self.entries.erase sessionId })
    else (none, self)
  | none => (none, self)

end HuddleOwnerRegistry

namespace Renewer

variable (self : Renewer)

def cancelled : Renewer := { self with cancel := true }

def drained : Renewer := { self with draining := true, cancel := true }

def lose : Renewer := { self with lost := true, stage := .releasing false }

def empty (keys : SessionKeys) (generation : ℕ) : Renewer :=
  if self.lease.keys = keys ∧ self.lease.generation = generation then { self with emptied := true }
  else self

end Renewer

namespace Directory

variable (self : Directory)

def nextLease (keys : SessionKeys) (ownerRuntimeId : RuntimeId) : SessionLease :=
  ⟨keys.communityId, keys.sessionId, ownerRuntimeId, (self.counter.get keys).getD 0 + 1,
    .huddleControl⟩

def grant (lease : SessionLease) : Directory :=
  { self with
    live := self.live.insert lease.keys lease
    counter := self.counter.insert lease.keys lease.generation
    acquired := lease :: self.acquired }

def acquire (keys : SessionKeys) (ownerRuntimeId : RuntimeId) : Option SessionLease × Directory :=
  match self.live.get keys with
  | some _ => (none, self)
  | none => (some (self.nextLease keys ownerRuntimeId), self.grant (self.nextLease keys ownerRuntimeId))

/-- The session is no longer owned. -/
def endLease (lease : SessionLease) : Directory :=
  { self with live := self.live.erase lease.keys, ended := lease :: self.ended }

def expire (keys : SessionKeys) : Directory :=
  match self.live.get keys with
  | some lease => self.endLease lease
  | none => self

/-- `renew` and `release` ask whether the session is owned by this very lease. -/
abbrev Owns (lease : SessionLease) : Prop := self.live.get lease.keys = some lease

end Directory

namespace Owners

variable (self : Owners)

def start : Owners := ⟨⟨.empty, false⟩, [], .empty, ⟨.empty, .empty, [], []⟩⟩

def changeRenewer (epoch : ℕ) (change : Renewer → Renewer) : Owners :=
  { self with renewers := self.renewers.modify epoch change }

def setTask (task : ℕ) (phase : Attaching) : Owners :=
  { self with attaching := self.attaching.insert task phase }

def finish (task : ℕ) : Owners := { self with attaching := self.attaching.erase task }

def spawn (lease : SessionLease) (draining cancel : Bool) : Owners :=
  { self with
    renewers := self.renewers ++ [⟨lease, false, draining, cancel, false, .renewing, 0⟩] }

def acquire (task : Option ℕ) (keys : SessionKeys) (ownerRuntimeId : RuntimeId) : Owners :=
  let (lease, directory) := self.directory.acquire keys ownerRuntimeId
  match task, lease with
  | some task, some lease => { self with directory }.setTask task (.acquired lease)
  | _, _ => { self with directory }

/-- The first half of `attach_signals`: what it returns, if it is over. -/
def attach (task : ℕ) : Option HuddleOwnerSignals × Owners :=
  match self.attaching.get task with
  | some (.acquired lease) =>
    if self.registry.draining then (some .refused, (self.spawn lease true true).finish task)
    else
      match self.registry.entries.get lease.sessionId with
      | some existing =>
        (some (.ofEpoch existing.epoch), (self.spawn lease false true).finish task)
      | none => (none, self.setTask task (.inserting lease))
  | _ => (none, self)

section attach

variable {self : Owners} {task : ℕ} {lease : SessionLease}

section

variable (isTask : self.attaching.get task = some (.acquired lease))

include isTask

theorem attach_refused (isDraining : self.registry.draining) :
    self.attach task = (some .refused, (self.spawn lease true true).finish task) := by
  rw [attach, isTask]
  exact if_pos isDraining

theorem attach_existing (isOpen : ¬ self.registry.draining) {existing : HuddleOwnerEntry}
    (isEntry : self.registry.entries.get lease.sessionId = some existing) :
    self.attach task =
      (some (.ofEpoch existing.epoch), (self.spawn lease false true).finish task) := by
  rw [attach, isTask]
  simp only [if_neg isOpen, isEntry]

theorem attach_absent (isOpen : ¬ self.registry.draining)
    (absent : self.registry.entries.get lease.sessionId = none) :
    self.attach task = (none, self.setTask task (.inserting lease)) := by
  rw [attach, isTask]
  simp only [if_neg isOpen, absent]

end

end attach

/-- The entry of the new epoch, whose signals are returned. -/
def insert (task : ℕ) : Option HuddleOwnerSignals × Owners :=
  match self.attaching.get task with
  | some (.inserting lease) =>
    let epoch := self.renewers.length
    let spawned := self.spawn lease false false
    let entries := self.registry.entries.insert lease.sessionId ⟨epoch, lease.generation⟩
    (some (.ofEpoch epoch),
      { spawned with registry := { self.registry with entries } }.setTask task
        (.rechecking lease.sessionId epoch lease.generation))
  | _ => (none, self)

def drain (sessionId : Uuid) (generation : ℕ) : Owners :=
  let (removed, registry) := self.registry.removeIf sessionId generation
  match removed with
  | some epoch => { self with registry }.changeRenewer epoch Renewer.drained
  | none => self

def recheck (task : ℕ) : Owners :=
  match self.attaching.get task with
  | some (.rechecking sessionId epoch generation) =>
    if self.registry.draining then
      ((self.drain sessionId generation).changeRenewer epoch Renewer.drained).finish task
    else self.finish task
  | _ => self

def release (keys : SessionKeys) (generation : ℕ) : Owners :=
  let emptied : Owners :=
    { self with renewers := self.renewers.map fun renewer => renewer.empty keys generation }
  let (removed, registry) := self.registry.removeIf keys.sessionId generation
  match removed with
  | some epoch => { emptied with registry }.changeRenewer epoch Renewer.cancelled
  | none => emptied

def renew (epoch : ℕ) (reaches : Bool) : Owners :=
  match self.renewers[epoch]? with
  | some renewer =>
    if renewer.stage ≠ .renewing then self
    else if reaches ∧ self.directory.Owns renewer.lease then self
    else self.changeRenewer epoch Renewer.lose
  | none => self

def cancelled (epoch : ℕ) : Owners :=
  match self.renewers[epoch]? with
  | some renewer =>
    if renewer.stage = .renewing ∧ renewer.cancel = true then
      self.changeRenewer epoch fun renewer => { renewer with stage := .releasing true }
    else self
  | none => self

/-- The renewer is over; `lost` says that it fires the loss signal. -/
def finishRenewer (epoch : ℕ) (lost : Bool) : Owners :=
  self.changeRenewer epoch fun renewer =>
    { renewer with
      lost := renewer.lost || lost
      stage := .done
      calls := renewer.calls + 1 }

def callRelease (epoch : ℕ) (reaches answered : Bool) : Owners :=
  match self.renewers[epoch]? with
  | some renewer =>
    match renewer.stage with
    | .releasing callerCancelled =>
      let isOwner := reaches && self.directory.Owns renewer.lease
      let directory := if isOwner then self.directory.endLease renewer.lease else self.directory
      let next : Owners := { self with directory }
      if reaches && answered then next.finishRenewer epoch (!isOwner)
      else next.finishRenewer epoch (!callerCancelled)
    | _ => self
  | none => self

def step : OwnerStep → Owners
  | .acquire task keys ownerRuntimeId => self.acquire task keys ownerRuntimeId
  | .expire keys => { self with directory := self.directory.expire keys }
  | .attach task => (self.attach task).2
  | .insert task => (self.insert task).2
  | .recheck task => self.recheck task
  | .giveUp task => self.finish task
  | .release keys generation => self.release keys generation
  | .drain sessionId generation => self.drain sessionId generation
  | .startDrainAll => { self with registry := { self.registry with draining := true } }
  | .renew epoch reaches => self.renew epoch reaches
  | .cancelled epoch => self.cancelled epoch
  | .callRelease epoch reaches answered => self.callRelease epoch reaches answered

def returned : OwnerStep → Option HuddleOwnerSignals
  | .attach task => (self.attach task).1
  | .insert task => (self.insert task).1
  | _ => none

end Owners

end Buzz.Audio
