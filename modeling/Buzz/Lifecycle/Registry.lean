import Buzz.Library.Runs
import Buzz.Subscription.Registry
import Mathlib.Data.List.Dedup

/-! The sockets of a pod by community, while communities are archived and restored. -/

namespace Buzz.Lifecycle

open Nostr Buzz.Subscription Library.Transition

abbrev ArchivalId := ℕ

/-- `gone` is after the guard has been dropped. -/
inductive Phase
  | checking
  | checked
  | running
  | leaving
  | gone
  deriving DecidableEq

inductive Cause
  | admission
  | runEnded
  | archival (id : ArchivalId)
  | revalidation
  | other
  deriving DecidableEq

structure Connection where
  community : CommunityId
  phase : Phase
  cancelled : List Cause

/-- `disconnect_community` goes through the registry one entry after the other. -/
inductive ArchivalPhase
  | writing
  | written
  | sweeping (todo : List ConnId)
  | done
  deriving DecidableEq

structure Archival where
  community : CommunityId
  phase : ArchivalPhase

/-- The communities still to check, one found inactive, or its sweep. -/
inductive Revalidation
  | idle
  | checking (communities : List CommunityId)
  | found (community : CommunityId) (rest : List CommunityId)
  | sweeping (community : CommunityId) (todo : List ConnId) (rest : List CommunityId)

structure World where
  connections : ConnId → Option Connection
  entries : List ConnId
  archived : CommunityId → Option ArchivalId
  archivals : ArchivalId → Option Archival
  revalidation : Revalidation

namespace World

def initial : World := ⟨fun _ => none, [], fun _ => none, fun _ => none, .idle⟩

def setConnection (self : World) (connId : ConnId) (connection : Connection) : World :=
  { self with connections := Function.update self.connections connId (some connection) }

def setArchival (self : World) (id : ArchivalId) (archival : Archival) : World :=
  { self with archivals := Function.update self.archivals id (some archival) }

def boundCommunities (self : World) : List CommunityId :=
  (self.entries.filterMap fun connId =>
    (self.connections connId).map Connection.community).dedup

def cancelEntry (self : World) (cause : Cause) (community : CommunityId) (connId : ConnId) :
    World :=
  match self.connections connId with
  | some connection =>
    if connId ∈ self.entries ∧ connection.community = community then
      self.setConnection connId { connection with cancelled := cause :: connection.cancelled }
    else self
  | none => self

end World

inductive Action
  | register (connId : ConnId) (community : CommunityId)
  | pass (connId : ConnId)
  | fail (connId : ConnId)
  | stop (connId : ConnId)
  | run (connId : ConnId)
  | runEnds (connId : ConnId)
  | close (connId : ConnId)
  | drop (connId : ConnId)
  | archive (id : ArchivalId) (community : CommunityId)
  | write (id : ArchivalId)
  | sweep (id : ArchivalId)
  | meet (id : ArchivalId) (connId : ConnId)
  | visit (id : ArchivalId)
  | finish (id : ArchivalId)
  | unarchive (community : CommunityId)
  | tick
  | active
  | inactive
  | lookupFails
  | tickSweeps
  | tickMeets (connId : ConnId)
  | tickVisits
  | tickNext
  | tickEnds

/-- A sweep may meet a later entry. -/
inductive Step : World → Action → World → Prop
  | register {world : World} {connId : ConnId} {community : CommunityId}
      (unused : world.connections connId = none) :
      Step world (.register connId community)
        { world.setConnection connId ⟨community, .checking, []⟩ with
          entries := connId :: world.entries }
  | pass {world : World} {connId : ConnId} {connection : Connection}
      (found : world.connections connId = some connection) (phase : connection.phase = .checking)
      (active : world.archived connection.community = none) :
      Step world (.pass connId) (world.setConnection connId { connection with phase := .checked })
  | fail {world : World} {connId : ConnId} {connection : Connection}
      (found : world.connections connId = some connection) (phase : connection.phase = .checking) :
      Step world (.fail connId)
        (world.setConnection connId
          { connection with phase := .leaving, cancelled := .admission :: connection.cancelled })
  | stop {world : World} {connId : ConnId} {connection : Connection}
      (found : world.connections connId = some connection) (phase : connection.phase = .checked)
      (cancelled : connection.cancelled ≠ []) :
      Step world (.stop connId) (world.setConnection connId { connection with phase := .leaving })
  | run {world : World} {connId : ConnId} {connection : Connection}
      (found : world.connections connId = some connection) (phase : connection.phase = .checked)
      (uncancelled : connection.cancelled = []) :
      Step world (.run connId) (world.setConnection connId { connection with phase := .running })
  | runEnds {world : World} {connId : ConnId} {connection : Connection}
      (found : world.connections connId = some connection) (phase : connection.phase = .running) :
      Step world (.runEnds connId)
        (world.setConnection connId
          { connection with phase := .leaving, cancelled := .runEnded :: connection.cancelled })
  | close {world : World} {connId : ConnId} {connection : Connection}
      (found : world.connections connId = some connection) :
      Step world (.close connId)
        (world.setConnection connId
          { connection with cancelled := .other :: connection.cancelled })
  | drop {world : World} {connId : ConnId} {connection : Connection}
      (found : world.connections connId = some connection)
      (inside : connection.phase = .checking ∨ connection.phase = .running ∨
        connection.phase = .leaving) :
      Step world (.drop connId)
        { world.setConnection connId { connection with phase := .gone } with
          entries := world.entries.erase connId }
  | archive {world : World} {id : ArchivalId} {community : CommunityId}
      (unused : world.archivals id = none) :
      Step world (.archive id community) (world.setArchival id ⟨community, .writing⟩)
  | write {world : World} {id : ArchivalId} {archival : Archival}
      (found : world.archivals id = some archival) (phase : archival.phase = .writing) :
      Step world (.write id)
        { world.setArchival id { archival with phase := .written } with
          archived := Function.update world.archived archival.community
            (some ((world.archived archival.community).getD id)) }
  | sweep {world : World} {id : ArchivalId} {archival : Archival}
      (found : world.archivals id = some archival) (phase : archival.phase = .written) :
      Step world (.sweep id)
        (world.setArchival id { archival with phase := .sweeping world.entries })
  | meet {world : World} {id : ArchivalId} {archival : Archival} {connId : ConnId}
      {todo : List ConnId} (found : world.archivals id = some archival)
      (phase : archival.phase = .sweeping todo) (present : connId ∈ world.entries) :
      Step world (.meet id connId)
        (world.setArchival id { archival with phase := .sweeping (connId :: todo) })
  | visit {world : World} {id : ArchivalId} {archival : Archival} {connId : ConnId}
      {todo : List ConnId} (found : world.archivals id = some archival)
      (phase : archival.phase = .sweeping (connId :: todo)) :
      Step world (.visit id)
        ((world.cancelEntry (.archival id) archival.community connId).setArchival id
          { archival with phase := .sweeping todo })
  | finish {world : World} {id : ArchivalId} {archival : Archival}
      (found : world.archivals id = some archival) (phase : archival.phase = .sweeping []) :
      Step world (.finish id) (world.setArchival id { archival with phase := .done })
  | unarchive {world : World} {community : CommunityId} :
      Step world (.unarchive community)
        { world with archived := Function.update world.archived community none }
  | tick {world : World} (idle : world.revalidation = .idle) :
      Step world .tick { world with revalidation := .checking world.boundCommunities }
  | active {world : World} {community : CommunityId} {rest : List CommunityId}
      (phase : world.revalidation = .checking (community :: rest))
      (active : world.archived community = none) :
      Step world .active { world with revalidation := .checking rest }
  | inactive {world : World} {community : CommunityId} {rest : List CommunityId}
      (phase : world.revalidation = .checking (community :: rest))
      (inactive : world.archived community ≠ none) :
      Step world .inactive { world with revalidation := .found community rest }
  | tickSweeps {world : World} {community : CommunityId} {rest : List CommunityId}
      (phase : world.revalidation = .found community rest) :
      Step world .tickSweeps
        { world with revalidation := .sweeping community world.entries rest }
  | lookupFails {world : World} {community : CommunityId} {rest : List CommunityId}
      (phase : world.revalidation = .checking (community :: rest)) :
      Step world .lookupFails { world with revalidation := .checking rest }
  | tickMeets {world : World} {community : CommunityId} {connId : ConnId} {todo : List ConnId}
      {rest : List CommunityId} (phase : world.revalidation = .sweeping community todo rest)
      (present : connId ∈ world.entries) :
      Step world (.tickMeets connId)
        { world with revalidation := .sweeping community (connId :: todo) rest }
  | tickVisits {world : World} {community : CommunityId} {connId : ConnId} {todo : List ConnId}
      {rest : List CommunityId}
      (phase : world.revalidation = .sweeping community (connId :: todo) rest) :
      Step world .tickVisits
        { world.cancelEntry .revalidation community connId with
          revalidation := .sweeping community todo rest }
  | tickNext {world : World} {community : CommunityId} {rest : List CommunityId}
      (phase : world.revalidation = .sweeping community [] rest) :
      Step world .tickNext { world with revalidation := .checking rest }
  | tickEnds {world : World} (phase : world.revalidation = .checking []) :
      Step world .tickEnds { world with revalidation := .idle }

end Buzz.Lifecycle
