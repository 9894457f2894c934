import Buzz.Agent.Shown
import Buzz.Agent.WellFormed
import Buzz.Audio.Isolation
import Buzz.Audio.LastLeave
import Buzz.Audio.Teardown
import Buzz.Audit.Service
import Buzz.Connection.Protocol
import Buzz.Connection.Retention
import Buzz.Delivery.Enforcement
import Buzz.Discovery.Converge
import Buzz.Gateway.Refines
import Buzz.Gateway.Truthful
import Buzz.Git.Closed
import Buzz.GitPerms.Policy
import Buzz.GitSign.Binding
import Buzz.Harness.Drain
import Buzz.Harness.Fairness
import Buzz.Invites.Exact
import Buzz.Lifecycle.Archival
import Buzz.Media.Accepted
import Buzz.Membership.Immutable
import Buzz.Mesh.Converge
import Buzz.Moderation.Ban
import Buzz.PairRelay.Delivery
import Buzz.Pubsub.Subscriber
import Buzz.Push.Matching
import Buzz.PushLease.Bounds
import Buzz.PushLease.Gate
import Buzz.ReadState.Converge
import Buzz.RelayMembers.OneOwner
import Buzz.Reminders.Exact
import Buzz.Replace.Resurrection
import Buzz.Replica.Regression
import Buzz.Req.Newest
import Buzz.Subscription.Eviction
import Buzz.Subscription.Interleaving
import Buzz.Thread.Complete
import Buzz.Thread.Consistent
import Buzz.Thread.Exact
import Buzz.Thread.Windows
import Buzz.Workflows.Cron
import Buzz.Workflows.Interval
import Buzz.Workflows.Stable
import Buzz.GitPerms.Hook
import Buzz.GitPerms.Matching
import Buzz.Tunnel.Reliable
import Buzz.Pairing.Failures
import Buzz.Pairing.Qr
import Buzz.Git.Canonical
import Buzz.Audio.Replay
import Buzz.Git.Materialize
import Buzz.Engram.Head
import Buzz.Harness.Usage
import Buzz.Harness.Retries
import Buzz.Observer.Chunks
import Buzz.Engram.Body
import Buzz.Engram.Refs
import Buzz.Agent.Restarts
import Buzz.Media.Boxes
import Buzz.Harness.Circuit
import Buzz.ReadState.Split
import Buzz.Git.PackCache


