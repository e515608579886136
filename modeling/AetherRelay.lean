import AetherRelay.Crypto.Notification
import AetherRelay.Worker.Release
import AetherRelay.Api.ReplayCut
import AetherRelay.System.Recovery
import AetherRelay.System.Lifecycle
import AetherRelay.System.Budget
import AetherRelay.System.Spacing
import AetherRelay.System.Acceptance
import AetherRelay.System.Authenticity
import AetherRelay.System.Order
import AetherRelay.System.Ledger
import AetherRelay.System.Deferral
import AetherRelay.System.Settlement
import AetherRelay.System.PassEffect
import AetherRelay.System.Destinations
import AetherRelay.System.Payload
import AetherRelay.System.FullBudget
import AetherRelay.Api.Usable
import AetherRelay.Api.Snapshot
import AetherRelay.Api.BlockedRanges
import AetherRelay.System.Cardinality
import AetherRelay.Worker.Envelope
import AetherRelay.System.Totality
import AetherRelay.System.Counters
import AetherRelay.System.InFlight
import AetherRelay.System.Journal
import AetherRelay.Api.DlqDrain
import AetherRelay.System.Progress
import AetherRelay.System.Resends
import AetherRelay.System.Isolation
import AetherRelay.System.Stranded
import AetherRelay.Db.Migrations
import AetherRelay.Core.Transitions
import AetherRelay.System.AttemptLog
import AetherRelay.System.AtOnce
import AetherRelay.System.Outage
import AetherRelay.System.Repeats
import AetherRelay.System.Letters
import AetherRelay.System.Secrets
import AetherRelay.System.ErrorTexts
import AetherRelay.System.Waiting
