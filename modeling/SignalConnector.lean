import SignalConnector.Accounts.Terminal
import SignalConnector.Attachments.Aligned
import SignalConnector.Badges.Mentions
import SignalConnector.Contacts.Sync
import SignalConnector.Edits.History
import SignalConnector.Erasure.Author
import SignalConnector.Expiry.Prune
import SignalConnector.Export.Items
import SignalConnector.Export.Tasks
import SignalConnector.Faces.Summary
import SignalConnector.Host.Linearize
import SignalConnector.Identity.Conserved
import SignalConnector.Import.Converge
import SignalConnector.Paging.Adjacent
import SignalConnector.Paging.Hits
import SignalConnector.Polls.Folds
import SignalConnector.Pool.Reaper
import SignalConnector.Pool.Residency
import SignalConnector.Reactions.Pills
import SignalConnector.Receipts.Ledger
import SignalConnector.Receive.Bridge
import SignalConnector.Receive.Early
import SignalConnector.Retry.Backlog
import SignalConnector.Retry.Outbox
import SignalConnector.Retry.Pacing
import SignalConnector.Retry.Reconcile
import SignalConnector.Runtime.Actor
import SignalConnector.Runtime.Lines
import SignalConnector.Runtime.LinkRelease
import SignalConnector.Runtime.Metrics
import SignalConnector.Runtime.Orphans
import SignalConnector.Runtime.Pressure
import SignalConnector.Runtime.Stopped
import SignalConnector.Store.DeleteForMe
import SignalConnector.Summaries.Run
