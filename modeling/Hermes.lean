import Hermes.AgentProxy.Approval
import Hermes.AgentProxy.Attribution
import Hermes.AgentProxy.Billing
import Hermes.AgentProxy.Blocks
import Hermes.AgentProxy.Broker.Classify
import Hermes.AgentProxy.Broker.Cursor
import Hermes.AgentProxy.Broker.Element
import Hermes.AgentProxy.Broker.Expiry
import Hermes.AgentProxy.Broker.Fanout
import Hermes.AgentProxy.Broker.Gaps
import Hermes.AgentProxy.Broker.Queue
import Hermes.AgentProxy.Broker.Reconnect
import Hermes.AgentProxy.Broker.Ring
import Hermes.AgentProxy.Charge
import Hermes.AgentProxy.Consumer
import Hermes.AgentProxy.Escapes
import Hermes.AgentProxy.Events
import Hermes.AgentProxy.Incremental
import Hermes.AgentProxy.Keys
import Hermes.AgentProxy.Launch
import Hermes.AgentProxy.Lease
import Hermes.AgentProxy.Ledgers
import Hermes.AgentProxy.Lifecycle
import Hermes.AgentProxy.Orphan
import Hermes.AgentProxy.Overcharge
import Hermes.AgentProxy.Pause
import Hermes.AgentProxy.Portal
import Hermes.AgentProxy.PortalSteps
import Hermes.AgentProxy.Registry
import Hermes.AgentProxy.Relay
import Hermes.AgentProxy.Resume
import Hermes.AgentProxy.Stall
import Hermes.AgentProxy.StateViews
import Hermes.AgentProxy.Stranded
import Hermes.AgentProxy.Sweep
import Hermes.AgentProxy.Tables
import Hermes.AgentProxy.Tenancy
import Hermes.AgentProxy.Terminal
import Hermes.AgentProxy.Transcript
import Hermes.AgentProxy.Usage
import Hermes.Auth.Containment
import Hermes.Auth.Identities
import Hermes.Auth.OneToOne
import Hermes.Auth.Refresh
import Hermes.Billing.Adapty
import Hermes.Billing.AdaptyIntake
import Hermes.Billing.AdminGrant
import Hermes.Billing.CloudPayments.Answers
import Hermes.Billing.CloudPayments.Callback
import Hermes.Billing.CloudPayments.Checkout
import Hermes.Billing.CloudPayments.Delivery
import Hermes.Billing.CloudPayments.ExactlyOnce
import Hermes.Billing.CloudPayments.Reconcile
import Hermes.Billing.Crm.Days
import Hermes.Billing.Crm.Grants
import Hermes.Billing.Crm.Payments
import Hermes.Billing.Intake
import Hermes.Billing.Payer
import Hermes.Billing.Products
import Hermes.Billing.StoreKit
import Hermes.Billing.Subscription
import Hermes.Billing.TokenPurchase
import Hermes.Billing.Webhooks
import Hermes.Byok.Keys
import Hermes.Chat.Appending
import Hermes.Chat.Attachments
import Hermes.Chat.Barrier
import Hermes.Chat.Blocked
import Hermes.Chat.Conversation
import Hermes.Chat.Delivery
import Hermes.Chat.Drafts
import Hermes.Chat.Editing
import Hermes.Chat.Fence
import Hermes.Chat.Growth
import Hermes.Chat.History
import Hermes.Chat.Model
import Hermes.Chat.Orchestrator
import Hermes.Chat.Replay
import Hermes.Chat.Requests
import Hermes.Chat.Sources
import Hermes.Chat.Trial
import Hermes.Chat.Truncation
import Hermes.Chat.Wire
import Hermes.Chats.ContextBlock
import Hermes.Chats.Identifiers
import Hermes.Chats.Paging
import Hermes.Chats.Steps
import Hermes.Chats.View
import Hermes.Gateway.RateLimit
import Hermes.Gateway.Scopes
import Hermes.Gateway.SizeLimit
import Hermes.Json
import Hermes.Library.Answering
import Hermes.Library.Base64
import Hermes.Library.Binary64
import Hermes.Library.Calendar
import Hermes.Library.Encoding
import Hermes.Library.ExactFloats
import Hermes.Library.History
import Hermes.Library.Integer
import Hermes.Library.IsoFormat
import Hermes.Library.JsonDecoder
import Hermes.Library.JsonEncoder
import Hermes.Library.Jsonb
import Hermes.Library.Keyset
import Hermes.Library.Like
import Hermes.Library.Offset
import Hermes.Library.Positions
import Hermes.Library.Program
import Hermes.Library.Purge
import Hermes.Library.Segments
import Hermes.Library.SlidingWindow
import Hermes.Library.SortedSet
import Hermes.Library.Sorting
import Hermes.Library.Splitting
import Hermes.Library.Surrogateescape
import Hermes.Library.Text
import Hermes.Library.TimedLock
import Hermes.Library.Transition
import Hermes.Library.Unwinding
import Hermes.Library.Url
import Hermes.Library.Uuid
import Hermes.Library.Words
import Hermes.Observability.Redaction
import Hermes.Policy
import Hermes.Runtime.Instance
import Hermes.Runtime.Mishaps
import Hermes.Runtime.Ownership
import Hermes.Runtime.Reaper
import Hermes.Runtime.Recovery
import Hermes.Runtime.Tending
import Hermes.Storage.Limits
import Hermes.Storage.Quota
import Hermes.Storage.Site
import Hermes.Storage.Workspace
import Hermes.Wallet.Admission
import Hermes.Wallet.Amid
import Hermes.Wallet.Concurrent
import Hermes.Wallet.Conservation
import Hermes.Wallet.Covered
import Hermes.Wallet.Effect
import Hermes.Wallet.Follow
import Hermes.Wallet.Idempotency
import Hermes.Wallet.Isolation
import Hermes.Wallet.Lockstep
import Hermes.Wallet.Model
import Hermes.Wallet.Position
import Hermes.Wallet.Serializability
import Hermes.Wallet.Service
import Hermes.Wallet.Settle
import Hermes.Wallet.Shortfall
import Hermes.Website.Paths
import Hermes.Website.Preview
import Hermes.Website.SignedUrl
import Hermes.Website.Tools
import Hermes.Workspaces.Context
import Hermes.Workspaces.Desk
import Hermes.Workspaces.Isolation
import Hermes.Workspaces.Paging
import Hermes.Workspaces.TextExtract
