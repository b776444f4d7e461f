import Zulip.Foundation.Dict
import Zulip.Foundation.Transition
import Zulip.Foundation.Increasing
import Zulip.Foundation.Program
import Zulip.Foundation.Index
import Zulip.Foundation.Link
import Zulip.Foundation.Table
import Zulip.Foundation.LetterCase
import Zulip.Retention.Tables
import Zulip.Retention.Archive
import Zulip.Retention.Moves
import Zulip.Retention.RoundTrip
import Zulip.Retention.Replay
import Zulip.Foundation.Window
import Zulip.Foundation.Watermark
import Zulip.Foundation.Statements
import Zulip.Foundation.Pointwise
import Zulip.Foundation.Boundary
import Zulip.Tornado.MessageDict
import Zulip.Tornado.NotificationData
import Zulip.Tornado.Event
import Zulip.Tornado.EventQueue
import Zulip.Tornado.NarrowPredicate
import Zulip.Tornado.ClientDescriptor
import Zulip.Tornado.Delivery
import Zulip.Tornado.FlagCompression
import Zulip.Tornado.EventTemplate
import Zulip.Tornado.Persistence
import Zulip.Tornado.Notices
import Zulip.Tornado.Server
import Zulip.Tornado.Registry
import Zulip.Tornado.Handlers
import Zulip.Tornado.Collection
import Zulip.Tornado.Registration
import Zulip.Tornado.ServerRuns
import Zulip.Tornado.WaitingMessages
import Zulip.Tornado.LateNotices
import Zulip.Tornado.NoticeRuns
import Zulip.Narrow.Paging
import Zulip.Narrow.ExactPages
import Zulip.Narrow.LimitedHistory
import Zulip.SoftDeactivation.SubscriptionHistory
import Zulip.SoftDeactivation.UserMessages
import Zulip.SoftDeactivation.Replay
import Zulip.SoftDeactivation.CatchingUp
import Zulip.SoftDeactivation.Invisibility
import Zulip.Messages.Flags
import Zulip.Unread.Data
import Zulip.Unread.Events
import Zulip.Unread.Actions
import Zulip.Unread.Slots
import Zulip.Unread.Handlers
import Zulip.Unread.Tracking
import Zulip.Unread.RegisterRace
import Zulip.Register.Users
import Zulip.Register.ApplyEvent
import Zulip.Register.Overlap
import Zulip.Billing.Calendar
import Zulip.Billing.Plan
import Zulip.Billing.Invoice
import Zulip.Billing.Upgrade
import Zulip.Billing.EndOfCycle
import Zulip.Billing.Loop
import Zulip.Billing.Renewals
import Zulip.Billing.InvoiceRuns
import Zulip.Analytics.Counts
import Zulip.Analytics.Fill
import Zulip.Analytics.ExactlyOnce
import Zulip.Foundation.ThreeValued
import Zulip.Access.Tables
import Zulip.Access.Messages
import Zulip.Access.Streams
import Zulip.Narrow.Clauses
import Zulip.Narrow.Terms
import Zulip.Narrow.Builder
import Zulip.Narrow.AddTerm
import Zulip.Narrow.Fetch
import Zulip.Narrow.History
import Zulip.Narrow.Denotation
import Zulip.Narrow.EventAgreement
import Zulip.Narrow.FlagUpdates
import Zulip.Widgets.PollData
import Zulip.Widgets.PollDevices
import Zulip.Client.Unread
import Zulip.Client.UnreadStore
import Zulip.Client.UnreadRuns
import Zulip.RateLimiter.SlidingLog
import Zulip.UserGroups.Acyclic
import Zulip.Client.MessageListOrder
import Zulip.Client.FetchBlock
import Zulip.Client.FetchRace
import Zulip.UserGroups.Members
import Zulip.RateLimiter.TornadoBackend
import Zulip.Register.UserTopics
import Zulip.Messages.Payload
import Zulip.Messages.ContentFlags
import Zulip.Messages.FlagTransactions
import Zulip.Messages.FlagSerial
import Zulip.Messages.EditHistory
import Zulip.Access.MovedMessages
import Zulip.Client.NarrowUrl
import Zulip.Client.NarrowUrlRoundTrip
import Zulip.Client.SearchBar
import Zulip.Client.SearchBarTokens
import Zulip.Client.SearchBarRoundTrip
import Zulip.Client.ServerLinks
import Zulip.Unread.Policies
import Zulip.Unread.Details
import Zulip.Access.TopicRenames
import Zulip.Access.FlagEvents
import Zulip.Client.ReactionsAgree
import Zulip.EmailMirror.Addresses
import Zulip.EmailMirror.AddressRoundTrip
import Zulip.Client.TypingStatus
import Zulip.Markdown.TopicLinksAgree
import Zulip.Markdown.DraftedQuotes
import Zulip.Markdown.FencedAgreement
import Zulip.Tornado.RejectedFetches
import Zulip.Billing.CycleBoundaries
import Zulip.Billing.Proration
import Zulip.RateLimiter.CallsLeft
import Zulip.RateLimiter.RejectedRequests
import Zulip.Client.NotifiableCount
import Zulip.Client.Selection
import Zulip.Client.StringDiff
import Zulip.Foundation.Matching
import Zulip.Client.Typeahead
import Zulip.Foundation.WhileLoop
import Zulip.Tools.TemplateScanners
import Zulip.Tools.Tokenizer
import Zulip.Tools.TokenizerBranches
import Zulip.Tools.TokenizerRuns
import Zulip.Markdown.TopicLinksEnd
import Zulip.Narrow.WithOperator
import Zulip.Foundation.Padding
import Zulip.Markdown.FencedOutput
import Zulip.Markdown.FencedLines
import Zulip.MissedMessages.Worker
import Zulip.MissedMessages.WorkerRuns
import Zulip.Client.LocalEcho
import Zulip.Client.LocalEchoRuns
import Zulip.Foundation.Nesting
import Zulip.Tools.Validation
import Zulip.Tools.WellNested
