import Dependaboard.Durable.Journal
import Dependaboard.Retirement.Fence
import Dependaboard.Retirement.Outbox
import Dependaboard.Retirement.Delivery
import Dependaboard.PullRequest.LateClose
import Dependaboard.PullRequest.RowFirst
import Dependaboard.PullRequest.Debounce
import Dependaboard.Reconcile.Complete
import Dependaboard.Mutation.AsSeen
import Dependaboard.Mutation.Attempt
import Dependaboard.Mutation.Once
import Dependaboard.Mutation.Recognised
import Dependaboard.Core.Batch
import Dependaboard.Service.BulkAction
import Dependaboard.Bulk.Course
import Dependaboard.Bulk.Verdicts
import Dependaboard.Bulk.Listing
import Dependaboard.Relational.Query
import Dependaboard.Store.Batches
import Dependaboard.Store.OutcomeJson
import Dependaboard.Audit.Written
import Dependaboard.Audit.Exclusive
import Dependaboard.Audit.Whole
import Dependaboard.Service.InstallationSync
import Dependaboard.Schedule.Chain
import Dependaboard.Schedule.Purged
import Dependaboard.Core.Dashboard
import Dependaboard.Store.Filter
import Dependaboard.Store.Reader
import Dependaboard.Store.Selected
import Dependaboard.Store.CursorJson
import Dependaboard.Dashboard.Pages
import Dependaboard.Dashboard.Summary
import Dependaboard.Dashboard.Facets
import Dependaboard.Dashboard.Repositories
import Dependaboard.Store.Keyed
import Dependaboard.Dashboard.Tenancy
import Dependaboard.Github.Checks
import Dependaboard.Checks.Whole
import Dependaboard.Web.Api
import Dependaboard.Web.Forwarded
import Dependaboard.Ui.Batch
import Dependaboard.Ui.Course
import Dependaboard.Ui.Submitted
import Dependaboard.Ui.Attached
import Dependaboard.Core.Delivery
import Dependaboard.Service.Ingress
import Dependaboard.Web.Edge
import Dependaboard.Web.Confined
import Dependaboard.Text.UrlPath
import Dependaboard.Web.Restate
import Dependaboard.Web.Webhook
import Dependaboard.Store.Migrations
import Dependaboard.Store.Migrated
import Dependaboard.Text.Urlencoded
import Dependaboard.Ui.UrlState
import Dependaboard.Ui.UrlSync
import Dependaboard.Ui.Converge
import Dependaboard.Ui.OldAddress
import Dependaboard.Ui.Selection
import Dependaboard.Ui.InForce
import Dependaboard.Ui.Live
import Dependaboard.Ui.Watched
import Dependaboard.Ui.Line
import Dependaboard.Rotation.Turns
import Dependaboard.Service.MergeRounds
import Dependaboard.Core.Progress
import Dependaboard.Audit.Followed
import Dependaboard.Reconcile.Honest
import Dependaboard.Relational.Transaction
import Dependaboard.Relational.Changes
import Dependaboard.Store.Statements
import Dependaboard.Store.Retain
import Dependaboard.Store.Revision
import Dependaboard.Relational.Cells
import Dependaboard.Store.Columns
import Dependaboard.Store.Rows
import Dependaboard.Store.Stored
import Dependaboard.Store.PrJson
import Dependaboard.Github.Metadata
import Dependaboard.Github.Snapshot
import Dependaboard.Github.Fetch
import Dependaboard.Checks.Fetched
import Dependaboard.Store.Attention
import Dependaboard.Store.Faithful
import Dependaboard.Store.Dependency
import Dependaboard.Checks.Rollup
import Dependaboard.Core.Spelling
import Dependaboard.Service.Waits
import Dependaboard.Github.Installation
import Dependaboard.Relational.Placeholder
import Dependaboard.Store.Placeholders
import Dependaboard.Store.Search
import Dependaboard.Store.Positional
import Dependaboard.Durable.Gather
import Dependaboard.Ui.PrSync
import Dependaboard.Ui.Retry
import Dependaboard.PullRequest.Asked
import Dependaboard.PullRequest.Awaited
import Dependaboard.PullRequest.ToldFresh
import Dependaboard.Text.JsonBytes
import Dependaboard.Text.JsonSpelling
import Dependaboard.Calendar.Gregorian
import Dependaboard.PullRequest.Acknowledged
import Dependaboard.Ui.Timestamp
import Dependaboard.Relational.Groups
import Dependaboard.Ui.RepoTree
import Dependaboard.Github.MetadataBlock
import Dependaboard.Durable.Handled
import Dependaboard.Ui.Concluded
import Dependaboard.Ui.Host
import Dependaboard.Ui.Drawer
import Dependaboard.Durable.Asks
import Dependaboard.Durable.Refine
import Dependaboard.Durable.Translate
import Dependaboard.Reconcile.AtRest
import Dependaboard.Reconcile.Converges
import Dependaboard.Github.Token
import Dependaboard.Tokens.Shared
import Dependaboard.Text.Base64Padded
import Dependaboard.Web.Gate
import Dependaboard.Service.FanOut
import Dependaboard.Delivery.Told
