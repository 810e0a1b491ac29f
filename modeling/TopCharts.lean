import TopCharts.Arithmetic
import TopCharts.Arrangement.Basic
import TopCharts.Arrangement.Layers
import TopCharts.Arrangement.Merge
import TopCharts.Articles
import TopCharts.Attempt
import TopCharts.Bytes
import TopCharts.ChangeLog
import TopCharts.Chart.Basic
import TopCharts.Chart.Codec
import TopCharts.Charting
import TopCharts.Collection
import TopCharts.CommandLine
import TopCharts.Decimal.Layout
import TopCharts.Decimal.Shortest
import TopCharts.Demo.Articles
import TopCharts.Demo.Generator
import TopCharts.Demo.Music
import TopCharts.Entry
import TopCharts.Feed
import TopCharts.Json.Error
import TopCharts.Json.Format
import TopCharts.Json.Number
import TopCharts.Json.Record
import TopCharts.Json.Skip
import TopCharts.Json.Text
import TopCharts.Ledgers
import TopCharts.Main
import TopCharts.Metrics
import TopCharts.Music
import TopCharts.PlayCounts
import TopCharts.Proofs.Arithmetic
import TopCharts.Proofs.Arrangement.Content
import TopCharts.Proofs.Arrangement.Layering
import TopCharts.Proofs.Arrangement.Merging
import TopCharts.Proofs.Articles.Catalog
import TopCharts.Proofs.Articles.Counting
import TopCharts.Proofs.Articles.Horizon
import TopCharts.Proofs.Articles.Lines
import TopCharts.Proofs.Articles.Metrics
import TopCharts.Proofs.Articles.OnTime
import TopCharts.Proofs.Articles.Retention
import TopCharts.Proofs.Articles.Worker
import TopCharts.Proofs.Attempt
import TopCharts.Proofs.ChangeLog.Boundaries
import TopCharts.Proofs.ChangeLog.Drain
import TopCharts.Proofs.ChangeLog.Feeding
import TopCharts.Proofs.ChangeLog.GrowingTable
import TopCharts.Proofs.ChangeLog.Handles
import TopCharts.Proofs.ChangeLog.Lossless
import TopCharts.Proofs.ChangeLog.Milestones
import TopCharts.Proofs.ChangeLog.Overflow
import TopCharts.Proofs.ChangeLog.Positive
import TopCharts.Proofs.ChangeLog.Sums
import TopCharts.Proofs.ChangeLog.Times
import TopCharts.Proofs.ChangeLog.Turning
import TopCharts.Proofs.ChangeLog.Turnover
import TopCharts.Proofs.Chart.Built
import TopCharts.Proofs.Chart.Codec
import TopCharts.Proofs.Chart.Exact
import TopCharts.Proofs.Chart.Exchange
import TopCharts.Proofs.Chart.Listing
import TopCharts.Proofs.Chart.Reencoding
import TopCharts.Proofs.Chart.Rising
import TopCharts.Proofs.Chart.RoundTrip
import TopCharts.Proofs.Chart.Sound
import TopCharts.Proofs.Charting.Changes
import TopCharts.Proofs.Charting.Counts
import TopCharts.Proofs.Charting.Epoch
import TopCharts.Proofs.Charting.Growth
import TopCharts.Proofs.Charting.Joined
import TopCharts.Proofs.Charting.Worker
import TopCharts.Proofs.Collection.Multiplicity
import TopCharts.Proofs.Collection.Sum
import TopCharts.Proofs.Collection.Table
import TopCharts.Proofs.Collection.Totals
import TopCharts.Proofs.Comparison
import TopCharts.Proofs.Counts.Ledgers
import TopCharts.Proofs.Counts.Listed
import TopCharts.Proofs.Counts.Tallies
import TopCharts.Proofs.Demo.Generator
import TopCharts.Proofs.Demo.Plays
import TopCharts.Proofs.Demo.Views
import TopCharts.Proofs.Feed.Lines
import TopCharts.Proofs.Feed.RoundTrip
import TopCharts.Proofs.Feed.Spellings
import TopCharts.Proofs.Feed.Truncation
import TopCharts.Proofs.Json.Accepted
import TopCharts.Proofs.Json.Format
import TopCharts.Proofs.Json.Grammar
import TopCharts.Proofs.Json.Number
import TopCharts.Proofs.Json.Objects
import TopCharts.Proofs.Json.Record
import TopCharts.Proofs.Json.Spelling
import TopCharts.Proofs.Json.Text
import TopCharts.Proofs.Metrics.Accounts
import TopCharts.Proofs.Metrics.Growth
import TopCharts.Proofs.Metrics.Totals
import TopCharts.Proofs.Music.Charted
import TopCharts.Proofs.Music.Lines
import TopCharts.Proofs.Music.Metrics
import TopCharts.Proofs.Orders
import TopCharts.Proofs.Pipeline.Balance
import TopCharts.Proofs.Pipeline.Basic
import TopCharts.Proofs.Pipeline.Counting
import TopCharts.Proofs.Pipeline.History
import TopCharts.Proofs.Pipeline.Lossless
import TopCharts.Proofs.Pipeline.Outbox
import TopCharts.Proofs.Pipeline.RankedHeld
import TopCharts.Proofs.Rank.Best
import TopCharts.Proofs.Rank.Frequent
import TopCharts.Proofs.Rank.Order
import TopCharts.Proofs.Router.Combining
import TopCharts.Proofs.Router.Publish
import TopCharts.Proofs.Router.Reading
import TopCharts.Proofs.Router.Registration
import TopCharts.Proofs.Router.Sharding
import TopCharts.Proofs.Run.Basic
import TopCharts.Proofs.Run.Metrics
import TopCharts.Proofs.Settings.Overlay
import TopCharts.Proofs.Store.Accounts
import TopCharts.Proofs.Store.Batches
import TopCharts.Proofs.Store.Exact
import TopCharts.Proofs.Store.PerKey
import TopCharts.Proofs.Store.Report
import TopCharts.Proofs.Store.Restoring
import TopCharts.Proofs.Store.View
import TopCharts.Proofs.Store.Whole
import TopCharts.Proofs.Text.Line
import TopCharts.Router
import TopCharts.Run.Articles
import TopCharts.Run.Epochs
import TopCharts.Run.Music
import TopCharts.Settings
import TopCharts.Shard
import TopCharts.Shared
import TopCharts.Store
import TopCharts.Text.Case
import TopCharts.Text.CharSet
import TopCharts.Text.Line
import TopCharts.Text.Quoted
import TopCharts.Tracker
import TopCharts.Update
import TopCharts.Workers
