import TierLineage.Alias
import TierLineage.Analyst
import TierLineage.Analyst.Prompt
import TierLineage.Analyst.Settings
import TierLineage.Analyst.Usage
import TierLineage.Answer.Analysis
import TierLineage.Answer.Classification
import TierLineage.Answer.Payload
import TierLineage.Calendar.Instant
import TierLineage.Catalog.Basic
import TierLineage.Catalog.Snapshot
import TierLineage.Catalog.Visit
import TierLineage.Config.Engine
import TierLineage.Config.Registry
import TierLineage.Config.Setting
import TierLineage.Digest.Hex
import TierLineage.Digest.Sha256
import TierLineage.Failure
import TierLineage.Flight
import TierLineage.Identifier
import TierLineage.Json.Numeral
import TierLineage.Json.Parser
import TierLineage.Json.Printer
import TierLineage.Json.Reader
import TierLineage.Json.Value
import TierLineage.Lineage.Record
import TierLineage.Main
import TierLineage.Mapping.Basic
import TierLineage.Mapping.Proposal
import TierLineage.Mapping.Slot
import TierLineage.Matching.Distance
import TierLineage.Matching.Ranking
import TierLineage.Matching.Score
import TierLineage.Matching.Words
import TierLineage.Model.Address
import TierLineage.Model.Client
import TierLineage.Model.Exchange
import TierLineage.Model.Line
import TierLineage.Model.Pacing
import TierLineage.Model.Session
import TierLineage.Named
import TierLineage.Number.Binary
import TierLineage.Number.Decimal
import TierLineage.Procedure
import TierLineage.Proofs.Answer.Constants
import TierLineage.Proofs.Answer.Copies
import TierLineage.Proofs.Answer.Objects
import TierLineage.Proofs.Answer.Tables
import TierLineage.Proofs.Answer.Wrapping
import TierLineage.Proofs.Calendar.Days
import TierLineage.Proofs.Calendar.Text
import TierLineage.Proofs.Catalog.Loading
import TierLineage.Proofs.Catalog.Placed
import TierLineage.Proofs.Catalog.Procedures
import TierLineage.Proofs.Catalog.Steady
import TierLineage.Proofs.Config.Bounds
import TierLineage.Proofs.Config.LeftOut
import TierLineage.Proofs.Flight.Consistency
import TierLineage.Proofs.Flight.History
import TierLineage.Proofs.Flight.Linearizable
import TierLineage.Proofs.Flight.Lookup
import TierLineage.Proofs.Flight.NoDuplicates
import TierLineage.Proofs.Flight.Run
import TierLineage.Proofs.Flight.SingleFlight
import TierLineage.Proofs.Flight.Unhindered
import TierLineage.Proofs.Flight.Works
import TierLineage.Proofs.Json.Fields
import TierLineage.Proofs.Json.Literal
import TierLineage.Proofs.Json.RoundTrip
import TierLineage.Proofs.Json.Spans
import TierLineage.Proofs.Mapping.Marks
import TierLineage.Proofs.Mapping.Proposals
import TierLineage.Proofs.Mapping.Rankings
import TierLineage.Proofs.Mapping.Renaming
import TierLineage.Proofs.Mapping.Slot
import TierLineage.Proofs.Matching.Affixes
import TierLineage.Proofs.Matching.AnyOrder
import TierLineage.Proofs.Matching.BestFirst
import TierLineage.Proofs.Matching.Cutting
import TierLineage.Proofs.Matching.Distance
import TierLineage.Proofs.Matching.Edits
import TierLineage.Proofs.Matching.Nesting
import TierLineage.Proofs.Matching.Scores
import TierLineage.Proofs.Matching.Spellings
import TierLineage.Proofs.Matching.Ties
import TierLineage.Proofs.Matching.Trimming
import TierLineage.Proofs.Matching.Words
import TierLineage.Proofs.Model.Counting
import TierLineage.Proofs.Model.Overlap
import TierLineage.Proofs.Model.Spacing
import TierLineage.Proofs.Naming
import TierLineage.Proofs.Number.Boundaries
import TierLineage.Proofs.Number.Difference
import TierLineage.Proofs.Number.ReadBack
import TierLineage.Proofs.Number.Remainders
import TierLineage.Proofs.Number.Rounding
import TierLineage.Proofs.Number.Shortest
import TierLineage.Proofs.Number.UnitInterval
import TierLineage.Proofs.Order
import TierLineage.Proofs.Outcome
import TierLineage.Proofs.Quoting
import TierLineage.Proofs.Service.Analysts
import TierLineage.Proofs.Service.Automatic
import TierLineage.Proofs.Service.Batch
import TierLineage.Proofs.Service.BulkReport
import TierLineage.Proofs.Service.Checks
import TierLineage.Proofs.Service.Current
import TierLineage.Proofs.Service.Deeds
import TierLineage.Proofs.Service.Errand
import TierLineage.Proofs.Service.Foresight
import TierLineage.Proofs.Service.Gathering
import TierLineage.Proofs.Service.Legal
import TierLineage.Proofs.Service.ListingOrder
import TierLineage.Proofs.Service.Outage
import TierLineage.Proofs.Service.Pool
import TierLineage.Proofs.Service.Procedures
import TierLineage.Proofs.Service.Promotion
import TierLineage.Proofs.Service.Refreshing
import TierLineage.Proofs.Service.Report
import TierLineage.Proofs.Service.Resubmission
import TierLineage.Proofs.Service.RowByRow
import TierLineage.Proofs.Service.Scheduler
import TierLineage.Proofs.Service.Sides
import TierLineage.Proofs.Service.Statuses
import TierLineage.Proofs.Service.Variants
import TierLineage.Proofs.Store.Accounting
import TierLineage.Proofs.Store.Agreement
import TierLineage.Proofs.Store.Contents
import TierLineage.Proofs.Store.Data
import TierLineage.Proofs.Store.Echo
import TierLineage.Proofs.Store.Following
import TierLineage.Proofs.Store.Hashes
import TierLineage.Proofs.Store.Key
import TierLineage.Proofs.Store.Keyed
import TierLineage.Proofs.Store.Lawful
import TierLineage.Proofs.Store.Lineage
import TierLineage.Proofs.Store.Listing
import TierLineage.Proofs.Store.Mirror
import TierLineage.Proofs.Store.Permitted
import TierLineage.Proofs.Store.Readable
import TierLineage.Proofs.Store.Records
import TierLineage.Proofs.Store.Removal
import TierLineage.Proofs.Store.Renaming
import TierLineage.Proofs.Store.Scalars
import TierLineage.Proofs.Store.Separation
import TierLineage.Proofs.Store.Sequence
import TierLineage.Proofs.Store.Settled
import TierLineage.Proofs.Store.Standing
import TierLineage.Proofs.Text.Letters
import TierLineage.Proofs.Text.Octets
import TierLineage.Proofs.Text.Parts
import TierLineage.Proofs.Web.Deletion
import TierLineage.Proofs.Web.Narrowing
import TierLineage.Proofs.Web.Routing
import TierLineage.Sample.Warehouse
import TierLineage.Server.Files
import TierLineage.Server.Log
import TierLineage.Server.Settings
import TierLineage.Server.SocketAddress
import TierLineage.Server.Start
import TierLineage.Service.Command
import TierLineage.Service.Mappings
import TierLineage.Service.Procedures
import TierLineage.Service.Schedule
import TierLineage.Service.World
import TierLineage.Store
import TierLineage.Store.Ledger
import TierLineage.Store.Shelf
import TierLineage.Table
import TierLineage.Text.Alphanumeric
import TierLineage.Text.Ascii
import TierLineage.Text.Blank
import TierLineage.Text.Gaps
import TierLineage.Text.LetterCase
import TierLineage.Text.Pieces
import TierLineage.Text.Run
import TierLineage.Text.Utf8
import TierLineage.Text.WordChar
import TierLineage.Tier
import TierLineage.Toml.Literal
import TierLineage.Toml.Number
import TierLineage.Toml.Parser
import TierLineage.Toml.Tree
import TierLineage.Web.Content
import TierLineage.Web.MediaType
import TierLineage.Web.Message
import TierLineage.Web.Percent
import TierLineage.Web.Problem
import TierLineage.Web.Route
import TierLineage.Web.Site
import TierLineage.Web.Task
