import Logbook.Capture
import Logbook.Http.Service
import Logbook.Main
import Logbook.Proofs.Capture
import Logbook.Proofs.Clock
import Logbook.Proofs.Config.ByKey
import Logbook.Proofs.Config.Fields
import Logbook.Proofs.Config.Outlines
import Logbook.Proofs.Config.SameConfiguration
import Logbook.Proofs.Config.Written
import Logbook.Proofs.Decimal.Nearest
import Logbook.Proofs.Decimal.Rounding
import Logbook.Proofs.Decimal.Shortest
import Logbook.Proofs.FailedStart
import Logbook.Proofs.FileTree
import Logbook.Proofs.Http.Story
import Logbook.Proofs.Http.Tagging
import Logbook.Proofs.Json.ExactFloats
import Logbook.Proofs.Json.Faults
import Logbook.Proofs.Json.FiniteNumbers
import Logbook.Proofs.Json.Numbers
import Logbook.Proofs.Json.OneLine
import Logbook.Proofs.Json.RoundTrip
import Logbook.Proofs.Json.Spelling
import Logbook.Proofs.Keyed
import Logbook.Proofs.Record.Agreement
import Logbook.Proofs.Record.Decoding
import Logbook.Proofs.Record.LineFeeds
import Logbook.Proofs.Record.Pairs
import Logbook.Proofs.Record.SpanFields
import Logbook.Proofs.Record.SpanWords
import Logbook.Proofs.Record.Structured
import Logbook.Proofs.Record.Wear
import Logbook.Proofs.Rotation.Archive
import Logbook.Proofs.Rotation.Footprint
import Logbook.Proofs.Rotation.Journal
import Logbook.Proofs.Rotation.Latest
import Logbook.Proofs.Rotation.Ledger
import Logbook.Proofs.Rotation.Names
import Logbook.Proofs.Rotation.Neighbours
import Logbook.Proofs.Rotation.OnDisk
import Logbook.Proofs.Rotation.Opening
import Logbook.Proofs.Rotation.Refusals
import Logbook.Proofs.Rotation.Removals
import Logbook.Proofs.Rotation.Retention
import Logbook.Proofs.Rotation.Scanning
import Logbook.Proofs.Rotation.Writing
import Logbook.Proofs.Severity.EntryPoints
import Logbook.Proofs.Severity.LevelNames
import Logbook.Proofs.Sharing
import Logbook.Proofs.Sinks.Assembly
import Logbook.Proofs.Sinks.Attachment
import Logbook.Proofs.Sinks.Batches
import Logbook.Proofs.Sinks.CarriedFields
import Logbook.Proofs.Sinks.Company
import Logbook.Proofs.Sinks.ConsoleLines
import Logbook.Proofs.Sinks.Deliveries
import Logbook.Proofs.Sinks.Gifts
import Logbook.Proofs.Sinks.Histories
import Logbook.Proofs.Sinks.Independence
import Logbook.Proofs.Sinks.InsideSpans
import Logbook.Proofs.Sinks.Isolation
import Logbook.Proofs.Sinks.LastWords
import Logbook.Proofs.Sinks.Lineage
import Logbook.Proofs.Sinks.Minimum
import Logbook.Proofs.Sinks.Recordings
import Logbook.Proofs.Sinks.Records
import Logbook.Proofs.Sinks.RequestTag
import Logbook.Proofs.Sinks.SameStory
import Logbook.Proofs.Sinks.Stages
import Logbook.Proofs.Startup
import Logbook.Proofs.Text.LetterCase
import Logbook.Proofs.Text.Utf8
import Logbook.Proofs.Toml.DistinctKeys
import Logbook.Proofs.Toml.Documents
import Logbook.Proofs.Toml.Spelling
import Logbook.Session
import Logbook.Severity.Json
