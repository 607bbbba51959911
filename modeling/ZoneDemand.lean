import ZoneDemand.Text.Utf8
import ZoneDemand.Text.Blank
import ZoneDemand.Text.Quoted
import ZoneDemand.Text.Unsigned
import ZoneDemand.Instant.Text
import ZoneDemand.Step
import ZoneDemand.ZoneSet
import ZoneDemand.Resample
import ZoneDemand.Split
import ZoneDemand.SeriesRecord
import ZoneDemand.FileTree
import ZoneDemand.Journal
import ZoneDemand.Store
import ZoneDemand.DatasetFile
import ZoneDemand.Staging
import ZoneDemand.Staging.Callback
import ZoneDemand.Upload
import ZoneDemand.Transform
import ZoneDemand.Settings.Validation
import ZoneDemand.Settings.Overrides
import ZoneDemand.Settings.Layers
import ZoneDemand.Setup
import ZoneDemand.Program
import ZoneDemand.Main
import ZoneDemand.Json.Scan
import ZoneDemand.Json.Skip
import ZoneDemand.SeriesRecord.Decode
import ZoneDemand.Proofs.Zones.Sorting
import ZoneDemand.Proofs.Dataset.Meaning
import ZoneDemand.Proofs.Dataset.Moments
import ZoneDemand.Proofs.Dataset.Horizon
import ZoneDemand.Proofs.Dataset.Reordering
import ZoneDemand.Proofs.Dataset.Extension
import ZoneDemand.Proofs.Text.WellFormed
import ZoneDemand.Proofs.Csv.Rows
import ZoneDemand.Proofs.Csv.Seams
import ZoneDemand.Proofs.Csv.Pickups
import ZoneDemand.Proofs.Csv.Concatenation
import ZoneDemand.Proofs.Staging.Runs
import ZoneDemand.Proofs.Staging.Table
import ZoneDemand.Proofs.Pipeline.Run
import ZoneDemand.Proofs.Dataset.Accounting
import ZoneDemand.Proofs.Settings.Overrides
import ZoneDemand.Proofs.Settings.Stems
import ZoneDemand.Proofs.Settings.Precedence
import ZoneDemand.Proofs.Settings.Document
import ZoneDemand.Proofs.FileTree.Contents
import ZoneDemand.Proofs.Dataset.Frame
import ZoneDemand.Proofs.Store.Writes
import ZoneDemand.Proofs.Pipeline.Frame
import ZoneDemand.Proofs.Pipeline.Rerun
import ZoneDemand.Proofs.Dataset.Unreadable
import ZoneDemand.Proofs.Pipeline.Staged
import ZoneDemand.Proofs.SeriesRecord.Lines
import ZoneDemand.Proofs.Resample.LeapSeconds
import ZoneDemand.Proofs.Dataset.Conservation
import ZoneDemand.Proofs.Calendar
import ZoneDemand.Proofs.Instant.Order
import ZoneDemand.Proofs.Instant.RoundTrip
import ZoneDemand.Proofs.Text.Encoding
import ZoneDemand.Proofs.Dataset.ReadBack
import ZoneDemand.Proofs.FileTree.Made
import ZoneDemand.Proofs.FileTree.Siblings
import ZoneDemand.Proofs.Dataset.Atomicity
import ZoneDemand.Proofs.Csv.Grammar
import ZoneDemand.Proofs.Csv.Layout
import ZoneDemand.Proofs.Text.Decoding
import ZoneDemand.Proofs.Text.Unsigned
import ZoneDemand.Proofs.Dataset.Loading
import ZoneDemand.Proofs.Dataset.ErrorLine
import ZoneDemand.Proofs.Machine
import ZoneDemand.Proofs.Resample.Checked
import ZoneDemand.Proofs.Instant.Moments
import ZoneDemand.Proofs.Resample.Moments
import ZoneDemand.Proofs.Resample.Answers
import ZoneDemand.Proofs.Resample.Starts
import ZoneDemand.Proofs.Dataset.Cut
import ZoneDemand.Proofs.Dataset.Policies
import ZoneDemand.Proofs.Dataset.Batches
import ZoneDemand.Proofs.Instant.Canonical
import ZoneDemand.Proofs.Staging.Percent
import ZoneDemand.Proofs.Staging.Callback
import ZoneDemand.Proofs.Staging.Progress
import ZoneDemand.Proofs.Staging.Tracker
import ZoneDemand.Proofs.Upload.Unique
import ZoneDemand.Proofs.Settings.Repeated
import ZoneDemand.Proofs.Pipeline.Failures
import ZoneDemand.Proofs.Store.ErrorCodes
