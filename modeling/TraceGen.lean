import TraceGen.CommandLine.Basic
import TraceGen.CommandLine.Options
import TraceGen.Compile.Collection
import TraceGen.Compile.Error
import TraceGen.Compile.Host
import TraceGen.Compile.Invocation
import TraceGen.Corpus.Basic
import TraceGen.Corpus.Error
import TraceGen.Corpus.FlagRules
import TraceGen.Corpus.Module
import TraceGen.Corpus.Sampling
import TraceGen.Decimal.Binary64
import TraceGen.Decimal.Layout
import TraceGen.Decimal.Reader
import TraceGen.Decimal.Shortest
import TraceGen.Digest.Sha256
import TraceGen.Files.Disk
import TraceGen.Files.Path
import TraceGen.Generation
import TraceGen.Json.Document
import TraceGen.Json.Record
import TraceGen.Json.Value
import TraceGen.KeyMap
import TraceGen.Main
import TraceGen.NameFilter
import TraceGen.Output.ByteSink
import TraceGen.Output.Error
import TraceGen.Output.Inspection
import TraceGen.Output.Performance
import TraceGen.Output.Record
import TraceGen.Output.RecordSource
import TraceGen.Output.Sinks
import TraceGen.Pattern.Meaning
import TraceGen.Pattern.Reader
import TraceGen.Pattern.Search
import TraceGen.Pattern.Syntax
import TraceGen.Policy
import TraceGen.Pool.Channel
import TraceGen.Pool.Envelope
import TraceGen.Pool.Progress
import TraceGen.Pool.SharedQueues
import TraceGen.Pool.Summary
import TraceGen.Pool.Supervisor
import TraceGen.Pool.Worker
import TraceGen.Problem.Registry
import TraceGen.Program
import TraceGen.Proofs.Compile.Calls
import TraceGen.Proofs.Compile.Collecting
import TraceGen.Proofs.Compile.Footprint
import TraceGen.Proofs.Compile.Rows
import TraceGen.Proofs.Corpus.CommandFiles
import TraceGen.Proofs.Corpus.Confinement
import TraceGen.Proofs.Corpus.Filtering
import TraceGen.Proofs.Corpus.Inputs
import TraceGen.Proofs.Corpus.Placeholders
import TraceGen.Proofs.Corpus.Reading
import TraceGen.Proofs.Corpus.Rewriting
import TraceGen.Proofs.Corpus.Segments
import TraceGen.Proofs.Files.Frame
import TraceGen.Proofs.Files.Listing
import TraceGen.Proofs.Files.Reach
import TraceGen.Proofs.Files.Removal
import TraceGen.Proofs.Files.Unchanged
import TraceGen.Proofs.Files.Writing
import TraceGen.Proofs.Generation.Agreement
import TraceGen.Proofs.Generation.Preparation
import TraceGen.Proofs.Generation.Samples
import TraceGen.Proofs.Output.Closing
import TraceGen.Proofs.Output.Framing
import TraceGen.Proofs.Output.Inspecting
import TraceGen.Proofs.Output.Parsing
import TraceGen.Proofs.Output.PerformanceLog
import TraceGen.Proofs.Output.RecordCodec
import TraceGen.Proofs.Output.Saving
import TraceGen.Proofs.Output.Truncation
import TraceGen.Proofs.Output.Writing
import TraceGen.Proofs.Pattern.Anchoring
import TraceGen.Proofs.Pattern.Classes
import TraceGen.Proofs.Pattern.Exchange
import TraceGen.Proofs.Pattern.Locality
import TraceGen.Proofs.Pattern.Matching
import TraceGen.Proofs.Policy.Contents
import TraceGen.Proofs.Policy.Fingerprint
import TraceGen.Proofs.Pool.CompileFaults
import TraceGen.Proofs.Pool.Completion
import TraceGen.Proofs.Pool.Conservation
import TraceGen.Proofs.Pool.Faults
import TraceGen.Proofs.Pool.FirstInFirstOut
import TraceGen.Proofs.Pool.KeyFilter
import TraceGen.Proofs.Pool.Ledger
import TraceGen.Proofs.Pool.LoneWorker
import TraceGen.Proofs.Pool.Outputs
import TraceGen.Proofs.Pool.RecordStream
import TraceGen.Proofs.Pool.Refinement
import TraceGen.Proofs.Pool.Run
import TraceGen.Proofs.Pool.Sequential
import TraceGen.Proofs.Pool.Step
import TraceGen.Proofs.Pool.Stragglers
import TraceGen.Proofs.Pool.Supervision
import TraceGen.Proofs.Settings.Bindings
import TraceGen.Proofs.Settings.Loading
import TraceGen.Proofs.Settings.Merging
import TraceGen.Proofs.Settings.Overlaying
import TraceGen.Proofs.Settings.Places
import TraceGen.Proofs.Settings.Precedence
import TraceGen.Proofs.Text.AtOnce
import TraceGen.Proofs.Text.ByteOrder
import TraceGen.Proofs.Text.Decoding
import TraceGen.Proofs.Text.LongestEnd
import TraceGen.Proofs.Text.Replacing
import TraceGen.Proofs.Text.Splitting
import TraceGen.Proofs.Text.Substitution
import TraceGen.Proofs.Training.LogLines
import TraceGen.Proofs.Training.Lookup
import TraceGen.Proofs.Training.MissingBaselines
import TraceGen.Proofs.Training.Retaining
import TraceGen.Proofs.Training.RowFilter
import TraceGen.Proofs.Training.Trajectories
import TraceGen.Proofs.Yaml.DistinctKeys
import TraceGen.Random.Generator
import TraceGen.Random.Shuffle
import TraceGen.Settings.Basic
import TraceGen.Settings.Error
import TraceGen.Settings.Overlay
import TraceGen.Settings.Run
import TraceGen.Text.Blank
import TraceGen.Text.Digits
import TraceGen.Text.Hex
import TraceGen.Text.Quoted
import TraceGen.Text.Substitute
import TraceGen.Text.Utf8
import TraceGen.Training.Log
import TraceGen.Training.ModuleData
import TraceGen.Training.RewardStat
import TraceGen.Unicode.Category
import TraceGen.Unicode.Folding
import TraceGen.Unicode.Named
import TraceGen.Unicode.Property
import TraceGen.Unicode.Script
import TraceGen.Unicode.Table
import TraceGen.Yaml.BlockScalar
import TraceGen.Yaml.Cursor
import TraceGen.Yaml.Document
import TraceGen.Yaml.Gap
import TraceGen.Yaml.Node
import TraceGen.Yaml.PlainScalar
import TraceGen.Yaml.Printer
import TraceGen.Yaml.QuotedScalar
import TraceGen.Yaml.Scanner
import TraceGen.Yaml.TagText
import TraceGen.Yaml.Token
import TraceGen.Yaml.Tree
