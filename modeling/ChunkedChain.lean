import ChunkedChain.ChainFile
import ChunkedChain.Chunk
import ChunkedChain.Cleanup
import ChunkedChain.CommandLine.Given
import ChunkedChain.CommandLine.Invocation
import ChunkedChain.CommandLine.Item
import ChunkedChain.CommandLine.Refusal
import ChunkedChain.CommandLine.Scan
import ChunkedChain.CommandLine.Usage
import ChunkedChain.Config
import ChunkedChain.Decimal.Numeral
import ChunkedChain.Decimal.Shortest
import ChunkedChain.Entries
import ChunkedChain.Environment
import ChunkedChain.Failure
import ChunkedChain.FileTree.Basic
import ChunkedChain.FileTree.Operations
import ChunkedChain.FileTree.Path
import ChunkedChain.Json.Number
import ChunkedChain.Json.Reader
import ChunkedChain.Log
import ChunkedChain.Main
import ChunkedChain.Proofs.AnyOrder
import ChunkedChain.Proofs.ChainFiles
import ChunkedChain.Proofs.ChainWrites
import ChunkedChain.Proofs.Changes
import ChunkedChain.Proofs.Chunking
import ChunkedChain.Proofs.Cleaning
import ChunkedChain.Proofs.CleaningAgain
import ChunkedChain.Proofs.Clearing
import ChunkedChain.Proofs.Commuting
import ChunkedChain.Proofs.Compiled
import ChunkedChain.Proofs.DocumentKeys
import ChunkedChain.Proofs.DocumentOrder
import ChunkedChain.Proofs.Documents
import ChunkedChain.Proofs.Extending
import ChunkedChain.Proofs.FileNames
import ChunkedChain.Proofs.Grouping
import ChunkedChain.Proofs.Keeping
import ChunkedChain.Proofs.KeyPattern
import ChunkedChain.Proofs.LifeCycle
import ChunkedChain.Proofs.Linking
import ChunkedChain.Proofs.Listing
import ChunkedChain.Proofs.Lockstep
import ChunkedChain.Proofs.LongPaths
import ChunkedChain.Proofs.Making
import ChunkedChain.Proofs.Merging
import ChunkedChain.Proofs.Naming
import ChunkedChain.Proofs.Occurrences
import ChunkedChain.Proofs.Ordering
import ChunkedChain.Proofs.OwnFiles
import ChunkedChain.Proofs.Paths
import ChunkedChain.Proofs.Previewing
import ChunkedChain.Proofs.References
import ChunkedChain.Proofs.Removal
import ChunkedChain.Proofs.Repeating
import ChunkedChain.Proofs.ReportedKeys
import ChunkedChain.Proofs.Reporting
import ChunkedChain.Proofs.Requirements
import ChunkedChain.Proofs.Retargeting
import ChunkedChain.Proofs.ScriptNames
import ChunkedChain.Proofs.ScriptSources
import ChunkedChain.Proofs.Segments
import ChunkedChain.Proofs.SingleWrites
import ChunkedChain.Proofs.Splitter
import ChunkedChain.Proofs.StoppedRuns
import ChunkedChain.Proofs.Turns
import ChunkedChain.Proofs.Walking
import ChunkedChain.Proofs.WriteTraces
import ChunkedChain.Proofs.Writing
import ChunkedChain.Requisite
import ChunkedChain.ScriptFile
import ChunkedChain.Session
import ChunkedChain.Session.Decoding
import ChunkedChain.Session.Outcome
import ChunkedChain.Session.Preview
import ChunkedChain.Session.Schedule
import ChunkedChain.StateId
import ChunkedChain.Step
import ChunkedChain.Step.Link
import ChunkedChain.Store
import ChunkedChain.Terminal
import ChunkedChain.Text.Alphanumeric
import ChunkedChain.Toml.Document
import ChunkedChain.Toml.Scalar
import ChunkedChain.Toml.Table
import ChunkedChain.Toml.Text
import ChunkedChain.Value
import ChunkedChain.Yaml.Scalar
import ChunkedChain.Yaml.Sheet
