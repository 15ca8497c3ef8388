import KnnOracle.Bytes
import KnnOracle.Chunks
import KnnOracle.CommandLine.Arguments
import KnnOracle.CommandLine.Flags
import KnnOracle.Comparison
import KnnOracle.Corpus
import KnnOracle.Corpus.Fingerprint
import KnnOracle.Corpus.Search
import KnnOracle.Dataset.Columns
import KnnOracle.Dataset.Fault
import KnnOracle.Dataset.Format
import KnnOracle.Dataset.Fvecs
import KnnOracle.Dataset.Lines
import KnnOracle.Dataset.Synthetic
import KnnOracle.Decimal.Dyadic
import KnnOracle.Decimal.Narrow
import KnnOracle.Decimal.Reading
import KnnOracle.Decimal.Shortest
import KnnOracle.Decimal.Written
import KnnOracle.Dictionary
import KnnOracle.Digest.Blake3
import KnnOracle.Exchange.Call
import KnnOracle.Exchange.Conversation
import KnnOracle.Exchange.Schedule
import KnnOracle.Exchange.Upload
import KnnOracle.Exchange.Window
import KnnOracle.Fault
import KnnOracle.Http.Client
import KnnOracle.Http.Host
import KnnOracle.Http.MediaType
import KnnOracle.Http.Message
import KnnOracle.Http.Transfer
import KnnOracle.Http.Url
import KnnOracle.Json.Decode
import KnnOracle.Json.Tree
import KnnOracle.Json.Value
import KnnOracle.Main
import KnnOracle.Pieces
import KnnOracle.Powers
import KnnOracle.Proofs.Comparison.Agreement
import KnnOracle.Proofs.Comparison.Extremes
import KnnOracle.Proofs.Comparison.Loosening
import KnnOracle.Proofs.Comparison.Occurrences
import KnnOracle.Proofs.Comparison.Report
import KnnOracle.Proofs.Comparison.Verdict
import KnnOracle.Proofs.Corpus.Making
import KnnOracle.Proofs.Corpus.Nearest
import KnnOracle.Proofs.Corpus.Refusing
import KnnOracle.Proofs.Corpus.Reordering
import KnnOracle.Proofs.Corpus.Streaming
import KnnOracle.Proofs.Dataset.Batches
import KnnOracle.Proofs.Dataset.Blanks
import KnnOracle.Proofs.Dataset.Growing
import KnnOracle.Proofs.Dataset.Noise
import KnnOracle.Proofs.Dataset.Perturbing
import KnnOracle.Proofs.Dataset.Rewriting
import KnnOracle.Proofs.Decimal.Arithmetic
import KnnOracle.Proofs.Decimal.Range
import KnnOracle.Proofs.Decimal.Steps
import KnnOracle.Proofs.Exchange.Batches
import KnnOracle.Proofs.Exchange.Paths
import KnnOracle.Proofs.Exchange.Returning
import KnnOracle.Proofs.Ranking.Cut
import KnnOracle.Proofs.Ranking.Order
import KnnOracle.Proofs.Ranking.Places
import KnnOracle.Proofs.Service.Dimensions
import KnnOracle.Proofs.Service.Effects
import KnnOracle.Proofs.Service.Ensuring
import KnnOracle.Proofs.Service.Faithful
import KnnOracle.Proofs.Service.Flight
import KnnOracle.Proofs.Service.LifeCycle
import KnnOracle.Proofs.Service.Meeting
import KnnOracle.Proofs.Service.Overwriting
import KnnOracle.Proofs.Service.Replay
import KnnOracle.Proofs.Service.Searching
import KnnOracle.Proofs.Service.Settling
import KnnOracle.Proofs.Session.Faithfulness
import KnnOracle.Proofs.Session.Generating
import KnnOracle.Proofs.Session.Loading
import KnnOracle.Proofs.Session.Querying
import KnnOracle.Proofs.Session.Requests
import KnnOracle.Proofs.Session.Sampling
import KnnOracle.Proofs.Session.Validating
import KnnOracle.Proofs.Similarity
import KnnOracle.Proofs.Upload.AllOrNothing
import KnnOracle.Proofs.Upload.Course
import KnnOracle.Proofs.Upload.Ledger
import KnnOracle.Proofs.Upload.Protocol
import KnnOracle.Proofs.Upload.Talk
import KnnOracle.Proofs.Validation.Independence
import KnnOracle.Proofs.Validation.Racing
import KnnOracle.Proofs.Validation.Tallying
import KnnOracle.Proofs.Wire.Answers
import KnnOracle.Proofs.Wire.FixedPoint
import KnnOracle.Random.ChaCha
import KnnOracle.Random.Draw
import KnnOracle.Ranking
import KnnOracle.Record
import KnnOracle.Score
import KnnOracle.Service.Server
import KnnOracle.Service.State
import KnnOracle.Service.Step
import KnnOracle.Session.Command
import KnnOracle.Session.Failure
import KnnOracle.Session.Generate
import KnnOracle.Session.Load
import KnnOracle.Session.Settings
import KnnOracle.Session.Telemetry
import KnnOracle.Session.Validate
import KnnOracle.Similarity
import KnnOracle.Storage.Content
import KnnOracle.Storage.Disk
import KnnOracle.Storage.FileSystem
import KnnOracle.Storage.Path
import KnnOracle.Storage.Table
import KnnOracle.Text.Blank
import KnnOracle.Text.Class
import KnnOracle.Text.Class.Emoji
import KnnOracle.Text.Class.Extending
import KnnOracle.Text.Class.Invisible
import KnnOracle.Text.Class.Unassigned
import KnnOracle.Text.Class.Unjoined
import KnnOracle.Text.Class.Wide
import KnnOracle.Text.Grid
import KnnOracle.Text.Hex
import KnnOracle.Text.Moment
import KnnOracle.Text.Percent
import KnnOracle.Text.Quoted
import KnnOracle.Text.Ranges
import KnnOracle.Text.Width
import KnnOracle.Text.Wrap
import KnnOracle.Validation.Document
import KnnOracle.Validation.Engine
import KnnOracle.Validation.Outcome
import KnnOracle.Validation.Tables
import KnnOracle.Wire.Basic
import KnnOracle.Wire.Collection
import KnnOracle.Wire.Comparison
import KnnOracle.Wire.Search
import KnnOracle.Wire.Upload
