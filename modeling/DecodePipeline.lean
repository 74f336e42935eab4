import DecodePipeline.CommandLine.Execute
import DecodePipeline.Config.Text
import DecodePipeline.Decoder.Decode
import DecodePipeline.FileTree.Record
import DecodePipeline.Json.Double
import DecodePipeline.Json.Record
import DecodePipeline.Main
import DecodePipeline.Manifest
import DecodePipeline.Options
import DecodePipeline.Proofs.Decimal
import DecodePipeline.Proofs.Decoder.Agreement
import DecodePipeline.Proofs.Decoder.Confinement
import DecodePipeline.Proofs.Queue.Wakeup
import DecodePipeline.Proofs.Run.Breakdown
import DecodePipeline.Proofs.Run.Delivery
import DecodePipeline.Proofs.Run.Lifecycle
import DecodePipeline.Proofs.Run.Ownership
import DecodePipeline.Proofs.Run.Sequence
import DecodePipeline.Proofs.Run.Takedown
import DecodePipeline.Proofs.Stage.Enumeration
import DecodePipeline.Proofs.Stage.Publication
import DecodePipeline.Queue.Waiting
import DecodePipeline.Run.Report
import DecodePipeline.Run.Session
import DecodePipeline.Shell.System
import DecodePipeline.SourceDirectory
import DecodePipeline.Text.Utf8
import DecodePipeline.Proofs.Json.Text
import DecodePipeline.Proofs.Time
import DecodePipeline.Proofs.Frame
import DecodePipeline.Proofs.Json.Record
import DecodePipeline.Proofs.Run.Retrying
import DecodePipeline.Proofs.Run.Showing
import DecodePipeline.Proofs.Decoder.Clearing
import DecodePipeline.Proofs.Decoder.Template
import DecodePipeline.Proofs.Manifest
import DecodePipeline.Proofs.Process.Tail
import DecodePipeline.Proofs.CanonicalOrder
import DecodePipeline.Proofs.Options
import DecodePipeline.Proofs.Config
