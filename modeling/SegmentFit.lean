import SegmentFit.Fault
import SegmentFit.Bytes.Blake3
import SegmentFit.Bytes.CellBytes
import SegmentFit.Bytes.Frame
import SegmentFit.Bytes.Hex
import SegmentFit.Bytes.Varint
import SegmentFit.Number.Binary64
import SegmentFit.Number.Shortest
import SegmentFit.Text.Blank
import SegmentFit.Text.CodePoint
import SegmentFit.Text.DecimalDigit
import SegmentFit.Text.DigitLimit
import SegmentFit.Text.Lines
import SegmentFit.Text.Numeral
import SegmentFit.Text.Printable
import SegmentFit.Text.Quoted
import SegmentFit.Text.Ranges
import SegmentFit.Text.Sink
import SegmentFit.Text.Utf8
import SegmentFit.Json.Basic
import SegmentFit.Json.Printer
import SegmentFit.Json.Reader
import SegmentFit.Table
import SegmentFit.Grid
import SegmentFit.Pose
import SegmentFit.Runs
import SegmentFit.Placement
import SegmentFit.Longest
import SegmentFit.Coverage
import SegmentFit.Sweep
import SegmentFit.Search
import SegmentFit.Case
import SegmentFit.Receipt
import SegmentFit.Solve
import SegmentFit.PathText
import SegmentFit.FileTree
import SegmentFit.Records
import SegmentFit.Difference
import SegmentFit.Verdict
import SegmentFit.Batch
import SegmentFit.CommandLine
import SegmentFit.Command.Basic
import SegmentFit.Command.Answer
import SegmentFit.Command.Batch
import SegmentFit.Command.Compare
import SegmentFit.Main
import SegmentFit.Proofs.RaisedFaults
import SegmentFit.Proofs.Results
import SegmentFit.Proofs.Runs
import SegmentFit.Proofs.Placements
import SegmentFit.Proofs.SegmentEnds
import SegmentFit.Proofs.Coverage
import SegmentFit.Proofs.CellBytes
import SegmentFit.Proofs.Frames
import SegmentFit.Proofs.Sweep
import SegmentFit.Proofs.Search
import SegmentFit.Proofs.SearchTrace
import SegmentFit.Proofs.SweepReceipt
import SegmentFit.Proofs.Longest
import SegmentFit.Proofs.Poses
import SegmentFit.Proofs.Solve
import SegmentFit.Proofs.PairReceipts
import SegmentFit.Proofs.ArrayBytes
import SegmentFit.Proofs.BatchExit
import SegmentFit.Proofs.Difference
import SegmentFit.Proofs.ReceiptComparison
import SegmentFit.Proofs.Numerals
import SegmentFit.Proofs.JsonStrings
import SegmentFit.Proofs.JsonText
import SegmentFit.Proofs.JsonReading
import SegmentFit.Proofs.CanonicalJson
import SegmentFit.Proofs.FileTrees
import SegmentFit.Proofs.TextFiles
import SegmentFit.Proofs.RecordFiles
import SegmentFit.Proofs.ReceiptFiles
import SegmentFit.Proofs.AnswerCommand
import SegmentFit.Proofs.CaseFiles
import SegmentFit.Proofs.WrittenRecords
import SegmentFit.Proofs.BatchRecords
import SegmentFit.Proofs.RowPhase
import SegmentFit.Proofs.ExactWords
import SegmentFit.Proofs.AnswerBounds
import SegmentFit.Proofs.GridRows
import SegmentFit.Proofs.Words
import SegmentFit.Proofs.CaseTexts
import SegmentFit.Proofs.JsonEquality
import SegmentFit.Proofs.RecordReading
import SegmentFit.Proofs.DifferenceLines
import SegmentFit.Proofs.RecordAgreement
import SegmentFit.Proofs.Replacement
import SegmentFit.Proofs.LineReceipts
import SegmentFit.Proofs.Verdicts
import SegmentFit.Proofs.BatchSummary
import SegmentFit.Proofs.TallyRequests
import SegmentFit.Proofs.WindowSums
import SegmentFit.Proofs.LineRuns
import SegmentFit.Proofs.SearchScan
import SegmentFit.Proofs.PoseGroup
import SegmentFit.Proofs.VarintReading
import SegmentFit.Proofs.FrameReading
import SegmentFit.Proofs.TableDigests
import SegmentFit.Proofs.CrossingCounts
