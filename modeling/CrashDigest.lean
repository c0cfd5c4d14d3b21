import CrashDigest.Main
import CrashDigest.Proofs.EndMark
import CrashDigest.Proofs.History
import CrashDigest.Proofs.Monotone
import CrashDigest.Proofs.Obstacles
import CrashDigest.Proofs.RecordInjective
import CrashDigest.Proofs.Surroundings
import CrashDigest.Proofs.Twins
import CrashDigest.Proofs.Members
import CrashDigest.Proofs.Replaced
import CrashDigest.Proofs.Sniffing
import CrashDigest.Proofs.Compression
import CrashDigest.Proofs.Criticality
import CrashDigest.Proofs.Truncation
import CrashDigest.Proofs.DecodedLines
import CrashDigest.Proofs.Labelled
import CrashDigest.Proofs.PassedOn
import CrashDigest.Proofs.AbortMessage
import CrashDigest.Proofs.MainThread
import CrashDigest.Proofs.CrashSignature
import CrashDigest.Proofs.LockupTrace
import CrashDigest.Proofs.FaultingThread
import CrashDigest.Proofs.PanicSignature
import CrashDigest.Proofs.ConsoleFallback
import CrashDigest.Proofs.SectionLines
import CrashDigest.Proofs.FlatLayout
import CrashDigest.Proofs.FrameColumns
import CrashDigest.Proofs.ReportLines
import CrashDigest.Proofs.SummaryKept
import CrashDigest.Proofs.Splitting
import CrashDigest.Proofs.WordSpans
import CrashDigest.Proofs.FieldMap
import CrashDigest.Proofs.RecordRuns
import CrashDigest.Proofs.SettingsText
import CrashDigest.Proofs.SettingsLayers
import CrashDigest.Proofs.PlainPattern
import CrashDigest.Proofs.WordSearch
import CrashDigest.Proofs.JointScan
