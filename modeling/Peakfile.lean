import Peakfile.Command.Run
import Peakfile.View
import Peakfile.Main
import Peakfile.Proofs.Stream
import Peakfile.Proofs.Windowing
import Peakfile.Proofs.Lifecycle
import Peakfile.Proofs.DeviceLog
import Peakfile.Proofs.Drafts
import Peakfile.Proofs.Content
import Peakfile.Proofs.Runs
import Peakfile.Proofs.CountWord
import Peakfile.Proofs.Framing
import Peakfile.Proofs.Buffers
import Peakfile.Proofs.Rounding
import Peakfile.Proofs.Accuracy
import Peakfile.Proofs.Samples
import Peakfile.Proofs.Volume
import Peakfile.Proofs.Extremes
import Peakfile.Proofs.Points
import Peakfile.Proofs.Quantizing
import Peakfile.Proofs.HeaderCodec
import Peakfile.Proofs.Placement
import Peakfile.Proofs.HeaderFirst
import Peakfile.Proofs.Bookkeeping
import Peakfile.Proofs.ReadingBack
import Peakfile.Proofs.Completeness
import Peakfile.Proofs.Blocks
import Peakfile.Proofs.Accounts
import Peakfile.Proofs.Listening
import Peakfile.Proofs.Discarding
import Peakfile.Proofs.WindowLengths
import Peakfile.Proofs.Progress
import Peakfile.Proofs.Anchors
import Peakfile.Proofs.Grammar
import Peakfile.Proofs.SettingsText
import Peakfile.Proofs.AnyOrder
import Peakfile.Proofs.ShortestDecimals
import Peakfile.Proofs.NumberText
import Peakfile.Proofs.ScaledReading
import Peakfile.Proofs.Storing
import Peakfile.Proofs.SavingSettings
import Peakfile.Proofs.TreeRuns
import Peakfile.Proofs.Hindrances
