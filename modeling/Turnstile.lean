import Turnstile.Bytes.Word
import Turnstile.Bytes.Packed
import Turnstile.Bytes.Runs
import Turnstile.Bytes.Table
import Turnstile.Bytes.Hex
import Turnstile.Text.Utf8
import Turnstile.Text.Cut
import Turnstile.Text.Buffer
import Turnstile.Text.Ranges
import Turnstile.Text.Unshown
import Turnstile.Text.Letters
import Turnstile.Text.NumberChars
import Turnstile.Text.WordChars
import Turnstile.Text.NumberText
import Turnstile.Text.Trimmed
import Turnstile.Text.Quoted
import Turnstile.Binary64.Basic
import Turnstile.Binary64.Shortest
import Turnstile.Binary64.Text
import Turnstile.Json.Basic
import Turnstile.Json.Fault
import Turnstile.Json.Cursor
import Turnstile.Json.Reader
import Turnstile.Limits
import Turnstile.Notice
import Turnstile.Value.Basic
import Turnstile.Value.Record
import Turnstile.Value.Document
import Turnstile.Value.Host
import Turnstile.Net.SocketAddress
import Turnstile.Posix.Signal
import Turnstile.Posix.ErrorNumber
import Turnstile.Call.Catalog
import Turnstile.Call.Basic
import Turnstile.Task.Status
import Turnstile.Task.Basic
import Turnstile.Event.Payload
import Turnstile.Event.Basic
import Turnstile.Coverage.Basic
import Turnstile.Coverage.Block
import Turnstile.Mode
import Turnstile.Schedule
import Turnstile.Backoff
import Turnstile.Options.Parser
import Turnstile.Settings
import Turnstile.Error
import Turnstile.Slot.EventLog
import Turnstile.Slot.Basic
import Turnstile.Slot.Bytes
import Turnstile.Replay.Cursor
import Turnstile.Region
import Turnstile.Clock
import Turnstile.Handshake
import Turnstile.Reporter.Basic
import Turnstile.Reporter.Report
import Turnstile.Control.Mode
import Turnstile.Control.Round
import Turnstile.Replay.Replayer
import Turnstile.Recorder
import Turnstile.Disk.Device
import Turnstile.Disk.File
import Turnstile.Disk.Basic
import Turnstile.Probe
import Turnstile.Session.World
import Turnstile.Session.Errand
import Turnstile.Session.Agents
import Turnstile.Session.Scheduling
import Turnstile.Session.Recording
import Turnstile.Session.Filing
import Turnstile.Pattern.Basic
import Turnstile.Pattern.Escape
import Turnstile.Pattern.Brackets
import Turnstile.Pattern.Reader
import Turnstile.Pattern.Refusal
import Turnstile.Command.Paint
import Turnstile.Command.LogLevel
import Turnstile.Command.LogFilter
import Turnstile.Command.Invocation
import Turnstile.Command.Inspection
import Turnstile.Command.Job
import Turnstile.Command.Run
import Turnstile.Main
import Turnstile.Proofs.Text
import Turnstile.Proofs.NormalForm
import Turnstile.Proofs.RingLog
import Turnstile.Proofs.Scene
import Turnstile.Proofs.Handshake
import Turnstile.Proofs.Program
import Turnstile.Proofs.Play
import Turnstile.Proofs.Recording
import Turnstile.Proofs.Replay
import Turnstile.Proofs.Faithful
import Turnstile.Proofs.CoverageTable
import Turnstile.Proofs.Arena
import Turnstile.Proofs.ModeMachine
import Turnstile.Proofs.Grants
import Turnstile.Proofs.Release
import Turnstile.Proofs.Reports
import Turnstile.Proofs.Consultations
import Turnstile.Proofs.Choices
import Turnstile.Proofs.ReplayOrder
import Turnstile.Proofs.Selection
import Turnstile.Proofs.Draining
import Turnstile.Proofs.LiveTasks
import Turnstile.Proofs.TaskTable
import Turnstile.Proofs.Identities
import Turnstile.Proofs.Doubles
import Turnstile.Proofs.Reading
import Turnstile.Proofs.Numerals
import Turnstile.Proofs.Shapes
import Turnstile.Proofs.Documents
import Turnstile.Proofs.Reloading
import Turnstile.Proofs.Agreement
import Turnstile.Proofs.Epochs
import Turnstile.Proofs.Timing
import Turnstile.Proofs.Tenure
import Turnstile.Proofs.Engagement
import Turnstile.Proofs.Inheritance
import Turnstile.Proofs.Locks
import Turnstile.Proofs.Inspections
import Turnstile.Proofs.FreeLocks
import Turnstile.Proofs.HitCounts
import Turnstile.Proofs.LastCall
import Turnstile.Proofs.Failures
import Turnstile.Proofs.Rereading
import Turnstile.Proofs.Rounds
import Turnstile.Proofs.Totals
import Turnstile.Proofs.Frames
import Turnstile.Proofs.Dumps
import Turnstile.Proofs.Tools
import Turnstile.Proofs.ReadingAhead
import Turnstile.Proofs.Boundaries
import Turnstile.Proofs.Quantities
import Turnstile.Proofs.Damage
import Turnstile.Proofs.Crashes
