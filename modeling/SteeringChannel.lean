import SteeringChannel.Assembly
import SteeringChannel.Client
import SteeringChannel.Command
import SteeringChannel.Command.Entry
import SteeringChannel.Daemon
import SteeringChannel.Daemon.Step
import SteeringChannel.Dispatch
import SteeringChannel.Errand
import SteeringChannel.Event
import SteeringChannel.Filesystem
import SteeringChannel.Filesystem.Address
import SteeringChannel.Filesystem.Path
import SteeringChannel.Health
import SteeringChannel.Invocation
import SteeringChannel.Journal.Clock
import SteeringChannel.Journal.Layout
import SteeringChannel.Journal.Output
import SteeringChannel.Journal.Record
import SteeringChannel.Journal.Report
import SteeringChannel.Journal.Template
import SteeringChannel.Main
import SteeringChannel.Number.Binary64
import SteeringChannel.Number.Decimal
import SteeringChannel.Number.Power
import SteeringChannel.Number.Whole
import SteeringChannel.Program
import SteeringChannel.Proofs.Daemon
import SteeringChannel.Proofs.Daemon.Course
import SteeringChannel.Proofs.Daemon.Ending
import SteeringChannel.Proofs.Daemon.Precheck
import SteeringChannel.Proofs.Daemon.Refusal
import SteeringChannel.Proofs.Dispatch
import SteeringChannel.Proofs.Dispatch.Call
import SteeringChannel.Proofs.Dispatch.Outlet
import SteeringChannel.Proofs.Dispatch.Register
import SteeringChannel.Proofs.Dispatch.Trail
import SteeringChannel.Proofs.Event
import SteeringChannel.Proofs.Event.Keyword
import SteeringChannel.Proofs.Event.Terminator
import SteeringChannel.Proofs.Filesystem.Above
import SteeringChannel.Proofs.Filesystem.Path
import SteeringChannel.Proofs.Filesystem.Walk
import SteeringChannel.Proofs.Journal.Layout
import SteeringChannel.Proofs.Journal.Output
import SteeringChannel.Proofs.Number.Rounding
import SteeringChannel.Proofs.Number.Whole
import SteeringChannel.Proofs.Relay.Act
import SteeringChannel.Proofs.Relay.Calls
import SteeringChannel.Proofs.Relay.Conservation
import SteeringChannel.Proofs.Relay.Course
import SteeringChannel.Proofs.Relay.Delivery
import SteeringChannel.Proofs.Relay.EndOfInput
import SteeringChannel.Proofs.Relay.Framing
import SteeringChannel.Proofs.Relay.Interleaving
import SteeringChannel.Proofs.Relay.Life
import SteeringChannel.Proofs.Relay.Overlong
import SteeringChannel.Proofs.Relay.Renewal
import SteeringChannel.Proofs.Relay.Transcript
import SteeringChannel.Proofs.Server.Accord
import SteeringChannel.Proofs.Server.Admission
import SteeringChannel.Proofs.Server.Availability
import SteeringChannel.Proofs.Server.Coherence
import SteeringChannel.Proofs.Server.Deadline
import SteeringChannel.Proofs.Server.Exclusion
import SteeringChannel.Proofs.Server.Expiry
import SteeringChannel.Proofs.Server.Halt
import SteeringChannel.Proofs.Server.Idle
import SteeringChannel.Proofs.Server.Lag
import SteeringChannel.Proofs.Server.Mirror
import SteeringChannel.Proofs.Server.Move
import SteeringChannel.Proofs.Server.Operation
import SteeringChannel.Proofs.Server.Probe
import SteeringChannel.Proofs.Server.Serial
import SteeringChannel.Proofs.Server.Settled
import SteeringChannel.Proofs.Server.Shutdown
import SteeringChannel.Proofs.Server.Stopped
import SteeringChannel.Proofs.Server.Stream
import SteeringChannel.Proofs.Server.Task
import SteeringChannel.Proofs.Server.Twins
import SteeringChannel.Proofs.Server.View
import SteeringChannel.Proofs.Server.Waiting
import SteeringChannel.Proofs.Server.Work
import SteeringChannel.Proofs.Session.Accord
import SteeringChannel.Proofs.Session.Acknowledgement
import SteeringChannel.Proofs.Session.Course
import SteeringChannel.Proofs.Session.Entry
import SteeringChannel.Proofs.Session.Failure
import SteeringChannel.Proofs.Session.Idle
import SteeringChannel.Proofs.Session.Listening
import SteeringChannel.Proofs.Session.Lodging
import SteeringChannel.Proofs.Session.Parallel
import SteeringChannel.Proofs.Session.Probe
import SteeringChannel.Proofs.Session.Removal
import SteeringChannel.Proofs.Session.Reopening
import SteeringChannel.Proofs.Session.Share
import SteeringChannel.Proofs.Session.Silence
import SteeringChannel.Proofs.Settings.Acceptance
import SteeringChannel.Proofs.Settings.Assignment
import SteeringChannel.Proofs.Settings.Lines
import SteeringChannel.Proofs.Settings.Numeral
import SteeringChannel.Proofs.Settings.Precedence
import SteeringChannel.Proofs.Settings.Quotation
import SteeringChannel.Proofs.Terminal
import SteeringChannel.Proofs.Text.Trim
import SteeringChannel.Proofs.Text.Utf8
import SteeringChannel.Relay
import SteeringChannel.Relay.Device
import SteeringChannel.Relay.Framing
import SteeringChannel.Relay.Happening
import SteeringChannel.Server
import SteeringChannel.Server.Connection
import SteeringChannel.Session
import SteeringChannel.Session.Step
import SteeringChannel.Settings
import SteeringChannel.Settings.Coercion
import SteeringChannel.Settings.EnvFile
import SteeringChannel.Settings.Source
import SteeringChannel.State
import SteeringChannel.SystemError
import SteeringChannel.Terminal
import SteeringChannel.Text.Blank
import SteeringChannel.Text.Digit
import SteeringChannel.Text.Printable
import SteeringChannel.Text.Quoted
import SteeringChannel.Text.Utf8
import SteeringChannel.Usage
import SteeringChannel.Usage.Argument
import SteeringChannel.Value
