import PulseDaq.Acquisition.Opening
import PulseDaq.Acquisition.Supervisor
import PulseDaq.Acquisition.Worker
import PulseDaq.Bits
import PulseDaq.Board.Error
import PulseDaq.Board.Function
import PulseDaq.Board.Interface
import PulseDaq.Board.Json
import PulseDaq.Board.Noise
import PulseDaq.Board.Register
import PulseDaq.Board.Retry
import PulseDaq.Board.Scripted
import PulseDaq.Board.Simulated
import PulseDaq.Board.Simulation
import PulseDaq.Bytes
import PulseDaq.Command.Arguments
import PulseDaq.Command.Cat
import PulseDaq.Command.Program
import PulseDaq.Command.Save
import PulseDaq.Duration
import PulseDaq.Files.Error
import PulseDaq.Files.Path
import PulseDaq.Files.System
import PulseDaq.Group
import PulseDaq.Json.Codec
import PulseDaq.Json.Fields
import PulseDaq.Json.Parser
import PulseDaq.Json.Time
import PulseDaq.Json.Token
import PulseDaq.Json.Value
import PulseDaq.Main
import PulseDaq.Proofs.Acquisition.Logged
import PulseDaq.Proofs.Acquisition.Shutdown
import PulseDaq.Proofs.Board.Logged
import PulseDaq.Proofs.Board.Simulated
import PulseDaq.Proofs.Files.Creation
import PulseDaq.Proofs.Files.Paths
import PulseDaq.Proofs.Files.Walking
import PulseDaq.Proofs.Json.RoundTrip
import PulseDaq.Proofs.Json.Tokens
import PulseDaq.Proofs.Readout.Acceptance
import PulseDaq.Proofs.Readout.Building
import PulseDaq.Proofs.Readout.Concatenation
import PulseDaq.Proofs.Readout.Frames
import PulseDaq.Proofs.Readout.Moves
import PulseDaq.Proofs.Readout.Packing
import PulseDaq.Proofs.Readout.RoundTrip
import PulseDaq.Proofs.Readout.Safety
import PulseDaq.Proofs.Readout.Truncation
import PulseDaq.Proofs.Record.Attributes
import PulseDaq.Proofs.Record.Contents
import PulseDaq.Proofs.Record.Filling
import PulseDaq.Proofs.Session.Calls
import PulseDaq.Proofs.Session.Cycles
import PulseDaq.Proofs.Session.Discipline
import PulseDaq.Proofs.Session.Effects
import PulseDaq.Proofs.Session.Equipment
import PulseDaq.Proofs.Session.Logged
import PulseDaq.Proofs.Session.Operations
import PulseDaq.Proofs.Session.Runs
import PulseDaq.Proofs.Session.Simulated
import PulseDaq.Proofs.Session.StateMachine
import PulseDaq.Proofs.Session.Twins
import PulseDaq.Proofs.Simulation
import PulseDaq.Proofs.Storage.Answers
import PulseDaq.Proofs.Storage.Directory
import PulseDaq.Proofs.Storage.History
import PulseDaq.Proofs.Storage.Independence
import PulseDaq.Proofs.Storage.Logged
import PulseDaq.Proofs.Storage.ReadBack
import PulseDaq.Proofs.Storage.Stored
import PulseDaq.Proofs.Storage.UnitFile
import PulseDaq.Proofs.Storage.Units
import PulseDaq.Proofs.Text.Decimal
import PulseDaq.Proofs.Text.Utf8
import PulseDaq.Proofs.Triple
import PulseDaq.Readout.Aggregate
import PulseDaq.Readout.Buffer
import PulseDaq.Readout.DecodeError
import PulseDaq.Readout.Decoder
import PulseDaq.Readout.Format
import PulseDaq.Readout.RawEvent
import PulseDaq.Readout.Sample
import PulseDaq.Record.Attributes
import PulseDaq.Record.Buffer
import PulseDaq.Record.Codec
import PulseDaq.Record.Event
import PulseDaq.Record.EventSet
import PulseDaq.Record.Fill
import PulseDaq.Record.Kind
import PulseDaq.Record.Table
import PulseDaq.Record.Unit
import PulseDaq.Report
import PulseDaq.Run.Declaration
import PulseDaq.Run.Record
import PulseDaq.Run.Writer
import PulseDaq.Session.Basic
import PulseDaq.Session.Error
import PulseDaq.Session.Layout
import PulseDaq.Session.Stats
import PulseDaq.Storage.Directory
import PulseDaq.Storage.Error
import PulseDaq.Storage.Journal
import PulseDaq.Storage.Synchronized
import PulseDaq.Storage.UnitFile
import PulseDaq.Storage.Writer
import PulseDaq.Text.Blank
import PulseDaq.Text.Hex
import PulseDaq.Text.Quoted
import PulseDaq.Text.Unprinted
import PulseDaq.Text.Utf8
import PulseDaq.Timestamp
import PulseDaq.Timestamp.Epoch
import PulseDaq.Proofs.Board.Flaky
import PulseDaq.Proofs.Session.Flaky
import PulseDaq.Proofs.Acquisition.Flaky
import PulseDaq.Proofs.Readout.Faults
import PulseDaq.Proofs.Session.Statistics
import PulseDaq.Proofs.Acquisition.Reports
import PulseDaq.Proofs.Acquisition.Supervision
import PulseDaq.Proofs.Command.Saving
import PulseDaq.Proofs.Session.Capacity
import PulseDaq.Proofs.Readout.Rebuilding
import PulseDaq.Proofs.Acquisition.Opening
import PulseDaq.Proofs.Json.Fields
import PulseDaq.Proofs.Duration
import PulseDaq.Proofs.Timestamp
import PulseDaq.Proofs.Board.Json
import PulseDaq.Proofs.Run.Declaration
import PulseDaq.Proofs.Board.Retry
import PulseDaq.Proofs.Readout.Events
import PulseDaq.Proofs.Record.Markers
import PulseDaq.Proofs.Record.Codec
import PulseDaq.Proofs.Record.Unit
import PulseDaq.Proofs.Record.Layout
import PulseDaq.Proofs.Session.Sizing
import PulseDaq.Proofs.Session.Geometry
import PulseDaq.Proofs.Storage.Agreement
import PulseDaq.Proofs.Board.Readouts
import PulseDaq.Proofs.Board.Registers
import PulseDaq.Proofs.Storage.Failures
import PulseDaq.Proofs.Record.Table
import PulseDaq.Proofs.Storage.Counting
import PulseDaq.Proofs.Record.Reading
