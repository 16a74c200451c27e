import ReplDaemon.Capture
import ReplDaemon.Client
import ReplDaemon.CommandLine.Basic
import ReplDaemon.CommandLine.Client
import ReplDaemon.CommandLine.Daemon
import ReplDaemon.CommandLine.Number
import ReplDaemon.CommandLine.Reader
import ReplDaemon.Config.Basic
import ReplDaemon.Config.Reader
import ReplDaemon.Connection
import ReplDaemon.Engine.Basic
import ReplDaemon.Engine.Rehearsed
import ReplDaemon.Engine.Script
import ReplDaemon.Error
import ReplDaemon.Evaluation.Context
import ReplDaemon.Evaluation.Interrupts
import ReplDaemon.Frame.Basic
import ReplDaemon.Frame.Codec
import ReplDaemon.Frame.Stream
import ReplDaemon.Json.Basic
import ReplDaemon.Json.Reader
import ReplDaemon.Main
import ReplDaemon.Number.Binary64
import ReplDaemon.Number.Shortest
import ReplDaemon.Program.Client
import ReplDaemon.Program.Daemon
import ReplDaemon.Prompt
import ReplDaemon.Proofs.Capture
import ReplDaemon.Proofs.Capture.Handles
import ReplDaemon.Proofs.Concourse.Basic
import ReplDaemon.Proofs.Concourse.Capacity
import ReplDaemon.Proofs.Concourse.Invariants
import ReplDaemon.Proofs.Concourse.LeftBehind
import ReplDaemon.Proofs.Concourse.Outline
import ReplDaemon.Proofs.Concourse.Sequence
import ReplDaemon.Proofs.Connection
import ReplDaemon.Proofs.Continuation
import ReplDaemon.Proofs.Eviction
import ReplDaemon.Proofs.Exchange
import ReplDaemon.Proofs.Fault
import ReplDaemon.Proofs.Frame.Dissection
import ReplDaemon.Proofs.Frame.Pieces
import ReplDaemon.Proofs.Frame.Request
import ReplDaemon.Proofs.Frame.Response
import ReplDaemon.Proofs.Frame.ResponseFrame
import ReplDaemon.Proofs.Frame.RoundTrip
import ReplDaemon.Proofs.Frame.Stream
import ReplDaemon.Proofs.Frame.Word
import ReplDaemon.Proofs.Interrupts.Hooks
import ReplDaemon.Proofs.Isolation
import ReplDaemon.Proofs.Markers
import ReplDaemon.Proofs.Prelude
import ReplDaemon.Proofs.Prompt
import ReplDaemon.Proofs.Reception
import ReplDaemon.Proofs.Registry
import ReplDaemon.Proofs.Script.Agreement
import ReplDaemon.Proofs.Script.Discard
import ReplDaemon.Proofs.Script.Effects
import ReplDaemon.Proofs.Script.Elapse
import ReplDaemon.Proofs.Script.InPlace.Journal
import ReplDaemon.Proofs.Script.Integers
import ReplDaemon.Proofs.Script.Later
import ReplDaemon.Proofs.Script.Maps.Updates
import ReplDaemon.Proofs.Script.Nesting
import ReplDaemon.Proofs.Script.Passage
import ReplDaemon.Proofs.Script.Poll.Cancellation
import ReplDaemon.Proofs.Script.Program.CompletedExpressions
import ReplDaemon.Proofs.Script.Program.CompletedPrograms
import ReplDaemon.Proofs.Script.Program.Completion
import ReplDaemon.Proofs.Script.Program.Descent
import ReplDaemon.Proofs.Script.Program.Expressions
import ReplDaemon.Proofs.Script.Program.Extension
import ReplDaemon.Proofs.Script.Program.Finality
import ReplDaemon.Proofs.Script.Program.Height
import ReplDaemon.Proofs.Script.Program.Indexed
import ReplDaemon.Proofs.Script.Program.Indices
import ReplDaemon.Proofs.Script.Program.Lookahead
import ReplDaemon.Proofs.Script.Program.Loops
import ReplDaemon.Proofs.Script.Program.Mending
import ReplDaemon.Proofs.Script.Program.OpenBlocks
import ReplDaemon.Proofs.Script.Program.Places
import ReplDaemon.Proofs.Script.Program.Programs
import ReplDaemon.Proofs.Script.Program.Progress
import ReplDaemon.Proofs.Script.Program.Prospects
import ReplDaemon.Proofs.Script.Program.Readable
import ReplDaemon.Proofs.Script.Program.Reading
import ReplDaemon.Proofs.Script.Program.RoundTrip
import ReplDaemon.Proofs.Script.Program.Semicolons
import ReplDaemon.Proofs.Script.Program.Sequence
import ReplDaemon.Proofs.Script.Program.Spelling
import ReplDaemon.Proofs.Script.Program.Statements
import ReplDaemon.Proofs.Script.Program.Steady
import ReplDaemon.Proofs.Script.Program.Tallest
import ReplDaemon.Proofs.Script.Program.Terminator
import ReplDaemon.Proofs.Script.Replay
import ReplDaemon.Proofs.Script.Rounds
import ReplDaemon.Proofs.Script.Sequence
import ReplDaemon.Proofs.Script.Token.Chunks
import ReplDaemon.Proofs.Script.Token.Cut
import ReplDaemon.Proofs.Script.Token.Join
import ReplDaemon.Proofs.Script.Token.Layout
import ReplDaemon.Proofs.Script.Token.Scan
import ReplDaemon.Proofs.Script.Watch.Evaluation
import ReplDaemon.Proofs.Script.Watch.Faultless
import ReplDaemon.Proofs.Script.Watch.Kept
import ReplDaemon.Proofs.Script.Watch.Mirror
import ReplDaemon.Proofs.Script.Watch.Operation
import ReplDaemon.Proofs.Script.Watch.Run
import ReplDaemon.Proofs.Script.Wording
import ReplDaemon.Proofs.Service
import ReplDaemon.Proofs.Supervisor.Later
import ReplDaemon.Proofs.Supervisor.Preparation
import ReplDaemon.Proofs.Supervisor.Reasons
import ReplDaemon.Proofs.Supervisor.Record
import ReplDaemon.Proofs.Supervisor.Run
import ReplDaemon.Proofs.Supervisor.Texts
import ReplDaemon.Proofs.Supervisor.Undecided
import ReplDaemon.Proofs.Supervisor.Work
import ReplDaemon.Proofs.Supervisor.Worked
import ReplDaemon.Proofs.Traffic.Basic
import ReplDaemon.Proofs.Traffic.History
import ReplDaemon.Proofs.Traffic.Invariants
import ReplDaemon.Proofs.Traffic.Order
import ReplDaemon.Proofs.Traffic.Preparation
import ReplDaemon.Proofs.Traffic.Sequence
import ReplDaemon.Proofs.Turns
import ReplDaemon.Proofs.Value.Depth
import ReplDaemon.Proofs.Value.Scalars
import ReplDaemon.Proofs.Value.Spelled
import ReplDaemon.Proofs.Value.Unambiguous
import ReplDaemon.Registry
import ReplDaemon.Script.Bindings
import ReplDaemon.Script.Operation
import ReplDaemon.Script.Program
import ReplDaemon.Script.Program.Parser
import ReplDaemon.Script.Run
import ReplDaemon.Script.RuntimeError
import ReplDaemon.Script.Token
import ReplDaemon.Script.Token.Lexer
import ReplDaemon.Server
import ReplDaemon.Service
import ReplDaemon.Session
import ReplDaemon.Supervisor
import ReplDaemon.Text.Alphabetic
import ReplDaemon.Text.Blank
import ReplDaemon.Text.Hidden
import ReplDaemon.Text.Numeric
import ReplDaemon.Text.Quoted
import ReplDaemon.Text.RangeTable
import ReplDaemon.Text.Utf8
import ReplDaemon.Value.Basic
import ReplDaemon.Value.Depth
import ReplDaemon.Value.Text
