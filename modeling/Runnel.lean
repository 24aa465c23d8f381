import Runnel.Child.Descriptor
import Runnel.Child.Interpret
import Runnel.Child.Process
import Runnel.Child.Run
import Runnel.Child.Start
import Runnel.Child.Substitution
import Runnel.Child.Table
import Runnel.Child.Tool
import Runnel.Command.Deferral
import Runnel.Command.Parse
import Runnel.Command.Quote
import Runnel.Command.SyntaxError
import Runnel.Command.Template
import Runnel.Command.Token
import Runnel.Command.Tree
import Runnel.Command.Word
import Runnel.Config.Document
import Runnel.Config.Dotenv
import Runnel.Config.Load
import Runnel.Config.Settings
import Runnel.Config.Toml
import Runnel.Config.TraceSwitch
import Runnel.Console.Arguments
import Runnel.Console.Run
import Runnel.Console.Session
import Runnel.Console.Watch
import Runnel.Flow.Activity
import Runnel.Flow.Attend
import Runnel.Flow.Channel
import Runnel.Flow.Chunk
import Runnel.Flow.Context
import Runnel.Flow.Machine
import Runnel.Flow.Sample
import Runnel.Flow.Turn
import Runnel.Flow.Wait
import Runnel.Flow.Work
import Runnel.Host.Change
import Runnel.Host.Disk
import Runnel.Host.Listing
import Runnel.Host.Path
import Runnel.Host.Program
import Runnel.Host.SystemError
import Runnel.Main
import Runnel.Number.Binary
import Runnel.Number.Decimal
import Runnel.Number.Duration
import Runnel.Number.Integer
import Runnel.Proofs.Command.Bare
import Runnel.Proofs.Command.Deferring
import Runnel.Proofs.Command.Quoting
import Runnel.Proofs.Command.Reading
import Runnel.Proofs.Command.Scanning
import Runnel.Registry
import Runnel.Runner.Finish
import Runnel.Runner.Listener
import Runnel.Runner.Options
import Runnel.Runner.Request
import Runnel.Runner.Result
import Runnel.Runner.Schedule
import Runnel.Runner.Session
import Runnel.Runner.Signal
import Runnel.Runner.Start
import Runnel.Runner.System
import Runnel.Runner.Turn
import Runnel.Script.Arithmetic
import Runnel.Script.Builtin
import Runnel.Script.Expand
import Runnel.Script.Format
import Runnel.Script.Interpreter
import Runnel.Script.Parse
import Runnel.Script.Pattern
import Runnel.Script.Prepare
import Runnel.Script.Scope
import Runnel.Script.Syntax
import Runnel.Stream.Analyze
import Runnel.Stream.Batch
import Runnel.Stream.Lines
import Runnel.Stream.Operator
import Runnel.Stream.Split
import Runnel.Stream.Stage
import Runnel.Stream.Window
import Runnel.Text.Alphanumeric
import Runnel.Text.Ansi
import Runnel.Text.Ascii
import Runnel.Text.Blank
import Runnel.Text.Category
import Runnel.Text.Escaped
import Runnel.Text.Hex
import Runnel.Text.Lines
import Runnel.Text.Utf8
import Runnel.Utility.Condition
import Runnel.Utility.Echo
import Runnel.Utility.Excerpt
import Runnel.Utility.Files
import Runnel.Utility.Flags
import Runnel.Utility.Handler
import Runnel.Utility.PathName
import Runnel.Utility.Sequence
import Runnel.Utility.Standard
import Runnel.Utility.Surroundings
import Runnel.Utility.Waiting
import Runnel.Proofs.Command.Splicing
import Runnel.Proofs.Flow.Deeds
import Runnel.Proofs.Flow.QuotedLine
import Runnel.Proofs.Command.Globs
import Runnel.Proofs.Runner.Invariant
import Runnel.Proofs.Runner.Ending
import Runnel.Proofs.Runner.Beginning
import Runnel.Proofs.Runner.Turning
import Runnel.Proofs.Runner.LifeCycle
import Runnel.Proofs.Command.Grammar
import Runnel.Proofs.Command.Accepting
import Runnel.Proofs.Flow.Steps
import Runnel.Proofs.Flow.TurnSteps
import Runnel.Proofs.Flow.Orderly
import Runnel.Proofs.Flow.Conduct
import Runnel.Proofs.Flow.TreeRuns
import Runnel.Proofs.Flow.AndOr
import Runnel.Proofs.Flow.Confined
import Runnel.Proofs.Flow.ConfinedTree
import Runnel.Proofs.Flow.Passing
import Runnel.Proofs.Runner.Replay
import Runnel.Proofs.Runner.Readers
import Runnel.Proofs.Runner.Resemblance
import Runnel.Proofs.Runner.Delivering
import Runnel.Proofs.Runner.Upkeep
import Runnel.Proofs.Runner.Handling
import Runnel.Proofs.Runner.Attending
import Runnel.Proofs.Runner.TurnActs
import Runnel.Proofs.Runner.Moves
import Runnel.Proofs.Runner.Following
import Runnel.Proofs.Runner.ReadToEnd
import Runnel.Proofs.Runner.Nesting
import Runnel.Proofs.Flow.Gathering
import Runnel.Proofs.Utility.HangingUp
import Runnel.Proofs.Command.LineBreak
import Runnel.Proofs.Flow.Serving
import Runnel.Proofs.Flow.Grafting
import Runnel.Proofs.Flow.LineByLine
import Runnel.Proofs.Flow.Happenings
import Runnel.Proofs.Flow.Linking
import Runnel.Proofs.Flow.Staging
import Runnel.Proofs.Flow.Chaining
import Runnel.Proofs.Flow.Composing
import Runnel.Proofs.Flow.Composition
import Runnel.Proofs.Runner.Ledger
import Runnel.Proofs.Runner.Incidents
import Runnel.Proofs.Runner.Supervising
import Runnel.Proofs.Runner.Interrupting
import Runnel.Proofs.Command.Drafts
import Runnel.Proofs.Command.Assignments
import Runnel.Proofs.Command.Continuation
import Runnel.Proofs.Registry
import Runnel.Proofs.Flow.Placing
import Runnel.Proofs.Runner.Steady
import Runnel.Proofs.Runner.Succession
import Runnel.Proofs.Stream.Collecting
import Runnel.Proofs.Stream.Hearing
import Runnel.Proofs.Stream.Batching
import Runnel.Proofs.Stream.Sliding
import Runnel.Proofs.Stream.Routing
import Runnel.Proofs.Stream.Partition
import Runnel.Proofs.Stream.Abandoning
import Runnel.Proofs.Stream.LineBreaks
import Runnel.Proofs.Stream.Afterwards
import Runnel.Proofs.Command.Written
import Runnel.Proofs.Command.Fields
import Runnel.Proofs.Command.Replacing
import Runnel.Proofs.Command.Parameters
import Runnel.Proofs.Host.Walking
import Runnel.Proofs.Host.Opening
import Runnel.Proofs.Host.Keeping
import Runnel.Proofs.Utility.Keeping
import Runnel.Proofs.Flow.Attaining
import Runnel.Proofs.Flow.Redirects
import Runnel.Proofs.Flow.Redirecting
import Runnel.Proofs.Runner.Piping
import Runnel.Proofs.Runner.Farewell
import Runnel.Proofs.Runner.Courses
import Runnel.Proofs.Text.Stripping
import Runnel.Proofs.Utility.Copying
import Runnel.Proofs.Runner.Verdicts
import Runnel.Proofs.Host.Below
import Runnel.Proofs.Host.Trees
import Runnel.Proofs.Host.Making
import Runnel.Proofs.Host.CopyingTrees
import Runnel.Proofs.Number.Numerals
import Runnel.Proofs.Text.Cutting
import Runnel.Proofs.Utility.Conditions
import Runnel.Proofs.Utility.Counting
import Runnel.Proofs.Utility.PathNames
import Runnel.Proofs.Command.Requoting
import Runnel.Proofs.Text.Positions
import Runnel.Proofs.Utility.Clusters
import Runnel.Proofs.Utility.Dashes
import Runnel.Proofs.Utility.Pauses
import Runnel.Proofs.Utility.Breakdowns
import Runnel.Proofs.Command.NormalForm
import Runnel.Proofs.Runner.Waking
