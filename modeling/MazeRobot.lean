import MazeRobot.Console.Basic
import MazeRobot.Console.History
import MazeRobot.Console.Lines
import MazeRobot.Console.Log
import MazeRobot.Console.Options
import MazeRobot.Console.Stepper
import MazeRobot.Diagnostic
import MazeRobot.Direction
import MazeRobot.Fault.Basic
import MazeRobot.Fault.Cause
import MazeRobot.Fault.Kind
import MazeRobot.Files.Path
import MazeRobot.Files.Store
import MazeRobot.Files.Tree
import MazeRobot.Form
import MazeRobot.Level.Basic
import MazeRobot.Level.BuiltIn
import MazeRobot.Level.Decode
import MazeRobot.Level.Document
import MazeRobot.Level.Load
import MazeRobot.Level.Misfit
import MazeRobot.Level.Written
import MazeRobot.Machine.Basic
import MazeRobot.Machine.Event
import MazeRobot.Machine.Horizon
import MazeRobot.Machine.Scope
import MazeRobot.Main
import MazeRobot.Maze.Distance
import MazeRobot.Maze.Grid
import MazeRobot.Maze.Heading
import MazeRobot.Maze.Robot
import MazeRobot.Outcome
import MazeRobot.Program.Basic
import MazeRobot.Program.Check
import MazeRobot.Program.Layout
import MazeRobot.Program.Lint
import MazeRobot.Program.Outline
import MazeRobot.Program.Parse
import MazeRobot.Program.Walk
import MazeRobot.Session.Basic
import MazeRobot.Session.Play
import MazeRobot.Text.Base64
import MazeRobot.Text.Blank
import MazeRobot.Text.EditDistance
import MazeRobot.Text.LowerCase
import MazeRobot.Text.Printable
import MazeRobot.Text.Quoted
import MazeRobot.Text.Raw
import MazeRobot.Text.Suggestion
import MazeRobot.Text.Utf8
import MazeRobot.Token.Basic
import MazeRobot.Token.Scan
import MazeRobot.Word
import MazeRobot.Yaml.Cursor
import MazeRobot.Yaml.Node
import MazeRobot.Yaml.Number
import MazeRobot.Yaml.Resolve
import MazeRobot.Yaml.Scalar
import MazeRobot.Yaml.Scan
import MazeRobot.Yaml.Timestamp
import MazeRobot.Yaml.Token
import MazeRobot.Yaml.Write
import MazeRobot.Proofs.Interpreter
import MazeRobot.Proofs.Visits
import MazeRobot.Proofs.Passes
import MazeRobot.Proofs.Refinement
import MazeRobot.Proofs.Distance
import MazeRobot.Proofs.Places
import MazeRobot.Proofs.RaisedLimits
import MazeRobot.Proofs.Canonical
import MazeRobot.Proofs.RoundTrip
import MazeRobot.Proofs.Descent
import MazeRobot.Proofs.Greedy
import MazeRobot.Proofs.Journey
import MazeRobot.Proofs.Reachable
import MazeRobot.Proofs.Termination
import MazeRobot.Proofs.Scoping
import MazeRobot.Proofs.Parts
import MazeRobot.Proofs.CallSafety
import MazeRobot.Proofs.CallStack
import MazeRobot.Proofs.Alarms
import MazeRobot.Proofs.Spelling
import MazeRobot.Proofs.Grammar
import MazeRobot.Proofs.Derivations
import MazeRobot.Proofs.Language
import MazeRobot.Proofs.Fog
import MazeRobot.Proofs.Lockstep
import MazeRobot.Proofs.Rotation
import MazeRobot.Proofs.Values
import MazeRobot.Proofs.Solvable
import MazeRobot.Proofs.Horizon
import MazeRobot.Proofs.Sessions
import MazeRobot.Proofs.Schedules
import MazeRobot.Proofs.LineBlind
import MazeRobot.Proofs.AtomicSteps
import MazeRobot.Proofs.CallFrames
import MazeRobot.Proofs.GridText
import MazeRobot.Proofs.LevelRecord
import MazeRobot.Proofs.Simulations
import MazeRobot.Proofs.FunctionRemoval
import MazeRobot.Proofs.UncalledFunctions
import MazeRobot.Proofs.Closer
import MazeRobot.Proofs.FrameBound
import MazeRobot.Proofs.Rewriting
import MazeRobot.Proofs.Unrolling
import MazeRobot.Proofs.Arguments
import MazeRobot.Proofs.UnusedParameters
import MazeRobot.Proofs.StepLimit
import MazeRobot.Proofs.StraightLine
import MazeRobot.Proofs.TokenPlaces
import MazeRobot.Proofs.Respelling
import MazeRobot.Proofs.Parentheses
import MazeRobot.Proofs.Concatenation
import MazeRobot.Proofs.LayoutLines
import MazeRobot.Proofs.Positions
import MazeRobot.Proofs.Captions
import MazeRobot.Proofs.Outlines
import MazeRobot.Proofs.Drawings
import MazeRobot.Proofs.Placement
import MazeRobot.Proofs.Validation
import MazeRobot.Proofs.FogLifts
import MazeRobot.Proofs.Bearings
import MazeRobot.Proofs.ByteOrder
import MazeRobot.Proofs.Edits
import MazeRobot.Proofs.LevelSets
import MazeRobot.Proofs.Suggestions
import MazeRobot.Proofs.Checking
import MazeRobot.Proofs.QueueSearch
import MazeRobot.Proofs.Ranking
import MazeRobot.Proofs.RecursiveReader
