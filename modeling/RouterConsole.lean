import RouterConsole.Main
import RouterConsole.Shell.Completion
import RouterConsole.Shell.Transcript
import RouterConsole.Proofs.Config.Reachable
import RouterConsole.Proofs.Router.Alike
import RouterConsole.Proofs.Router.WellFormed
import RouterConsole.Proofs.Config.Replay
import RouterConsole.Proofs.Text.ReadBack
import RouterConsole.Proofs.ValueText
import RouterConsole.Proofs.Config.Paths
import RouterConsole.Proofs.Config.Grammar
import RouterConsole.Proofs.Config.Acceptance
import RouterConsole.Proofs.Config.Notation
import RouterConsole.Proofs.Config.Meaning
import RouterConsole.Proofs.Config.Atomic
import RouterConsole.Proofs.Config.Generate
import RouterConsole.Proofs.Config.Blocks
import RouterConsole.Proofs.Config.RoundTrip
import RouterConsole.Proofs.Config.File
import RouterConsole.Proofs.Router.Frame
import RouterConsole.Proofs.Shell.Execution
import RouterConsole.Proofs.Shell.Reachable
import RouterConsole.Proofs.Shell.Atomic
import RouterConsole.Proofs.Shell.Lines
import RouterConsole.Proofs.Shell.Prompt
import RouterConsole.Proofs.Config.Flatten
import RouterConsole.Proofs.Config.Report
import RouterConsole.Proofs.Router.Links
import RouterConsole.Proofs.Config.Streaming
import RouterConsole.Proofs.Shell.Endings
import RouterConsole.Proofs.Shell.Dialogue
import RouterConsole.Proofs.Startup.Script
import RouterConsole.Proofs.Startup.ExitCode
import RouterConsole.Proofs.Shell.Completion
import RouterConsole.Proofs.Config.Canonical
import RouterConsole.Proofs.Config.Refusals
import RouterConsole.Proofs.Config.Transaction
import RouterConsole.Proofs.Shell.SetLine
import RouterConsole.Proofs.Config.RouteBlock
import RouterConsole.Proofs.Config.OpenedBlocks
import RouterConsole.Proofs.Config.RouteLines
import RouterConsole.Proofs.Shell.Unambiguous
import RouterConsole.Proofs.Config.Detection
import RouterConsole.Proofs.Config.Positions
import RouterConsole.Proofs.Shell.WordByWord
import RouterConsole.Proofs.Shell.Accepting
import RouterConsole.Proofs.Shell.WrongMode
import RouterConsole.Proofs.Router.RouteTable
import RouterConsole.Proofs.Router.Suggestion
import RouterConsole.Proofs.Router.Undo
import RouterConsole.Proofs.Router.LinkWrites
import RouterConsole.Proofs.Config.Tokenizing
import RouterConsole.Proofs.Text.LineCut
import RouterConsole.Proofs.NetworkReading
import RouterConsole.Proofs.Route.Checks
