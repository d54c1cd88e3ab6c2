import RobotBench.Main
import RobotBench.Config.Reader
import RobotBench.Files.Tree
import RobotBench.ProcessTable
import RobotBench.Report
import RobotBench.Robot.Staged
import RobotBench.Proofs.Script.RoundTrip
import RobotBench.Proofs.Run.Flow
import RobotBench.Proofs.Run.StepLimit
import RobotBench.Proofs.Run.Logging
import RobotBench.Proofs.Run.Nesting
import RobotBench.Proofs.Run.Order
import RobotBench.Proofs.Run.Budget
import RobotBench.Proofs.Run.Stack
import RobotBench.Proofs.Run.Rounds
import RobotBench.Proofs.Run.CallDepth
import RobotBench.Proofs.Run.FaultPath
import RobotBench.Proofs.Splicing
import RobotBench.Proofs.Script.Alike
import RobotBench.Proofs.Script.Spoken
import RobotBench.Proofs.Run.Alike
import RobotBench.Proofs.LineNumbers
import RobotBench.Proofs.Composition
import RobotBench.Proofs.Robot.Draws
import RobotBench.Proofs.Robot.Transcript
import RobotBench.Proofs.SimulatedWorld
import RobotBench.Proofs.Robot.Chance
import RobotBench.Proofs.Config.ReadBack
import RobotBench.Proofs.Config.Overrides
import RobotBench.Proofs.Report
import RobotBench.Proofs.CommandLine.RunContract
import RobotBench.Proofs.Script.Arguments
import RobotBench.Proofs.Robot.Operations
import RobotBench.Proofs.Run.Spelling
import RobotBench.Proofs.Run.Unrolling
import RobotBench.Proofs.EntryPoint
import RobotBench.Proofs.Run.Bindings
import RobotBench.Proofs.Script.Equality
import RobotBench.Proofs.Script.Trimming
import RobotBench.Proofs.ProcessTable.Find
import RobotBench.Proofs.Run.Dispatch
import RobotBench.Proofs.Script.Detections
import RobotBench.Proofs.Run.Surplus
import RobotBench.Proofs.Run.Messages
import RobotBench.Proofs.Run.ClosedSink
import RobotBench.Proofs.Script.NumberWords
import RobotBench.Proofs.Script.ParsingProgress
