import PMachine.Word
import PMachine.Numeral
import PMachine.Instruction.Opcode
import PMachine.Instruction.Operation
import PMachine.Instruction.Basic
import PMachine.Text.Blank
import PMachine.Text.Line
import PMachine.Text.Separator
import PMachine.Text.Reader
import PMachine.Text.Writer
import PMachine.Machine.Basic
import PMachine.Machine.Execute
import PMachine.Log.Event
import PMachine.Log.Filter
import PMachine.Log.Basic
import PMachine.Engine.Basic
import PMachine.Engine.Run
import PMachine.Engine.Session
import PMachine.Command.Task
import PMachine.Command.Report
import PMachine.Shell.Letter
import PMachine.Shell.Pattern
import PMachine.Shell.Directive
import PMachine.Shell.Control
import PMachine.Shell.Arguments
import PMachine.Main
import PMachine.Proofs.Text.Field
import PMachine.Proofs.Text.Format
import PMachine.Proofs.Text.RoundTrip
import PMachine.Proofs.Machine.Action
import PMachine.Proofs.Machine.Fault
import PMachine.Proofs.Machine.Step
import PMachine.Proofs.Machine.Call
import PMachine.Proofs.Machine.Table
import PMachine.Proofs.Machine.Refinement
import PMachine.Proofs.Engine.Turn
import PMachine.Proofs.Engine.Lockstep
import PMachine.Proofs.Engine.StepLimit
import PMachine.Proofs.Machine.Frame
import PMachine.Proofs.Engine.Halt
import PMachine.Proofs.Engine.Error
import PMachine.Proofs.Engine.Replay
import PMachine.Proofs.Machine.LargerStack
import PMachine.Proofs.Engine.StackSize
import PMachine.Proofs.Text.LoadError
import PMachine.Proofs.Engine.Binding
import PMachine.Proofs.Engine.Unreached
import PMachine.Proofs.Engine.Level
import PMachine.Proofs.Command.Format
import PMachine.Proofs.Text.Layout
import PMachine.Proofs.Text.OtherSeparator
import PMachine.Proofs.Command.ExitCode
import PMachine.Proofs.Machine.Expression
import PMachine.Proofs.Machine.Scope
import PMachine.Proofs.Text.Join
import PMachine.Proofs.Command.ErrorLine
import PMachine.Proofs.Command.Outcome
import PMachine.Proofs.Log.Event
