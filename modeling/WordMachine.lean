import WordMachine.Word
import WordMachine.Error
import WordMachine.Operand
import WordMachine.Opcode
import WordMachine.Instruction.Basic
import WordMachine.Instruction.Decode
import WordMachine.Text.Basic
import WordMachine.Text.Quoted
import WordMachine.Listing.Basic
import WordMachine.Listing.Text
import WordMachine.Image
import WordMachine.Dump
import WordMachine.Stack
import WordMachine.Log
import WordMachine.Device
import WordMachine.Console.Sink
import WordMachine.Console.Basic
import WordMachine.Machine.Basic
import WordMachine.Machine.Action
import WordMachine.Machine.Step
import WordMachine.Machine.Run
import WordMachine.Machine.InOrder
import WordMachine.CommandLine.Arguments
import WordMachine.CommandLine.Failure
import WordMachine.CommandLine.Report
import WordMachine.CommandLine.Interaction
import WordMachine.Main
import WordMachine.Assembler
import WordMachine.Proofs.Decode
import WordMachine.Proofs.Grammar
import WordMachine.Proofs.Action
import WordMachine.Proofs.Arith
import WordMachine.Proofs.Image
import WordMachine.Proofs.Load
import WordMachine.Proofs.Step
import WordMachine.Proofs.InOrder
import WordMachine.Proofs.Session
import WordMachine.Proofs.Trail
import WordMachine.Proofs.Calls
import WordMachine.Proofs.Range
import WordMachine.Proofs.Run
import WordMachine.Proofs.Faults
import WordMachine.Proofs.Footprint
import WordMachine.Proofs.Frames
import WordMachine.Proofs.Writes
import WordMachine.Proofs.Reduction
import WordMachine.Proofs.Accounting
import WordMachine.Proofs.CallReturn
import WordMachine.Proofs.Table
import WordMachine.Proofs.Causes
import WordMachine.Proofs.Console
import WordMachine.Proofs.Modes
import WordMachine.Proofs.Chunks
import WordMachine.Proofs.Text
import WordMachine.Proofs.Programs
import WordMachine.Proofs.Arguments
import WordMachine.Proofs.RunCommand
import WordMachine.Proofs.Codec
import WordMachine.Proofs.Assembly
import WordMachine.Proofs.Tiling
import WordMachine.Proofs.ListingText
import WordMachine.Proofs.Listed
import WordMachine.Proofs.DumpText
import WordMachine.Proofs.Halting
import WordMachine.Proofs.Policy
import WordMachine.Proofs.Script
import WordMachine.Proofs.Reload
import WordMachine.Proofs.Padding
import WordMachine.Proofs.StraightLine
import WordMachine.Proofs.RunSteps
import WordMachine.Proofs.Resume
import WordMachine.Proofs.BoundedSink
import WordMachine.Proofs.ConsoleSession
import WordMachine.Proofs.FailingSink
import WordMachine.Proofs.InputOrder
import WordMachine.Proofs.OutputText
import WordMachine.Proofs.Transfers
import WordMachine.Proofs.StepLog
import WordMachine.Proofs.TraceText
import WordMachine.Proofs.LogText
import WordMachine.Proofs.LogAccounting
import WordMachine.Proofs.RunLog
import WordMachine.Proofs.StandIn
import WordMachine.Proofs.Interaction
import WordMachine.Proofs.Echo
import WordMachine.Proofs.Checked
import WordMachine.Proofs.CheckedReading
import WordMachine.Proofs.CheckedStep
import WordMachine.Proofs.Residues
