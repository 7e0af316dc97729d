import Rv64Board.Arguments.Grammar
import Rv64Board.Arguments.Matching
import Rv64Board.Assembly
import Rv64Board.Bits
import Rv64Board.Board
import Rv64Board.Board.Execute
import Rv64Board.Board.State
import Rv64Board.Bus
import Rv64Board.Cli.Host
import Rv64Board.Cli.LogFormat
import Rv64Board.Cli.Options
import Rv64Board.Cli.Program
import Rv64Board.Cli.Transcript
import Rv64Board.Csr.Basic
import Rv64Board.Csr.File
import Rv64Board.Csr.Status
import Rv64Board.Debugger.Command
import Rv64Board.Debugger.Editor
import Rv64Board.Debugger.Expression
import Rv64Board.Debugger.Session
import Rv64Board.Device
import Rv64Board.Device.Clint
import Rv64Board.Device.Exchange
import Rv64Board.Device.Finisher
import Rv64Board.Device.Plic
import Rv64Board.Device.Uart
import Rv64Board.Device.VirtioBlock
import Rv64Board.Disassembly
import Rv64Board.Hart.Arithmetic
import Rv64Board.Hart.Basic
import Rv64Board.Hart.LoadStore
import Rv64Board.Hart.Paging
import Rv64Board.Hart.TrapEntry
import Rv64Board.Instruction.Basic
import Rv64Board.Instruction.Compressed
import Rv64Board.Instruction.Encoding
import Rv64Board.Instruction.Printer
import Rv64Board.Machine
import Rv64Board.Main
import Rv64Board.Memory
import Rv64Board.Notice
import Rv64Board.Privilege
import Rv64Board.Proofs.AlignedReads
import Rv64Board.Proofs.AnyGuest
import Rv64Board.Proofs.Arbitration
import Rv64Board.Proofs.AtomicUpdate
import Rv64Board.Proofs.BatchedRuns
import Rv64Board.Proofs.BitSets
import Rv64Board.Proofs.BusAccess
import Rv64Board.Proofs.BusInvariant
import Rv64Board.Proofs.BusMap
import Rv64Board.Proofs.ByteAccess
import Rv64Board.Proofs.ByteMap
import Rv64Board.Proofs.CheckedRequests
import Rv64Board.Proofs.Completions
import Rv64Board.Proofs.CompressedForms
import Rv64Board.Proofs.Confinement
import Rv64Board.Proofs.ContinuedListings
import Rv64Board.Proofs.DataAccess
import Rv64Board.Proofs.DebuggerMemory
import Rv64Board.Proofs.DiskContent
import Rv64Board.Proofs.DiskRequests
import Rv64Board.Proofs.DiskRoundTrip
import Rv64Board.Proofs.DmaWrites
import Rv64Board.Proofs.DrivenBits
import Rv64Board.Proofs.Effects
import Rv64Board.Proofs.EvenPc
import Rv64Board.Proofs.ExactArithmetic
import Rv64Board.Proofs.ExpressionGrammar
import Rv64Board.Proofs.FaultAtomicity
import Rv64Board.Proofs.HiddenRegisters
import Rv64Board.Proofs.Histories
import Rv64Board.Proofs.ImageListing
import Rv64Board.Proofs.InertMarks
import Rv64Board.Proofs.Inspection
import Rv64Board.Proofs.InspectionFrame
import Rv64Board.Proofs.InstructionCodec
import Rv64Board.Proofs.InstructionRows
import Rv64Board.Proofs.InterruptSelection
import Rv64Board.Proofs.InterruptService
import Rv64Board.Proofs.Isolation
import Rv64Board.Proofs.LegalCsrs
import Rv64Board.Proofs.LittleEndianAccess
import Rv64Board.Proofs.LoadConstant
import Rv64Board.Proofs.LocalWrites
import Rv64Board.Proofs.MarkedTables
import Rv64Board.Proofs.Marking
import Rv64Board.Proofs.MemoryChanges
import Rv64Board.Proofs.NumeralTexts
import Rv64Board.Proofs.PaintedLines
import Rv64Board.Proofs.ParsedTexts
import Rv64Board.Proofs.PowerCycle
import Rv64Board.Proofs.QueueCompletion
import Rv64Board.Proofs.QueueLayout
import Rv64Board.Proofs.Reachable
import Rv64Board.Proofs.RegisterBytes
import Rv64Board.Proofs.ReservationHistory
import Rv64Board.Proofs.ReservedData
import Rv64Board.Proofs.SampledLines
import Rv64Board.Proofs.SelfJump
import Rv64Board.Proofs.SerialLine
import Rv64Board.Proofs.ShortForms
import Rv64Board.Proofs.StraightAccess
import Rv64Board.Proofs.Sv39
import Rv64Board.Proofs.SystemState
import Rv64Board.Proofs.TermTexts
import Rv64Board.Proofs.Translation
import Rv64Board.Proofs.TrapReturn
import Rv64Board.Proofs.TrapStack
import Rv64Board.Proofs.Walk
import Rv64Board.Proofs.WordBoundaries
import Rv64Board.Proofs.WordFormats
import Rv64Board.Register
import Rv64Board.Text.Attaching
import Rv64Board.Text.Backspace
import Rv64Board.Text.Blank
import Rv64Board.Text.BreakClass
import Rv64Board.Text.Cluster
import Rv64Board.Text.Digits
import Rv64Board.Text.Invisible
import Rv64Board.Text.Numeral
import Rv64Board.Text.Parser
import Rv64Board.Text.Quoted
import Rv64Board.Text.Ranges
import Rv64Board.Text.Terminal
import Rv64Board.Text.Words
import Rv64Board.Trap
import Rv64Board.Width
