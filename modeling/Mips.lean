import Mips.Accesses
import Mips.Assembly
import Mips.Assembly.Emission
import Mips.Assembly.Placement
import Mips.Breakpoints
import Mips.ChaCha
import Mips.Console
import Mips.Diagnostic
import Mips.Dump
import Mips.Event
import Mips.Execution
import Mips.Expansion
import Mips.Fault
import Mips.FileTree
import Mips.Instruction
import Mips.Instruction.Disassembly
import Mips.Layout
import Mips.Loading
import Mips.Machine
import Mips.Memory
import Mips.Mnemonic
import Mips.NumberBase
import Mips.Operation
import Mips.Program
import Mips.Proofs.Assembly.Binding
import Mips.Proofs.Assembly.Completeness
import Mips.Proofs.Assembly.Contents
import Mips.Proofs.Assembly.Cursor
import Mips.Proofs.Assembly.Diagnostics
import Mips.Proofs.Assembly.Emission
import Mips.Proofs.Assembly.Externals
import Mips.Proofs.Assembly.Invariant
import Mips.Proofs.Assembly.Labels
import Mips.Proofs.Assembly.Ranges
import Mips.Proofs.Assembly.Regions
import Mips.Proofs.Assembly.Reservation
import Mips.Proofs.Assembly.Resolution
import Mips.Proofs.Assembly.Segments
import Mips.Proofs.Assembly.Sharing
import Mips.Proofs.Assembly.Sizes
import Mips.Proofs.Assembly.Statements
import Mips.Proofs.Assembly.Storage
import Mips.Proofs.Assembly.Strictness
import Mips.Proofs.Assembly.Targets
import Mips.Proofs.ChaCha
import Mips.Proofs.Console.Characters
import Mips.Proofs.Console.Interchange
import Mips.Proofs.Directive.Image
import Mips.Proofs.Directive.Size
import Mips.Proofs.Execution.Branching
import Mips.Proofs.Execution.Calculation
import Mips.Proofs.Execution.Changes
import Mips.Proofs.Execution.Course
import Mips.Proofs.Execution.Disassembly
import Mips.Proofs.Execution.Drawing
import Mips.Proofs.Execution.Effects
import Mips.Proofs.Execution.Pair
import Mips.Proofs.Execution.Scanning
import Mips.Proofs.Execution.Services
import Mips.Proofs.Execution.Serving
import Mips.Proofs.Execution.Straight
import Mips.Proofs.Execution.Transfer
import Mips.Proofs.Expansion.Acceptance
import Mips.Proofs.Expansion.Addressing
import Mips.Proofs.Expansion.Aim
import Mips.Proofs.Expansion.Canonical
import Mips.Proofs.Expansion.Computation
import Mips.Proofs.Expansion.Decision
import Mips.Proofs.Expansion.Destination
import Mips.Proofs.Expansion.Direct
import Mips.Proofs.Expansion.Division
import Mips.Proofs.Expansion.Recovery
import Mips.Proofs.Expansion.References
import Mips.Proofs.Expansion.Sequences
import Mips.Proofs.Expansion.Severity
import Mips.Proofs.Expansion.Sizing
import Mips.Proofs.Instruction.Canonical
import Mips.Proofs.Instruction.Decoding
import Mips.Proofs.Instruction.Disassembly
import Mips.Proofs.Instruction.Fields
import Mips.Proofs.Layout.Order
import Mips.Proofs.Loading.Arguments
import Mips.Proofs.Loading.Image
import Mips.Proofs.Loading.Stack
import Mips.Proofs.Memory.Access
import Mips.Proofs.Memory.Bytes
import Mips.Proofs.Memory.Dumps
import Mips.Proofs.Memory.Segments
import Mips.Proofs.NumberBase
import Mips.Proofs.Outcome
import Mips.Proofs.Simulator.Addressing
import Mips.Proofs.Simulator.Alignment
import Mips.Proofs.Simulator.Backstepping
import Mips.Proofs.Simulator.Branching
import Mips.Proofs.Simulator.Breakpoints
import Mips.Proofs.Simulator.Calls
import Mips.Proofs.Simulator.Control
import Mips.Proofs.Simulator.DelaySlot
import Mips.Proofs.Simulator.Division
import Mips.Proofs.Simulator.Following
import Mips.Proofs.Simulator.Heap
import Mips.Proofs.Simulator.InputBuffer
import Mips.Proofs.Simulator.IntegerInput
import Mips.Proofs.Simulator.Listing
import Mips.Proofs.Simulator.Loaded
import Mips.Proofs.Simulator.Loop
import Mips.Proofs.Simulator.Marking
import Mips.Proofs.Simulator.Pair
import Mips.Proofs.Simulator.Polling
import Mips.Proofs.Simulator.PreciseFault
import Mips.Proofs.Simulator.Printing
import Mips.Proofs.Simulator.Progress
import Mips.Proofs.Simulator.RandomStreams
import Mips.Proofs.Simulator.Reached
import Mips.Proofs.Simulator.Replay
import Mips.Proofs.Simulator.Reports
import Mips.Proofs.Simulator.Requests
import Mips.Proofs.Simulator.Running
import Mips.Proofs.Simulator.Session
import Mips.Proofs.Simulator.StraightLine
import Mips.Proofs.Simulator.Transparency
import Mips.Proofs.Statement.Deciding
import Mips.Proofs.Statement.Lines
import Mips.Proofs.Statement.Operands
import Mips.Proofs.Statement.Printing
import Mips.Proofs.Statement.Reading
import Mips.Proofs.Statement.Spans
import Mips.Proofs.Statement.Stopping
import Mips.Proofs.Statement.Unexpected
import Mips.Proofs.Text.Numeral
import Mips.Proofs.Text.Utf8
import Mips.Proofs.Token.Coverage
import Mips.Proofs.Token.Integers
import Mips.Proofs.Token.Literal
import Mips.Proofs.Token.Patterns
import Mips.Proofs.Token.Reading
import Mips.Proofs.Token.Spans
import Mips.Proofs.Token.Strings
import Mips.Proofs.Word
import Mips.RandomStream
import Mips.Register
import Mips.Service
import Mips.Settings
import Mips.Simulator
import Mips.Simulator.Run
import Mips.Simulator.Stepping
import Mips.Source
import Mips.Span
import Mips.Statement
import Mips.Statement.Parser
import Mips.Statement.Printer
import Mips.Statement.SyntaxError
import Mips.Symbol
import Mips.Text.Blank
import Mips.Text.CodePoints
import Mips.Text.DecimalDigit
import Mips.Text.Lowercase
import Mips.Text.Numeral
import Mips.Text.Printable
import Mips.Text.Quoted
import Mips.Text.Utf8
import Mips.Text.WordCharacter
import Mips.Token
import Mips.Token.Lexer
import Mips.UndoLog
import Mips.Word
