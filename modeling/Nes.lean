import Nes.Word
import Nes.Bus
import Nes.Transaction
import Nes.Text.Hex
import Nes.Text.Decimal
import Nes.Text.Numeral
import Nes.Text.Shown
import Nes.Text.Plain
import Nes.Text.Lines
import Nes.Text.Quoted
import Nes.Memory.Flat
import Nes.Memory.WorkRam
import Nes.Processor.Registers
import Nes.Processor.Instruction
import Nes.Processor.OpcodeTable
import Nes.Processor.Operand
import Nes.Processor.Semantics
import Nes.Processor.Journal
import Nes.Processor.Basic
import Nes.Listing
import Nes.Cartridge.Catalogue
import Nes.Cartridge.Header
import Nes.Cartridge.LoadError
import Nes.Cartridge.Board
import Nes.Cartridge.Basic
import Nes.Cartridge.Loading
import Nes.Notice
import Nes.Console.Device
import Nes.Console.MemoryMap
import Nes.Console.Basic
import Nes.CommandLine.Address
import Nes.CommandLine.Arguments
import Nes.CommandLine.Run
import Nes.Main
import Nes.Proofs.HeaderBytes
import Nes.Proofs.Loading
import Nes.Proofs.Storage
import Nes.Proofs.Recall
import Nes.Proofs.PlainMemory
import Nes.Proofs.Exchange
import Nes.Proofs.Execution
import Nes.Proofs.Deeds
import Nes.Proofs.CycleAccount
import Nes.Proofs.MasterClock
import Nes.Proofs.StatusFlags
import Nes.Proofs.Commands
import Nes.Proofs.Pace
import Nes.Proofs.Views
import Nes.Proofs.Past
import Nes.Proofs.History
import Nes.Proofs.Graphics
import Nes.Proofs.Stack
import Nes.Proofs.Interrupts
import Nes.Proofs.Masking
import Nes.Proofs.Accesses
import Nes.Proofs.DecimalMode
import Nes.Proofs.ListedCode
import Nes.Proofs.Costs
import Nes.Proofs.Journal
import Nes.Proofs.Numbers
import Nes.Proofs.LongArithmetic
import Nes.Proofs.LongShifts
import Nes.Proofs.EffectiveAddress
import Nes.Proofs.Frame
import Nes.Proofs.Undocumented
import Nes.Proofs.Subroutines
import Nes.Proofs.Tiling
import Nes.Proofs.LineText
import Nes.Proofs.Leniency
import Nes.Proofs.HeaderFields
import Nes.Proofs.AddressNotation
import Nes.Proofs.JournalText
import Nes.Proofs.LoadedBytes
import Nes.Proofs.ByteStack
