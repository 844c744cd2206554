import Nes.Processor.OpcodeTable
import Nes.Processor.Semantics
import Nes.Processor.Journal

/-!
# The processor

An instruction does all its work in the cycle that fetches it; the other cycles it costs are then counted down. The
processor can be asked to interrupt what it does, and to start again.

* `Processor.clock` is one cycle.
* `Processor.step` ends what is in flight and then carries out one whole instruction.
* `Processor.reset`, `Processor.irq` and `Processor.nmi` replace the cycles in flight by their own.
-/

namespace Nes

/-- Where the handler of non-maskable interrupts is found. -/
def nmiVector : Addr := 0xFFFA

/-- Where the address of the first instruction is found. -/
def resetVector : Addr := 0xFFFC

/-- A processor between two cycles. -/
structure Processor where
  registers : Registers := {}
  /-- The cycles that the instruction in flight still takes. -/
  cycles : Nat := 0
  /-- The cycles since the processor was made. -/
  clockCount : Nat := 0
  /-- The executed instructions, oldest first, if they are recorded. -/
  journal : Option (Array JournalEntry) := none

namespace Processor

/-- A processor that keeps a journal. -/
def recording : Processor := { journal := some #[] }

/-- Whether no instruction is in flight. -/
def complete (p : Processor) : Bool := p.cycles == 0

/-- Adds an entry to the journal, if there is one. -/
def record (p : Processor) (entry : JournalEntry) : Processor :=
  { p with journal := p.journal.map (·.push entry) }

/-! ## Reset and interrupts -/

/-- Clears the registers and starts at the address that the reset vector holds. -/
def reset (p : Processor) : Transaction Processor := do
  let pc ← Transaction.readWord resetVector
  return { p with registers := { sp := 0xFD, pc, status := Flag.unused }, cycles := 8 }

/-- An interrupt request, which the processor ignores while they are disabled. -/
def irq (p : Processor) : Transaction Processor :=
  if p.registers.isSet Flag.irqDisable then
    return p
  else do
    let registers ← p.registers.enterHandler irqVector false
    return { p with registers, cycles := 7 }

/-- A non-maskable interrupt. -/
def nmi (p : Processor) : Transaction Processor := do
  let registers ← p.registers.enterHandler nmiVector false
  return { p with registers, cycles := 8 }

/-! ## Cycles -/

/-- Fetches and carries out an instruction. -/
def execute (p : Processor) : Transaction Processor := do
  let pc := p.registers.pc
  let (opcode, r) ← p.registers.fetch
  let instruction := Instruction.ofOpcode opcode
  let resolved ← instruction.mode.resolve (r.assign Flag.unused true)
  let outcome ← instruction.operation.perform resolved.operand resolved.registers
  let penalty := if resolved.crossed && outcome.paysCrossing then 1 else 0
  let registers := outcome.registers.assign Flag.unused true
  let p := { p with registers, cycles := instruction.cycles + penalty + outcome.branchCycles }
  return p.record (.ofRegisters p.clockCount pc opcode instruction.mnemonic registers)

/-- The end of a cycle. -/
def tick (p : Processor) : Processor := { p with cycles := p.cycles - 1, clockCount := p.clockCount + 1 }

/-- One cycle. -/
def clock (p : Processor) : Transaction Processor :=
  if p.complete then do
    let p ← p.execute
    return p.tick
  else
    return p.tick

/-- A number of cycles. -/
def clocks (p : Processor) : Nat → Transaction Processor
  | 0 => return p
  | n + 1 => do
    let p ← p.clock
    p.clocks n

/-- Ends what is in flight, carries out one instruction and says what it cost. Both are cycles until nothing is in
flight; how many these are is known when they begin. -/
def step (p : Processor) : Transaction (Nat × Processor) := do
  let p ← p.clocks p.cycles
  let p ← p.clock
  let cost := p.cycles + 1
  let p ← p.clocks p.cycles
  return (cost, p)

end Processor

end Nes
