import Nes.Console.MemoryMap
import Nes.Processor.Basic
import Nes.Listing
import Nes.Notice

/-!
# The console

A console is a processor on its memory map, driven by a master clock. Every tick runs the device; every third tick,
beginning with the first after a reset, runs the processor as well.

* `Console.tick` is one tick of the master clock.
* `Console.step` ticks until what is in flight has ended and one more instruction has been carried out.
-/

namespace Nes

/-- A console between two ticks. -/
structure Console (δ : Type) where
  processor : Processor := {}
  memory : MemoryMap δ
  /-- The ticks since the last reset. -/
  clock : Nat := 0

namespace Console

variable {δ : Type}

/-- A console with a device and an empty slot. -/
def ofDevice (device : δ) : Console δ := { memory := { device } }

/-! ## The cartridge slot -/

/-- Puts a cartridge in the slot and hands back the one that was there. -/
def insert (c : Console δ) (cartridge : Cartridge) : Option Cartridge × Console δ :=
  (c.memory.cartridge, { c with memory := { c.memory with cartridge := some cartridge } })

/-- What is reported when a cartridge is put in the slot. -/
def insertNotice (cartridge : Cartridge) : Notice := .inserting cartridge.header

/-- Empties the slot and hands back what was there. -/
def eject (c : Console δ) : Option Cartridge × Console δ :=
  (c.memory.cartridge, { c with memory := { c.memory with cartridge := none } })

/-! ## The graphics side -/

/-- The address lines that the graphics side has. -/
def graphicsAddr (addr : Addr) : Addr := addr &&& 0x3FFF

/-- Reads graphics storage, 0 where nothing answers. -/
def readGraphics (c : Console δ) (addr : Addr) : Byte :=
  (c.memory.cartridge.bind (·.readGraphics (graphicsAddr addr))).getD 0

/-- Whether graphics storage takes a write, and the console after it. -/
def writeGraphics (c : Console δ) (addr : Addr) (value : Byte) : Bool × Console δ :=
  match c.memory.cartridge with
  | none => (false, c)
  | some cartridge =>
    let (taken, cartridge) := cartridge.writeGraphics (graphicsAddr addr) value
    (taken, { c with memory := { c.memory with cartridge := some cartridge } })

/-! ## The processor's side -/

section

variable [Device δ]

/-- Carries out a transaction on the memory map. -/
def access {α : Type} (c : Console δ) (t : Transaction α) : α × Console δ :=
  let (result, memory) := t.run c.memory
  (result, { c with memory })

instance : Bus (Console δ) where
  read mode addr c :=
    let (value, memory) := Bus.read mode addr c.memory
    (value, { c with memory })
  write addr value c := { c with memory := Bus.write addr value c.memory }

/-- Lists a range of the memory map. -/
def list (c : Console δ) (first last : Addr) : Listing × Console δ := c.access (Listing.ofRange first last)

/-- Lets the processor act on the memory map. -/
def drive (c : Console δ) (t : Processor → Transaction Processor) : Console δ :=
  let (processor, memory) := (t c.processor).run c.memory
  { c with processor, memory }

/-- An interrupt request. -/
def irq (c : Console δ) : Console δ := c.drive (·.irq)

/-- A non-maskable interrupt. -/
def nmi (c : Console δ) : Console δ := c.drive (·.nmi)

/-- Starts the board, the device, the processor and the master clock again, in this order. -/
def reset (c : Console δ) : Console δ :=
  let cartridge := c.memory.cartridge.map (·.reset)
  let memory := { c.memory with cartridge, device := Device.reset c.memory.device }
  { { c with memory }.drive (·.reset) with clock := 0 }

/-! ## The master clock -/

/-- Whether the next tick runs the processor. -/
def isProcessorTick (c : Console δ) : Bool := c.clock % 3 == 0

/-- One tick of the master clock. -/
def tick (c : Console δ) : Console δ :=
  let c' := { c with memory := { c.memory with device := Device.tick c.memory.device } }
  let c' := if c.isProcessorTick then c'.drive (·.clock) else c'
  { c' with clock := c'.clock + 1 }

/-- A number of ticks. -/
def ticks (c : Console δ) : Nat → Console δ
  | 0 => c
  | n + 1 => c.tick.ticks n

/-- The ticks before the one that runs the processor. -/
def wait (c : Console δ) : Nat := (3 - c.clock % 3) % 3

@[simp] theorem clock_drive (c : Console δ) (t : Processor → Transaction Processor) : (c.drive t).clock = c.clock := rfl

@[simp] theorem clock_tick (c : Console δ) : c.tick.clock = c.clock + 1 := by
  unfold tick
  split <;> rfl

/-- Between its turns the processor does not move. -/
theorem processor_tick_of_not_turn (c : Console δ) (h : c.isProcessorTick = false) :
    c.tick.processor = c.processor := by
  simp [tick, h]

/-- While an instruction is in flight, the processor's turn counts one cycle down. -/
theorem processor_tick_of_turn (c : Console δ) (h : c.isProcessorTick = true) (hp : c.processor.complete = false) :
    c.tick.processor = c.processor.tick := by
  simp [tick, h, drive, Processor.clock, hp]

theorem wait_tick_of_not_turn (c : Console δ) (h : c.isProcessorTick = false) : c.tick.wait + 1 = c.wait := by
  simp only [isProcessorTick, beq_eq_false_iff_ne] at h
  simp only [wait, clock_tick]
  omega

theorem wait_of_turn (c : Console δ) (h : c.isProcessorTick = true) : c.wait = 0 ∧ c.tick.wait = 2 := by
  simp only [isProcessorTick, beq_iff_eq] at h
  simp only [wait, clock_tick]
  omega

/-- Ticks until no instruction is in flight. -/
def settle (c : Console δ) : Console δ :=
  if c.processor.complete then c else c.tick.settle
termination_by 3 * c.processor.cycles + c.wait
decreasing_by
  rename_i hp
  simp only [Bool.not_eq_true] at hp
  cases h : c.isProcessorTick with
  | false =>
    have := c.wait_tick_of_not_turn h
    rw [c.processor_tick_of_not_turn h]
    omega
  | true =>
    have := c.wait_of_turn h
    rw [c.processor_tick_of_turn h hp]
    simp only [Processor.complete, beq_eq_false_iff_ne] at hp
    simp only [Processor.tick]
    omega

/-- Ticks up to the processor's next turn, and through it: until the processor's clock has moved. -/
def toNextTurn (c : Console δ) : Console δ :=
  if c.isProcessorTick then c.tick else c.tick.toNextTurn
termination_by c.wait
decreasing_by
  have := c.wait_tick_of_not_turn (by simp_all)
  omega

/-- Ends what is in flight, carries out one instruction and says what it cost. -/
def step (c : Console δ) : Nat × Console δ :=
  let c := c.settle
  let started := c.processor.clockCount
  let c := c.toNextTurn.settle
  (c.processor.clockCount - started, c)

/-- Carries out a number of instructions. -/
def run (c : Console δ) : Nat → Console δ
  | 0 => c
  | n + 1 => c.step.2.run n

end

end Console

end Nes
