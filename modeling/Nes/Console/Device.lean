import Nes.Bus

/-!
# Devices

A device is a block of registers that the processor reads and writes. It lives through every tick of the master clock.
The register block is the plainest one: it keeps what is written and counts the ticks.
-/

namespace Nes

/-- What can be attached to the console's register window. -/
class Device (δ : Type) where
  /-- Reads a register. -/
  read : ReadMode → Addr → δ → Byte × δ
  /-- Writes a register. -/
  write : Addr → Byte → δ → δ
  /-- One tick of the master clock. -/
  tick : δ → δ
  /-- Starts the device again; not every device can. -/
  reset : δ → δ := id

/-- Eight registers that keep what is written to them. -/
structure RegisterBlock where
  registers : Vector Byte 8 := .replicate 8 0
  /-- The ticks since the last reset. -/
  ticks : Nat := 0

namespace RegisterBlock

/-- The register that a number selects: its low three bits. -/
def index (register : Addr) : Fin 8 := (register.setWidth 3).toFin

/-- The byte in a register. -/
def get (b : RegisterBlock) (register : Addr) : Byte := b.registers[index register]

/-- Stores a byte in a register. -/
def set (b : RegisterBlock) (register : Addr) (value : Byte) : RegisterBlock :=
  { b with registers := b.registers.set (index register).val value (index register).isLt }

instance : Device RegisterBlock where
  read _ register b := (b.get register, b)
  write register value b := b.set register value
  tick b := { b with ticks := b.ticks + 1 }
  reset _ := {}

theorem val_index (register : Addr) : (index register).val = register.toNat % 8 := by
  simp [index]

end RegisterBlock

end Nes
