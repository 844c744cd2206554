import Nes.Transaction
import Nes.Text.Hex

/-!
# Registers

The register file, the flags of the status register, and the exchanges that move the program counter and the stack
pointer: fetching the bytes of an instruction, pushing and popping.

The stack is the stack page, filled downwards; the pointer is a byte, so the stack wraps inside its page.
-/

namespace Nes

/-! ## Flags -/

namespace Flag

/-- An addition carried out of bit 7, or a comparison or subtraction did not borrow. -/
abbrev carry : Byte := 0x01

/-- The last result was zero. -/
abbrev zero : Byte := 0x02

/-- Interrupt requests are ignored. -/
abbrev irqDisable : Byte := 0x04

/-- Stored and restored, and without effect on arithmetic. -/
abbrev decimal : Byte := 0x08

/-- Tells a pushed status of an instruction from one of an interrupt. -/
abbrev brk : Byte := 0x10

/-- Has no meaning and reads as set while the processor runs. -/
abbrev unused : Byte := 0x20

/-- The last signed sum left the range of a byte. -/
abbrev overflow : Byte := 0x40

/-- Bit 7 of the last result. -/
abbrev negative : Byte := 0x80

/-- The flags from bit 7 down to bit 0, each with its letter. -/
def letters : List (Byte × Char) :=
  [(negative, 'N'), (overflow, 'V'), (unused, 'U'), (brk, 'B'), (decimal, 'D'), (irqDisable, 'I'), (zero, 'Z'),
    (carry, 'C')]

/-- A status byte as its letters, a dot for each clear flag. -/
def text (status : Byte) : String :=
  String.ofList (letters.map fun (mask, letter) => if status.meets mask then letter else '.')

end Flag

/-- The register file. -/
@[ext] structure Registers where
  /-- Accumulator. -/
  a : Byte := 0
  x : Byte := 0
  y : Byte := 0
  /-- Stack pointer. -/
  sp : Byte := 0
  /-- Program counter. -/
  pc : Addr := 0
  status : Byte := 0
  deriving DecidableEq

namespace Registers

/-- Whether one of the flags in `mask` is set. -/
def isSet (r : Registers) (mask : Byte) : Bool := r.status.meets mask

/-- The value of `isSet` as the byte 0 or 1. -/
def bit (r : Registers) (mask : Byte) : Byte := .ofBool (r.isSet mask)

/-- Sets or clears the flags in `mask`. -/
def assign (r : Registers) (mask : Byte) (on : Bool) : Registers :=
  { r with status := if on then r.status ||| mask else r.status &&& ~~~mask }

section

variable (r : Registers) (mask : Byte) (on : Bool)

@[simp] theorem a_assign : (r.assign mask on).a = r.a := rfl

@[simp] theorem x_assign : (r.assign mask on).x = r.x := rfl

@[simp] theorem y_assign : (r.assign mask on).y = r.y := rfl

@[simp] theorem sp_assign : (r.assign mask on).sp = r.sp := rfl

@[simp] theorem pc_assign : (r.assign mask on).pc = r.pc := rfl

end

/-- Sets the zero and negative flags from a result. -/
def setZN (r : Registers) (result : Byte) : Registers :=
  (r.assign Flag.zero (result == 0)).assign Flag.negative result.msb

/-- The status byte that is pushed: the unused flag set, the break flag as given. -/
def pushedStatus (r : Registers) (brk : Bool) : Byte :=
  let status := r.status ||| Flag.unused
  if brk then status ||| Flag.brk else status &&& ~~~Flag.brk

/-! ## Fetching -/

/-- The byte at the program counter, which moves past it. -/
def fetch (r : Registers) : Transaction (Byte × Registers) := do
  let b ← Transaction.read r.pc
  return (b, { r with pc := r.pc + 1 })

/-- The little-endian word at the program counter, which moves past it. -/
def fetchWord (r : Registers) : Transaction (Addr × Registers) := do
  let (low, r) ← r.fetch
  let (high, r) ← r.fetch
  return (.ofBytes low high, r)

/-! ## The stack -/

/-- Writes at the stack pointer, which then moves down. -/
def push (r : Registers) (value : Byte) : Transaction Registers := do
  Transaction.write (.stackPage r.sp) value
  return { r with sp := r.sp - 1 }

/-- Moves the stack pointer up and reads there. -/
def pop (r : Registers) : Transaction (Byte × Registers) := do
  let sp := r.sp + 1
  let b ← Transaction.read (.stackPage sp)
  return (b, { r with sp })

/-- Pushes the high byte, then the low byte. -/
def pushWord (r : Registers) (value : Addr) : Transaction Registers := do
  let r ← r.push value.high
  r.push value.low

/-- Pops the low byte, then the high byte. -/
def popWord (r : Registers) : Transaction (Addr × Registers) := do
  let (low, r) ← r.pop
  let (high, r) ← r.pop
  return (.ofBytes low high, r)

end Registers

end Nes
