import Nes.Processor.Registers
import Nes.Processor.Instruction

/-!
# Operands

Resolving an addressing mode fetches the operand bytes and yields what the operation works on. Indexing inside the zero
page stays there; a pointer's second byte is taken from the page of its first.
-/

namespace Nes

/-- What an operation works on. -/
inductive Operand
  /-- The accumulator, or nothing. -/
  | implied
  /-- A cell of memory. -/
  | address (addr : Addr)
  /-- The target of a branch. -/
  | relative (target : Addr)
  deriving DecidableEq

/-- The address of an operand, 0 if it has none. -/
def Operand.addr : Operand → Addr
  | .implied => 0
  | .address addr => addr
  | .relative target => target

/-- A resolved mode: the operand, whether indexing left the page of the base address, and the registers past the
operand bytes. -/
structure Resolved where
  operand : Operand
  crossed : Bool
  registers : Registers
  deriving DecidableEq

/-- The little-endian word at `addr` whose second byte lies on the same page, after the last place the first. -/
def readPointer (addr : Addr) : Transaction Addr := do
  let low ← Transaction.read addr
  let high ← Transaction.read (.ofBytes (addr.low + 1) addr.high)
  return .ofBytes low high

/-- The address `base` indexed by a register. -/
def Resolved.indexed (base : Addr) (index : Byte) (registers : Registers) : Resolved :=
  let addr := base + index.setWidth 16
  ⟨.address addr, base.crosses addr, registers⟩

/-- Fetches the operand bytes of a mode and finds its operand. An immediate operand is the address of its byte, which
is left to the operation to read. -/
def Mode.resolve (mode : Mode) (r : Registers) : Transaction Resolved :=
  match mode with
  | .implied => return ⟨.implied, false, r⟩
  | .immediate => return ⟨.address r.pc, false, { r with pc := r.pc + 1 }⟩
  | .zeroPage => do
    let (b, r) ← r.fetch
    return ⟨.address (.zeroPage b), false, r⟩
  | .zeroPageX => do
    let (b, r) ← r.fetch
    return ⟨.address (.zeroPage (b + r.x)), false, r⟩
  | .zeroPageY => do
    let (b, r) ← r.fetch
    return ⟨.address (.zeroPage (b + r.y)), false, r⟩
  | .relative => do
    let (b, r) ← r.fetch
    return ⟨.relative (r.pc + b.signExtend 16), false, r⟩
  | .absolute => do
    let (base, r) ← r.fetchWord
    return ⟨.address base, false, r⟩
  | .absoluteX => do
    let (base, r) ← r.fetchWord
    return .indexed base r.x r
  | .absoluteY => do
    let (base, r) ← r.fetchWord
    return .indexed base r.y r
  | .indirect => do
    let (pointer, r) ← r.fetchWord
    let addr ← readPointer pointer
    return ⟨.address addr, false, r⟩
  | .indexedIndirect => do
    let (b, r) ← r.fetch
    let addr ← readPointer (.zeroPage (b + r.x))
    return ⟨.address addr, false, r⟩
  | .indirectIndexed => do
    let (b, r) ← r.fetch
    let base ← readPointer (.zeroPage b)
    return .indexed base r.y r

end Nes
