import Nes.Processor.Operand

/-!
# What operations do

Each operation is a transaction from the registers after the operand bytes to the registers after the instruction. It
also says what timing it asks for: whether it pays for indexing across a page, and what a branch costs when taken.
-/

namespace Nes

/-- The address of the interrupt handler's address, for requests and for `BRK`. -/
def irqVector : Addr := 0xFFFE

/-! ## Arithmetic on the registers -/

namespace Registers

/-- Adds a byte and the carry to the accumulator. -/
def addWithCarry (r : Registers) (m : Byte) : Registers :=
  let sum := r.a + m + r.bit Flag.carry
  let total := r.a.toNat + m.toNat + (r.bit Flag.carry).toNat
  let r' := (r.assign Flag.carry (0xFF < total)).assign Flag.overflow ((sum ^^^ r.a) &&& (sum ^^^ m)).msb
  { r' with a := sum }.setZN sum

/-- Subtracts a byte and the borrow from the accumulator: adds its complement and the carry. -/
def subtractWithCarry (r : Registers) (m : Byte) : Registers := r.addWithCarry (~~~m)

/-- Sets the flags from a register less a byte. -/
def compare (r : Registers) (register m : Byte) : Registers :=
  (r.assign Flag.carry (m ≤ register)).setZN (register - m)

/-- Sets the flags from the accumulator masked by a byte, and from that byte. -/
def testBits (r : Registers) (m : Byte) : Registers :=
  ((r.assign Flag.zero (r.a &&& m == 0)).assign Flag.negative m.msb).assign Flag.overflow (m.getLsbD 6)

/-- Loads the accumulator. -/
def setA (r : Registers) (v : Byte) : Registers := { r with a := v }.setZN v

/-- Loads X. -/
def setX (r : Registers) (v : Byte) : Registers := { r with x := v }.setZN v

/-- Loads Y. -/
def setY (r : Registers) (v : Byte) : Registers := { r with y := v }.setZN v

end Registers

/-! ## Changing a byte in place -/

/-- A byte with the registers after it was computed. -/
structure Shifted where
  value : Byte
  registers : Registers

namespace Shifted

/-- Bit 7 goes to the carry, 0 comes in. -/
def left (r : Registers) (v : Byte) : Shifted := ⟨v <<< 1, r.assign Flag.carry v.msb⟩

/-- Bit 0 goes to the carry, 0 comes in. -/
def right (r : Registers) (v : Byte) : Shifted := ⟨v >>> 1, r.assign Flag.carry (v.getLsbD 0)⟩

/-- Bit 7 goes to the carry, the carry comes in. -/
def rotateLeft (r : Registers) (v : Byte) : Shifted :=
  ⟨v <<< 1 ||| r.bit Flag.carry, r.assign Flag.carry v.msb⟩

/-- Bit 0 goes to the carry, the carry comes in. -/
def rotateRight (r : Registers) (v : Byte) : Shifted :=
  ⟨v >>> 1 ||| r.bit Flag.carry <<< 7, r.assign Flag.carry (v.getLsbD 0)⟩

/-- One more, with no carry. -/
def increment (r : Registers) (v : Byte) : Shifted := ⟨v + 1, r⟩

/-- One less, with no borrow. -/
def decrement (r : Registers) (v : Byte) : Shifted := ⟨v - 1, r⟩

end Shifted

/-! ## Shapes of operations -/

/-- The registers after an operation, and the timing it asks for. -/
structure Outcome where
  registers : Registers
  /-- Whether one more cycle is due if indexing left the page. -/
  paysCrossing : Bool := false
  /-- The cycles of a taken branch. -/
  branchCycles : Nat := 0
  deriving DecidableEq

namespace Operand

/-- The byte an operation reads. -/
def fetch (operand : Operand) (r : Registers) : Transaction Byte :=
  match operand with
  | .implied => return r.a
  | .address addr | .relative addr => Transaction.read addr

/-- Reads the operand and pays for crossing a page. -/
def consume (operand : Operand) (r : Registers) (f : Byte → Registers) : Transaction Outcome := do
  let m ← operand.fetch r
  return { registers := f m, paysCrossing := true }

/-- Reads the operand at a fixed cost. -/
def inspect (operand : Operand) (r : Registers) (f : Byte → Registers) : Transaction Outcome := do
  let m ← operand.fetch r
  return { registers := f m }

/-- Writes a register to the operand's address. -/
def store (operand : Operand) (r : Registers) (value : Byte) : Transaction Outcome := do
  Transaction.write operand.addr value
  return { registers := r }

/-- Replaces the accumulator, or the byte in memory, and sets the flags from the new byte. -/
def update (operand : Operand) (r : Registers) (f : Registers → Byte → Shifted) : Transaction Outcome :=
  match operand with
  | .implied =>
    let new := f r r.a
    return { registers := new.registers.setA new.value }
  | .address addr | .relative addr => do
    let v ← Transaction.read addr
    let new := f r v
    Transaction.write addr new.value
    return { registers := new.registers.setZN new.value }

/-- Goes to the operand's address if a flag has the given value. The cost is one cycle, or two if the target is not on
the page of the next instruction. -/
def branch (operand : Operand) (r : Registers) (mask : Byte) (on : Bool) : Transaction Outcome :=
  if r.isSet mask = on then
    let target := operand.addr
    return { registers := { r with pc := target }, branchCycles := if r.pc.crosses target then 2 else 1 }
  else
    return { registers := r }

end Operand

/-- Changes registers only. -/
def Registers.finish (r : Registers) : Transaction Outcome := return { registers := r }

/-- Pushes the program counter and a status byte, disables interrupt requests and goes where a vector points. -/
def Registers.enterHandler (r : Registers) (vector : Addr) (brk : Bool) : Transaction Registers := do
  let r ← r.pushWord r.pc
  let r ← r.push (r.pushedStatus brk)
  let handler ← Transaction.readWord vector
  return { r.assign Flag.irqDisable true with pc := handler }

/-! ## The operations -/

/-- Carries out an operation on its operand. -/
def Operation.perform (op : Operation) (operand : Operand) (r : Registers) : Transaction Outcome :=
  match op with
  -- loads and stores
  | .lda => operand.consume r r.setA
  | .ldx => operand.consume r r.setX
  | .ldy => operand.consume r r.setY
  | .sta => operand.store r r.a
  | .stx => operand.store r r.x
  | .sty => operand.store r r.y
  -- arithmetic and logic
  | .adc => operand.consume r r.addWithCarry
  | .sbc => operand.consume r r.subtractWithCarry
  | .and => operand.consume r fun m => r.setA (r.a &&& m)
  | .ora => operand.consume r fun m => r.setA (r.a ||| m)
  | .eor => operand.consume r fun m => r.setA (r.a ^^^ m)
  | .bit => operand.inspect r r.testBits
  | .cmp => operand.consume r (r.compare r.a)
  | .cpx => operand.inspect r (r.compare r.x)
  | .cpy => operand.inspect r (r.compare r.y)
  -- shifts and steps
  | .asl => operand.update r .left
  | .lsr => operand.update r .right
  | .rol => operand.update r .rotateLeft
  | .ror => operand.update r .rotateRight
  | .inc => operand.update r .increment
  | .dec => operand.update r .decrement
  | .inx => (r.setX (r.x + 1)).finish
  | .iny => (r.setY (r.y + 1)).finish
  | .dex => (r.setX (r.x - 1)).finish
  | .dey => (r.setY (r.y - 1)).finish
  -- branches
  | .bcc => operand.branch r Flag.carry false
  | .bcs => operand.branch r Flag.carry true
  | .bne => operand.branch r Flag.zero false
  | .beq => operand.branch r Flag.zero true
  | .bpl => operand.branch r Flag.negative false
  | .bmi => operand.branch r Flag.negative true
  | .bvc => operand.branch r Flag.overflow false
  | .bvs => operand.branch r Flag.overflow true
  -- jumps
  | .jmp => { r with pc := operand.addr }.finish
  | .jsr => do
    let r ← r.pushWord (r.pc - 1)
    { r with pc := operand.addr }.finish
  | .rts => do
    let (pc, r) ← r.popWord
    { r with pc := pc + 1 }.finish
  | .rti => do
    let (p, r) ← r.pop
    let (pc, r) ← r.popWord
    { r with pc, status := p &&& ~~~(Flag.brk ||| Flag.unused) }.finish
  | .brk => do
    let r ← r.enterHandler irqVector true
    r.finish
  -- the stack
  | .pha => do
    let r ← r.push r.a
    r.finish
  | .php => do
    let r ← r.push (r.pushedStatus true)
    r.finish
  | .pla => do
    let (v, r) ← r.pop
    (r.setA v).finish
  | .plp => do
    let (p, r) ← r.pop
    { r with status := (p ||| Flag.unused) &&& ~~~Flag.brk }.finish
  -- transfers
  | .tax => (r.setX r.a).finish
  | .tay => (r.setY r.a).finish
  | .txa => (r.setA r.x).finish
  | .tya => (r.setA r.y).finish
  | .tsx => (r.setX r.sp).finish
  | .txs => { r with sp := r.x }.finish
  -- flags
  | .clc => (r.assign Flag.carry false).finish
  | .sec => (r.assign Flag.carry true).finish
  | .cli => (r.assign Flag.irqDisable false).finish
  | .sei => (r.assign Flag.irqDisable true).finish
  | .cld => (r.assign Flag.decimal false).finish
  | .sed => (r.assign Flag.decimal true).finish
  | .clv => (r.assign Flag.overflow false).finish
  -- nothing
  | .nop => return { registers := r, paysCrossing := true }
  | .undefined => r.finish

end Nes
