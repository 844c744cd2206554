import Nes.Proofs.Accesses

/-!
# What instructions change

An instruction that changes a register or a flag in passing is hard to find in a program that fails much later. Here the
registers and flags are listed with the operations that can change them (`Part.changers`).

* Registers are changed by the operations that load them, or use them as a pointer (`Operation.ensures_registers`), and the
  accumulator also where it stands in for a cell.
* For the flags the masks of operations are compared with the lists (`Part.flags_of_not_mem`).
* Of the operations that change the zero and the negative flag, all but three do so to describe the byte that they deliver
  (`Operation.ensures_delivers`).

`Processor.step_frame` says this of every step on every bus.
-/

namespace Nes

/-! ## Parts of the register file -/

/-- A register or a flag, but for the program counter and for the flags that say nothing of what was computed. -/
inductive Part
  | a | x | y | sp
  | carry | zero | irqDisable | decimal | overflow | negative
  deriving DecidableEq

/-- What a part holds, 0 or 1 if it is a flag. -/
def Registers.part (r : Registers) : Part → Byte
  | .a => r.a
  | .x => r.x
  | .y => r.y
  | .sp => r.sp
  | .carry => r.bit Flag.carry
  | .zero => r.bit Flag.zero
  | .irqDisable => r.bit Flag.irqDisable
  | .decimal => r.bit Flag.decimal
  | .overflow => r.bit Flag.overflow
  | .negative => r.bit Flag.negative

namespace Operation

/-- The operations that describe the byte they deliver by the zero and the negative flag. -/
def reporters : List Operation :=
  [.lda, .ldx, .ldy, .adc, .sbc, .and, .ora, .eor, .cmp, .cpx, .cpy, .asl, .lsr, .rol, .ror, .inc, .dec, .inx, .iny, .dex,
    .dey, .tax, .tay, .txa, .tya, .tsx, .pla]

def shifts : List Operation := [.asl, .lsr, .rol, .ror]

/-- The operations that replace a byte: that of a cell, or the accumulator if they have no operand. -/
def inPlace : List Operation := [.inc, .dec] ++ shifts

end Operation

/-- The operations that can change a part, whatever their operand. -/
def Part.changers : Part → List Operation
  | .a => [.lda, .adc, .sbc, .and, .ora, .eor, .pla, .txa, .tya]
  | .x => [.ldx, .inx, .dex, .tax, .tsx]
  | .y => [.ldy, .iny, .dey, .tay]
  | .sp => [.txs, .pha, .php, .pla, .plp, .jsr, .rts, .rti, .brk]
  | .carry => [.adc, .sbc, .cmp, .cpx, .cpy, .asl, .lsr, .rol, .ror, .clc, .sec, .plp, .rti]
  | .overflow => [.adc, .sbc, .bit, .clv, .plp, .rti]
  | .irqDisable => [.cli, .sei, .brk, .plp, .rti]
  | .decimal => [.cld, .sed, .plp, .rti]
  | .zero | .negative => .bit :: .plp :: .rti :: Operation.reporters

/-- An instruction can change a part: by its operation, or as a shift of the accumulator. -/
def Instruction.CanChange (i : Instruction) (part : Part) : Prop :=
  i.operation ∈ part.changers ∨ part = .a ∧ i.mode = .implied ∧ i.operation ∈ Operation.shifts

instance (i : Instruction) (part : Part) : Decidable (i.CanChange part) := inferInstanceAs (Decidable (_ ∨ _))

/-! ## Registers -/

/-- Where a byte in memory is replaced, the accumulator stays. -/
theorem Operand.ensures_update_registers (operand : Operand) {r : Registers} {f : Registers → Byte → Shifted}
    (hf : ∀ v, ∃ status, (f r v).registers = { r with status }) :
    (operand.update r f).Ensures fun _ outcome => (operand ≠ .implied → outcome.registers.a = r.a) ∧
      outcome.registers.x = r.x ∧ outcome.registers.y = r.y ∧ outcome.registers.sp = r.sp := by
  have hkept (v : Byte) : ((f r v).registers.setZN (f r v).value).a = r.a ∧
      ((f r v).registers.setZN (f r v).value).x = r.x ∧ ((f r v).registers.setZN (f r v).value).y = r.y ∧
      ((f r v).registers.setZN (f r v).value).sp = r.sp := by
    obtain ⟨status, hstatus⟩ := hf v
    rw [hstatus]
    exact ⟨rfl, rfl, rfl, rfl⟩
  cases operand with
  | implied =>
    obtain ⟨-, hx, hy, hsp⟩ := hkept r.a
    exact Transaction.ensures_done.mpr ⟨fun h => absurd rfl h, hx, hy, hsp⟩
  | address addr | relative addr =>
    simp only [update, Transaction.read, Transaction.write, Transaction.reading_bind, Transaction.writing_bind,
      Transaction.done_bind, Transaction.pure_eq, Transaction.ensures_reading, Transaction.ensures_writing,
      Transaction.ensures_done]
    exact fun v => ⟨fun _ => (hkept v).1, (hkept v).2⟩

/-- The accumulator, X, Y and the stack pointer are as they were, unless the operation is listed for them. -/
def Operation.KeepsRegisters (op : Operation) (operand : Operand) (r after : Registers) : Prop :=
  (op ∉ Part.a.changers → (op ∈ inPlace → operand ≠ .implied) → after.a = r.a) ∧
  (op ∉ Part.x.changers → after.x = r.x) ∧ (op ∉ Part.y.changers → after.y = r.y) ∧
  (op ∉ Part.sp.changers → after.sp = r.sp)

/-- **A register is changed by the operations that are listed for it**, and the accumulator also where it stands in for a
cell. -/
theorem Operation.ensures_registers (op : Operation) (operand : Operand) (r : Registers) :
    (op.perform operand r).Ensures fun _ outcome => op.KeepsRegisters operand r outcome.registers := by
  have hupdate {f : Registers → Byte → Shifted} (hop : op ∈ inPlace)
      (hf : ∀ v, ∃ status, (f r v).registers = { r with status }) :
      (operand.update r f).Ensures fun _ outcome => op.KeepsRegisters operand r outcome.registers :=
    (operand.ensures_update_registers hf).mono fun _ _ ⟨ha, hx, hy, hsp⟩ =>
      ⟨fun _ hcell => ha (hcell hop), fun _ => hx, fun _ => hy, fun _ => hsp⟩
  have hbranch (flag : Byte) (on : Bool) :
      (operand.branch r flag on).Ensures fun _ outcome => op.KeepsRegisters operand r outcome.registers :=
    Operand.ensures_branch (fun _ _ => ⟨fun _ _ => rfl, fun _ => rfl, fun _ => rfl, fun _ => rfl⟩)
      ⟨fun _ _ => rfl, fun _ => rfl, fun _ => rfl, fun _ => rfl⟩
  cases op
  case asl | lsr | rol | ror | inc | dec => exact hupdate (by decide) fun v => ⟨_, rfl⟩
  case bcc | bcs | bne | beq | bpl | bmi | bvc | bvs => exact hbranch _ _
  all_goals
    simp [perform, KeepsRegisters, Part.changers, Operand.ensures_consume, Operand.ensures_inspect,
      Operand.ensures_store, Registers.finish, Registers.ensures_push, Registers.ensures_pop, Registers.ensures_pushWord,
      Registers.ensures_popWord, Registers.ensures_enterHandler, Registers.entered, Registers.setA, Registers.setX,
      Registers.setY, Registers.setZN, Registers.addWithCarry, Registers.subtractWithCarry, Registers.compare,
      Registers.testBits]

/-! ## Flags -/

/-- The flag that a part is. -/
def Part.flag? : Part → Option Byte
  | .carry => some Flag.carry
  | .zero => some Flag.zero
  | .irqDisable => some Flag.irqDisable
  | .decimal => some Flag.decimal
  | .overflow => some Flag.overflow
  | .negative => some Flag.negative
  | _ => none

/-- A flag is in the masks of the operations that are listed for it, and of no others. -/
theorem Part.flags_of_not_mem {part : Part} {mask : Byte} (hmask : part.flag? = some mask) {op : Operation}
    (hop : op ∉ part.changers) : op.flags &&& mask = 0 := by
  cases part
  case a | x | y | sp => cases hmask
  all_goals
    cases hmask
    revert hop
    cases op <;> decide

theorem Part.unused_of_flag {part : Part} {mask : Byte} (hmask : part.flag? = some mask) : Flag.unused &&& mask = 0 := by
  cases part <;> cases hmask <;> decide

theorem Registers.part_of_flag {part : Part} {mask : Byte} (hmask : part.flag? = some mask) (r : Registers) :
    r.part part = r.bit mask := by
  cases part <;> cases hmask <;> rfl

/-! ## The byte that is delivered -/

namespace Registers

/-- The zero and the negative flag describe a byte. -/
structure Reports (r : Registers) (byte : Byte) : Prop where
  zero : r.isSet Flag.zero = true ↔ byte = 0
  negative : r.isSet Flag.negative = byte.msb

theorem reports_setZN (r : Registers) (byte : Byte) : (r.setZN byte).Reports byte := by
  constructor
  · have hzero : (r.setZN byte).isSet Flag.zero = (byte == 0) :=
      (meets_assign (by decide) _).trans (r.isSet_assign (by decide))
    rw [hzero, beq_iff_eq]
  · exact isSet_assign _ (by decide)

/-- Setting the flag that is not used leaves the description. -/
theorem Reports.assign_unused {r : Registers} {byte : Byte} (h : r.Reports byte) :
    (r.assign Flag.unused true).Reports byte := by
  have hkept {mask : Byte} (hmask : Flag.unused &&& mask = 0) :
      (r.assign Flag.unused true).isSet mask = r.isSet mask := meets_assign hmask true
  constructor
  · rw [hkept (by decide)]
    exact h.zero
  · rw [hkept (by decide)]
    exact h.negative

end Registers

/-- A byte is what an operation delivers to its destination, for the registers before and after it, the effective address
and the accesses of the operation. The difference of a comparison goes nowhere but to the flags. -/
def Operation.Delivers (op : Operation) (mode : Mode) (r after : Registers) (addr : Addr) (moving : List Access)
    (byte : Byte) : Prop :=
  match op with
  | .lda | .adc | .sbc | .and | .ora | .eor | .pla | .txa | .tya => byte = after.a
  | .ldx | .inx | .dex | .tax | .tsx => byte = after.x
  | .ldy | .iny | .dey | .tay => byte = after.y
  | .cmp => ∃ m, moving = [.read .live addr m] ∧ byte = r.a - m
  | .cpx => ∃ m, moving = [.read .live addr m] ∧ byte = r.x - m
  | .cpy => ∃ m, moving = [.read .live addr m] ∧ byte = r.y - m
  | .asl | .lsr | .rol | .ror | .inc | .dec =>
    if mode = .implied then byte = after.a else ∃ old, moving = [.read .live addr old, .write addr byte]
  | _ => False

/-- A byte that was replaced is described. -/
theorem Operand.ensures_update_reports (operand : Operand) (r : Registers) (f : Registers → Byte → Shifted) :
    (operand.update r f).Ensures fun moving outcome => ∃ byte, outcome.registers.Reports byte ∧
      if operand = .implied then byte = outcome.registers.a else
        ∃ old, moving = [.read .live operand.addr old, .write operand.addr byte] := by
  cases operand with
  | implied => exact Transaction.ensures_done.mpr ⟨_, Registers.reports_setZN _ _, rfl⟩
  | address addr | relative addr =>
    simp only [update, Transaction.read, Transaction.write, Transaction.reading_bind, Transaction.writing_bind,
      Transaction.done_bind, Transaction.pure_eq, Transaction.ensures_reading, Transaction.ensures_writing,
      Transaction.ensures_done]
    exact fun v => ⟨_, Registers.reports_setZN _ _, v, rfl⟩

/-- **The operations that report a byte report the one that they deliver.** -/
theorem Operation.ensures_delivers {op : Operation} (hop : op ∈ reporters) (mode : Mode) {operand : Operand}
    (r : Registers) (himplied : operand = .implied ↔ mode = .implied) (hcell : op.needsCell = true → mode ≠ .implied) :
    (op.perform operand r).Ensures fun moving outcome =>
      ∃ byte, op.Delivers mode r outcome.registers operand.addr moving byte ∧ outcome.registers.Reports byte := by
  have hread {f : List Access → Byte → Prop} (hmode : mode ≠ .implied) :
      (operand.fetch r).Ensures f ↔ ∀ m, f [.read .live operand.addr m] m :=
    Operand.ensures_fetch (mt himplied.mp hmode)
  have hupdate (f : Registers → Byte → Shifted) : (operand.update r f).Ensures fun moving outcome =>
      ∃ byte, (if mode = .implied then byte = outcome.registers.a else
        ∃ old, moving = [.read .live operand.addr old, .write operand.addr byte]) ∧ outcome.registers.Reports byte := by
    simp only [← himplied]
    exact (operand.ensures_update_reports r f).mono fun _ _ ⟨byte, hreports, hdelivers⟩ => ⟨byte, hdelivers, hreports⟩
  cases op
  case lda | ldx | ldy | adc | sbc | and | ora | eor =>
    exact Operand.ensures_consume.mpr fun _ m _ => ⟨_, rfl, Registers.reports_setZN _ _⟩
  case cmp =>
    exact Operand.ensures_consume.mpr ((hread (hcell rfl)).mpr fun m => ⟨_, ⟨m, rfl, rfl⟩, Registers.reports_setZN _ _⟩)
  case cpx | cpy =>
    exact Operand.ensures_inspect.mpr ((hread (hcell rfl)).mpr fun m => ⟨_, ⟨m, rfl, rfl⟩, Registers.reports_setZN _ _⟩)
  case asl | lsr | rol | ror | inc | dec => exact hupdate _
  case inx | iny | dex | dey | tax | tay | txa | tya | tsx =>
    exact Transaction.ensures_done.mpr ⟨_, rfl, Registers.reports_setZN _ _⟩
  case pla =>
    simp only [perform, Transaction.ensures_bind, Registers.ensures_pop, Registers.finish, Transaction.pure_eq,
      Transaction.ensures_done]
    exact fun v => ⟨_, rfl, Registers.reports_setZN _ _⟩
  all_goals exact absurd hop (by decide)

/-! ## Instructions -/

/-- Bytes are counted up and down in cells only. -/
theorem Instruction.mode_of_counting (opcode : Byte) :
    (ofOpcode opcode).operation ∈ [Operation.inc, .dec] → (ofOpcode opcode).mode ≠ .implied := by
  revert opcode
  decide +kernel

namespace Execution.Of

variable {e : Execution} {p : Processor}

/-- What an instruction is not listed for is as before. -/
theorem part_eq (h : e.Of p) {part : Part} (hpart : ¬e.instruction.CanChange part) :
    e.registers.part part = p.registers.part part := by
  have hop : e.instruction.operation ∉ part.changers := fun hmem => hpart (.inl hmem)
  have hperform := h.perform
  rw [h.registers_resolved] at hperform
  obtain ⟨ha, hx, hy, hsp⟩ := Operation.ensures_registers _ _ _ _ _ hperform
  have hflag {mask : Byte} (hmask : part.flag? = some mask) :
      e.registers.part part = p.registers.part part := by
    have hunused := Part.unused_of_flag hmask
    have hflags := Operation.ensures_flags _ _ _ (Part.flags_of_not_mem hmask hop) _ _ hperform
    have hset : e.registers.isSet mask = p.registers.isSet mask := calc
      e.registers.isSet mask = e.outcome.registers.isSet mask := Registers.meets_assign hunused true
      _ = (fetched p).isSet mask := hflags
      _ = p.registers.isSet mask := Registers.meets_assign hunused true
    rw [Registers.part_of_flag hmask, Registers.part_of_flag hmask, Registers.bit, Registers.bit, hset]
  cases part
  case a =>
    -- what replaces a byte has a cell for it: shifts of the accumulator are listed
    refine ha hop fun hinPlace himplied => ?_
    have hmode := h.resolves.implied.mp himplied
    have hcounting : e.instruction.operation ∉ [Operation.inc, .dec] :=
      fun hmem => Instruction.mode_of_counting e.opcode hmem hmode
    have hshifts : e.instruction.operation ∉ Operation.shifts := fun hmem => hpart (.inr ⟨rfl, hmode, hmem⟩)
    rw [Operation.inPlace, List.mem_append] at hinPlace
    exact hinPlace.elim hcounting hshifts
  case x => exact hx hop
  case y => exact hy hop
  case sp => exact hsp hop
  all_goals exact hflag rfl

/-- The flags describe the byte that an instruction delivers. -/
theorem delivers (h : e.Of p) (hop : e.instruction.operation ∈ Operation.reporters) :
    ∃ byte, e.instruction.operation.Delivers e.instruction.mode p.registers e.registers e.resolved.operand.addr
      e.operationTraffic byte ∧ e.registers.Reports byte := by
  have hperform := h.perform
  rw [h.registers_resolved] at hperform
  obtain ⟨byte, hdelivers, hreports⟩ := Operation.ensures_delivers hop _ _ h.resolves.implied
    (Instruction.mode_of_needsCell e.opcode) _ _ hperform
  exact ⟨byte, hdelivers, hreports.assign_unused⟩

end Execution.Of

/-- **What a step changes.** Whatever the bus answers, a register or a flag that has changed after a step is one that its
instruction is listed for. The instructions that report a byte deliver one, and after them the zero flag is set if and only
if this byte is zero, and the negative flag is its bit 7. -/
theorem Processor.step_frame {β : Type} [Bus β] (p : Processor) (bus : β) :
    let run := p.step.run (Monitored.mk bus #[])
    let r := p.registers
    let after := run.1.2.registers
    let opcode := (Bus.read .live r.pc bus).1
    let instruction := Instruction.ofOpcode opcode
    ∃ finding moving addr,
      run.2.log.toList = .read .live r.pc opcode :: (finding ++ moving) ∧
      instruction.mode.Finds r finding addr ∧
      (∀ part, after.part part ≠ r.part part → instruction.CanChange part) ∧
      (instruction.operation ∈ Operation.reporters →
        ∃ byte, instruction.operation.Delivers instruction.mode r after addr moving byte ∧
          (after.isSet Flag.zero = true ↔ byte = 0) ∧ after.isSet Flag.negative = byte.msb) := by
  intro run r after opcode instruction
  let e : Execution := p.execution bus
  have he : e.Of p := p.execution_of bus
  have hrun : run = ((e.cost, p.stepped bus), ⟨(p.next bus).2, (e.traffic p).toArray⟩) := p.run_step_monitored bus
  have hafter : after = e.registers := congrArg (·.1.2.registers) hrun
  have hlog : run.2.log.toList = e.traffic p := congrArg (·.2.log.toList) hrun
  refine ⟨e.operandTraffic, e.operationTraffic, e.resolved.operand.addr, hlog, he.resolves.finds, ?_, ?_⟩
  · intro part hchanged
    apply Decidable.byContradiction
    intro hpart
    rw [hafter] at hchanged
    exact hchanged (he.part_eq hpart)
  · intro hop
    obtain ⟨byte, hdelivers, hreports⟩ := he.delivers hop
    rw [hafter]
    exact ⟨byte, hdelivers, hreports.zero, hreports.negative⟩

end Nes
