import Nes.Proofs.Steps

/-!
# The accesses of an instruction

A device may act on being read, so an access too many is as wrong as one too few. Here the accesses of every instruction
are listed: after the opcode come those that find the operand, which depend on the mode (`Mode.Finds`), and then those of
the operation (`Operation.Moves`). All reads are live.

`Processor.log_step` says that a step makes these and no others, whatever the bus answers, and that there are no more of
them than the instruction costs cycles.
-/

namespace Nes

/-! ## Finding the operand -/

/-- The accesses that find the operand of a mode, and the effective address, for an instruction at the program counter.
Bytes stand for what the bus answers. An immediate operand is not read, and where there is no operand the address is of
no use. -/
inductive Mode.Finds (r : Registers) : Mode → List Access → Addr → Prop
  | implied : Finds r .implied [] 0
  | immediate : Finds r .immediate [] (r.pc + 1)
  | zeroPage (b : Byte) : Finds r .zeroPage [.read .live (r.pc + 1) b] (.zeroPage b)
  | zeroPageX (b : Byte) : Finds r .zeroPageX [.read .live (r.pc + 1) b] (.zeroPage (b + r.x))
  | zeroPageY (b : Byte) : Finds r .zeroPageY [.read .live (r.pc + 1) b] (.zeroPage (b + r.y))
  | relative (b : Byte) : Finds r .relative [.read .live (r.pc + 1) b] (r.pc + 2 + b.signExtend 16)
  | absolute (low high : Byte) :
      Finds r .absolute [.read .live (r.pc + 1) low, .read .live (r.pc + 2) high] (.ofBytes low high)
  | absoluteX (low high : Byte) :
      Finds r .absoluteX [.read .live (r.pc + 1) low, .read .live (r.pc + 2) high]
        (.ofBytes low high + r.x.setWidth 16)
  | absoluteY (low high : Byte) :
      Finds r .absoluteY [.read .live (r.pc + 1) low, .read .live (r.pc + 2) high]
        (.ofBytes low high + r.y.setWidth 16)
  | indirect (low high pointedLow pointedHigh : Byte) :
      -- the second byte of the pointer is on the page of the first
      Finds r .indirect [.read .live (r.pc + 1) low, .read .live (r.pc + 2) high,
        .read .live (.ofBytes low high) pointedLow, .read .live (.ofBytes (low + 1) high) pointedHigh]
        (.ofBytes pointedLow pointedHigh)
  | indexedIndirect (b low high : Byte) :
      Finds r .indexedIndirect [.read .live (r.pc + 1) b, .read .live (.zeroPage (b + r.x)) low,
        .read .live (.zeroPage (b + r.x + 1)) high] (.ofBytes low high)
  | indirectIndexed (b low high : Byte) :
      Finds r .indirectIndexed [.read .live (r.pc + 1) b, .read .live (.zeroPage b) low,
        .read .live (.zeroPage (b + 1)) high] (.ofBytes low high + r.y.setWidth 16)

/-- The number of accesses that find the operand. -/
def Mode.findings : Mode → Nat
  | .implied | .immediate => 0
  | .zeroPage | .zeroPageX | .zeroPageY | .relative => 1
  | .absolute | .absoluteX | .absoluteY => 2
  | .indexedIndirect | .indirectIndexed => 3
  | .indirect => 4

theorem Mode.Finds.length_eq {r : Registers} {mode : Mode} {traffic : List Access} {addr : Addr}
    (h : mode.Finds r traffic addr) : traffic.length = mode.findings := by
  cases h <;> rfl

/-- What resolving a mode comes to, for an instruction at the program counter of `r`. -/
structure Mode.Resolves (r : Registers) (mode : Mode) (traffic : List Access) (resolved : Resolved) : Prop where
  finds : mode.Finds r traffic resolved.operand.addr
  implied : resolved.operand = .implied ↔ mode = .implied
  pc : resolved.registers.pc = r.pc + 1 + BitVec.ofNat 16 mode.operandLength

/-- Resolving a mode makes the accesses that are listed for it. -/
theorem Mode.ensures_resolves (mode : Mode) {r q : Registers} (hpc : q.pc = r.pc + 1) (hx : q.x = r.x) (hy : q.y = r.y) :
    (mode.resolve q).Ensures (mode.Resolves r) := by
  have hpc₂ : r.pc + 1 + 1 = r.pc + 2 := by bv_omega
  have hpc₃ : r.pc + 2 + 1 = r.pc + 1 + 2 := by bv_omega
  have hpointer (b : Byte) : Addr.ofBytes ((Addr.zeroPage b).low + 1) (Addr.zeroPage b).high = .zeroPage (b + 1) := by
    rw [Addr.zeroPage, Addr.low_ofBytes, Addr.high_ofBytes, Addr.zeroPage]
  cases mode <;>
    simp only [Mode.resolve, Registers.fetch, Registers.fetchWord, readPointer, Transaction.read, Resolved.indexed,
      Transaction.pure_eq, Transaction.reading_bind, Transaction.done_bind, Transaction.ensures_reading,
      Transaction.ensures_done, hpc, hx, hy, hpc₂, hpointer, Addr.low_ofBytes, Addr.high_ofBytes]
  case implied => exact ⟨.implied, by simp, hpc.trans (BitVec.add_zero _).symm⟩
  case immediate => exact ⟨.immediate, by simp, hpc₂.symm⟩
  case zeroPage => exact fun b => ⟨.zeroPage b, by simp, hpc₂.symm⟩
  case zeroPageX => exact fun b => ⟨.zeroPageX b, by simp, hpc₂.symm⟩
  case zeroPageY => exact fun b => ⟨.zeroPageY b, by simp, hpc₂.symm⟩
  case relative => exact fun b => ⟨.relative b, by simp, hpc₂.symm⟩
  case absolute => exact fun low high => ⟨.absolute low high, by simp, hpc₃⟩
  case absoluteX => exact fun low high => ⟨.absoluteX low high, by simp, hpc₃⟩
  case absoluteY => exact fun low high => ⟨.absoluteY low high, by simp, hpc₃⟩
  case indirect => exact fun low high low' high' => ⟨.indirect low high low' high', by simp, hpc₃⟩
  case indexedIndirect => exact fun b low high => ⟨.indexedIndirect b low high, by simp, hpc₂.symm⟩
  case indirectIndexed => exact fun b low high => ⟨.indirectIndexed b low high, by simp, hpc₂.symm⟩

/-! ## The operation -/

/-- Whether the operation works on a cell, and on nothing else. -/
def Operation.needsCell : Operation → Bool
  | .lda | .ldx | .ldy | .adc | .sbc | .and | .ora | .eor | .bit | .cmp | .cpx | .cpy | .sta | .stx | .sty => true
  | _ => false

/-- The accesses of an operation, for the registers `r` at the opcode, the address of the next instruction and the
effective address. -/
def Operation.Moves (op : Operation) (mode : Mode) (r : Registers) (next addr : Addr) (traffic : List Access) : Prop :=
  match op with
  | .lda | .ldx | .ldy | .adc | .sbc | .and | .ora | .eor | .bit | .cmp | .cpx | .cpy =>
    ∃ value, traffic = [.read .live addr value]
  | .sta => traffic = [.write addr r.a]
  | .stx => traffic = [.write addr r.x]
  | .sty => traffic = [.write addr r.y]
  | .asl | .lsr | .rol | .ror | .inc | .dec =>
    -- in implied mode they change the accumulator
    if mode = .implied then traffic = [] else ∃ old new, traffic = [.read .live addr old, .write addr new]
  | .pha => traffic = [.write (.stackPage r.sp) r.a]
  | .php => traffic = [.write (.stackPage r.sp) (r.pushedStatus true)]
  | .pla | .plp => ∃ value, traffic = [.read .live (.stackPage (r.sp + 1)) value]
  | .jsr => traffic = [.write (.stackPage r.sp) (next - 1).high, .write (.stackPage (r.sp - 1)) (next - 1).low]
  | .rts => ∃ low high,
    traffic = [.read .live (.stackPage (r.sp + 1)) low, .read .live (.stackPage (r.sp + 2)) high]
  | .rti => ∃ status low high,
    traffic = [.read .live (.stackPage (r.sp + 1)) status, .read .live (.stackPage (r.sp + 2)) low,
      .read .live (.stackPage (r.sp + 3)) high]
  | .brk => ∃ low high,
    traffic = [.write (.stackPage r.sp) next.high, .write (.stackPage (r.sp - 1)) next.low,
      .write (.stackPage (r.sp - 2)) (r.pushedStatus true), .read .live 0xFFFE low, .read .live 0xFFFF high]
  | _ => traffic = []

/-- The number of accesses of an operation. -/
def Operation.moves (op : Operation) (mode : Mode) : Nat :=
  match op with
  | .lda | .ldx | .ldy | .adc | .sbc | .and | .ora | .eor | .bit | .cmp | .cpx | .cpy | .sta | .stx | .sty => 1
  | .asl | .lsr | .rol | .ror | .inc | .dec => if mode = .implied then 0 else 2
  | .pha | .php | .pla | .plp => 1
  | .jsr | .rts => 2
  | .rti => 3
  | .brk => 5
  | _ => 0

theorem Operation.Moves.length_eq {op : Operation} {mode : Mode} {r : Registers} {next addr : Addr}
    {traffic : List Access} (h : op.Moves mode r next addr traffic) : traffic.length = op.moves mode := by
  have hupdate (h : if mode = .implied then traffic = [] else
      ∃ old new, traffic = [.read .live addr old, .write addr new]) :
      traffic.length = if mode = .implied then 0 else 2 := by
    split at h
    · next hmode => rw [h, if_pos hmode, List.length_nil]
    · next hmode =>
      obtain ⟨old, new, rfl⟩ := h
      rw [if_neg hmode]
      rfl
  cases op
  case lda | ldx | ldy | adc | sbc | and | ora | eor | bit | cmp | cpx | cpy | pla | plp =>
    obtain ⟨value, rfl⟩ := h
    rfl
  case asl | lsr | rol | ror | inc | dec => exact hupdate h
  case rts | brk =>
    obtain ⟨low, high, rfl⟩ := h
    rfl
  case rti =>
    obtain ⟨status, low, high, rfl⟩ := h
    rfl
  all_goals
    obtain rfl := h
    rfl

/-- What is not the accumulator is read. -/
theorem Operand.ensures_fetch {operand : Operand} (h : operand ≠ .implied) {r : Registers}
    {Q : List Access → Byte → Prop} :
    (operand.fetch r).Ensures Q ↔ ∀ value, Q [.read .live operand.addr value] value := by
  cases operand with
  | implied => exact absurd rfl h
  | address addr => simp [fetch, Transaction.read, Operand.addr]
  | relative target => simp [fetch, Transaction.read, Operand.addr]

/-- What is not the accumulator is read and written. -/
theorem Operand.ensures_update_traffic (operand : Operand) (r : Registers) (f : Registers → Byte → Shifted) :
    (operand.update r f).Ensures fun traffic _ =>
      if operand = .implied then traffic = [] else
        ∃ old new, traffic = [.read .live operand.addr old, .write operand.addr new] := by
  cases operand <;> simp [update, Transaction.read, Transaction.write, Operand.addr]

/-- The unused flag is pushed as set in any case. -/
theorem Registers.pushedStatus_of_unused {r q : Registers} (h : q.status = (r.assign Flag.unused true).status)
    (brk : Bool) : q.pushedStatus brk = r.pushedStatus brk := by
  simp only [pushedStatus, h, assign, if_true, BitVec.or_assoc, BitVec.or_self]

/-- An operation makes the accesses that are listed for it. -/
theorem Operation.ensures_moves (op : Operation) (mode : Mode) {operand : Operand} (r : Registers) (next : Addr)
    (himplied : operand = .implied ↔ mode = .implied) (hcell : op.needsCell = true → mode ≠ .implied) :
    (op.perform operand { r.assign Flag.unused true with pc := next }).Ensures fun traffic _ =>
      op.Moves mode r next operand.addr traffic := by
  have hpushed : (Registers.mk r.a r.x r.y r.sp next (r.assign Flag.unused true).status).pushedStatus true =
      r.pushedStatus true := Registers.pushedStatus_of_unused rfl true
  have hsp : r.sp - 1 - 1 = r.sp - 2 := by bv_omega
  have hsp₂ : r.sp + 1 + 1 = r.sp + 2 := by bv_omega
  have hsp₃ : r.sp + 2 + 1 = r.sp + 3 := by bv_omega
  have hconsume (q : Registers) (f : Byte → Registers) (hmode : mode ≠ .implied) :
      (operand.consume q f).Ensures fun traffic _ => ∃ value, traffic = [.read .live operand.addr value] := by
    rw [Operand.ensures_consume, Operand.ensures_fetch (mt himplied.mp hmode)]
    exact fun value => ⟨value, rfl⟩
  have hinspect (q : Registers) (f : Byte → Registers) (hmode : mode ≠ .implied) :
      (operand.inspect q f).Ensures fun traffic _ => ∃ value, traffic = [.read .live operand.addr value] := by
    rw [Operand.ensures_inspect, Operand.ensures_fetch (mt himplied.mp hmode)]
    exact fun value => ⟨value, rfl⟩
  have hupdate (q : Registers) (f : Registers → Byte → Shifted) : (operand.update q f).Ensures fun traffic _ =>
      if mode = .implied then traffic = [] else
        ∃ old new, traffic = [.read .live operand.addr old, .write operand.addr new] := by
    simp only [← himplied]
    exact operand.ensures_update_traffic q f
  have hbranch (q : Registers) (mask : Byte) (on : Bool) :
      (operand.branch q mask on).Ensures fun traffic _ => traffic = [] := by
    unfold Operand.branch
    split <;> rw [Transaction.pure_eq, Transaction.ensures_done]
  cases op
  case lda | ldx | ldy | adc | sbc | and | ora | eor | cmp => exact hconsume _ _ (hcell rfl)
  case bit | cpx | cpy => exact hinspect _ _ (hcell rfl)
  case asl | lsr | rol | ror | inc | dec => exact hupdate _ _
  case bcc | bcs | bne | beq | bpl | bmi | bvc | bvs => exact hbranch _ _ _
  all_goals
    simp only [perform, Moves, Operand.ensures_store, Registers.finish, Registers.ensures_push, Registers.ensures_pop,
      Registers.ensures_pushWord, Registers.ensures_popWord, Registers.ensures_enterHandler, Registers.entryTraffic,
      Transaction.ensures_bind, Transaction.ensures_done, Transaction.pure_eq, List.append_nil, List.cons_append,
      List.nil_append, Registers.sp_assign, Registers.a_assign, Registers.x_assign, Registers.y_assign, hpushed, hsp,
      hsp₂, hsp₃]
  case brk => exact fun low high => ⟨low, high, rfl⟩
  case pla | plp => exact fun value => ⟨value, rfl⟩
  case rti => exact fun status low high => ⟨status, low, high, rfl⟩
  case rts => exact fun low high => ⟨low, high, rfl⟩

/-! ## The instruction -/

/-- Operations on a cell have a mode that finds one. -/
theorem Instruction.mode_of_needsCell (opcode : Byte) :
    (ofOpcode opcode).operation.needsCell = true → (ofOpcode opcode).mode ≠ .implied := by
  revert opcode
  decide +kernel

/-- There is a cycle for each access, in every row of the opcode table. -/
theorem Instruction.accesses_le_cycles (opcode : Byte) :
    1 + (ofOpcode opcode).mode.findings + (ofOpcode opcode).operation.moves (ofOpcode opcode).mode ≤
      (ofOpcode opcode).cycles := by
  revert opcode
  decide +kernel

namespace Execution.Of

variable {e : Execution} {p : Processor}

theorem resolves (h : e.Of p) : e.instruction.mode.Resolves p.registers e.operandTraffic e.resolved :=
  Mode.ensures_resolves (q := fetched p) _ rfl rfl rfl _ _ h.resolve

/-- The program counter is past the instruction when it is carried out. -/
theorem pc_resolved (h : e.Of p) :
    e.resolved.registers.pc = p.registers.pc + BitVec.ofNat 16 e.instruction.length := by
  rw [h.resolves.pc, Instruction.length, BitVec.ofNat_add, BitVec.add_assoc]
  rfl

theorem moves (h : e.Of p) : e.instruction.operation.Moves e.instruction.mode p.registers
    (p.registers.pc + BitVec.ofNat 16 e.instruction.length) e.resolved.operand.addr e.operationTraffic := by
  have hperform := h.perform
  rw [h.registers_resolved, h.pc_resolved] at hperform
  exact Operation.ensures_moves _ _ _ _ h.resolves.implied (Instruction.mode_of_needsCell e.opcode) _ _ hperform

/-- An instruction makes no more accesses than it costs cycles: its base cost is enough. -/
theorem length_traffic_le (h : e.Of p) : (e.traffic p).length ≤ e.cost := by
  have hfinding := h.resolves.finds.length_eq
  have hmoving := h.moves.length_eq
  have htable := Instruction.accesses_le_cycles e.opcode
  simp only [Execution.traffic, List.length_cons, List.length_append, hfinding, hmoving, Execution.cost]
  unfold Execution.instruction
  omega

end Execution.Of

/-- **The accesses of a step.** Whatever the bus answers, a processor reads its opcode, finds the operand and carries out
the operation by exactly the accesses that are listed for the mode and for the operation. They are no more than the cycles
that the step costs. -/
theorem Processor.log_step {β : Type} [Bus β] (p : Processor) (bus : β) :
    let run := p.step.run (Monitored.mk bus #[])
    let r := p.registers
    let opcode := (Bus.read .live r.pc bus).1
    let instruction := Instruction.ofOpcode opcode
    ∃ finding moving addr,
      run.2.log.toList = .read .live r.pc opcode :: (finding ++ moving) ∧
      instruction.mode.Finds r finding addr ∧
      instruction.operation.Moves instruction.mode r (r.pc + BitVec.ofNat 16 instruction.length) addr moving ∧
      run.2.log.size ≤ run.1.1 := by
  intro run r opcode instruction
  let e : Execution := p.execution bus
  have he : e.Of p := p.execution_of bus
  have hlog : run.2.log.toList = e.traffic p := by
    rw [p.step.log_run (Monitored.mk bus #[]), traffic_step]
    rfl
  have hcost : run.1.1 = e.cost := by
    have hrun := p.step.run_bus (Monitored.mk bus #[])
    rw [run_step] at hrun
    have hnext := congrArg (·.1.1) hrun
    exact hnext.symm.trans (congrArg cycles (p.next_fst bus))
  refine ⟨e.operandTraffic, e.operationTraffic, e.resolved.operand.addr, hlog, he.resolves.finds, he.moves, ?_⟩
  rw [← Array.length_toList, hlog, hcost]
  exact he.length_traffic_le

end Nes
