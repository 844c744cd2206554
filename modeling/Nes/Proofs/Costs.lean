import Nes.Proofs.ListedCode

/-!
# What instructions cost

The cost of an instruction comes from three places: the opcode table, the mode, which notices that an index left the page
of its base address, and the operation, which knows whether it waits for that and whether a branch was taken.
`Instruction.cost` says what the sum is, for the registers at the opcode and the bytes that were read.

* An index leaves the page if it carries out of the low byte, also where addresses begin anew (`Addr.crosses_indexed`,
  `Mode.ensures_crossed`).
* Of the operations that meet such an index, those that write to the cell do not wait
  (`Instruction.paysCrossing_of_canCross`).
* A branch costs nothing unless it is taken (`Operation.ensures_branchCycles`).

`Processor.cost_step` puts these together.
-/

namespace Nes

/-! ## What is paid for -/

/-- The address that a mode adds an index to, as the accesses after the opcode have read it, and the index. -/
def Mode.indexing (mode : Mode) (r : Registers) (accesses : List Access) : Option (Addr × Byte) :=
  match mode, accesses with
  | .absoluteX, .read _ _ low :: .read _ _ high :: _ => some (.ofBytes low high, r.x)
  | .absoluteY, .read _ _ low :: .read _ _ high :: _ => some (.ofBytes low high, r.y)
  | .indirectIndexed, _ :: .read _ _ low :: .read _ _ high :: _ => some (.ofBytes low high, r.y)
  | _, _ => none

/-- Whether the index carries out of the low byte of the address. -/
def Mode.carries (mode : Mode) (r : Registers) (accesses : List Access) : Bool :=
  (mode.indexing r accesses).any fun (base, index) => 0xFF < base.low.toNat + index.toNat

/-- Whether an operation stores a register, or changes the byte in a cell. -/
def Operation.writesCell : Operation → Bool
  | .sta | .stx | .sty | .asl | .lsr | .rol | .ror | .inc | .dec => true
  | _ => false

/-- Where a branch goes, as the access after the opcode has read its distance. -/
def Registers.branchTarget (r : Registers) (accesses : List Access) : Addr :=
  match accesses with
  | .read _ _ distance :: _ => r.pc + 2 + distance.signExtend 16
  | _ => r.pc + 2

instance (op : Operation) (r : Registers) : Decidable (op.Taken r) :=
  match h : op.condition with
  | none => .isFalse (by simp [Operation.Taken, h])
  | some (mask, on) => decidable_of_iff (r.isSet mask = on) (Operation.taken_iff h r).symm

/-- What an instruction costs, for the registers at its opcode and the accesses after the opcode: its base cost; a cycle
if the index carries, unless the operation writes to the cell; a cycle for a branch that is taken, and another one if that
leads to a page other than that of the next instruction. -/
def Instruction.cost (i : Instruction) (r : Registers) (accesses : List Access) : Nat :=
  i.cycles + (if i.mode.carries r accesses = true ∧ i.operation.writesCell = false then 1 else 0) +
    (if i.operation.Taken r then 1 else 0) +
    (if i.operation.Taken r ∧ (r.branchTarget accesses).high ≠ (r.pc + 2).high then 1 else 0)

/-! ## Indexing -/

/-- An index leaves the page of an address if it carries out of the low byte. After the last page comes the first. -/
theorem Addr.crosses_indexed (base : Addr) (index : Byte) :
    base.crosses (base + index.setWidth 16) = decide (0xFF < base.low.toNat + index.toNat) := by
  have hbase := base.isLt
  have hindex := index.isLt
  have hsum : (base + index.setWidth 16).toNat = (base.toNat + index.toNat) % 65536 := by
    rw [BitVec.toNat_add, BitVec.toNat_setWidth]
    omega
  have hsame : base.high = (base + index.setWidth 16).high ↔ ¬0xFF < base.low.toNat + index.toNat := by
    rw [← BitVec.toNat_inj, Addr.toNat_high, Addr.toNat_high, Addr.toNat_low, hsum]
    omega
  rw [Addr.crosses, bne, Bool.eq_iff_iff]
  simp only [Bool.not_eq_true', beq_eq_false_iff_ne, decide_eq_true_eq, ne_eq, hsame, Decidable.not_not]

/-- A mode notices that the index carries. -/
theorem Mode.ensures_crossed (mode : Mode) {r q : Registers} (hx : q.x = r.x) (hy : q.y = r.y) :
    (mode.resolve q).Ensures fun accesses resolved =>
      ∀ rest, resolved.crossed = mode.carries r (accesses ++ rest) := by
  cases mode <;>
    simp only [Mode.resolve, Registers.fetch, Registers.fetchWord, readPointer, Transaction.read, Resolved.indexed,
      Transaction.pure_eq, Transaction.reading_bind, Transaction.done_bind, Transaction.ensures_reading,
      Transaction.ensures_done, hx, hy, Addr.crosses_indexed]
  case absoluteX | absoluteY => exact fun low high rest => rfl
  case indirectIndexed => exact fun b low high rest => rfl
  all_goals
    intros
    rfl

/-- The operations that meet an index wait for its carry, unless they write to the cell. -/
theorem Instruction.paysCrossing_of_canCross (opcode : Byte) : (ofOpcode opcode).mode.canCross = true →
    (ofOpcode opcode).operation.paysCrossing = !(ofOpcode opcode).operation.writesCell := by
  revert opcode
  decide +kernel

/-! ## Branches -/

namespace Operation

theorem isBranch_eq (op : Operation) : op.isBranch = op.condition.isSome := by
  cases op <;> rfl

/-- A branch that is taken costs a cycle, or two if it leads to another page. -/
theorem ensures_branchCycles (op : Operation) (operand : Operand) (r : Registers) :
    (op.perform operand r).Ensures fun _ outcome => outcome.branchCycles =
      (if op.Taken r then 1 else 0) + (if op.Taken r ∧ operand.addr.high ≠ r.pc.high then 1 else 0) := by
  have hbranch {mask : Byte} {on : Bool} (hcondition : op.condition = some (mask, on)) :
      (operand.branch r mask on).Ensures fun _ outcome => outcome.branchCycles =
        (if op.Taken r then 1 else 0) + (if op.Taken r ∧ operand.addr.high ≠ r.pc.high then 1 else 0) := by
    have htaken := taken_iff hcondition r
    unfold Operand.branch
    split
    · next hset =>
      have htaken : op.Taken r := htaken.mpr hset
      rw [Transaction.pure_eq, Transaction.ensures_done]
      by_cases hpage : operand.addr.high = r.pc.high
      · simp [Addr.crosses, htaken, hpage]
      · simp [Addr.crosses, htaken, hpage, Ne.symm hpage]
    · next hset =>
      have htaken : ¬op.Taken r := mt htaken.mp hset
      rw [Transaction.pure_eq, Transaction.ensures_done]
      simp [htaken]
  cases hop : op.isBranch with
  | true =>
    cases op
    case bcc | bcs | bne | beq | bpl | bmi | bvc | bvs => exact hbranch rfl
    all_goals cases hop
  | false =>
    -- what is no branch is never taken, and asks for no cycles
    have htaken : ¬op.Taken r := by
      rintro ⟨mask, on, hcondition, -⟩
      rw [isBranch_eq, hcondition] at hop
      cases hop
    refine (op.ensures_timing operand r).mono fun _ outcome htiming => ?_
    have hcycles := htiming.2
    rw [hop, if_neg Bool.false_ne_true] at hcycles
    simp only [htaken, false_and, if_false]
    omega

end Operation

/-- The target of a branch is its effective address. -/
theorem Mode.Finds.branchTarget_eq {r : Registers} {finding : List Access} {addr : Addr}
    (h : Mode.Finds r .relative finding addr) (rest : List Access) : r.branchTarget (finding ++ rest) = addr := by
  cases h
  rfl

/-! ## The instruction -/

namespace Execution.Of

variable {e : Execution} {p : Processor}

theorem crossed_eq (h : e.Of p) (rest : List Access) :
    e.resolved.crossed = e.instruction.mode.carries p.registers (e.operandTraffic ++ rest) :=
  Mode.ensures_crossed (q := fetched p) _ rfl rfl _ _ h.resolve rest

/-- The cycle for an index that carries. -/
theorem crossing_eq (h : e.Of p) (rest : List Access) :
    (e.resolved.crossed && e.outcome.paysCrossing) = true ↔
      e.instruction.mode.carries p.registers (e.operandTraffic ++ rest) = true ∧
        e.instruction.operation.writesCell = false := by
  obtain ⟨hpays, -⟩ := Operation.ensures_timing _ _ _ _ _ h.perform
  rw [Bool.and_eq_true, hpays, h.crossed_eq rest]
  refine and_congr_right fun hcarries => ?_
  have hcross : e.instruction.mode.canCross = true := by
    rw [← h.crossed_eq rest] at hcarries
    exact (Mode.ensures_resolve _ _ _ _ h.resolve).2.2 hcarries
  have hoperation : e.instruction.operation.paysCrossing = !e.instruction.operation.writesCell :=
    Instruction.paysCrossing_of_canCross e.opcode hcross
  rw [hoperation, Bool.not_eq_true']

/-- The cycles of a branch. -/
theorem branchCycles_eq (h : e.Of p) (rest : List Access) : e.outcome.branchCycles =
    (if e.instruction.operation.Taken p.registers then 1 else 0) +
      (if e.instruction.operation.Taken p.registers ∧
        (p.registers.branchTarget (e.operandTraffic ++ rest)).high ≠ (p.registers.pc + 2).high then 1 else 0) := by
  have hcycles := Operation.ensures_branchCycles _ _ _ _ _ h.perform
  simp only [h.taken_resolved] at hcycles
  by_cases htaken : e.instruction.operation.Taken p.registers
  · have hmode : e.instruction.mode = .relative := by
      obtain ⟨mask, on, hcondition, -⟩ := htaken
      exact Instruction.mode_of_condition e.opcode (Option.isSome_of_eq_some hcondition)
    have hpc : e.resolved.registers.pc = p.registers.pc + 2 := by
      rw [h.pc_resolved, Instruction.length, hmode]
      rfl
    have hfinds := h.resolves.finds
    rw [hmode] at hfinds
    rw [hcycles, hpc, hfinds.branchTarget_eq]
  · simp only [hcycles, htaken, false_and, if_false]

/-- **What an instruction costs.** -/
theorem cost_eq (h : e.Of p) :
    e.cost = e.instruction.cost p.registers (e.operandTraffic ++ e.operationTraffic) := by
  rw [Execution.cost, Instruction.cost, h.branchCycles_eq e.operationTraffic, Nat.add_assoc, Nat.add_assoc]
  simp only [h.crossing_eq e.operationTraffic]
  omega

end Execution.Of

/-- **The cost of a step.** Whatever the bus answers, a step costs what its instruction costs for the registers before it
and for the bytes that were read to find its operand. It is never less than two cycles and never more than eight. -/
theorem Processor.cost_step {β : Type} [Bus β] (p : Processor) (bus : β) :
    let run := p.step.run (Monitored.mk bus #[])
    let r := p.registers
    let opcode := (Bus.read .live r.pc bus).1
    let instruction := Instruction.ofOpcode opcode
    ∃ finding moving addr,
      run.2.log.toList = .read .live r.pc opcode :: (finding ++ moving) ∧
      instruction.mode.Finds r finding addr ∧
      run.1.1 = instruction.cost r (finding ++ moving) ∧ 2 ≤ run.1.1 ∧ run.1.1 ≤ 8 := by
  intro run r opcode instruction
  let e : Execution := p.execution bus
  have he : e.Of p := p.execution_of bus
  have hrun : run = ((e.cost, ((e.result p.settled).settled)), ⟨(p.next bus).2, (e.traffic p).toArray⟩) := by
    have hmonitored : run = ((p.step.run bus).1, ⟨(p.step.run bus).2, (p.step.traffic bus).toArray⟩) :=
      p.step.run_monitored bus
    rw [hmonitored, run_step, traffic_step, next_fst]
    rfl
  refine ⟨e.operandTraffic, e.operationTraffic, e.resolved.operand.addr, ?_, he.resolves.finds, ?_, ?_⟩
  · rw [hrun]
    rfl
  · rw [hrun]
    exact he.cost_eq
  · rw [hrun]
    exact he.cost_bounds

/-- `LDA $80F5,X` goes to the next page with `X = $10`; `STA $80F5,X` does not wait for it. -/
example : (Instruction.ofOpcode 0xBD).cost { x := 0x10 } [.read .live 0x0001 0xF5, .read .live 0x0002 0x80] = 5 ∧
    (Instruction.ofOpcode 0x9D).cost { x := 0x10 } [.read .live 0x0001 0xF5, .read .live 0x0002 0x80] = 5 := by
  decide

end Nes
