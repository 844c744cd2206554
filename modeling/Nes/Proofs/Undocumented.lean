import Nes.Proofs.Costs

/-!
# Undocumented opcodes

Programs should not contain opcodes that show no name, but they do, and then the rest of the code has to stay where it is.

* All but one of these opcodes are idle: their operations do nothing (`Operation.ensures_idle`), and their modes find the
  operand, if there is one, in the bytes of the instruction (`Mode.Finds.own_bytes`). This is read off the opcode table
  (`Instruction.idle_of_mnemonic`).
* The other one subtracts, as the documented opcode beside it does (`Processor.execution_sbc`).

`Processor.undocumented_safe` says what this means for a step.
-/

namespace Nes

/-! ## Idle instructions -/

/-- Whether an operation does nothing. -/
def Operation.isIdle : Operation → Bool
  | .nop | .undefined => true
  | _ => false

/-- Whether a mode occurs in idle instructions. Their operands are in the instruction itself, or there is none. -/
def Mode.isIdle : Mode → Bool
  | .implied | .immediate | .zeroPage | .zeroPageX | .absolute | .absoluteX => true
  | _ => false

theorem Operation.name_ne_unknown {op : Operation} (h : op ≠ .undefined) : op.name ≠ "???" := by
  cases op
  case undefined => exact absurd rfl h
  all_goals decide

/-- The opcodes that show no name. -/
theorem Instruction.mnemonic_eq_unknown {i : Instruction} (h : i.mnemonic = "???") :
    i.documented = false ∨ i.operation = .undefined := by
  cases hdocumented : i.documented with
  | false => exact .inl rfl
  | true =>
    right
    apply Decidable.byContradiction
    intro hop
    rw [mnemonic, if_pos hdocumented] at h
    exact Operation.name_ne_unknown hop h

/-- The rows of the opcode table that show no name are idle, but for one. -/
theorem Instruction.idle_of_mnemonic {opcode : Byte} (h : (ofOpcode opcode).mnemonic = "???") (hne : opcode ≠ 0xEB) :
    (ofOpcode opcode).operation.isIdle = true ∧ (ofOpcode opcode).mode.isIdle = true := by
  have htable : ∀ opcode : Byte, (ofOpcode opcode).documented = false ∨ (ofOpcode opcode).operation = .undefined →
      opcode ≠ 0xEB → (ofOpcode opcode).operation.isIdle = true ∧ (ofOpcode opcode).mode.isIdle = true := by
    decide +kernel
  exact htable opcode (mnemonic_eq_unknown h) hne

/-- Nothing is done on the bus, and nothing to the registers. -/
theorem Operation.ensures_idle {op : Operation} (h : op.isIdle = true) (operand : Operand) (r : Registers) :
    (op.perform operand r).Ensures fun traffic outcome => traffic = [] ∧ outcome.registers = r := by
  cases op
  case nop | undefined => exact Transaction.ensures_done.mpr ⟨rfl, rfl⟩
  all_goals cases h

/-- An operand of an idle instruction is found in its bytes. -/
theorem Mode.Finds.own_bytes {mode : Mode} {r : Registers} {finding : List Access} {addr : Addr}
    (h : mode.Finds r finding addr) (hidle : mode.isIdle = true) : ∀ access ∈ finding,
      ∃ i < 1 + mode.operandLength, ∃ value, access = .read .live (r.pc + BitVec.ofNat 16 i) value := by
  intro access haccess
  cases h
  case implied | immediate => cases haccess
  case zeroPage b | zeroPageX b => exact ⟨1, by decide, b, List.mem_singleton.mp haccess⟩
  case absolute low high | absoluteX low high =>
    simp only [List.mem_cons, List.not_mem_nil, or_false] at haccess
    rcases haccess with rfl | rfl
    · exact ⟨1, by decide, low, rfl⟩
    · exact ⟨2, by decide, high, rfl⟩
  all_goals cases hidle

theorem Operation.timing_of_idle {op : Operation} (h : op.isIdle = true) : op.writesCell = false ∧ op.condition = none := by
  cases op
  case nop | undefined => exact ⟨rfl, rfl⟩
  all_goals cases h

/-- Of the modes of idle instructions one has an index that can carry. -/
theorem Mode.carries_of_idle {mode : Mode} (hidle : mode.isIdle = true) (hmode : mode ≠ .absoluteX) (r : Registers)
    (accesses : List Access) : mode.carries r accesses = false := by
  cases mode
  case absoluteX => exact absurd rfl hmode
  case implied | immediate | zeroPage | zeroPageX | absolute => rfl
  all_goals cases hidle

namespace Execution.Of

variable {e : Execution} {p : Processor}

/-- An idle instruction moves the program counter past itself. -/
theorem registers_idle (h : e.Of p) (hidle : e.instruction.operation.isIdle = true) :
    e.operationTraffic = [] ∧ e.registers = { p.registers with
      pc := p.registers.pc + BitVec.ofNat 16 e.instruction.length
      status := p.registers.status ||| Flag.unused } := by
  obtain ⟨htraffic, hregisters⟩ := Operation.ensures_idle hidle _ _ _ _ h.perform
  refine ⟨htraffic, ?_⟩
  rw [registers, hregisters, h.registers_resolved, h.pc_resolved]
  exact Registers.assign_assign { p.registers with pc := _ } Flag.unused true true

/-- The accesses of an idle instruction read its own bytes. -/
theorem traffic_idle (h : e.Of p) (hop : e.instruction.operation.isIdle = true)
    (hmode : e.instruction.mode.isIdle = true) :
    ∀ access ∈ e.traffic p, ∃ i < e.instruction.length, ∃ value,
      access = .read .live (p.registers.pc + BitVec.ofNat 16 i) value := by
  intro access haccess
  rw [traffic, (h.registers_idle hop).1, List.append_nil, List.mem_cons] at haccess
  rcases haccess with rfl | haccess
  · exact ⟨0, e.instruction.length_pos, e.opcode, by rw [BitVec.add_zero]⟩
  · exact h.resolves.finds.own_bytes hmode access haccess

/-- What an idle instruction costs. -/
theorem cost_idle (h : e.Of p) (hop : e.instruction.operation.isIdle = true) : e.cost = e.instruction.cycles +
    if e.instruction.mode.carries p.registers e.operandTraffic = true then 1 else 0 := by
  obtain ⟨hwrites, hcondition⟩ := Operation.timing_of_idle hop
  have htaken : ¬e.instruction.operation.Taken p.registers := by
    rintro ⟨mask, on, hsome, -⟩
    cases hcondition.symm.trans hsome
  rw [h.cost_eq, Instruction.cost, (h.registers_idle hop).1, List.append_nil]
  simp only [hwrites, htaken, false_and, if_false, and_true, Nat.add_zero]

end Execution.Of

namespace Processor

variable {β : Type} [Bus β]

/-- A step over an idle instruction, with nothing in flight before it. -/
theorem stepped_idle {p : Processor} {bus : β} (hcycles : p.cycles = 0)
    (hop : (p.execution bus).instruction.operation.isIdle = true) :
    let e := p.execution bus
    let after := { p.registers with
      pc := p.registers.pc + BitVec.ofNat 16 e.instruction.length
      status := p.registers.status ||| Flag.unused }
    p.stepped bus = { p with
      registers := after
      clockCount := p.clockCount + e.cost
      journal := p.journal.map (·.push
        (.ofRegisters p.clockCount p.registers.pc e.opcode e.instruction.mnemonic after)) } := by
  intro e after
  have hregisters : e.registers = after := ((p.execution_of bus).registers_idle hop).2
  have hclock : p.settled.clockCount = p.clockCount := congrArg (p.clockCount + ·) hcycles
  have hentry : e.entry p.settled =
      .ofRegisters p.clockCount p.registers.pc e.opcode e.instruction.mnemonic after := by
    rw [Execution.entry, hclock, hregisters]
    rfl
  rw [stepped_eq, hentry, hregisters, hcycles]
  rfl

/-- Where an index is added to an absolute address, the page that it leads to matters. -/
theorem cost_idle_absoluteX {p : Processor} {bus : β} (hop : (p.execution bus).instruction.operation.isIdle = true)
    (hmode : (p.execution bus).instruction.mode = .absoluteX) :
    let e := p.execution bus
    let low := Bus.read .live (p.registers.pc + 1) (Bus.read .live p.registers.pc bus).2
    let high := Bus.read .live (p.registers.pc + 2) low.2
    let base := Addr.ofBytes low.1 high.1
    e.operandTraffic = [.read .live (p.registers.pc + 1) low.1, .read .live (p.registers.pc + 2) high.1] ∧
      e.cost = e.instruction.cycles + if base.crosses (base + p.registers.x.setWidth 16) then 1 else 0 := by
  intro e low high base
  have hfinding : e.operandTraffic =
      [.read .live (p.registers.pc + 1) low.1, .read .live (p.registers.pc + 2) high.1] := by
    have htraffic : e.operandTraffic =
        (Mode.absoluteX.resolve (Execution.fetched p)).traffic (Bus.read .live p.registers.pc bus).2 := by
      rw [← hmode]
      rfl
    rw [htraffic]
    simp only [Mode.resolve, Transaction.pure_eq, Transaction.traffic_bind, Transaction.traffic_done, List.append_nil]
    exact (p.run_operandWord _).2
  refine ⟨hfinding, ?_⟩
  rw [(p.execution_of bus).cost_idle hop, hmode, hfinding, Addr.crosses_indexed]
  rfl

/-! ## The opcode that subtracts -/

/-- The registers when a byte of the instruction has been subtracted. -/
def difference (p : Processor) (m : Byte) : Registers :=
  let r := p.registers
  ({ r with pc := r.pc + 2, status := r.status ||| Flag.unused }.subtractWithCarry m).assign Flag.unused true

/-- The processor when an opcode has done so. -/
def subtracted (p : Processor) (opcode m : Byte) : Processor :=
  let mnemonic := (Instruction.ofOpcode opcode).mnemonic
  let entry := .ofRegisters (p.clockCount + p.cycles) p.registers.pc opcode mnemonic (p.difference m)
  ⟨p.difference m, 0, p.clockCount + p.cycles + 2, p.journal.map (·.push entry)⟩

/-- The parts of an instruction that subtracts its second byte. -/
theorem execution_sbc (p : Processor) (bus : β) {documented : Bool}
    (hopcode : Instruction.ofOpcode (Bus.read .live p.registers.pc bus).1 = ⟨.sbc, .immediate, 2, documented⟩) :
    let fetch := Bus.read .live p.registers.pc bus
    let operand := Bus.read .live (p.registers.pc + 1) fetch.2
    (p.execution bus).cost = 2 ∧ (p.execution bus).registers = p.difference operand.1 ∧
      (p.execution bus).traffic p = [.read .live p.registers.pc fetch.1, .read .live (p.registers.pc + 1) operand.1] ∧
      (p.execute.run bus).2 = operand.2 := by
  intro fetch operand
  have hpc : p.registers.pc + 1 + 1 = p.registers.pc + 2 := by bv_omega
  rw [run_execute_snd]
  simp only [execution, Execution.cost, Execution.registers, Execution.traffic, Execution.instruction, hopcode]
  refine ⟨rfl, ?_, rfl, rfl⟩
  rw [difference, ← hpc]
  rfl

/-- A step over such an instruction depends on the byte, and on nothing else that the bus answers. -/
theorem run_step_sbc (p : Processor) (bus : β) {opcode : Byte} {documented : Bool}
    (hfetch : (Bus.read .live p.registers.pc bus).1 = opcode)
    (hopcode : Instruction.ofOpcode opcode = ⟨.sbc, .immediate, 2, documented⟩) :
    let operand := Bus.read .live (p.registers.pc + 1) (Bus.read .live p.registers.pc bus).2
    p.step.run (Monitored.mk bus #[]) = ((2, p.subtracted opcode operand.1),
      ⟨operand.2, #[.read .live p.registers.pc opcode, .read .live (p.registers.pc + 1) operand.1]⟩) := by
  subst hfetch
  intro operand
  obtain ⟨hcost, hregisters, htraffic, -⟩ := p.execution_sbc bus hopcode
  obtain ⟨-, -, -, hbus⟩ := p.settled.execution_sbc bus hopcode
  have hnext : (p.next bus).2 = operand.2 := hbus
  rw [run_step_monitored, stepped_eq, Execution.entry, hcost, hregisters, htraffic, hnext]
  rfl

/-- **Undocumented opcodes are safe.** Let a step find an opcode that shows no name.

* If it is not `$EB`, and nothing is in flight, the step moves the program counter past the instruction and sets the unused
  flag; no other register or flag changes. It is an access to no bytes but those of the instruction, and these are read. It
  costs what the opcode table says, and a cycle more where an index leads from an absolute address to another page.
* `$EB` does what `$E9` does with the same operand, wherever the two are found: the processors differ in the opcode that the
  journal shows, and the accesses in the byte that was read first. -/
theorem undocumented_safe (p : Processor) (bus : β) :
    let run := p.step.run (Monitored.mk bus #[])
    let r := p.registers
    let fetch := Bus.read .live r.pc bus
    let instruction := Instruction.ofOpcode fetch.1
    (p.cycles = 0 → instruction.mnemonic = "???" → fetch.1 ≠ 0xEB →
      let after := { r with pc := r.pc + BitVec.ofNat 16 instruction.length, status := r.status ||| Flag.unused }
      run.1.2 = { p with
        registers := after
        clockCount := p.clockCount + run.1.1
        journal := p.journal.map (·.push (.ofRegisters p.clockCount r.pc fetch.1 "???" after)) } ∧
      (∀ access ∈ run.2.log, ∃ i < instruction.length, ∃ value,
        access = .read .live (r.pc + BitVec.ofNat 16 i) value) ∧
      (instruction.mode ≠ .absoluteX → run.1.1 = instruction.cycles) ∧
      (instruction.mode = .absoluteX →
        let low := Bus.read .live (r.pc + 1) fetch.2
        let high := Bus.read .live (r.pc + 2) low.2
        let base := Addr.ofBytes low.1 high.1
        run.2.log = #[.read .live r.pc fetch.1, .read .live (r.pc + 1) low.1, .read .live (r.pc + 2) high.1] ∧
        run.1.1 = instruction.cycles + if base.crosses (base + r.x.setWidth 16) then 1 else 0)) ∧
    (fetch.1 = 0xEB → ∀ (β' : Type) [Bus β'] (bus' : β'),
      let run' := p.step.run (Monitored.mk bus' #[])
      let fetch' := Bus.read .live r.pc bus'
      let operand := Bus.read .live (r.pc + 1) fetch.2
      let operand' := Bus.read .live (r.pc + 1) fetch'.2
      fetch'.1 = 0xE9 → operand'.1 = operand.1 →
        run'.1.1 = run.1.1 ∧ { run'.1.2 with journal := none } = { run.1.2 with journal := none } ∧
        (∃ entry : JournalEntry, run.1.2.journal = p.journal.map (·.push entry) ∧
          run'.1.2.journal = p.journal.map (·.push { entry with opcode := 0xE9, mnemonic := "SBC" })) ∧
        run.2 = ⟨operand.2, #[.read .live r.pc 0xEB, .read .live (r.pc + 1) operand.1]⟩ ∧
        run'.2 = ⟨operand'.2, #[.read .live r.pc 0xE9, .read .live (r.pc + 1) operand.1]⟩) := by
  intro run r fetch instruction
  constructor
  · intro hcycles hmnemonic hne after
    let e : Execution := p.execution bus
    have he : e.Of p := p.execution_of bus
    obtain ⟨hop, hmode⟩ : e.instruction.operation.isIdle = true ∧ e.instruction.mode.isIdle = true :=
      Instruction.idle_of_mnemonic hmnemonic hne
    have hrun : run = ((e.cost, p.stepped bus), ⟨(p.next bus).2, (e.traffic p).toArray⟩) := p.run_step_monitored bus
    rw [hrun, ← hmnemonic]
    refine ⟨stepped_idle hcycles hop, ?_, ?_, ?_⟩
    · intro access haccess
      exact he.traffic_idle hop hmode access (by simpa using haccess)
    · intro hmode'
      have hcarries : e.instruction.mode.carries p.registers e.operandTraffic = false :=
        Mode.carries_of_idle hmode hmode' _ _
      have hcost := he.cost_idle hop
      rw [hcarries, if_neg Bool.false_ne_true] at hcost
      exact hcost
    · intro hmode'
      obtain ⟨hfinding, hcost⟩ := cost_idle_absoluteX hop hmode'
      refine ⟨?_, hcost⟩
      rw [Execution.traffic, (he.registers_idle hop).1, hfinding]
      rfl
  · intro hopcode β' _ bus' run' fetch' operand operand' hopcode' hoperand
    have hspare : Instruction.ofOpcode 0xEB = ⟨.sbc, .immediate, 2, false⟩ := rfl
    have hnamed : Instruction.ofOpcode 0xE9 = ⟨.sbc, .immediate, 2, true⟩ := rfl
    have hrun : run = ((2, p.subtracted 0xEB operand.1),
        ⟨operand.2, #[.read .live r.pc 0xEB, .read .live (r.pc + 1) operand.1]⟩) := p.run_step_sbc bus hopcode hspare
    have hrun' : run' = ((2, p.subtracted 0xE9 operand'.1),
        ⟨operand'.2, #[.read .live r.pc 0xE9, .read .live (r.pc + 1) operand'.1]⟩) := p.run_step_sbc bus' hopcode' hnamed
    rw [hoperand] at hrun'
    rw [hrun, hrun']
    exact ⟨rfl, rfl, ⟨_, rfl, rfl⟩, rfl, rfl⟩

/-- A processor at the top of memory, where instructions go on at the bottom. -/
def sampleAtTop : Processor := { registers := { x := 0x01, pc := 0xFFFE } }

/-- The last byte of a page, and an index into the next one, for an opcode that does nothing with them. -/
def sampleIdle : FlatMemory := ((FlatMemory.filled 0xFF).poke 0xFFFE 0x1C).poke 0x0000 0x20

theorem undocumented_safe_sample :
    let idle := sampleAtTop.step.run (Monitored.mk sampleIdle #[])
    let spare := sampleAtTop.step.run (Monitored.mk (FlatMemory.filled 0xEB) #[])
    let named := sampleAtTop.step.run (Monitored.mk ((FlatMemory.filled 0xEB).poke 0xFFFE 0xE9) #[])
    (idle.1.1 = 5 ∧ idle.1.2.registers = { x := 0x01, pc := 0x0001, status := 0x20 }) ∧ named.1.1 = spare.1.1 := by
  have hidle : (Bus.read .live sampleAtTop.registers.pc sampleIdle).1 = 0x1C := by
    simp [FlatMemory.read_eq, sampleAtTop, sampleIdle, FlatMemory.peek_poke]
  have hspare : (Bus.read .live sampleAtTop.registers.pc (FlatMemory.filled 0xEB)).1 = 0xEB := by
    simp [FlatMemory.read_eq]
  have hnamed : (Bus.read .live sampleAtTop.registers.pc ((FlatMemory.filled 0xEB).poke 0xFFFE 0xE9)).1 = 0xE9 := by
    simp [FlatMemory.read_eq, sampleAtTop, FlatMemory.peek_poke]
  refine ⟨?_, ?_⟩
  · obtain ⟨hafter, -, -, hindexed⟩ := (undocumented_safe sampleAtTop sampleIdle).1 rfl (by rw [hidle]; rfl)
      (by rw [hidle]; decide)
    refine ⟨?_, ?_⟩
    · have hlow : sampleIdle.peek (sampleAtTop.registers.pc + 1) = 0xFF := by
        simp [sampleAtTop, sampleIdle, FlatMemory.peek_poke]
      have hhigh : sampleIdle.peek (sampleAtTop.registers.pc + 2) = 0x20 := by
        simp [sampleAtTop, sampleIdle, FlatMemory.peek_poke]
      rw [(hindexed (by rw [hidle]; rfl)).2, hidle]
      simp only [FlatMemory.read_eq, hlow, hhigh]
      rfl
    · rw [hafter, hidle]
      rfl
  · have hoperand : ((FlatMemory.filled 0xEB).poke 0xFFFE 0xE9).peek (sampleAtTop.registers.pc + 1) =
        (FlatMemory.filled 0xEB).peek (sampleAtTop.registers.pc + 1) := by
      simp [sampleAtTop, FlatMemory.peek_poke]
    exact ((undocumented_safe sampleAtTop (FlatMemory.filled 0xEB)).2 hspare _ _ hnamed hoperand).1

end Processor

end Nes
