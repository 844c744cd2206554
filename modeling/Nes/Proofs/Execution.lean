import Nes.Proofs.Exchange

/-!
# Executed instructions

An executed instruction has parts: the opcode, the resolved operand, the outcome of the operation, and the traffic of
the last two (`Execution`). Every end of `Processor.execute` is the end of one of them (`Processor.canEnd_execute`), so
that a fact about instructions is a fact about modes, one about operations and one about the opcode table.

A step is two loops, each of them cycles until nothing is in flight (`Processor.step_eq_loops`), and nothing else
satisfies their equations (`Processor.eq_settle_iff`, `Processor.eq_spend_iff`).

An instruction costs two cycles at least and eight at most (`Execution.Of.cost_bounds`). So a step takes the cycles in
flight and then the cost of one instruction (`Processor.run_step`), and in every cycle but the last the processor stays
busy (`Processor.run_clocks_of_next`).
-/

namespace Nes

/-! ## Shapes of operations -/

namespace Operand

variable {operand : Operand} {r : Registers} {f : Byte → Registers} {Q : List Access → Outcome → Prop}

theorem ensures_consume : (operand.consume r f).Ensures Q ↔
    (operand.fetch r).Ensures fun traffic m => Q traffic { registers := f m, paysCrossing := true } := by
  simp [consume]

theorem ensures_inspect : (operand.inspect r f).Ensures Q ↔
    (operand.fetch r).Ensures fun traffic m => Q traffic { registers := f m } := by
  simp [inspect]

theorem ensures_store {value : Byte} : (operand.store r value).Ensures Q ↔
    Q [.write operand.addr value] { registers := r } := by
  simp [store, Transaction.write]

/-- An update leaves the flags of its new byte, on top of those that computing the byte left. -/
theorem ensures_update {P : Outcome → Prop} {f : Registers → Byte → Shifted}
    (ha : ∀ v, P { registers := (f r v).registers.setA (f r v).value })
    (hm : ∀ v, P { registers := (f r v).registers.setZN (f r v).value }) :
    (operand.update r f).Ensures fun _ => P := by
  cases operand with
  | implied => simpa [update] using ha r.a
  | address addr => simpa [update, Transaction.read, Transaction.write] using hm
  | relative addr => simpa [update, Transaction.read, Transaction.write] using hm

/-- A branch moves the program counter and nothing else. -/
theorem ensures_branch {P : Outcome → Prop} {mask : Byte} {on : Bool}
    (htaken : ∀ n, n ≤ 2 → P { registers := { r with pc := operand.addr }, branchCycles := n })
    (hpassed : P { registers := r }) : (operand.branch r mask on).Ensures fun _ => P := by
  unfold branch
  split
  · rw [Transaction.pure_eq, Transaction.ensures_done]
    apply htaken
    split <;> omega
  · rw [Transaction.pure_eq, Transaction.ensures_done]
    exact hpassed

end Operand

namespace Registers

variable {r : Registers}

theorem ensures_push {value : Byte} {Q : List Access → Registers → Prop} : (r.push value).Ensures Q ↔
    Q [.write (.stackPage r.sp) value] { r with sp := r.sp - 1 } := by
  simp [push, Transaction.write]

theorem ensures_pop {Q : List Access → Byte × Registers → Prop} : r.pop.Ensures Q ↔
    ∀ value, Q [.read .live (.stackPage (r.sp + 1)) value] (value, { r with sp := r.sp + 1 }) := by
  simp [pop, Transaction.read]

theorem ensures_pushWord {value : Addr} {Q : List Access → Registers → Prop} : (r.pushWord value).Ensures Q ↔
    Q [.write (.stackPage r.sp) value.high, .write (.stackPage (r.sp - 1)) value.low]
      { r with sp := r.sp - 1 - 1 } := by
  simp [pushWord, ensures_push]

theorem ensures_popWord {Q : List Access → Addr × Registers → Prop} : r.popWord.Ensures Q ↔
    ∀ low high, Q [.read .live (.stackPage (r.sp + 1)) low, .read .live (.stackPage (r.sp + 1 + 1)) high]
      (.ofBytes low high, { r with sp := r.sp + 1 + 1 }) := by
  simp [popWord, ensures_pop]

/-- The traffic of entering a handler: the program counter and the status go on the stack, the vector is read. -/
def entryTraffic (r : Registers) (vector : Addr) (brk : Bool) (low high : Byte) : List Access :=
  [.write (.stackPage r.sp) r.pc.high, .write (.stackPage (r.sp - 1)) r.pc.low,
    .write (.stackPage (r.sp - 1 - 1)) (r.pushedStatus brk), .read .live vector low, .read .live (vector + 1) high]

/-- The registers in a handler whose address was read. -/
def entered (r : Registers) (low high : Byte) : Registers :=
  { r.assign Flag.irqDisable true with sp := r.sp - 1 - 1 - 1, pc := .ofBytes low high }

theorem ensures_enterHandler {vector : Addr} {brk : Bool} {Q : List Access → Registers → Prop} :
    (r.enterHandler vector brk).Ensures Q ↔
      ∀ low high, Q (r.entryTraffic vector brk low high) (r.entered low high) := by
  simp [enterHandler, entryTraffic, entered, ensures_pushWord, ensures_push, Transaction.readWord, Transaction.read,
    assign, pushedStatus]

end Registers

/-! ## The timing of modes and operations -/

/-- Whether indexing can leave the page of the base address. -/
def Mode.canCross : Mode → Bool
  | .absoluteX | .absoluteY | .indirectIndexed => true
  | _ => false

/-- Whether one more cycle is due if indexing left the page. -/
def Operation.paysCrossing : Operation → Bool
  | .lda | .ldx | .ldy | .adc | .sbc | .and | .ora | .eor | .cmp | .nop => true
  | _ => false

/-- Whether the operation is a conditional branch. -/
def Operation.isBranch : Operation → Bool
  | .bcc | .bcs | .bne | .beq | .bpl | .bmi | .bvc | .bvs => true
  | _ => false

/-- Finding an operand writes nothing and moves no register but the program counter. -/
theorem Mode.ensures_resolve (mode : Mode) (r : Registers) : (mode.resolve r).Ensures fun traffic resolved =>
    Access.writes traffic = [] ∧ resolved.registers = { r with pc := resolved.registers.pc } ∧
      (resolved.crossed = true → mode.canCross = true) := by
  cases mode <;>
    simp [Mode.resolve, Mode.canCross, Registers.fetch, Registers.fetchWord, readPointer, Transaction.read,
      Resolved.indexed]

/-- What an operation pays is known from the operation, but for branches. -/
theorem Operation.ensures_timing (op : Operation) (operand : Operand) (r : Registers) :
    (op.perform operand r).Ensures fun _ outcome =>
      outcome.paysCrossing = op.paysCrossing ∧ outcome.branchCycles ≤ if op.isBranch then 2 else 0 := by
  have hupdate (f : Registers → Byte → Shifted) : (operand.update r f).Ensures fun _ outcome =>
      outcome.paysCrossing = false ∧ outcome.branchCycles = 0 :=
    Operand.ensures_update (fun _ => ⟨rfl, rfl⟩) (fun _ => ⟨rfl, rfl⟩)
  have hbranch (mask : Byte) (on : Bool) : (operand.branch r mask on).Ensures fun _ outcome =>
      outcome.paysCrossing = false ∧ outcome.branchCycles ≤ 2 :=
    Operand.ensures_branch (fun _ hn => ⟨rfl, hn⟩) ⟨rfl, Nat.zero_le 2⟩
  cases op <;>
    simp [perform, paysCrossing, isBranch, hupdate, hbranch, Operand.ensures_consume, Operand.ensures_inspect,
      Operand.ensures_store, Registers.finish]

/-- Every row of the opcode table leaves room for its penalties. -/
theorem Instruction.cycles_bounds (opcode : Byte) :
    2 ≤ (ofOpcode opcode).cycles ∧
      (ofOpcode opcode).cycles +
          (if (ofOpcode opcode).mode.canCross && (ofOpcode opcode).operation.paysCrossing then 1 else 0) +
          (if (ofOpcode opcode).operation.isBranch then 2 else 0) ≤ 8 := by
  revert opcode
  decide +kernel

/-! ## The parts of an instruction -/

/-- The parts of one executed instruction. -/
structure Execution where
  opcode : Byte
  resolved : Resolved
  outcome : Outcome
  /-- The accesses that found the operand, the opcode's own apart. -/
  operandTraffic : List Access
  /-- The accesses of the operation. -/
  operationTraffic : List Access

namespace Execution

def instruction (e : Execution) : Instruction := .ofOpcode e.opcode

/-- The base cost and the penalties. -/
def cost (e : Execution) : Nat :=
  e.instruction.cycles + (if e.resolved.crossed && e.outcome.paysCrossing then 1 else 0) + e.outcome.branchCycles

/-- The registers that the instruction leaves. -/
def registers (e : Execution) : Registers := e.outcome.registers.assign Flag.unused true

/-- What a processor records of the instruction. -/
def entry (e : Execution) (p : Processor) : JournalEntry :=
  .ofRegisters p.clockCount p.registers.pc e.opcode e.instruction.mnemonic e.registers

/-- The processor after the instruction. -/
def result (e : Execution) (p : Processor) : Processor :=
  { p with registers := e.registers, cycles := e.cost, journal := p.journal.map (·.push (e.entry p)) }

/-- All accesses of the instruction. -/
def traffic (e : Execution) (p : Processor) : List Access :=
  .read .live p.registers.pc e.opcode :: (e.operandTraffic ++ e.operationTraffic)

/-- The registers of a processor past its opcode. -/
def fetched (p : Processor) : Registers := { p.registers with pc := p.registers.pc + 1 }.assign Flag.unused true

/-- The parts fit together, for an instruction of the given processor. -/
structure Of (e : Execution) (p : Processor) : Prop where
  resolve : (e.instruction.mode.resolve (fetched p)).CanEnd e.operandTraffic e.resolved
  perform : (e.instruction.operation.perform e.resolved.operand e.resolved.registers).CanEnd e.operationTraffic
    e.outcome

variable {e : Execution} {p : Processor}

theorem Of.writes_operandTraffic (h : e.Of p) : Access.writes e.operandTraffic = [] :=
  (Mode.ensures_resolve _ _ _ _ h.resolve).1

/-- The operation finds the registers as they were, with the program counter past the operand. -/
theorem Of.registers_resolved (h : e.Of p) :
    e.resolved.registers = { fetched p with pc := e.resolved.registers.pc } :=
  (Mode.ensures_resolve _ _ _ _ h.resolve).2.1

/-- **An instruction costs two cycles at least and eight at most.** -/
theorem Of.cost_bounds (h : e.Of p) : 2 ≤ e.cost ∧ e.cost ≤ 8 := by
  have hcross := (Mode.ensures_resolve _ _ _ _ h.resolve).2.2
  obtain ⟨hpays, hbranch⟩ := Operation.ensures_timing _ _ _ _ _ h.perform
  obtain ⟨hlow, hhigh⟩ := Instruction.cycles_bounds e.opcode
  have hpenalty : (if e.resolved.crossed && e.outcome.paysCrossing then 1 else 0) ≤
      (if e.instruction.mode.canCross && e.instruction.operation.paysCrossing then 1 else 0) := by
    rw [hpays]
    cases hc : e.resolved.crossed with
    | false => simp
    | true => simp [hcross hc]
  unfold cost
  unfold instruction at *
  omega

end Execution

/-- Every end of an instruction is the end of its parts. -/
theorem Processor.canEnd_execute {p q : Processor} {traffic : List Access} (h : p.execute.CanEnd traffic q) :
    ∃ e : Execution, e.Of p ∧ traffic = e.traffic p ∧ q = e.result p := by
  have hexecute : p.execute.Ensures fun traffic q =>
      ∃ e : Execution, e.Of p ∧ traffic = e.traffic p ∧ q = e.result p := by
    simp only [execute, Registers.fetch, Transaction.read, Transaction.reading_bind, Transaction.done_bind,
      Transaction.pure_eq, Transaction.ensures_reading, Transaction.ensures_bind, Transaction.ensures_done,
      List.append_nil]
    intro opcode first resolved hresolve second outcome hperform
    exact ⟨⟨opcode, resolved, outcome, first, second⟩, ⟨hresolve, hperform⟩, rfl, rfl⟩
  exact hexecute _ _ h

/-! ## Cycles -/

namespace Processor

variable {p : Processor}

/-- Fetching an instruction is not a cycle yet, but it puts some in flight. -/
theorem ensures_execute (p : Processor) : p.execute.Ensures fun _ q =>
    2 ≤ q.cycles ∧ q.cycles ≤ 8 ∧ q.clockCount = p.clockCount := by
  intro traffic q h
  obtain ⟨e, he, -, rfl⟩ := canEnd_execute h
  obtain ⟨hlow, hhigh⟩ := he.cost_bounds
  exact ⟨hlow, hhigh, rfl⟩

/-- The processor after some of the cycles in flight. -/
def elapse (p : Processor) (n : Nat) : Processor :=
  { p with cycles := p.cycles - n, clockCount := p.clockCount + n }

/-- The processor when what is in flight has ended. -/
def settled (p : Processor) : Processor := p.elapse p.cycles

theorem elapse_tick (p : Processor) (n : Nat) : p.tick.elapse n = p.elapse (n + 1) := by
  have hcycles : p.cycles - 1 - n = p.cycles - (n + 1) := by omega
  have hclock : p.clockCount + 1 + n = p.clockCount + (n + 1) := by omega
  simp only [elapse, tick, hcycles, hclock]

theorem complete_settled (p : Processor) : p.settled.complete = true := by
  simp [settled, elapse, complete]

theorem clock_of_busy (h : 0 < p.cycles) : p.clock = .done p.tick := by
  have hbusy : p.complete = false := by simpa [complete] using Nat.ne_of_gt h
  simp [clock, hbusy]

theorem clock_of_complete (h : p.complete = true) : p.clock = p.execute >>= fun q => .done q.tick := by
  simp [clock, h]

/-- While something is in flight the cycles pass without an access. -/
theorem clocks_of_le {n : Nat} (h : n ≤ p.cycles) : p.clocks n = .done (p.elapse n) := by
  induction n generalizing p with
  | zero => rfl
  | succ n ih =>
    have hrest : n ≤ p.tick.cycles := Nat.le_sub_of_add_le h
    rw [clocks, clock_of_busy (by omega), Transaction.done_bind, ih hrest, elapse_tick]

theorem clocks_add (p : Processor) (m n : Nat) : p.clocks (m + n) = p.clocks m >>= (·.clocks n) := by
  induction m generalizing p with
  | zero => simp [clocks]
  | succ m ih => simp [Nat.succ_add, clocks, ih]

theorem clocks_succ (p : Processor) (n : Nat) : p.clocks (n + 1) = p.clocks n >>= (·.clock) := by
  have hone (q : Processor) : q.clocks 1 = q.clock := Transaction.bind_done _
  simp only [clocks_add, hone]

/-! ## The loops of a step -/

/-- The cycles in flight. -/
def settle (p : Processor) : Transaction Processor := p.clocks p.cycles

/-- A cycle and those that it puts in flight, counted on from `spent`. -/
def spend (spent : Nat) (p : Processor) : Transaction (Nat × Processor) := do
  let q ← p.clock
  let r ← q.settle
  return (spent + q.cycles + 1, r)

theorem settle_eq (p : Processor) : p.settle = .done p.settled := clocks_of_le (Nat.le_refl _)

theorem settled_of_complete (h : p.complete = true) : p.settled = p := by
  have hcycles : p.cycles = 0 := beq_iff_eq.mp h
  simp only [settled, elapse, hcycles, Nat.sub_zero, Nat.add_zero]
  rw [← hcycles]

theorem settled_tick (h : 0 < p.cycles) : p.tick.settled = p.settled := by
  have hcycles : p.tick.cycles + 1 = p.cycles := Nat.sub_add_cancel h
  rw [settled, elapse_tick, hcycles, settled]

theorem cycles_pos_of_busy (h : p.complete = false) : 0 < p.cycles := Nat.pos_of_ne_zero (beq_eq_false_iff_ne.mp h)

/-- A cycle of a busy processor leaves one cycle less in flight. -/
theorem cycles_tick_lt (h : p.complete = false) : p.tick.cycles < p.cycles :=
  Nat.sub_lt (cycles_pos_of_busy h) Nat.one_pos

/-- The cycles in flight unfold one by one. -/
theorem settle_unfold (p : Processor) : p.settle = if p.complete then return p else p.clock >>= settle := by
  cases h : p.complete with
  | true =>
    rw [settle_eq, settled_of_complete h]
    rfl
  | false =>
    have hpos := cycles_pos_of_busy h
    rw [settle_eq, clock_of_busy hpos, if_neg Bool.false_ne_true, Transaction.done_bind, settle_eq, settled_tick hpos]

theorem spend_eq (spent : Nat) (p : Processor) :
    spend spent p = p.clock >>= fun q => .done (spent + q.cycles + 1, q.settled) := by
  simp only [spend, settle_eq, Transaction.done_bind, Transaction.pure_eq]

theorem spend_of_busy (spent : Nat) (h : 0 < p.cycles) : spend spent p = .done (spent + p.cycles, p.settled) := by
  have hcount : spent + p.tick.cycles + 1 = spent + p.cycles := congrArg (spent + ·) (Nat.sub_add_cancel h)
  rw [spend_eq, clock_of_busy h, Transaction.done_bind, hcount, settled_tick h]

/-- The cycles of an instruction unfold one by one; the last of them leaves nothing in flight. -/
theorem spend_unfold (spent : Nat) (p : Processor) :
    spend spent p = p.clock >>= fun q => if q.complete then return (spent + 1, q) else spend (spent + 1) q := by
  rw [spend_eq]
  refine congrArg (p.clock >>= ·) (funext fun q => ?_)
  cases h : q.complete with
  | true =>
    have hcycles : q.cycles = 0 := beq_iff_eq.mp h
    rw [settled_of_complete h, hcycles]
    rfl
  | false =>
    rw [if_neg Bool.false_ne_true, spend_of_busy _ (cycles_pos_of_busy h), Nat.add_right_comm]

/-- **The first loop**: a cycle as long as something is in flight. Nothing else satisfies its equation. -/
theorem eq_settle_iff (loop : Processor → Transaction Processor) :
    loop = settle ↔ ∀ p, loop p = if p.complete then return p else p.clock >>= loop := by
  constructor
  · rintro rfl
    exact settle_unfold
  · intro h
    funext p
    -- on the cycles in flight, which are fewer after each round
    induction hn : p.cycles using Nat.strongRecOn generalizing p with
    | ind n ih =>
      rw [h, settle_unfold]
      cases hp : p.complete with
      | true => rfl
      | false =>
        have hless : p.tick.cycles < n := hn ▸ cycles_tick_lt hp
        rw [clock_of_busy (cycles_pos_of_busy hp), Transaction.done_bind, Transaction.done_bind, ih _ hless p.tick rfl]

/-- **The second loop**: a cycle and, as long as something is in flight, another one. Nothing else satisfies its
equation. -/
theorem eq_spend_iff (loop : Nat → Processor → Transaction (Nat × Processor)) :
    loop = spend ↔ ∀ spent p, loop spent p =
      p.clock >>= fun q => if q.complete then return (spent + 1, q) else loop (spent + 1) q := by
  constructor
  · rintro rfl
    exact spend_unfold
  · intro h
    -- after a cycle both go on alike, by the cycles that it left in flight
    have hrest (spent : Nat) (q : Processor) :
        (if q.complete then return (spent + 1, q) else loop (spent + 1) q : Transaction (Nat × Processor)) =
          if q.complete then return (spent + 1, q) else spend (spent + 1) q := by
      induction hn : q.cycles using Nat.strongRecOn generalizing spent q with
      | ind n ih =>
        cases hq : q.complete with
        | true => rfl
        | false =>
          have hless : q.tick.cycles < n := hn ▸ cycles_tick_lt hq
          rw [if_neg Bool.false_ne_true, if_neg Bool.false_ne_true, h, spend_unfold,
            clock_of_busy (cycles_pos_of_busy hq), Transaction.done_bind, Transaction.done_bind,
            ih _ hless (spent + 1) q.tick rfl]
    funext spent p
    rw [h, spend_unfold]
    exact congrArg (p.clock >>= ·) (funext (hrest spent))

/-- **A step is the two loops**, the second one counted from 0. -/
theorem step_eq_loops (p : Processor) : p.step = p.settle >>= spend 0 := by
  have hspend (q : Processor) : spend 0 q = do
      let r ← q.clock
      let settled ← r.settle
      return (r.cycles + 1, settled) := by
    simp only [spend, Nat.zero_add]
  rw [funext hspend]
  rfl

section Run

variable {β : Type} [Bus β]

/-- Every cycle is counted, also one that fetches. -/
theorem clockCount_run_clock (p : Processor) (bus : β) : (p.clock.run bus).1.clockCount = p.clockCount + 1 := by
  cases h : p.complete with
  | true =>
    rw [clock_of_complete h, Transaction.run_bind]
    exact congrArg (· + 1) (p.ensures_execute.run bus).2.2
  | false =>
    rw [clock_of_busy (cycles_pos_of_busy h)]
    rfl

/-- The instruction that a step carries out, with the bus after it. -/
def next (p : Processor) (bus : β) : Processor × β := p.settled.execute.run bus

theorem cycles_next (p : Processor) (bus : β) : 2 ≤ (p.next bus).1.cycles ∧ (p.next bus).1.cycles ≤ 8 :=
  have h := p.settled.ensures_execute.run bus
  ⟨h.1, h.2.1⟩

theorem cycles_next_pos (p : Processor) (bus : β) : 0 < (p.next bus).1.cycles :=
  Nat.lt_of_lt_of_le Nat.two_pos (p.cycles_next bus).1

theorem clockCount_next (p : Processor) (bus : β) : (p.next bus).1.clockCount = p.clockCount + p.cycles :=
  (p.settled.ensures_execute.run bus).2.2

/-- The cycles in flight pass; the next one does what the instruction does, and its own cycles pass. -/
theorem run_clocks_of_next (p : Processor) (bus : β) {n : Nat} (hpos : 0 < n) (hn : n ≤ (p.next bus).1.cycles) :
    (p.clocks (p.cycles + n)).run bus = ((p.next bus).1.elapse n, (p.next bus).2) := by
  obtain ⟨k, rfl⟩ : ∃ k, n = k + 1 := ⟨n - 1, by omega⟩
  have hsettled : p.clocks p.cycles = .done p.settled := p.settle_eq
  have hrest : k ≤ (p.next bus).1.tick.cycles := Nat.le_sub_of_add_le hn
  have hnext : p.settled.execute.run bus = p.next bus := rfl
  rw [clocks_add, hsettled, Transaction.done_bind, clocks, clock_of_complete p.complete_settled]
  simp only [Transaction.run_bind, Transaction.run_done, hnext, clocks_of_le hrest, elapse_tick]

/-- **A step is the cycles in flight and those of one instruction**, which are its cost. -/
theorem run_step (p : Processor) (bus : β) :
    p.step.run bus = (((p.next bus).1.cycles, (p.next bus).1.settled), (p.next bus).2) := by
  have hpos := p.cycles_next_pos bus
  have hcost : 0 + (p.next bus).1.tick.cycles + 1 = (p.next bus).1.cycles := by
    rw [Nat.zero_add]
    exact Nat.sub_add_cancel hpos
  have hnext : p.settled.execute.run bus = p.next bus := rfl
  rw [step_eq_loops, settle_eq, Transaction.done_bind, spend_eq, clock_of_complete p.complete_settled]
  simp only [Transaction.run_bind, Transaction.run_done, hnext, settled_tick hpos, hcost]

end Run

end Processor

end Nes
