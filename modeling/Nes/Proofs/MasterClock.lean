import Nes.Proofs.Cells
import Nes.Proofs.Execution
import Nes.Console.Basic

/-!
# The master clock

Of three ticks the processor has one, its turn. Any number of ticks are the processor's cycles in those of them that are
its turns (`Console.ticks_eq`): the other ticks move nothing but the count of the register block, and no exchange looks
at that count or changes it (`MemoryMap.run_dated`).

The loops of `Console.step` are ticks through a number of turns (`Console.settle_eq`, `Console.toNextTurn_eq`), and to
wait for the processor's turn is to wait for its clock to move (`Console.until_clocked_iff`). The first turn to come
takes up to two ticks of waiting and every further one takes three (`Console.ticksFor`). So a step of the console is a
step of its processor (`Console.step_refines`).
-/

namespace Nes

/-! ## The count of the register block -/

namespace MemoryMap

variable {α : Type}

/-- The memory map with another count of ticks. -/
def dated (m : MemoryMap RegisterBlock) (ticks : Nat) : MemoryMap RegisterBlock :=
  { m with device := { m.device with ticks } }

theorem answer_dated (m : MemoryMap RegisterBlock) (ticks : Nat) (mode : ReadMode) (addr : Addr) :
    (m.dated ticks).answer mode addr = ((m.answer mode addr).1, (m.answer mode addr).2.dated ticks) := by
  have hslot : (m.dated ticks).cartridge = m.cartridge := rfl
  unfold answer
  rw [hslot]
  cases m.cartridge.bind (·.read addr) with
  | some value => rfl
  | none =>
    by_cases h2 : addr < 0x2000
    · simp only [if_pos h2]
      rfl
    by_cases h4 : addr < 0x4000
    · simp only [if_neg h2, if_pos h4]
      rfl
    · simp only [if_neg h2, if_neg h4]

theorem read_dated (m : MemoryMap RegisterBlock) (ticks : Nat) (mode : ReadMode) (addr : Addr) :
    Bus.read mode addr (m.dated ticks) = ((Bus.read mode addr m).1, (Bus.read mode addr m).2.dated ticks) := by
  show read mode addr (m.dated ticks) = ((read mode addr m).1, (read mode addr m).2.dated ticks)
  unfold read
  rw [answer_dated]
  rcases m.answer mode addr with ⟨_ | value, m'⟩ <;> cases mode <;> rfl

theorem write_dated (m : MemoryMap RegisterBlock) (ticks : Nat) (addr : Addr) (value : Byte) :
    Bus.write addr value (m.dated ticks) = (Bus.write addr value m).dated ticks := by
  rw [write_eq, write_eq]
  by_cases h : 0x2000 ≤ addr.toNat ∧ addr.toNat < 0x4000
  · simp only [if_pos h]
    rfl
  · simp only [if_neg h]
    rfl

/-- **No exchange depends on the count**, nor changes it. -/
theorem run_dated (t : Transaction α) (m : MemoryMap RegisterBlock) (ticks : Nat) :
    t.run (m.dated ticks) = ((t.run m).1, (t.run m).2.dated ticks) := by
  induction t generalizing m with
  | done a => rfl
  | reading mode addr next ih => simp only [Transaction.run_reading, read_dated, ih]
  | writing addr value next ih => simp only [Transaction.run_writing, write_dated, ih]

theorem ticks_run (t : Transaction α) (m : MemoryMap RegisterBlock) : (t.run m).2.device.ticks = m.device.ticks := by
  have hrun := run_dated t m m.device.ticks
  have hsame : m.dated m.device.ticks = m := rfl
  rw [hsame] at hrun
  rw [hrun]
  rfl

end MemoryMap

namespace Console

/-! ## Ticks and turns -/

section Ticks

variable {δ : Type}

/-- The turns of the processor that the next ticks hold. The first tick after a reset is one. -/
def turns (c : Console δ) (n : Nat) : Nat := (c.clock + n + 2) / 3 - (c.clock + 2) / 3

/-- The ticks through a number of turns. -/
def ticksFor (c : Console δ) (turns : Nat) : Nat := if turns = 0 then 0 else c.wait + 3 * (turns - 1) + 1

theorem turns_ticksFor (c : Console δ) (k : Nat) : c.turns (c.ticksFor k) = k := by
  simp only [turns, ticksFor, wait]
  split <;> omega

variable [Device δ]

theorem ticks_add (c : Console δ) (m n : Nat) : c.ticks (m + n) = (c.ticks m).ticks n := by
  induction m generalizing c with
  | zero => rw [Nat.zero_add, ticks]
  | succ m ih => rw [Nat.succ_add, ticks, ih, ticks]

theorem ticks_succ (c : Console δ) (n : Nat) : c.ticks (n + 1) = (c.ticks n).tick := c.ticks_add n 1

@[simp] theorem clock_ticks (c : Console δ) (n : Nat) : (c.ticks n).clock = c.clock + n := by
  induction n with
  | zero => rfl
  | succ n ih => rw [ticks_succ, clock_tick, ih, Nat.add_assoc]

theorem turns_succ (c : Console δ) (n : Nat) :
    c.turns (n + 1) = c.turns n + if (c.ticks n).isProcessorTick then 1 else 0 := by
  simp only [turns, isProcessorTick, clock_ticks, beq_iff_eq]
  split <;> omega

theorem ticksFor_add (c : Console δ) (j k : Nat) :
    c.ticksFor (j + k) = c.ticksFor j + (c.ticks (c.ticksFor j)).ticksFor k := by
  simp only [ticksFor, wait, clock_ticks]
  split <;> split <;> split <;> omega

/-- The ticks through some turns are one tick and the ticks through what is left of them. -/
theorem ticksFor_tick (c : Console δ) {k : Nat} (hk : 0 < k) :
    c.ticksFor k = 1 + c.tick.ticksFor (if c.isProcessorTick then k - 1 else k) := by
  simp only [ticksFor, wait, clock_tick, isProcessorTick, beq_iff_eq, Nat.ne_of_gt hk, if_false]
  by_cases hturn : c.clock % 3 = 0
  · simp only [if_pos hturn]
    split <;> omega
  · simp only [if_neg hturn, Nat.ne_of_gt hk, if_false]
    omega

end Ticks

/-! ## The loops -/

section Loops

variable {δ : Type} [Device δ]

/-- One tick of a busy processor: in its turn it counts one cycle down. -/
theorem cycles_tick (c : Console δ) (hp : c.processor.complete = false) :
    c.tick.processor.cycles = if c.isProcessorTick then c.processor.cycles - 1 else c.processor.cycles := by
  cases h : c.isProcessorTick with
  | false => rw [c.processor_tick_of_not_turn h]; rfl
  | true => rw [c.processor_tick_of_turn h hp]; rfl

/-- What is in flight takes as many turns as it has cycles. -/
theorem settle_eq (c : Console δ) : c.settle = c.ticks (c.ticksFor c.processor.cycles) := by
  fun_induction settle c with
  | case1 c hp =>
    have hcycles : c.processor.cycles = 0 := by simpa [Processor.complete] using hp
    rw [hcycles]
    rfl
  | case2 c hp ih =>
    simp only [Bool.not_eq_true] at hp
    have hpos : 0 < c.processor.cycles := by
      simpa [Processor.complete, Nat.pos_iff_ne_zero] using hp
    rw [ih, cycles_tick c hp, ticksFor_tick c hpos, ticks_add]
    rfl

/-- The processor's clock counts its turns. -/
theorem clockCount_tick (c : Console δ) :
    c.tick.processor.clockCount = c.processor.clockCount + if c.isProcessorTick then 1 else 0 := by
  cases h : c.isProcessorTick with
  | false =>
    rw [c.processor_tick_of_not_turn h]
    rfl
  | true =>
    simp only [tick, h, if_true, drive]
    exact c.processor.clockCount_run_clock _

/-- **Up to the next turn and through it is a loop on the processor's clock**: a tick as long as the clock shows what it
showed when the loop started. Nothing else satisfies the equation of the loop. -/
theorem until_clocked_iff (started : Nat) (loop : Console δ → Console δ) :
    (∀ c, loop c = if c.processor.clockCount = started then loop c.tick else c) ↔
      ∀ c, loop c = if c.processor.clockCount = started then c.toNextTurn else c := by
  constructor
  · intro h c
    by_cases hc : c.processor.clockCount = started
    · rw [if_pos hc]
      fun_induction toNextTurn c with
      | case1 c hturn =>
        have hmoved : c.tick.processor.clockCount ≠ started := by
          rw [clockCount_tick, if_pos hturn, hc]
          exact Nat.succ_ne_self started
        rw [h c, if_pos hc, h c.tick, if_neg hmoved]
      | case2 c hturn ih =>
        have hsame : c.tick.processor.clockCount = started := by rw [clockCount_tick, if_neg hturn, Nat.add_zero, hc]
        rw [h c, if_pos hc, ih hsame]
    · rw [h c, if_neg hc, if_neg hc]
  · intro h c
    rw [h c, h c.tick, clockCount_tick, toNextTurn]
    by_cases hc : c.processor.clockCount = started
    · by_cases hturn : c.isProcessorTick = true
      · simp [hc, hturn]
      · simp [hc, hturn]
    · rw [if_neg hc, if_neg hc]

theorem toNextTurn_eq (c : Console δ) : c.toNextTurn = c.ticks (c.ticksFor 1) := by
  fun_induction toNextTurn c with
  | case1 c h =>
    rw [ticksFor_tick c Nat.one_pos, if_pos h]
    rfl
  | case2 c h ih =>
    rw [ih, ticksFor_tick c Nat.one_pos, if_neg h, ticks_add]
    rfl

end Loops

/-! ## Ticks are cycles of the processor -/

/-- A console with its processor and memory map elsewhere, a number of ticks later. -/
def advanced (c : Console RegisterBlock) (alone : Processor × MemoryMap RegisterBlock) (n : Nat) :
    Console RegisterBlock :=
  { processor := alone.1, memory := alone.2.dated (c.memory.device.ticks + n), clock := c.clock + n }

/-- Between its turns the processor and its memory stay as they are. -/
theorem tick_of_not_turn {c : Console RegisterBlock} (h : c.isProcessorTick = false) :
    c.tick = c.advanced (c.processor, c.memory) 1 := by
  simp only [tick, h]
  rfl

/-- In its turn the processor has a cycle, which does not see that the register block has counted. -/
theorem tick_of_turn {c : Console RegisterBlock} (h : c.isProcessorTick = true) :
    c.tick = c.advanced (c.processor.clock.run c.memory) 1 := by
  have hrun := MemoryMap.run_dated c.processor.clock c.memory (c.memory.device.ticks + 1)
  have hticked : { c.memory with device := Device.tick c.memory.device } =
      c.memory.dated (c.memory.device.ticks + 1) := rfl
  simp only [tick, h, drive, hticked, hrun]
  rfl

/-- One tick more is one cycle more, if it is the processor's turn. -/
theorem tick_advanced (c : Console RegisterBlock) (k n : Nat) :
    let now := c.advanced ((c.processor.clocks k).run c.memory) n
    now.tick =
      c.advanced ((c.processor.clocks (k + if now.isProcessorTick then 1 else 0)).run c.memory) (n + 1) := by
  intro now
  cases h : now.isProcessorTick with
  | false =>
    rw [tick_of_not_turn h]
    rfl
  | true =>
    have hclocks : (c.processor.clocks (k + 1)).run c.memory =
        now.processor.clock.run ((c.processor.clocks k).run c.memory).2 := by
      rw [Processor.clocks_succ, Transaction.run_bind]
      rfl
    have hmemory : now.memory = ((c.processor.clocks k).run c.memory).2.dated (c.memory.device.ticks + n) := rfl
    rw [tick_of_turn h, if_pos rfl, hclocks, hmemory, MemoryMap.run_dated]
    rfl

/-- **Ticks are the processor's cycles**, in those of them that are its turns. -/
theorem ticks_eq (c : Console RegisterBlock) (n : Nat) :
    c.ticks n = c.advanced ((c.processor.clocks (c.turns n)).run c.memory) n := by
  induction n with
  | zero =>
    have hturns : c.turns 0 = 0 := Nat.sub_self _
    rw [hturns]
    rfl
  | succ n ih => rw [ticks_succ, turns_succ, ih, tick_advanced]

/-- The ticks through a number of turns are that number of cycles. -/
theorem ticks_ticksFor (c : Console RegisterBlock) (k : Nat) :
    c.ticks (c.ticksFor k) = c.advanced ((c.processor.clocks k).run c.memory) (c.ticksFor k) := by
  rw [ticks_eq, turns_ticksFor]

/-! ## Steps -/

/-- The ticks that a step takes: through the turns of what is in flight, and of the instruction after it. -/
def stepTicks (c : Console RegisterBlock) : Nat :=
  c.ticksFor (c.processor.cycles + (c.processor.next c.memory).1.cycles)

/-- The processor's next instruction is fetched in the turn after what is in flight has ended. -/
theorem processor_ticks_of_next (c : Console RegisterBlock) {n : Nat} (hpos : 0 < n)
    (hn : n ≤ (c.processor.next c.memory).1.cycles) :
    (c.ticks (c.ticksFor (c.processor.cycles + n))).processor = (c.processor.next c.memory).1.elapse n := by
  rw [ticks_ticksFor, Processor.run_clocks_of_next _ _ hpos hn]
  rfl

/-- The three loops of a step, one after the other. -/
theorem step_loops (c : Console RegisterBlock) : c.settle.toNextTurn.settle = c.ticks c.stepTicks := by
  have hpos := c.processor.cycles_next_pos c.memory
  have hfetch : c.settle.toNextTurn = c.ticks (c.ticksFor (c.processor.cycles + 1)) := by
    rw [toNextTurn_eq, settle_eq, ticksFor_add, ticks_add]
  have hrest : c.settle.toNextTurn.processor.cycles = (c.processor.next c.memory).1.cycles - 1 := by
    rw [hfetch, processor_ticks_of_next c Nat.one_pos hpos]
    rfl
  have htotal : c.processor.cycles + 1 + ((c.processor.next c.memory).1.cycles - 1) =
      c.processor.cycles + (c.processor.next c.memory).1.cycles := by omega
  rw [settle_eq, hrest, hfetch, ← ticks_add, ← ticksFor_add, htotal, stepTicks]

/-- A step of the console in one piece. Its answer is what the processor's clock says. -/
theorem step_eq (c : Console RegisterBlock) :
    c.step = ((c.processor.next c.memory).1.cycles, c.ticks c.stepTicks) := by
  have hpos := c.processor.cycles_next_pos c.memory
  have hstarted : c.settle.processor.clockCount = c.processor.clockCount + c.processor.cycles := by
    rw [settle_eq, ticks_ticksFor, Processor.clocks_of_le (Nat.le_refl _)]
    rfl
  have hended : (c.ticks c.stepTicks).processor.clockCount =
      c.processor.clockCount + c.processor.cycles + (c.processor.next c.memory).1.cycles := by
    rw [stepTicks, processor_ticks_of_next c hpos (Nat.le_refl _), ← Processor.clockCount_next _ c.memory]
    rfl
  simp only [step, step_loops, hstarted, hended, Nat.add_sub_cancel_left]

/-- **A step of the console is a step of its processor.** Let the processor alone make a step on the console's memory.
The console's step has the same answer and leaves the same processor and memory; what it adds is the ticks, those of the
wait for the processor's turn, three for every turn but the last, and one for that. The processor's step in turn is the
cycles in flight and the cycles of its answer, and up to the last of these it is busy. -/
theorem step_refines (c : Console RegisterBlock) :
    let alone := c.processor.step.run c.memory
    let cost := alone.1.1
    let total := c.processor.cycles + cost
    let ticks := (3 - c.clock % 3) % 3 + 3 * (total - 1) + 1
    c.step.1 = cost ∧ c.step.2.processor = alone.1.2 ∧ alone.1.2.cycles = 0 ∧
      c.step.2.memory = alone.2.dated (c.memory.device.ticks + ticks) ∧
      alone.2.device.ticks = c.memory.device.ticks ∧
      c.step.2.clock = c.clock + ticks ∧
      (c.processor.clocks total).run c.memory = (alone.1.2, alone.2) ∧
      ∀ n, 0 < n → n < cost → ((c.processor.clocks (c.processor.cycles + n)).run c.memory).1.complete = false := by
  intro alone cost total ticks
  have hpos := c.processor.cycles_next_pos c.memory
  have halone : alone = (((c.processor.next c.memory).1.cycles, (c.processor.next c.memory).1.settled),
      (c.processor.next c.memory).2) := c.processor.run_step c.memory
  have hcost : cost = (c.processor.next c.memory).1.cycles := congrArg (·.1.1) halone
  have hstep : c.step = (cost, c.ticks c.stepTicks) := hcost ▸ c.step_eq
  have hclocks : (c.processor.clocks total).run c.memory = (alone.1.2, alone.2) := by
    have htotal : total = c.processor.cycles + (c.processor.next c.memory).1.cycles := congrArg _ hcost
    rw [htotal, Processor.run_clocks_of_next _ _ hpos (Nat.le_refl _), halone]
    rfl
  have hticks : c.ticksFor total = ticks := if_neg (by omega)
  have hend : c.ticks c.stepTicks = c.advanced (alone.1.2, alone.2) ticks := by
    rw [stepTicks, ← hcost, ticks_ticksFor, hticks, hclocks]
  refine ⟨?_, ?_, ?_, ?_, MemoryMap.ticks_run _ _, ?_, hclocks, ?_⟩
  · rw [hstep]
  · rw [hstep, hend]
    rfl
  · rw [halone]
    exact Nat.sub_self _
  · rw [hstep, hend]
    rfl
  · rw [hstep, hend]
    rfl
  · intro n hn hlt
    have hbusy : (c.processor.next c.memory).1.cycles - n ≠ 0 := by omega
    rw [Processor.run_clocks_of_next _ _ hn (by omega)]
    exact beq_eq_false_iff_ne.mpr hbusy

end Console

end Nes
