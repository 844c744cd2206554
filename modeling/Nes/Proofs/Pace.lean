import Nes.Proofs.Commands
import Nes.Proofs.Deeds
import Nes.Proofs.MasterClock

/-!
# The pace of the clocks

A console has three counters that nothing compares: the master clock, the cycles of the processor and the ticks of the
register block. `Console.InPace` says how they stand to each other. Time passes by ticks alone, and ticks keep it, also
those that a step makes; everything else leaves the three as they are, but for a reset, which begins anew.
-/

namespace Nes

/-! ## The processor's count -/

namespace Processor

theorem ensures_clock (p : Processor) : p.clock.Ensures fun _ q => q.clockCount = p.clockCount + 1 := by
  by_cases hp : p.complete = true
  · rw [clock_of_complete hp, Transaction.ensures_bind]
    intro traffic q hq
    obtain ⟨-, -, hcount⟩ := p.ensures_execute traffic q hq
    rw [Transaction.ensures_done, ← hcount]
    rfl
  · have hbusy : 0 < p.cycles := by simpa [complete, Nat.pos_iff_ne_zero] using hp
    rw [clock_of_busy hbusy, Transaction.ensures_done]
    rfl

theorem ensures_clocks (p : Processor) (n : Nat) :
    (p.clocks n).Ensures fun _ q => q.clockCount = p.clockCount + n := by
  induction n with
  | zero => exact Transaction.ensures_done.mpr rfl
  | succ n ih =>
    rw [clocks_succ, Transaction.ensures_bind]
    intro traffic q hq rest r hr
    rw [q.ensures_clock rest r hr, ih traffic q hq, Nat.add_assoc]

/-- Interrupts take no time themselves: what they charge is in flight. -/
theorem ensures_irq_clockCount (p : Processor) : p.irq.Ensures fun _ q => q.clockCount = p.clockCount := by
  cases h : p.registers.isSet Flag.irqDisable with
  | false => exact (ensures_irq h).mpr fun _ _ => rfl
  | true =>
    rw [irq, if_pos h]
    exact Transaction.ensures_done.mpr rfl

end Processor

namespace Console

/-- The counters of a console whose processor had counted `base` at the last reset: the processor has had a cycle for
every three ticks that were begun, and the register block has seen every tick. -/
structure InPace (base : Nat) (c : Console RegisterBlock) : Prop where
  processor : c.processor.clockCount = base + (c.clock + 2) / 3
  device : c.memory.device.ticks = c.clock

namespace InPace

variable {base : Nat} {c : Console RegisterBlock}

/-! ## Time -/

theorem ticks (h : InPace base c) (n : Nat) : InPace base (c.ticks n) := by
  have hcount : (c.ticks n).processor.clockCount = c.processor.clockCount + c.turns n := by
    rw [ticks_eq]
    exact (c.processor.ensures_clocks (c.turns n)).run c.memory
  have hticks : (c.ticks n).memory.device.ticks = c.memory.device.ticks + n := by
    rw [ticks_eq]
    rfl
  constructor
  · rw [hcount, h.processor, clock_ticks, turns]
    omega
  · rw [hticks, h.device, clock_ticks]

theorem step (h : InPace base c) : InPace base c.step.2 := by
  rw [step_eq]
  exact h.ticks _

theorem run (h : InPace base c) (count : Nat) : InPace base (c.run count) := by
  induction count generalizing c with
  | zero => exact h
  | succ count ih => exact ih h.step

/-! ## What takes no time -/

theorem access {α : Type} (h : InPace base c) (t : Transaction α) : InPace base (c.access t).2 :=
  ⟨h.processor, (MemoryMap.ticks_run t c.memory).trans h.device⟩

theorem drive (h : InPace base c) {t : Processor → Transaction Processor}
    (ht : (t c.processor).Ensures fun _ q => q.clockCount = c.processor.clockCount) : InPace base (c.drive t) :=
  ⟨(ht.run c.memory).trans h.processor, (MemoryMap.ticks_run _ c.memory).trans h.device⟩

theorem call (h : InPace base c) (call : Call) : InPace base (c.call call).2 := by
  cases call with
  | read mode addr => exact h.access (.reading mode addr .done)
  | write addr value => exact h.access (.writing addr value (.done ()))
  | readGraphics addr => exact h
  | writeGraphics addr value =>
    obtain ⟨processor, ⟨ram, device, slot, openBus⟩, clock⟩ := c
    cases slot <;> exact ⟨h.processor, h.device⟩

/-! ## Beginning anew -/

theorem ofDevice : InPace 0 (ofDevice {}) := ⟨rfl, rfl⟩

/-- Whatever the phase, a reset brings the counters in pace. -/
theorem reset (c : Console RegisterBlock) : InPace c.reset.processor.clockCount c.reset := by
  have hclock : c.reset.clock = 0 := rfl
  have hticks : c.reset.memory.device.ticks = 0 :=
    MemoryMap.ticks_run c.processor.reset
      { c.memory with cartridge := c.memory.cartridge.map (·.reset), device := Device.reset c.memory.device }
  exact ⟨by simp [hclock], hticks.trans hclock.symm⟩

/-! ## Runs -/

/-- One command, any but a reset. -/
theorem obey (h : InPace base c) {command : Command} (hcommand : command.isReset = false) :
    InPace base (c.obey command).2 := by
  cases command with
  | tick => exact h.ticks 1
  | step => exact h.step
  | run count => exact h.run count
  | reset => cases hcommand
  | irq => exact h.drive c.processor.ensures_irq_clockCount
  | nmi => exact h.drive (Processor.ensures_nmi.mpr fun _ _ => rfl)
  | insert cartridge => exact ⟨h.processor, h.device⟩
  | eject => exact ⟨h.processor, h.device⟩
  | call call => exact h.call call
  | list first last => exact h.access _

theorem obeyAll (h : InPace base c) {commands : List Command}
    (hcommands : ∀ command ∈ commands, command.isReset = false) : InPace base (c.obeyAll commands).2 :=
  obeyAll_preserves (fun _ command hcommand hc => hc.obey (hcommands command hcommand)) h

end InPace

/-- **The clocks never drift.** Whatever a new console is told to do: since the last reset its processor has had a cycle
for every three ticks that were begun, and the register block has seen every tick. -/
theorem clocks_in_pace (commands : List Command) :
    let start := ofDevice ({} : RegisterBlock)
    let now := (start.obeyAll commands).2
    let fresh := (start.obeyAll (throughReset commands)).2
    now.processor.clockCount = fresh.processor.clockCount + (now.clock + 2) / 3 ∧
      now.memory.device.ticks = now.clock := by
  intro start now fresh
  have hfresh : InPace fresh.processor.clockCount fresh := by
    rcases throughReset_cases commands with hnone | ⟨before, hbefore⟩
    · have hstart : fresh = start := by
        simp only [fresh, hnone]
        rfl
      rw [hstart]
      exact InPace.ofDevice
    · have hlast : fresh = (start.obeyAll before).2.reset := by
        simp only [fresh, hbefore, obeyAll_append]
        rfl
      rw [hlast]
      exact InPace.reset _
  have hnow : now = (fresh.obeyAll (sinceReset commands)).2 := by
    have hsplit := start.obeyAll_append (throughReset commands) (sinceReset commands)
    rw [throughReset_append_sinceReset] at hsplit
    simp only [now, hsplit, fresh]
  have hpace : InPace fresh.processor.clockCount now :=
    hnow ▸ hfresh.obeyAll fun _ => not_isReset_of_mem_sinceReset
  exact ⟨hpace.processor, hpace.device⟩

end Console

end Nes
