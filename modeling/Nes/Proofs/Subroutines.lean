import Nes.Proofs.Interrupts

/-!
# Subroutines

`JSR` pushes the address of its own last byte and goes to the word in it (`Processor.jsr_eq`); `RTS` pops an address and
goes to the byte behind it (`Processor.rts_eq`). Between the two the stack pointer has to come back to where it was, and
the two bytes must not be overwritten. Then a call returns behind itself (`Processor.call_returns`), wherever the
instruction and the stack pointer are; both may wrap.
-/

namespace Nes

/-! ## The call -/

/-- A word is pushed byte by byte. -/
theorem Registers.run_pushWord {β : Type} [Bus β] (r : Registers) (value : Addr) (bus : β) :
    (r.pushWord value).run bus = ({ r with sp := r.sp - 2 },
      Bus.write (.stackPage (r.sp - 1)) value.low (Bus.write (.stackPage r.sp) value.high bus)) ∧
    (r.pushWord value).traffic bus =
      [.write (.stackPage r.sp) value.high, .write (.stackPage (r.sp - 1)) value.low] := by
  rw [← r.sp_sub_two]
  exact ⟨rfl, rfl⟩

namespace Processor

variable {β : Type} [Bus β]

/-- **`JSR` pushes the address of its last byte, and goes to its operand.** -/
theorem jsr_eq (p : Processor) (bus : β) (hopcode : (Bus.read .live p.registers.pc bus).1 = 0x20) :
    let r := p.registers
    let low := Bus.read .live (r.pc + 1) (Bus.read .live r.pc bus).2
    let high := Bus.read .live (r.pc + 2) low.2
    ((p.serve .step).run bus).1.2.registers =
      { r with sp := r.sp - 2, pc := .ofBytes low.1 high.1, status := r.status ||| Flag.unused } ∧
    ((p.serve .step).run bus).2 =
      Bus.write (.stackPage (r.sp - 1)) (r.pc + 2).low (Bus.write (.stackPage r.sp) (r.pc + 2).high high.2) ∧
    (p.serve .step).traffic bus =
      [.read .live r.pc 0x20, .read .live (r.pc + 1) low.1, .read .live (r.pc + 2) high.1,
        .write (.stackPage r.sp) (r.pc + 2).high, .write (.stackPage (r.sp - 1)) (r.pc + 2).low] := by
  intro r low high
  have hinstruction : Instruction.ofOpcode (Bus.read .live p.registers.pc bus).1 = .known .jsr .absolute 6 := by
    rw [hopcode]
    rfl
  obtain ⟨hregisters, hbus, htraffic⟩ := p.step_parts bus hinstruction
  obtain ⟨hfetch, hfetched⟩ := p.run_operandWord (Bus.read .live p.registers.pc bus).2
  -- the program counter is behind the instruction when it is pushed, less one
  have hlast : p.registers.pc + 3 - 1 = p.registers.pc + 2 := by bv_omega
  simp only [Instruction.known, Mode.resolve, Operation.perform, Registers.finish, Transaction.pure_eq,
    Transaction.run_done, Transaction.run_bind, Transaction.traffic_done, Transaction.traffic_bind, List.append_nil,
    hfetch, hfetched, Registers.run_pushWord, hlast, hopcode] at hregisters hbus htraffic
  refine ⟨hregisters.trans ?_, hbus, htraffic⟩
  exact Registers.assign_assign { r with sp := _, pc := _ } Flag.unused true true

/-! ## The return -/

variable [StackBus β]

/-- **`RTS` pops an address, and goes to the byte behind it.** -/
theorem rts_eq (p : Processor) (bus : β) (hopcode : (Bus.read .live p.registers.pc bus).1 = 0x60) :
    let r := ((p.serve .step).run bus).1.2.registers
    r.sp = p.registers.sp + 2 ∧
      r.pc = .ofBytes (stackByte bus (p.registers.sp + 1)) (stackByte bus (p.registers.sp + 2)) + 1 := by
  intro r
  have hinstruction : Instruction.ofOpcode (Bus.read .live p.registers.pc bus).1 = .known .rts .implied 6 := by
    rw [hopcode]
    rfl
  obtain ⟨hregisters, -, -⟩ := p.step_parts bus hinstruction
  have hsp : (Execution.fetched p).sp = p.registers.sp := rfl
  simp only [Instruction.known, Mode.resolve, Operation.perform, Registers.finish, Transaction.pure_eq,
    Transaction.run_done, Transaction.run_bind, Registers.run_popWord, hsp, StackBus.stackByte_read] at hregisters
  have hr : r = _ := hregisters
  rw [hr]
  exact ⟨rfl, rfl⟩

/-- `RTS` ends a call whose two bytes lie above the stack pointer. -/
theorem rts_of_stacked {r : Registers} {p : Processor} {bus : β} (hsp : p.registers.sp = r.sp - 2)
    (hhigh : stackByte bus r.sp = (r.pc + 2).high) (hlow : stackByte bus (r.sp - 1) = (r.pc + 2).low)
    (hopcode : (Bus.read .live p.registers.pc bus).1 = 0x60) :
    let after := ((p.serve .step).run bus).1.2.registers
    after.pc = r.pc + 3 ∧ after.sp = r.sp := by
  have hsp₁ : r.sp - 2 + 1 = r.sp - 1 := by bv_omega
  have hsp₂ : r.sp - 2 + 2 = r.sp := BitVec.sub_add_cancel _ _
  obtain ⟨hafterSp, hafterPc⟩ := p.rts_eq bus hopcode
  rw [hsp, hsp₁, hsp₂, hlow, hhigh, Addr.ofBytes_low_high] at hafterPc
  refine ⟨?_, ?_⟩
  · rw [hafterPc]
    bv_omega
  · rw [hafterSp, hsp, hsp₂]

/-- What is found at the two places in a subroutine. -/
theorem stackByte_jsr {p : Processor} {bus : β} (hopcode : (Bus.read .live p.registers.pc bus).1 = 0x20) :
    stackByte ((p.serve .step).run bus).2 p.registers.sp = (p.registers.pc + 2).high ∧
      stackByte ((p.serve .step).run bus).2 (p.registers.sp - 1) = (p.registers.pc + 2).low := by
  have hne : p.registers.sp - 1 ≠ p.registers.sp := by bv_omega
  obtain ⟨-, hbus, -⟩ := p.jsr_eq bus hopcode
  rw [hbus]
  simp only [StackBus.stackByte_write, if_neg hne, if_true, and_self]

/-- A call changes two places. -/
theorem differAt_jsr {p : Processor} {bus : β} (hopcode : (Bus.read .live p.registers.pc bus).1 = 0x20) :
    StackBus.DifferAt [p.registers.sp, p.registers.sp - 1] bus ((p.serve .step).run bus).2 := by
  obtain ⟨-, hbus, -⟩ := p.jsr_eq bus hopcode
  rw [hbus]
  apply StackBus.trans (StackBus.read _ p.registers.pc _)
  apply StackBus.trans (StackBus.read _ (p.registers.pc + 1) _)
  apply StackBus.trans (StackBus.read _ (p.registers.pc + 2) _)
  apply StackBus.trans (StackBus.write List.mem_cons_self _ _)
  exact StackBus.write (List.mem_cons_of_mem _ List.mem_cons_self) _ _

/-- **Calls return.** On a bus with a stack, as flat memory and the memory map of a console are, a processor finds the
opcode of `JSR`. The instruction may wrap to the bottom of memory, and the stack pointer within the stack page.

* The call goes to the word in the instruction. It changes none of the accumulator, X and Y, and no flag but the unused one,
  which the fetch of an opcode sets. It stores at two places of the stack page and nowhere else.
* Then the processor serves any requests. If in the end the stack pointer is where it was after the call, the two bytes are
  as they were stacked and the next opcode is that of `RTS`, this instruction leaves the program counter behind the call and
  the stack pointer as it was before the call. -/
theorem call_returns (p : Processor) (bus : β) (hopcode : (Bus.read .live p.registers.pc bus).1 = 0x20) :
    let r := p.registers
    let low := Bus.read .live (r.pc + 1) (Bus.read .live r.pc bus).2
    let high := Bus.read .live (r.pc + 2) low.2
    let call := (p.serve .step).run bus
    call.1.2.registers =
      { r with sp := r.sp - 2, pc := .ofBytes low.1 high.1, status := r.status ||| Flag.unused } ∧
    (p.serve .step).traffic bus =
      [.read .live r.pc 0x20, .read .live (r.pc + 1) low.1, .read .live (r.pc + 2) high.1,
        .write (.stackPage r.sp) (r.pc + 2).high, .write (.stackPage (r.sp - 1)) (r.pc + 2).low] ∧
    StackBus.DifferAt [r.sp, r.sp - 1] bus call.2 ∧
    ∀ requests : List Request,
      let run := (call.1.2.serveAll requests).run call.2
      run.1.2.registers.sp = call.1.2.registers.sp →
      (∀ place ∈ [r.sp, r.sp - 1], stackByte run.2 place = stackByte call.2 place) →
      (Bus.read .live run.1.2.registers.pc run.2).1 = 0x60 →
      let after := ((run.1.2.serve .step).run run.2).1.2.registers
      after.pc = r.pc + 3 ∧ after.sp = r.sp := by
  intro r low high call
  obtain ⟨hregisters, -, htraffic⟩ := p.jsr_eq bus hopcode
  refine ⟨hregisters, htraffic, differAt_jsr hopcode, ?_⟩
  intro requests run hsp hstacked hreturn
  obtain ⟨hhigh, hlow⟩ := stackByte_jsr hopcode
  have hcall : call.1.2.registers.sp = r.sp - 2 := congrArg Registers.sp hregisters
  apply rts_of_stacked (hsp.trans hcall) ?_ ?_ hreturn
  · exact (hstacked _ List.mem_cons_self).trans hhigh
  · exact (hstacked _ (List.mem_cons_of_mem _ List.mem_cons_self)).trans hlow

/-- A call at the top of memory to a subroutine that does nothing, on a stack that wraps. -/
def sampleSubroutine : FlatMemory := ((FlatMemory.filled 0x60).poke 0xFFFE 0x20).poke 0x6060 0xEA

def sampleCaller : Processor := { registers := { sp := 0x00, pc := 0xFFFE } }

theorem fetch_sampleCaller : (Bus.read .live sampleCaller.registers.pc sampleSubroutine).1 = 0x20 := by
  simp [FlatMemory.read_eq, sampleCaller, sampleSubroutine, FlatMemory.peek_poke]

theorem call_returns_sample :
    let call := (sampleCaller.serve .step).run sampleSubroutine
    let run := (call.1.2.serveAll [.step]).run call.2
    let after := ((run.1.2.serve .step).run run.2).1.2.registers
    after.pc = 0x0001 ∧ after.sp = 0x00 := by
  obtain ⟨hcall, -, hdiffer, hreturn⟩ := call_returns sampleCaller sampleSubroutine fetch_sampleCaller
  have hpeek (addr : Addr) (h : 0x200 ≤ addr.toNat) :
      ((sampleCaller.serve .step).run sampleSubroutine).2.peek addr = sampleSubroutine.peek addr :=
    FlatMemory.DifferAt.peek_eq hdiffer h
  have hpc : ((sampleCaller.serve .step).run sampleSubroutine).1.2.registers.pc = 0x6060 := by
    rw [hcall]
    simp [FlatMemory.read_eq, sampleCaller, sampleSubroutine, FlatMemory.peek_poke, Addr.ofBytes]
  have hnop : ((sampleCaller.serve .step).run sampleSubroutine).2.peek
      ((sampleCaller.serve .step).run sampleSubroutine).1.2.registers.pc = 0xEA := by
    rw [hpc, hpeek _ (by decide)]
    simp [sampleSubroutine, FlatMemory.peek_poke]
  obtain ⟨hsp, hnext, hsame⟩ := Interrupt.run_nop_flat _ _ hnop
  refine hreturn [.step] hsp ?_ ?_
  · intro place _
    rw [hsame]
  · rw [hnext, hsame, hpc, FlatMemory.read_eq, hpeek _ (by decide)]
    simp [sampleSubroutine, FlatMemory.peek_poke]

/-- A call is not without effect on the flags of a processor that has not fetched an opcode before. -/
theorem call_sets_unused :
    (Bus.read .live sampleCaller.registers.pc sampleSubroutine).1 = 0x20 ∧
      sampleCaller.registers.isSet Flag.unused = false ∧
      ((sampleCaller.serve .step).run sampleSubroutine).1.2.registers.isSet Flag.unused = true := by
  refine ⟨fetch_sampleCaller, by decide, ?_⟩
  obtain ⟨hcall, -, -⟩ := sampleCaller.jsr_eq sampleSubroutine fetch_sampleCaller
  rw [hcall]
  rfl

end Processor

end Nes
