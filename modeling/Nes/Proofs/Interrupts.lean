import Nes.Proofs.Stack
import Nes.Proofs.Steps

/-!
# Interrupts

A handler is entered by a request, by a non-maskable interrupt or by the instruction that breaks. Each stacks three bytes,
disables further requests and goes where its vector points (`Interrupt.serve_eq`). `RTI` takes three bytes from the stack
(`Processor.rti_eq`). What is stacked differs in the break flag, and what is taken does not depend on it, so that all
three are undone alike.

`Interrupt.transparent` says this of every bus with a stack: whatever a handler does, if it leaves the three bytes where
they are and ends in `RTI` with the stack pointer it began with, the program goes on as if nothing had happened.
-/

namespace Nes

/-! ## Instructions in a step -/

namespace Processor

variable {β : Type} [Bus β]

/-- The registers and the bus after a step, and its traffic, from the parts of its instruction. -/
theorem step_parts (p : Processor) (bus : β) {instruction : Instruction}
    (hopcode : Instruction.ofOpcode (Bus.read .live p.registers.pc bus).1 = instruction) :
    let start := (Bus.read .live p.registers.pc bus).2
    let resolve := instruction.mode.resolve (Execution.fetched p)
    let resolved := (resolve.run start).1
    let perform := instruction.operation.perform resolved.operand resolved.registers
    ((p.serve .step).run bus).1.2.registers =
      ((perform.run (resolve.run start).2).1.registers.assign Flag.unused true) ∧
    ((p.serve .step).run bus).2 = (perform.run (resolve.run start).2).2 ∧
    (p.serve .step).traffic bus = .read .live p.registers.pc (Bus.read .live p.registers.pc bus).1 ::
      (resolve.traffic start ++ perform.traffic (resolve.run start).2) := by
  subst hopcode
  rw [run_serve_step, traffic_serve_step, traffic_step]
  exact ⟨rfl, p.settled.run_execute_snd bus, rfl⟩

end Processor

theorem Registers.assign_unused {r : Registers} (h : Flag.Proper r.status) : r.assign Flag.unused true = r := by
  simp only [assign, if_true, h.or_unused]

/-! ## Kinds of interrupts -/

/-- What enters a handler. -/
inductive Interrupt
  | irq
  | nmi
  /-- The instruction that breaks. -/
  | brk

namespace Interrupt

variable {β : Type} [Bus β]

/-- What a processor is asked for. -/
def request : Interrupt → Request
  | .irq => .irq
  | .nmi => .nmi
  | .brk => .step

/-- Where the address of the handler is found. -/
def vector : Interrupt → Addr
  | .irq | .brk => 0xFFFE
  | .nmi => 0xFFFA

/-- Whether the break flag goes on the stack. -/
def marks : Interrupt → Bool
  | .brk => true
  | _ => false

/-- Where the interrupted program goes on; the instruction that breaks has a byte after its opcode that is skipped. -/
def returnAddr : Interrupt → Addr → Addr
  | .brk, pc => pc + 2
  | _, pc => pc

/-- The processor takes the interrupt: requests are enabled, or the next opcode is that of `BRK`. -/
def Accepted (kind : Interrupt) (p : Processor) (bus : β) : Prop :=
  match kind with
  | .irq => p.registers.isSet Flag.irqDisable = false
  | .nmi => True
  | .brk => (Bus.read .live p.registers.pc bus).1 = 0x00

/-- The accesses before the entry, which fetch the opcode. -/
def fetched (kind : Interrupt) (p : Processor) : List Access :=
  match kind with
  | .brk => [.read .live p.registers.pc 0x00]
  | _ => []

/-- The bus after these. -/
def begun (kind : Interrupt) (p : Processor) (bus : β) : β :=
  match kind with
  | .brk => (Bus.read .live p.registers.pc bus).2
  | _ => bus

/-- The registers that are saved. -/
def saved (kind : Interrupt) (r : Registers) : Registers := { r with pc := kind.returnAddr r.pc }

/-- The entry into the handler. -/
def enter (kind : Interrupt) (r : Registers) : Transaction Registers := (kind.saved r).enterHandler kind.vector kind.marks

/-- How the handler is entered on a bus. -/
theorem entered (kind : Interrupt) (r : Registers) (bus : β) : ∃ low high,
    (kind.enter r).traffic bus = (kind.saved r).entryTraffic kind.vector kind.marks low high ∧
      ((kind.enter r).run bus).1 = (kind.saved r).entered low high := by
  have hensures : (kind.enter r).Ensures fun traffic q => ∃ low high,
      traffic = (kind.saved r).entryTraffic kind.vector kind.marks low high ∧ q = (kind.saved r).entered low high :=
    Registers.ensures_enterHandler.mpr fun low high => ⟨low, high, rfl, rfl⟩
  exact hensures _ _ ((kind.enter r).canEnd_traffic bus)

/-- **To serve an interrupt is to enter its handler**, with nothing before it but the fetch of an opcode. -/
theorem serve_eq (kind : Interrupt) {p : Processor} {bus : β} (hproper : Flag.Proper p.registers.status)
    (haccepted : kind.Accepted p bus) :
    ((p.serve kind.request).run bus).1.2.registers = ((kind.enter p.registers).run (kind.begun p bus)).1 ∧
    ((p.serve kind.request).run bus).2 = ((kind.enter p.registers).run (kind.begun p bus)).2 ∧
    (p.serve kind.request).traffic bus = kind.fetched p ++ (kind.enter p.registers).traffic (kind.begun p bus) := by
  cases kind with
  | irq =>
    have hirq : p.irq = p.registers.enterHandler irqVector false >>= fun registers =>
        .done { p with registers, cycles := 7 } := if_neg (Bool.eq_false_iff.mp haccepted)
    simp only [request, Processor.serve, hirq, Transaction.pure_eq, Transaction.run_bind, Transaction.run_done,
      Transaction.traffic_bind, Transaction.traffic_done, List.append_nil]
    exact ⟨rfl, rfl, rfl⟩
  | nmi =>
    simp only [request, Processor.serve, Processor.nmi, Transaction.pure_eq, Transaction.run_bind, Transaction.run_done,
      Transaction.traffic_bind, Transaction.traffic_done, List.append_nil]
    exact ⟨rfl, rfl, rfl⟩
  | brk =>
    have hopcode : (Bus.read .live p.registers.pc bus).1 = 0x00 := haccepted
    have hinstruction : Instruction.ofOpcode (Bus.read .live p.registers.pc bus).1 = .known .brk .immediate 7 := by
      rw [hopcode]
      rfl
    obtain ⟨hregisters, hbus, htraffic⟩ := p.step_parts bus hinstruction
    -- the opcode and the byte after it are behind the program counter when the handler is entered
    have hsaved : { Execution.fetched p with pc := (Execution.fetched p).pc + 1 } = Interrupt.brk.saved p.registers := by
      have hpc : p.registers.pc + 1 + 1 = p.registers.pc + 2 := by bv_omega
      have hassign := Registers.assign_unused (r := { p.registers with pc := p.registers.pc + 1 }) hproper
      rw [Execution.fetched, hassign, saved, returnAddr, ← hpc]
    simp only [Instruction.known, Mode.resolve, Operation.perform, Registers.finish, Transaction.pure_eq,
      Transaction.run_done, Transaction.run_bind, Transaction.traffic_done, Transaction.traffic_bind, List.append_nil,
      List.nil_append, hsaved, hopcode] at hregisters hbus htraffic
    refine ⟨?_, hbus, htraffic⟩
    obtain ⟨low, high, -, hentered⟩ := Interrupt.brk.entered p.registers (Interrupt.brk.begun p bus)
    have hrun : ((Interrupt.brk.saved p.registers).enterHandler irqVector true).run (Bus.read .live p.registers.pc bus).2 =
        (Interrupt.brk.enter p.registers).run (Interrupt.brk.begun p bus) := rfl
    refine hregisters.trans ?_
    rw [hrun]
    apply Registers.assign_unused
    rw [hentered]
    exact Flag.Proper.assign (r := p.registers) hproper (by decide) true

end Interrupt

/-! ## The return -/

/-- **`RTI` takes the status and the program counter from the stack.** -/
theorem Processor.rti_eq {β : Type} [Bus β] [StackBus β] (p : Processor) (bus : β)
    (hopcode : (Bus.read .live p.registers.pc bus).1 = 0x40) :
    let r := ((p.serve .step).run bus).1.2.registers
    r.sp = p.registers.sp + 3 ∧
      r.status = (stackByte bus (p.registers.sp + 1) &&& ~~~(Flag.brk ||| Flag.unused)) ||| Flag.unused ∧
      r.pc = .ofBytes (stackByte bus (p.registers.sp + 2)) (stackByte bus (p.registers.sp + 3)) := by
  intro r
  have hinstruction : Instruction.ofOpcode (Bus.read .live p.registers.pc bus).1 = .known .rti .implied 6 := by
    rw [hopcode]
    rfl
  obtain ⟨hregisters, -, -⟩ := p.step_parts bus hinstruction
  have hsp : (Execution.fetched p).sp = p.registers.sp := rfl
  have hsp₂ : p.registers.sp + 1 + 1 = p.registers.sp + 2 := by bv_omega
  have hsp₃ : p.registers.sp + 1 + 2 = p.registers.sp + 3 := by bv_omega
  simp only [Instruction.known, Mode.resolve, Operation.perform, Registers.finish, Transaction.pure_eq,
    Transaction.run_done, Transaction.run_bind, Registers.run_pop, Registers.run_popWord, hsp, hsp₂, hsp₃,
    StackBus.stackByte_read] at hregisters
  have hr : r = _ := hregisters
  rw [hr]
  exact ⟨rfl, rfl, rfl⟩

namespace Interrupt

variable {β : Type} [Bus β] [StackBus β]

/-- What was pushed of a proper status, with the break flag or without, is taken for that status. -/
theorem status_taken {r : Registers} (h : Flag.Proper r.status) (brk : Bool) :
    (r.pushedStatus brk &&& ~~~(Flag.brk ||| Flag.unused)) ||| Flag.unused = r.status := by
  have hall : ∀ status : Byte, status.meets Flag.unused = true → status.meets Flag.brk = false → ∀ brk : Bool,
      (Registers.pushedStatus { status } brk &&& ~~~(Flag.brk ||| Flag.unused)) ||| Flag.unused = status := by
    decide
  exact hall r.status h.unused h.brk brk

/-- `RTI` undoes an interrupt whose three bytes lie above the stack pointer. -/
theorem rti_of_stacked (kind : Interrupt) {r : Registers} (hproper : Flag.Proper r.status) {p : Processor} {bus : β}
    (hsp : p.registers.sp = r.sp - 3) (hhigh : stackByte bus r.sp = (kind.saved r).pc.high)
    (hlow : stackByte bus (r.sp - 1) = (kind.saved r).pc.low)
    (hstatus : stackByte bus (r.sp - 2) = (kind.saved r).pushedStatus kind.marks)
    (hopcode : (Bus.read .live p.registers.pc bus).1 = 0x40) :
    let after := ((p.serve .step).run bus).1.2.registers
    after.sp = r.sp ∧ after.status = r.status ∧ after.pc = kind.returnAddr r.pc := by
  have hsp₁ : r.sp - 3 + 1 = r.sp - 2 := by bv_omega
  have hsp₂ : r.sp - 3 + 2 = r.sp - 1 := by bv_omega
  have hsp₃ : r.sp - 3 + 3 = r.sp := BitVec.sub_add_cancel _ _
  obtain ⟨hafterSp, hafterStatus, hafterPc⟩ := p.rti_eq bus hopcode
  rw [hsp, hsp₁, hstatus] at hafterStatus
  rw [hsp, hsp₂, hsp₃, hlow, hhigh, Addr.ofBytes_low_high] at hafterPc
  refine ⟨?_, ?_, hafterPc⟩
  · rw [hafterSp, hsp, hsp₃]
  · exact hafterStatus.trans (status_taken (r := kind.saved r) hproper kind.marks)

/-- **Interrupts are transparent.** On a bus with a stack, as flat memory and the memory map of a console are, a processor
with a proper status takes an interrupt.

* The entry disables requests and changes no other flag, and none of the accumulator, X and Y; it goes where the vector
  points. It stores at three places of the stack page and nowhere else, and what is attached sees nothing of it but the
  fetch of an opcode.
* Then the processor serves any requests. If in the end the stack pointer is where it was in the handler, the three bytes
  are as they were stacked and the next opcode is that of `RTI`, this instruction leaves the stack pointer and the status
  as they were before the interrupt, and the program counter at the interrupted instruction, or past the one that broke. -/
theorem transparent (kind : Interrupt) (p : Processor) (bus : β) (hproper : Flag.Proper p.registers.status)
    (haccepted : kind.Accepted p bus) :
    let r := p.registers
    let entry := (p.serve kind.request).run bus
    (∃ low high,
      (p.serve kind.request).traffic bus =
        kind.fetched p ++ (kind.saved r).entryTraffic kind.vector kind.marks low high ∧
      entry.1.2.registers =
        { r with status := r.status ||| Flag.irqDisable, sp := r.sp - 3, pc := .ofBytes low high }) ∧
    StackBus.DifferAt [r.sp, r.sp - 1, r.sp - 2] bus entry.2 ∧
    StackBus.attached entry.2 = StackBus.attached (kind.begun p bus) ∧
    ∀ requests : List Request,
      let run := (entry.1.2.serveAll requests).run entry.2
      run.1.2.registers.sp = entry.1.2.registers.sp →
      (∀ place ∈ [r.sp, r.sp - 1, r.sp - 2], stackByte run.2 place = stackByte entry.2 place) →
      (Bus.read .live run.1.2.registers.pc run.2).1 = 0x40 →
      let after := ((run.1.2.serve .step).run run.2).1.2.registers
      after.sp = r.sp ∧ after.status = r.status ∧ after.pc = kind.returnAddr r.pc := by
  intro r entry
  obtain ⟨hregisters, hbus, htraffic⟩ := kind.serve_eq hproper haccepted
  obtain ⟨low, high, hentryTraffic, hentered⟩ := kind.entered r (kind.begun p bus)
  have hentry : entry.1.2.registers =
      { r with status := r.status ||| Flag.irqDisable, sp := r.sp - 3, pc := .ofBytes low high } := by
    have hsp : r.sp - 1 - 1 - 1 = r.sp - 3 := by bv_omega
    rw [hregisters, hentered, ← hsp]
    rfl
  refine ⟨⟨low, high, ?_, hentry⟩, ?_, ?_, ?_⟩
  · rw [htraffic, hentryTraffic]
  · have hbegun : StackBus.DifferAt (kind.saved r).frame bus (kind.begun p bus) := by
      cases kind with
      | irq => exact StackBus.refl _ _
      | nmi => exact StackBus.refl _ _
      | brk => exact StackBus.read _ _ _
    rw [hbus]
    exact StackBus.trans hbegun ((kind.saved r).differAt_enterHandler kind.vector kind.marks _)
  · have hvector : 0x4000 ≤ kind.vector.toNat ∧ 0x4000 ≤ (kind.vector + 1).toNat := by
      cases kind <;> decide
    rw [hbus]
    exact (kind.saved r).attached_enterHandler hvector.1 hvector.2 kind.marks _
  · intro requests run hsp hstacked hopcode
    obtain ⟨hhigh, hlow, hstatus⟩ := (kind.saved r).stackByte_enterHandler kind.vector kind.marks (kind.begun p bus)
    rw [← enter, ← hbus] at hhigh hlow hstatus
    obtain ⟨hmem, hmem₁, hmem₂⟩ := r.mem_frame
    rw [hentry] at hsp
    apply kind.rti_of_stacked hproper hsp ?_ ?_ ?_ hopcode
    · exact (hstacked _ hmem).trans hhigh
    · exact (hstacked _ hmem₁).trans hlow
    · exact (hstacked _ hmem₂).trans hstatus

/-- In flat memory a handler is found where its vector points. -/
theorem pc_serve_flat (kind : Interrupt) {p : Processor} {m : FlatMemory} (hproper : Flag.Proper p.registers.status)
    (haccepted : kind.Accepted p m) :
    ((p.serve kind.request).run m).1.2.registers.pc =
      .ofBytes (((p.serve kind.request).run m).2.peek kind.vector)
        (((p.serve kind.request).run m).2.peek (kind.vector + 1)) := by
  obtain ⟨hregisters, hbus, -⟩ := kind.serve_eq hproper haccepted
  rw [hregisters, hbus]
  rfl

/-- What lies behind the stack page stays as it is. -/
theorem peek_serve_flat (kind : Interrupt) {p : Processor} {m : FlatMemory} (hproper : Flag.Proper p.registers.status)
    (haccepted : kind.Accepted p m) {addr : Addr} (haddr : 0x200 ≤ addr.toNat) :
    ((p.serve kind.request).run m).2.peek addr = m.peek addr := by
  obtain ⟨-, hbus, -⟩ := kind.serve_eq hproper haccepted
  have hbegun : kind.begun p m = m := by cases kind <;> rfl
  rw [hbus, hbegun]
  exact FlatMemory.DifferAt.peek_eq ((kind.saved p.registers).differAt_enterHandler kind.vector kind.marks m) haddr

/-- The instruction that does nothing moves the program counter past its opcode. -/
theorem run_nop_flat (p : Processor) (m : FlatMemory) (hopcode : m.peek p.registers.pc = 0xEA) :
    ((p.serveAll [.step]).run m).1.2.registers.sp = p.registers.sp ∧
      ((p.serveAll [.step]).run m).1.2.registers.pc = p.registers.pc + 1 ∧ ((p.serveAll [.step]).run m).2 = m := by
  have hinstruction : Instruction.ofOpcode (Bus.read .live p.registers.pc m).1 = .known .nop .implied 2 := by
    have hbyte : (Bus.read .live p.registers.pc m).1 = 0xEA := hopcode
    rw [hbyte]
    rfl
  obtain ⟨hregisters, hbus, -⟩ := p.step_parts m hinstruction
  simp only [Processor.serveAll, Transaction.run_bind, Transaction.pure_eq, Transaction.run_done, hregisters, hbus]
  exact ⟨rfl, rfl, rfl⟩

/-- Break, then no operation and `RTI` in the handler, on a stack that wraps. -/
def sampleMemory : FlatMemory := ((FlatMemory.filled 0x40).poke 0x1234 0x00).poke 0x4040 0xEA

def sampleInterrupted : Processor := { registers := { sp := 0x01, pc := 0x1234, status := 0xE3 } }

theorem transparent_sample :
    let entry := (sampleInterrupted.serve Interrupt.brk.request).run sampleMemory
    let run := (entry.1.2.serveAll [.step]).run entry.2
    let after := ((run.1.2.serve .step).run run.2).1.2.registers
    after.sp = 0x01 ∧ after.status = 0xE3 ∧ after.pc = 0x1236 := by
  have hproper : Flag.Proper sampleInterrupted.registers.status := ⟨by decide, by decide⟩
  have haccepted : Interrupt.brk.Accepted sampleInterrupted sampleMemory := by
    have hbrk : sampleMemory.peek 0x1234 = 0x00 := by simp [sampleMemory, FlatMemory.peek_poke]
    exact hbrk
  obtain ⟨-, hdiffer, -, hreturn⟩ := transparent .brk sampleInterrupted sampleMemory hproper haccepted
  have hpeek (addr : Addr) (h : 0x200 ≤ addr.toNat) :
      ((sampleInterrupted.serve Interrupt.brk.request).run sampleMemory).2.peek addr = sampleMemory.peek addr := by
    apply hdiffer
    intro place _ haddr
    rw [haddr, Addr.toNat_stackPage] at h
    have := place.isLt
    omega
  have hhandler : ((sampleInterrupted.serve Interrupt.brk.request).run sampleMemory).1.2.registers.pc = 0x4040 := by
    rw [pc_serve_flat .brk hproper haccepted, hpeek _ (by decide), hpeek _ (by decide)]
    simp [sampleMemory, FlatMemory.peek_poke, vector, Addr.ofBytes]
  have hnop : ((sampleInterrupted.serve Interrupt.brk.request).run sampleMemory).2.peek
      ((sampleInterrupted.serve Interrupt.brk.request).run sampleMemory).1.2.registers.pc = 0xEA := by
    rw [hhandler, hpeek _ (by decide)]
    simp [sampleMemory, FlatMemory.peek_poke]
  obtain ⟨hsp, hpc, hsame⟩ := run_nop_flat _ _ hnop
  refine hreturn [.step] hsp ?_ ?_
  · intro place _
    rw [hsame]
  · rw [hpc, hsame, hhandler, FlatMemory.read_eq, hpeek _ (by decide)]
    simp [sampleMemory, FlatMemory.peek_poke]

end Interrupt

end Nes
