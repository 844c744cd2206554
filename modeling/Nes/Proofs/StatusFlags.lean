import Nes.Proofs.Deeds

/-!
# The flags of the status register

An operation changes the flags in its mask and no others (`Operation.ensures_flags`). No mask has the break flag, but
for the two operations that load the whole status from the stack, and these clear it (`Operation.ensures_brk`). So in a
processor that has been reset the unused flag is set and the break flag clear (`Flag.Proper`), after every deed.

What goes on the stack has the break flag only if an instruction pushed it (`Deed.Lawful.pushes`).
`Processor.status_proper` says both of every run.
-/

namespace Nes

/-! ## Masks -/

namespace Byte

variable {b mask other : Byte}

/-- Setting flags leaves the others. -/
theorem meets_or (h : mask &&& other = 0) : (b ||| mask).meets other = b.meets other := by
  have hbits : (b ||| mask) &&& other = b &&& other := by
    ext i hi
    have hbit := congrArg (·[i]) h
    simp only [BitVec.getElem_and, BitVec.getElem_or] at hbit ⊢
    cases hmask : mask[i] with
    | false => rw [Bool.or_false]
    | true => simp_all
  rw [meets, meets, hbits]

/-- Clearing flags leaves the others. -/
theorem meets_and_not (h : mask &&& other = 0) : (b &&& ~~~mask).meets other = b.meets other := by
  have hbits : b &&& ~~~mask &&& other = b &&& other := by
    ext i hi
    have hbit := congrArg (·[i]) h
    simp only [BitVec.getElem_and, BitVec.getElem_not] at hbit ⊢
    cases hmask : mask[i] with
    | false => rw [Bool.not_false, Bool.and_true]
    | true => simp_all
  rw [meets, meets, hbits]

/-- A part of a mask is disjoint from what the mask is disjoint from. -/
theorem and_eq_zero_of_part {part : Byte} (hpart : part &&& mask = part) (h : mask &&& other = 0) :
    part &&& other = 0 := by
  rw [← hpart, BitVec.and_assoc, h]
  exact BitVec.and_zero

end Byte

theorem Registers.meets_assign {r : Registers} {mask other : Byte} (h : mask &&& other = 0) (on : Bool) :
    (r.assign mask on).status.meets other = r.status.meets other := by
  cases on with
  | false => exact Byte.meets_and_not h
  | true => exact Byte.meets_or h

/-- Flags that were set or cleared are as they were made. -/
theorem Registers.isSet_assign (r : Registers) {mask : Byte} (h : mask ≠ 0) {on : Bool} :
    (r.assign mask on).isSet mask = on := by
  cases on with
  | false => simp [isSet, Byte.meets, assign, BitVec.and_assoc]
  | true =>
    have hmask : (r.status ||| mask) &&& mask = mask := by
      ext i hi
      simp only [BitVec.getElem_and, BitVec.getElem_or]
      cases r.status[i] <;> cases mask[i] <;> rfl
    simp only [isSet, Byte.meets, assign, if_true, hmask]
    simpa using h

/-- The last assignment counts. -/
theorem Registers.assign_assign (r : Registers) (mask : Byte) (on value : Bool) :
    (r.assign mask on).assign mask value = r.assign mask value := by
  have hstatus : ((r.assign mask on).assign mask value).status = (r.assign mask value).status := by
    ext i hi
    cases on <;> cases value <;> cases hmask : mask[i] <;> simp [assign, hmask]
  exact congrArg (fun status => { r with status }) hstatus

/-- A result leaves the flags that say nothing of it. -/
theorem Registers.isSet_setZN (r : Registers) {mask : Byte} (h : (Flag.zero ||| Flag.negative) &&& mask = 0)
    (result : Byte) : (r.setZN result).isSet mask = r.isSet mask := by
  have hzero : Flag.zero &&& mask = 0 := Byte.and_eq_zero_of_part (by decide) h
  have hnegative : Flag.negative &&& mask = 0 := Byte.and_eq_zero_of_part (by decide) h
  exact (meets_assign hnegative _).trans (meets_assign hzero _)

/-! ## What operations do to the flags -/

/-- The flags that an operation can change. -/
def Operation.flags : Operation → Byte
  | .adc | .sbc => Flag.carry ||| Flag.zero ||| Flag.overflow ||| Flag.negative
  | .cmp | .cpx | .cpy | .asl | .lsr | .rol | .ror => Flag.carry ||| Flag.zero ||| Flag.negative
  | .bit => Flag.zero ||| Flag.overflow ||| Flag.negative
  | .lda | .ldx | .ldy | .and | .ora | .eor | .inc | .dec | .inx | .iny | .dex | .dey | .pla | .tax | .tay | .txa | .tya
  | .tsx => Flag.zero ||| Flag.negative
  | .clc | .sec => Flag.carry
  | .cli | .sei | .brk => Flag.irqDisable
  | .cld | .sed => Flag.decimal
  | .clv => Flag.overflow
  | .plp | .rti => .allOnes 8
  | _ => 0

/-- **An operation changes the flags in its mask and no others.** -/
theorem Operation.ensures_flags (op : Operation) (operand : Operand) (r : Registers) {mask : Byte}
    (h : op.flags &&& mask = 0) : (op.perform operand r).Ensures fun _ outcome =>
      outcome.registers.status.meets mask = r.status.meets mask := by
  have hpart {part : Byte} (hp : part &&& op.flags = part) : part &&& mask = 0 := Byte.and_eq_zero_of_part hp h
  have hupdate {f : Registers → Byte → Shifted}
      (hzn : (Flag.zero ||| Flag.negative) &&& op.flags = Flag.zero ||| Flag.negative)
      (hf : ∀ v, (f r v).registers.status.meets mask = r.status.meets mask) :
      (operand.update r f).Ensures fun _ outcome => outcome.registers.status.meets mask = r.status.meets mask := by
    have hz : Flag.zero &&& mask = 0 := Byte.and_eq_zero_of_part (by decide) (hpart hzn)
    have hn : Flag.negative &&& mask = 0 := Byte.and_eq_zero_of_part (by decide) (hpart hzn)
    apply Operand.ensures_update <;> intro v
    · simp only [Registers.setA, Registers.setZN, Registers.meets_assign hz, Registers.meets_assign hn, hf]
    · simp only [Registers.setZN, Registers.meets_assign hz, Registers.meets_assign hn, hf]
  have hbranch (flag : Byte) (on : Bool) : (operand.branch r flag on).Ensures fun _ outcome =>
      outcome.registers.status.meets mask = r.status.meets mask :=
    Operand.ensures_branch (fun _ _ => rfl) rfl
  have hall (hop : op.flags = .allOnes 8) : mask = 0 := by
    rw [hop, BitVec.allOnes_and] at h
    exact h
  cases op
  case plp => simp [perform, hall rfl, Byte.meets]
  case rti => simp [perform, hall rfl, Byte.meets]
  case asl => exact hupdate (by decide) fun v => Registers.meets_assign (hpart (by decide)) _
  case lsr => exact hupdate (by decide) fun v => Registers.meets_assign (hpart (by decide)) _
  case rol => exact hupdate (by decide) fun v => Registers.meets_assign (hpart (by decide)) _
  case ror => exact hupdate (by decide) fun v => Registers.meets_assign (hpart (by decide)) _
  case inc => exact hupdate (by decide) fun v => rfl
  case dec => exact hupdate (by decide) fun v => rfl
  all_goals
    simp (disch := exact hpart (by decide)) only [perform, Operand.ensures_consume, Operand.ensures_inspect,
      Operand.ensures_store, hbranch, Registers.finish, Registers.ensures_push, Registers.ensures_pop,
      Registers.ensures_pushWord, Registers.ensures_popWord, Registers.ensures_enterHandler, Registers.entered,
      Registers.setA, Registers.setX, Registers.setY, Registers.setZN, Registers.addWithCarry,
      Registers.subtractWithCarry, Registers.compare, Registers.testBits, Registers.meets_assign,
      Transaction.ensures_bind, Transaction.ensures_done, Transaction.pure_eq, Transaction.ensures_true, implies_true]

/-- The operations that load the status drop the break flag; no other touches it. -/
theorem Operation.ensures_brk (op : Operation) (operand : Operand) {r : Registers}
    (h : r.status.meets Flag.brk = false) :
    (op.perform operand r).Ensures fun _ outcome => outcome.registers.status.meets Flag.brk = false := by
  have hkept (hop : op.flags &&& Flag.brk = 0) :
      (op.perform operand r).Ensures fun _ outcome => outcome.registers.status.meets Flag.brk = false :=
    (op.ensures_flags operand r hop).mono fun _ _ he => he.trans h
  have hrti (p : Byte) : (p &&& ~~~(Flag.brk ||| Flag.unused)).meets Flag.brk = false := by
    revert p
    decide
  have hplp (p : Byte) : ((p ||| Flag.unused) &&& ~~~Flag.brk).meets Flag.brk = false := by
    revert p
    decide
  cases op
  case rti =>
    simp only [perform, Transaction.ensures_bind, Registers.ensures_pop, Registers.ensures_popWord, Registers.finish,
      Transaction.pure_eq, Transaction.ensures_done]
    exact fun p _ _ => hrti p
  case plp =>
    simp only [perform, Transaction.ensures_bind, Registers.ensures_pop, Registers.finish, Transaction.pure_eq,
      Transaction.ensures_done]
    exact hplp
  all_goals exact hkept (by decide)

/-! ## The status register -/

/-- A status byte as a processor keeps it: the unused flag set, the break flag clear. -/
structure Flag.Proper (status : Byte) : Prop where
  unused : status.meets Flag.unused = true
  brk : status.meets Flag.brk = false

theorem Flag.proper_unused : Flag.Proper Flag.unused := ⟨by decide, by decide⟩

theorem Flag.Proper.or_unused {status : Byte} (h : Flag.Proper status) : status ||| Flag.unused = status := by
  have hset : ∀ status : Byte, status.meets Flag.unused = true → status ||| Flag.unused = status := by decide
  exact hset status h.unused

theorem Flag.Proper.assign {r : Registers} {mask : Byte} (h : Flag.Proper r.status)
    (hmask : mask &&& (Flag.unused ||| Flag.brk) = 0) (on : Bool) : Flag.Proper (r.assign mask on).status := by
  have hunused : mask &&& Flag.unused = 0 := by
    rw [BitVec.and_comm] at hmask ⊢
    exact Byte.and_eq_zero_of_part (by decide) hmask
  have hbrk : mask &&& Flag.brk = 0 := by
    rw [BitVec.and_comm] at hmask ⊢
    exact Byte.and_eq_zero_of_part (by decide) hmask
  exact ⟨(Registers.meets_assign hunused on).trans h.unused, (Registers.meets_assign hbrk on).trans h.brk⟩

theorem Registers.meets_unused (r : Registers) : (r.assign Flag.unused true).status.meets Flag.unused = true := by
  have (b : Byte) : (b ||| Flag.unused).meets Flag.unused = true := by
    revert b
    decide
  exact this r.status

/-- The opcode is fetched and the unused flag set; the break flag is as before. -/
theorem Execution.Of.brk_resolved {e : Execution} {p : Processor} (h : e.Of p)
    (hp : p.registers.status.meets Flag.brk = false) : e.resolved.registers.status.meets Flag.brk = false := by
  rw [h.registers_resolved]
  exact (Registers.meets_assign (by decide) true).trans hp

/-- An operation finds the status that the processor had, if that was proper. -/
theorem Execution.Of.status_resolved {e : Execution} {p : Processor} (h : e.Of p)
    (hp : Flag.Proper p.registers.status) : e.resolved.registers.status = p.registers.status := by
  rw [h.registers_resolved]
  exact hp.or_unused

/-- An instruction leaves a proper status. -/
theorem Execution.Of.proper {e : Execution} {p : Processor} (h : e.Of p)
    (hp : p.registers.status.meets Flag.brk = false) : Flag.Proper e.registers.status := by
  have hbrk : e.outcome.registers.status.meets Flag.brk = false :=
    Operation.ensures_brk _ _ (h.brk_resolved hp) _ _ h.perform
  exact ⟨Registers.meets_unused _, (Registers.meets_assign (by decide) true).trans hbrk⟩

/-- One deed. -/
theorem Deed.Lawful.proper {d : Deed} (h : d.Lawful) (hbefore : Flag.Proper d.before.registers.status) :
    Flag.Proper d.after.registers.status := by
  cases h.form with
  | cycle busy => exact hbefore
  | instruction idle parts => exact parts.proper hbefore.brk
  | irq enabled => exact hbefore.assign (by decide) true
  | nmi => exact hbefore.assign (by decide) true
  | reset => exact Flag.proper_unused

/-! ## The journal -/

/-- A journal grew by entries with a proper status. -/
def ProperlyExtends (new old : Option (Array JournalEntry)) : Prop :=
  ∃ added : Array JournalEntry, new = old.map (· ++ added) ∧ ∀ entry ∈ added, Flag.Proper entry.status

theorem ProperlyExtends.refl (journal : Option (Array JournalEntry)) : ProperlyExtends journal journal :=
  ⟨#[], by simp, by simp⟩

theorem ProperlyExtends.trans {new middle old : Option (Array JournalEntry)} (h : ProperlyExtends new middle)
    (h' : ProperlyExtends middle old) : ProperlyExtends new old := by
  obtain ⟨second, rfl, hsecond⟩ := h
  obtain ⟨first, rfl, hfirst⟩ := h'
  refine ⟨first ++ second, ?_, ?_⟩
  · cases old <;> simp
  · intro entry hentry
    rcases Array.mem_append.mp hentry with hentry | hentry
    · exact hfirst entry hentry
    · exact hsecond entry hentry

/-- One deed: only instructions are recorded, with the status they leave. -/
theorem Deed.Lawful.properlyExtends {d : Deed} (h : d.Lawful) (hbefore : Flag.Proper d.before.registers.status) :
    ProperlyExtends d.after.journal d.before.journal := by
  cases h.form with
  | instruction idle parts =>
    rename_i p e
    refine ⟨#[e.entry p], ?_, ?_⟩
    · rfl
    · intro entry hentry
      obtain rfl : entry = e.entry p := by simpa using hentry
      exact parts.proper hbefore.brk
  | _ => exact .refl _

/-- A run. -/
theorem Deeds.properlyExtends {p q : Processor} {deeds : List Deed} (h : Deeds p deeds q)
    (hp : Flag.Proper p.registers.status) : ProperlyExtends q.journal p.journal := by
  induction h with
  | nil p => exact .refl _
  | cons hd _ ih => exact (ih (hd.proper hp)).trans (hd.properlyExtends hp)

/-! ## The stack -/

/-- What is pushed of a proper status is that status, with the break flag as asked. -/
theorem Flag.Proper.pushedStatus {r : Registers} (h : Flag.Proper r.status) (brk : Bool) :
    r.pushedStatus brk &&& ~~~Flag.brk = r.status ∧ (r.pushedStatus brk).meets Flag.unused = true ∧
      (r.pushedStatus brk).meets Flag.brk = brk := by
  have hall : ∀ status : Byte, status.meets Flag.unused = true → status.meets Flag.brk = false →
      ∀ brk : Bool, let pushed := Registers.pushedStatus { status } brk
        pushed &&& ~~~Flag.brk = status ∧ pushed.meets Flag.unused = true ∧ pushed.meets Flag.brk = brk := by
    decide
  exact hall r.status h.unused h.brk brk

/-- The byte that lies on top of the stack when a handler has been entered. -/
theorem Registers.getLast?_writes_entryTraffic (r : Registers) (vector : Addr) (brk : Bool) (low high : Byte) :
    (Access.writes (r.entryTraffic vector brk low high)).getLast? =
      some (.stackPage ((r.entered low high).sp + 1), r.pushedStatus brk) := by
  have hsp : (r.entered low high).sp + 1 = r.sp - 1 - 1 := BitVec.sub_add_cancel _ _
  rw [hsp]
  rfl

/-- The two operations that push the status leave it on top of the stack. -/
theorem Operation.ensures_pushed {op : Operation} (hop : op = .php ∨ op = .brk) (operand : Operand) (r : Registers) :
    (op.perform operand r).Ensures fun traffic outcome =>
      (Access.writes traffic).getLast? = some (.stackPage (outcome.registers.sp + 1), r.pushedStatus true) := by
  rcases hop with rfl | rfl
  · have hsp : r.sp - 1 + 1 = r.sp := BitVec.sub_add_cancel _ _
    simp only [perform, Transaction.ensures_bind, Registers.ensures_push, Registers.finish, Transaction.pure_eq,
      Transaction.ensures_done, hsp]
    rfl
  · simp only [perform, Transaction.ensures_bind, Registers.ensures_enterHandler, Registers.finish,
      Transaction.pure_eq, Transaction.ensures_done, List.append_nil]
    exact fun low high => r.getLast?_writes_entryTraffic irqVector true low high

namespace Deed

/-- The operation that a deed carried out: the byte it read first is the opcode. -/
def operation (d : Deed) : Option Operation :=
  match d.cause, d.traffic with
  | .instruction, .read _ _ opcode :: _ => some (Instruction.ofOpcode opcode).operation
  | _, _ => none

/-- Whether a deed leaves a status byte on the stack. -/
def PushesStatus (d : Deed) : Prop :=
  d.cause = .irq ∨ d.cause = .nmi ∨ d.operation = some .php ∨ d.operation = some .brk

/-- A byte is the status that a deed pushed. -/
structure Pushed (d : Deed) (value : Byte) : Prop where
  /-- It was written last, and lies on top of the stack. -/
  top : (Access.writes d.traffic).getLast? = some (.stackPage (d.after.registers.sp + 1), value)
  /-- It is the status register, but for the break flag. -/
  status : value &&& ~~~Flag.brk = d.before.registers.status
  unused : value.meets Flag.unused = true
  brk_set : value.meets Flag.brk = true ↔ d.operation = some .php ∨ d.operation = some .brk
  brk_clear : value.meets Flag.brk = false ↔ d.cause = .irq ∨ d.cause = .nmi

/-- What lies on top of the stack is the status, if a proper one was pushed as the cause asks. -/
theorem Pushed.of_proper {d : Deed} (r : Registers) (brk : Bool) (hbefore : Flag.Proper d.before.registers.status)
    (hr : r.status = d.before.registers.status)
    (htop : (Access.writes d.traffic).getLast? = some (.stackPage (d.after.registers.sp + 1), r.pushedStatus brk))
    (hset : brk = true ↔ d.operation = some .php ∨ d.operation = some .brk)
    (hclear : brk = false ↔ d.cause = .irq ∨ d.cause = .nmi) : d.Pushed (r.pushedStatus brk) := by
  have hproper : Flag.Proper r.status := hr ▸ hbefore
  obtain ⟨hstatus, hunused, hbrk⟩ := hproper.pushedStatus brk
  refine ⟨htop, hstatus.trans hr, hunused, ?_, ?_⟩
  · rw [hbrk]
    exact hset
  · rw [hbrk]
    exact hclear

/-- **The break flag on the stack tells instructions from interrupts.** -/
theorem Lawful.pushes {d : Deed} (h : d.Lawful) (hbefore : Flag.Proper d.before.registers.status)
    (hpush : d.PushesStatus) : ∃ value, d.Pushed value := by
  cases h.form with
  | cycle busy => rcases hpush with hc | hc | hc | hc <;> cases hc
  | reset => rcases hpush with hc | hc | hc | hc <;> cases hc
  | irq enabled =>
    rename_i p low high
    have htop := p.registers.getLast?_writes_entryTraffic irqVector false low high
    exact ⟨_, .of_proper p.registers false hbefore rfl htop (by simp [operation]) (by simp)⟩
  | nmi =>
    rename_i p low high
    have htop := p.registers.getLast?_writes_entryTraffic nmiVector false low high
    exact ⟨_, .of_proper p.registers false hbefore rfl htop (by simp [operation]) (by simp)⟩
  | instruction idle parts =>
    rename_i p e
    have hoperation : operation ⟨.instruction, p, e.traffic p, e.result p⟩ = some e.instruction.operation := rfl
    have hop : e.instruction.operation = .php ∨ e.instruction.operation = .brk := by
      rcases hpush with hc | hc | hc | hc
      · cases hc
      · cases hc
      · exact .inl (Option.some.inj (hoperation.symm.trans hc))
      · exact .inr (Option.some.inj (hoperation.symm.trans hc))
    have htop := Operation.ensures_pushed hop _ _ _ _ parts.perform
    refine ⟨_, .of_proper e.resolved.registers true hbefore (parts.status_resolved hbefore) ?_ ?_ ?_⟩
    · rw [Execution.traffic, Access.writes_read, Access.writes_append, parts.writes_operandTraffic, List.nil_append]
      exact htop
    · rw [hoperation]
      simpa using hop
    · simp

end Deed

/-! ## Runs -/

/-- **The status of a processor that has been reset.** Whatever requests it serves, and whatever the bus answers: the
unused flag is set and the break flag clear, in the status register and in every entry of the journal. What it does is
its deeds, and the traffic is theirs. Each deed that pushes the status pushes it with the unused flag set, and with the
break flag set if it is an instruction and clear if it is an interrupt. -/
theorem Processor.status_proper {β : Type} [Bus β] (p : Processor) (bus : β) (requests : List Request) :
    let start := p.reset.run bus
    let run := (start.1.serveAll requests).run (Monitored.mk start.2 #[])
    let deeds := start.1.deeds requests start.2
    Flag.Proper run.1.2.registers.status ∧ ProperlyExtends run.1.2.journal p.journal ∧
      Deeds start.1 deeds run.1.2 ∧ run.2.log.toList = deeds.flatMap Deed.traffic ∧
      ∀ d ∈ deeds, d.PushesStatus → ∃ value, d.Pushed value := by
  intro start run deeds
  obtain ⟨hlog, hdeeds⟩ := run_deeds start.1 requests start.2
  have hreset : Flag.Proper start.1.registers.status ∧ start.1.journal = p.journal := by
    have hensures : p.reset.Ensures fun _ q => Flag.Proper q.registers.status ∧ q.journal = p.journal :=
      ensures_reset.mpr fun _ _ => ⟨Flag.proper_unused, rfl⟩
    exact hensures.run bus
  obtain ⟨hpushes, hproper⟩ := hdeeds.preserves (I := fun p => Flag.Proper p.registers.status)
    (G := fun d => d.PushesStatus → ∃ value, d.Pushed value)
    (fun d hd hbefore => ⟨hd.pushes hbefore, hd.proper hbefore⟩) hreset.1
  exact ⟨hproper, hreset.2 ▸ hdeeds.properlyExtends hreset.1, hdeeds, hlog, hpushes⟩

end Nes
