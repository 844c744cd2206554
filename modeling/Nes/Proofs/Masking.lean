import Nes.Proofs.Interrupts

/-!
# Requests in a handler

Whatever enters a handler disables requests (`Deed.Lawful.masks`). Three operations can enable them again, and no other
deed but a reset does (`Deed.Lawful.keeps_masked`), although many of them write the status register.

`Processor.requests_stay_masked` says this of every run: until one of the three is executed, requests are neither taken
nor noticed.
-/

namespace Nes

/-- Whether an operation can enable requests. -/
def Operation.canEnable : Operation → Bool
  | .cli | .plp | .rti => true
  | _ => false

namespace Deed

/-- A handler is entered: by an interrupt that is taken, or by the instruction that breaks. -/
def EntersHandler (d : Deed) : Prop := d.cause = .irq ∨ d.cause = .nmi ∨ d.operation = some .brk

/-- An instruction is carried out that can enable requests. -/
def CanEnable (d : Deed) : Prop := ∃ op, d.operation = some op ∧ op.canEnable = true

end Deed

/-! ## One deed -/

/-- The instruction that breaks disables requests. -/
theorem Operation.ensures_masked_brk (operand : Operand) (r : Registers) :
    (Operation.brk.perform operand r).Ensures fun _ outcome => outcome.registers.isSet Flag.irqDisable = true := by
  simp only [perform, Transaction.ensures_bind, Registers.ensures_enterHandler, Registers.finish, Transaction.pure_eq,
    Transaction.ensures_done]
  intro low high
  exact Registers.isSet_assign r (by decide)

/-- Of the operations that write the flag, three can clear it. -/
theorem Operation.ensures_masked {op : Operation} (hop : op.canEnable = false) (operand : Operand) {r : Registers}
    (h : r.isSet Flag.irqDisable = true) :
    (op.perform operand r).Ensures fun _ outcome => outcome.registers.isSet Flag.irqDisable = true := by
  have hkept (hflags : op.flags &&& Flag.irqDisable = 0) :
      (op.perform operand r).Ensures fun _ outcome => outcome.registers.isSet Flag.irqDisable = true :=
    (op.ensures_flags operand r hflags).mono fun _ _ hsame => hsame.trans h
  cases op
  case cli => cases hop
  case plp => cases hop
  case rti => cases hop
  case brk => exact ensures_masked_brk operand r
  case sei =>
    rw [perform, Registers.finish, Transaction.pure_eq, Transaction.ensures_done]
    exact r.isSet_assign (by decide)
  all_goals exact hkept (by decide)

namespace Deed.Lawful

variable {d : Deed}

/-- Whatever enters a handler disables requests. -/
theorem masks (h : d.Lawful) (henters : d.EntersHandler) : d.after.registers.isSet Flag.irqDisable = true := by
  cases h.form with
  | cycle busy => rcases henters with hc | hc | hc <;> cases hc
  | reset => rcases henters with hc | hc | hc <;> cases hc
  | irq enabled => exact Registers.isSet_assign _ (by decide)
  | nmi => exact Registers.isSet_assign _ (by decide)
  | instruction idle parts =>
    rename_i p e
    have hop : e.instruction.operation = .brk := by
      rcases henters with hc | hc | hc
      · cases hc
      · cases hc
      · exact Option.some.inj hc
    have hperform := parts.perform
    rw [hop] at hperform
    have hset := Operation.ensures_masked_brk _ _ _ _ hperform
    exact (Registers.meets_assign (by decide) true).trans hset

/-- Requests stay disabled, but for three operations and a reset. -/
theorem keeps_masked (h : d.Lawful) (hreset : d.cause ≠ .reset) (hquiet : ¬d.CanEnable)
    (hbefore : d.before.registers.isSet Flag.irqDisable = true) : d.after.registers.isSet Flag.irqDisable = true := by
  cases h.form with
  | cycle busy => exact hbefore
  | reset => exact absurd rfl hreset
  | irq enabled => exact Registers.isSet_assign _ (by decide)
  | nmi => exact Registers.isSet_assign _ (by decide)
  | instruction idle parts =>
    rename_i p e
    have hop : e.instruction.operation.canEnable = false := by
      cases hcan : e.instruction.operation.canEnable with
      | false => rfl
      | true => exact absurd ⟨_, rfl, hcan⟩ hquiet
    -- the unused flag is set before and after, and is another one
    have hresolved : e.resolved.registers.isSet Flag.irqDisable = true := by
      rw [parts.registers_resolved]
      exact (Registers.meets_assign (by decide) true).trans hbefore
    have hset := Operation.ensures_masked hop _ hresolved _ _ parts.perform
    exact (Registers.meets_assign (by decide) true).trans hset

end Deed.Lawful

/-! ## Runs -/

/-- Cycles enable nothing, and are no entry. -/
theorem Deed.cause_ne_cycle {d : Deed} (h : d.EntersHandler ∨ d.CanEnable) : d.cause ≠ .cycle := by
  intro hcycle
  rcases h with (hc | hc | hc) | ⟨op, hc, -⟩
  · cases hcycle.symm.trans hc
  · cases hcycle.symm.trans hc
  · cases hcycle.symm.trans (cause_of_operation hc)
  · cases hcycle.symm.trans (cause_of_operation hc)

/-- Requests stay disabled along deeds that cannot enable them, so none is taken. -/
theorem Deeds.keep_masked {p q : Processor} {deeds : List Deed} (h : Deeds p deeds q)
    (hreset : ∀ d ∈ deeds, d.cause ≠ .reset) (hquiet : ∀ d ∈ deeds, ¬d.CanEnable)
    (hp : p.registers.isSet Flag.irqDisable = true) :
    (∀ d ∈ deeds, d.cause ≠ .irq ∧ d.after.registers.isSet Flag.irqDisable = true) ∧
      q.registers.isSet Flag.irqDisable = true := by
  apply h.preserves_on (I := fun p => p.registers.isSet Flag.irqDisable = true) ?_ hp
  intro d hd hlawful hbefore
  have hafter := hlawful.keeps_masked (hreset d hd) (hquiet d hd) hbefore
  refine ⟨⟨?_, hafter⟩, hafter⟩
  intro hirq
  have hheeds := hlawful.heeded
  rw [hirq, Processor.heeds, hbefore] at hheeds
  cases hheeds

namespace Processor

variable {β : Type} [Bus β] {p : Processor} {bus : β}

/-- Requests are disabled when a request has been served that entered a handler. -/
theorem masked_of_entered {entry : Request} (hentry : ∃ d ∈ p.deeds [entry] bus, d.EntersHandler) :
    ((p.serve entry).run bus).1.2.registers.isSet Flag.irqDisable = true := by
  obtain ⟨d, hd, henters⟩ := hentry
  have hdeeds : Deeds p (p.deeds [entry] bus) ((p.serve entry).run bus).1.2 := by
    have hlead := p.lead_deeds [entry] bus
    simpa only [serveAll, Transaction.run_bind, Transaction.pure_eq, Transaction.run_done] using hlead
  obtain ⟨before, main, after, hcycles, hmain, hsplit⟩ := p.deeds_request entry bus
  have hcycle : d.cause ≠ .cycle := Deed.cause_ne_cycle (.inl henters)
  have hd : d ∈ main := by
    rw [hsplit, List.append_assoc, List.mem_append, List.mem_append] at hd
    rcases hd with hd | hd | hd
    · exact absurd (hcycles d (List.mem_append_left _ hd)) hcycle
    · exact hd
    · exact absurd (hcycles d (List.mem_append_right _ hd)) hcycle
  rcases hmain with rfl | ⟨d', rfl, -⟩
  · cases hd
  · obtain rfl := List.mem_singleton.mp hd
    rw [hsplit, List.append_assoc, List.singleton_append] at hdeeds
    obtain ⟨hlawful, hrest⟩ := hdeeds.of_append_cons
    have hafter : ∀ d ∈ after, d.cause = .cycle := fun d hd => hcycles d (List.mem_append_right _ hd)
    refine (hrest.keep_masked ?_ ?_ (hlawful.masks henters)).2
    · intro d hd hreset
      cases (hafter d hd).symm.trans hreset
    · intro d hd hquiet
      exact Deed.cause_ne_cycle (.inr hquiet) (hafter d hd)

/-- A request that is disabled is not noticed: nothing changes, and the bus sees nothing. -/
theorem serve_irq_of_masked (h : p.registers.isSet Flag.irqDisable = true) : p.serve .irq = .done (none, p) := by
  rw [serve, irq, if_pos h]
  rfl

/-- A request that is enabled is one deed. -/
theorem deeds_irq (h : p.registers.isSet Flag.irqDisable = false) :
    p.deeds [.irq] bus = [⟨.irq, p, p.irq.traffic bus, (p.irq.run bus).1⟩] := by
  simp only [deeds, tellAll, tellServe, h, Bool.false_eq_true, if_false, Telling.followedBy, Transaction.run_bind, run_tell]
  rfl

/-- **No request is taken in a handler.** A processor enters a handler, by a request that it takes, by a non-maskable
interrupt or by the instruction that breaks, and then serves anything but a reset. As long as no instruction is carried
out that can enable requests, they stay disabled after every deed, and no deed is a request taken. At every point between,
a request changes nothing in the processor and makes no access to the bus. -/
theorem requests_stay_masked (p : Processor) (bus : β) (entry : Request) (requests : List Request)
    (hentry : ∃ d ∈ p.deeds [entry] bus, d.EntersHandler) (hreset : .reset ∉ requests) :
    let start := (p.serve entry).run bus
    (∀ d ∈ start.1.2.deeds requests start.2, ¬d.CanEnable) →
      (∀ d ∈ start.1.2.deeds requests start.2, d.cause ≠ .irq ∧ d.after.registers.isSet Flag.irqDisable = true) ∧
      ∀ served, served <+: requests →
        let now := (start.1.2.serveAll served).run start.2
        now.1.2.registers.isSet Flag.irqDisable = true ∧
          (now.1.2.serve .irq).run now.2 = ((none, now.1.2), now.2) ∧ (now.1.2.serve .irq).traffic now.2 = [] := by
  intro start hquiet
  have hstart : start.1.2.registers.isSet Flag.irqDisable = true := masked_of_entered hentry
  have hnoReset : ∀ d ∈ start.1.2.deeds requests start.2, d.cause ≠ .reset := by
    intro d hd hcause
    rcases cause_of_mem_deeds hd with hc | ⟨request, hrequest, hc⟩
    · cases hc.symm.trans hcause
    · cases request with
      | reset => exact hreset hrequest
      | _ => cases hc.symm.trans hcause
  refine ⟨((start.1.2.lead_deeds requests start.2).keep_masked hnoReset hquiet hstart).1, ?_⟩
  rintro served ⟨rest, rfl⟩ now
  have hpart : ∀ d ∈ start.1.2.deeds served start.2, d ∈ start.1.2.deeds (served ++ rest) start.2 := by
    intro d hd
    rw [deeds_append]
    exact List.mem_append_left _ hd
  have hnow : now.1.2.registers.isSet Flag.irqDisable = true :=
    ((start.1.2.lead_deeds served start.2).keep_masked (fun d hd => hnoReset d (hpart d hd))
      (fun d hd => hquiet d (hpart d hd)) hstart).2
  have hirq := serve_irq_of_masked hnow
  refine ⟨hnow, ?_, ?_⟩
  · rw [hirq, Transaction.run_done]
  · rw [hirq, Transaction.traffic_done]

/-- In a handler that begins with no operation, a request, a step and a request enable nothing. -/
theorem not_canEnable_of_nop {m : FlatMemory} (hmasked : p.registers.isSet Flag.irqDisable = true)
    (hopcode : m.peek p.registers.pc = 0xEA) : ∀ d ∈ p.deeds [.irq, .step, .irq] m, ¬d.CanEnable := by
  have hirq {q : Processor} {m' : FlatMemory} : ∀ d ∈ q.deeds [.irq] m', ¬d.CanEnable := by
    rintro d hd ⟨op, hop, -⟩
    have hcause := Deed.cause_of_operation hop
    rcases cause_of_mem_deeds hd with hc | ⟨request, hrequest, hc⟩
    · cases hc.symm.trans hcause
    · obtain rfl := List.mem_singleton.mp hrequest
      cases hc.symm.trans hcause
  have hoperation : (p.execution m).instruction.operation = .nop := by
    have hbyte : (p.execution m).opcode = 0xEA := hopcode
    rw [Execution.instruction, hbyte]
    rfl
  intro d hd
  rw [deeds_cons p .irq [.step, .irq], serve_irq_of_masked hmasked, Transaction.run_done, deeds_cons p .step [.irq],
    List.mem_append, List.mem_append] at hd
  rcases hd with hd | hd | hd
  · exact hirq d hd
  · rintro ⟨op, hop, hcan⟩
    rw [operation_of_mem_deeds_step hd hop, hoperation] at hcan
    cases hcan
  · exact hirq d hd

/-- Where all is no operation, a request is answered by no operation. -/
theorem peek_pc_irq_filled (hproper : Flag.Proper p.registers.status)
    (henabled : p.registers.isSet Flag.irqDisable = false) :
    let start := (p.serve .irq).run (FlatMemory.filled 0xEA)
    start.2.peek start.1.2.registers.pc = 0xEA := by
  intro start
  have hpeek (addr : Addr) (haddr : 0x200 ≤ addr.toNat) : start.2.peek addr = 0xEA :=
    (Interrupt.irq.peek_serve_flat hproper henabled haddr).trans (FlatMemory.peek_filled _ _)
  have hpc : start.1.2.registers.pc = .ofBytes (start.2.peek 0xFFFE) (start.2.peek (0xFFFE + 1)) :=
    Interrupt.irq.pc_serve_flat hproper henabled
  rw [hpc, hpeek 0xFFFE (by decide), hpeek (0xFFFE + 1) (by decide)]
  exact hpeek _ (by decide)

def sampleRequested : Processor := { registers := { sp := 0x01, pc := 0x1234, status := 0x61 } }

theorem requests_stay_masked_sample :
    let start := (sampleRequested.serve .irq).run (FlatMemory.filled 0xEA)
    let now := (start.1.2.serveAll [.irq, .step]).run start.2
    now.1.2.registers.isSet Flag.irqDisable = true ∧
      (now.1.2.serve .irq).run now.2 = ((none, now.1.2), now.2) ∧ (now.1.2.serve .irq).traffic now.2 = [] := by
  have hproper : Flag.Proper sampleRequested.registers.status := ⟨by decide, by decide⟩
  have henabled : sampleRequested.registers.isSet Flag.irqDisable = false := by decide
  have hentry : ∃ d ∈ sampleRequested.deeds [.irq] (FlatMemory.filled 0xEA), d.EntersHandler := by
    rw [deeds_irq henabled]
    exact ⟨_, List.mem_singleton_self _, .inl rfl⟩
  have hquiet := not_canEnable_of_nop (masked_of_entered hentry) (peek_pc_irq_filled hproper henabled)
  have hreset : Request.reset ∉ [Request.irq, .step, .irq] := by decide
  exact (requests_stay_masked sampleRequested _ .irq [.irq, .step, .irq] hentry hreset hquiet).2 [.irq, .step]
    ⟨[.irq], rfl⟩

end Processor

end Nes
