import Nes.Proofs.StatusFlags

/-!
# Steps

A step carries out one instruction, and everything else in it is cycles that pass.

* On a given bus the instruction at hand has its parts (`Processor.execution`): they are what `Processor.execute` does
  there, to the processor (`Processor.run_execute`) and to the bus (`Processor.traffic_execute`).
* The deeds of a step are cycles, but for the one that carries out this instruction (`Processor.deeds_step`).
* The deeds of a run are those of its first requests and then those of the others (`Processor.deeds_append`). So an
  instruction of a run of steps was at hand after some number of them (`Processor.mem_deedsOfSteps`).
-/

namespace Nes

/-- What a request makes a processor do, besides cycles. -/
def Request.cause : Request → Cause
  | .clock | .step => .instruction
  | .irq => .irq
  | .nmi => .nmi
  | .reset => .reset

theorem Deed.cause_of_operation {d : Deed} {op : Operation} (h : d.operation = some op) : d.cause = .instruction := by
  unfold operation at h
  split at h
  · next hcause _ => exact hcause
  · cases h

namespace Processor

variable {β : Type} [Bus β]

/-! ## The instruction at hand -/

/-- The parts of the instruction that a processor finds on a bus. -/
def execution (p : Processor) (bus : β) : Execution :=
  let fetch := Bus.read .live p.registers.pc bus
  let instruction := Instruction.ofOpcode fetch.1
  let resolve := instruction.mode.resolve (Execution.fetched p)
  let resolved := resolve.run fetch.2
  let perform := instruction.operation.perform resolved.1.operand resolved.1.registers
  ⟨fetch.1, resolved.1, (perform.run resolved.2).1, resolve.traffic fetch.2, perform.traffic resolved.2⟩

theorem execution_of (p : Processor) (bus : β) : (p.execution bus).Of p :=
  ⟨Transaction.canEnd_traffic _ _, Transaction.canEnd_traffic _ _⟩

/-- The word behind an opcode. -/
theorem run_operandWord (p : Processor) (bus : β) :
    let r := p.registers
    let low := Bus.read .live (r.pc + 1) bus
    let high := Bus.read .live (r.pc + 2) low.2
    (Execution.fetched p).fetchWord.run bus =
      ((.ofBytes low.1 high.1, { Execution.fetched p with pc := r.pc + 3 }), high.2) ∧
    (Execution.fetched p).fetchWord.traffic bus = [.read .live (r.pc + 1) low.1, .read .live (r.pc + 2) high.1] := by
  intro r low high
  have hpc₂ : r.pc + 1 + 1 = r.pc + 2 := by bv_omega
  have hpc₃ : r.pc + 1 + 1 + 1 = r.pc + 3 := by bv_omega
  simp only [high, ← hpc₂, ← hpc₃]
  exact ⟨rfl, rfl⟩

theorem run_execute (p : Processor) (bus : β) : (p.execute.run bus).1 = (p.execution bus).result p := by
  simp only [execute, Registers.fetch, Transaction.read, Transaction.reading_bind, Transaction.done_bind,
    Transaction.pure_eq, Transaction.run_bind, Transaction.run_reading, Transaction.run_done]
  rfl

theorem traffic_execute (p : Processor) (bus : β) : p.execute.traffic bus = (p.execution bus).traffic p := by
  simp only [execute, Registers.fetch, Transaction.read, Transaction.reading_bind, Transaction.done_bind,
    Transaction.pure_eq, Transaction.traffic_bind, Transaction.traffic_reading, Transaction.traffic_done,
    List.append_nil]
  rfl

/-- The bus when the instruction at hand has been carried out. -/
theorem run_execute_snd (p : Processor) (bus : β) :
    let e := p.execution bus
    let resolve := e.instruction.mode.resolve (Execution.fetched p)
    let perform := e.instruction.operation.perform e.resolved.operand e.resolved.registers
    (p.execute.run bus).2 = (perform.run (resolve.run (Bus.read .live p.registers.pc bus).2).2).2 := by
  simp only [execute, Registers.fetch, Transaction.read, Transaction.reading_bind, Transaction.done_bind,
    Transaction.pure_eq, Transaction.run_bind, Transaction.run_reading, Transaction.run_done]
  rfl

/-- What a step does on the bus is what its instruction does. -/
theorem step_eq (p : Processor) : p.step = p.settled.execute >>= fun q =>
    .done (q.tick.cycles + 1, q.tick.elapse q.tick.cycles) := by
  have hsettled : p.clocks p.cycles = .done p.settled := clocks_of_le (Nat.le_refl _)
  have hrest (q : Processor) : q.clocks q.cycles = .done (q.elapse q.cycles) := clocks_of_le (Nat.le_refl _)
  simp only [step, hsettled, hrest, clock_of_complete p.complete_settled, Transaction.done_bind,
    Transaction.andThen_assoc, Transaction.pure_eq]

theorem traffic_step (p : Processor) (bus : β) : p.step.traffic bus = (p.execution bus).traffic p := by
  rw [step_eq, Transaction.traffic_bind, Transaction.traffic_done, List.append_nil, traffic_execute]
  rfl

theorem traffic_serve_step (p : Processor) (bus : β) : (p.serve .step).traffic bus = p.step.traffic bus := by
  simp only [serve, Transaction.traffic_bind, Transaction.pure_eq, Transaction.traffic_done, List.append_nil]

theorem next_fst (p : Processor) (bus : β) : (p.next bus).1 = (p.execution bus).result p.settled :=
  p.settled.run_execute bus

/-- The processor when a step has ended. -/
def stepped (p : Processor) (bus : β) : Processor := ((p.execution bus).result p.settled).settled

@[simp] theorem registers_stepped (p : Processor) (bus : β) : (p.stepped bus).registers = (p.execution bus).registers :=
  rfl

theorem run_serve_step (p : Processor) (bus : β) :
    (p.serve .step).run bus = ((some (p.execution bus).cost, p.stepped bus), (p.next bus).2) := by
  simp only [serve, Transaction.run_bind, run_step, next_fst, Transaction.pure_eq, Transaction.run_done]
  rfl

/-- What a step leaves: nothing in flight, and one more entry in the journal. -/
theorem stepped_eq (p : Processor) (bus : β) : p.stepped bus =
    ⟨(p.execution bus).registers, 0, p.clockCount + p.cycles + (p.execution bus).cost,
      p.journal.map (·.push ((p.execution bus).entry p.settled))⟩ := by
  have hcycles : (p.stepped bus).cycles = 0 := Nat.sub_self (p.execution bus).cost
  rw [← hcycles]
  rfl

/-- A step that is watched. -/
theorem run_step_monitored (p : Processor) (bus : β) : p.step.run (Monitored.mk bus #[]) =
    (((p.execution bus).cost, p.stepped bus), ⟨(p.next bus).2, ((p.execution bus).traffic p).toArray⟩) := by
  rw [Transaction.run_monitored, run_step, traffic_step, next_fst]
  rfl

/-! ## The deeds of a step -/

/-- The instruction of a step as a deed. -/
def carried (p : Processor) (bus : β) : Deed :=
  ⟨.instruction, p.settled, (p.execution bus).traffic p, (p.execution bus).result p.settled⟩

@[simp] theorem operation_carried (p : Processor) (bus : β) :
    (p.carried bus).operation = some (p.execution bus).instruction.operation := rfl

theorem tell_cycle (p : Processor) : p.tell .cycle = .done ([⟨.cycle, p, [], p.tick⟩], p.tick) := rfl

theorem run_tell (p : Processor) (cause : Cause) (bus : β) : (p.tell cause).run bus =
    (([⟨cause, p, (p.act cause).traffic bus, ((p.act cause).run bus).1⟩], ((p.act cause).run bus).1),
      ((p.act cause).run bus).2) := by
  simp only [tell, Transaction.run_bind, Transaction.run_recorded, Transaction.pure_eq, Transaction.run_done]

/-- While something is in flight, cycles are all there is to tell. -/
theorem tellClocks_of_le {p : Processor} {n : Nat} (h : n ≤ p.cycles) :
    ∃ told, (∀ d ∈ told, d.cause = .cycle) ∧ p.tellClocks n = .done (told, p.elapse n) := by
  induction n generalizing p with
  | zero => exact ⟨[], by simp, rfl⟩
  | succ n ih =>
    have hrest : n ≤ p.tick.cycles := Nat.le_sub_of_add_le h
    have hbusy : p.complete = false := by
      simp only [complete, beq_eq_false_iff_ne]
      omega
    obtain ⟨told, hcycles, htold⟩ := ih hrest
    refine ⟨⟨.cycle, p, [], p.tick⟩ :: told, ?_, ?_⟩
    · simpa using hcycles
    · simp [tellClocks, tellClock, hbusy, tell_cycle, Telling.followedBy, htold, elapse_tick]

/-- **A step carries out one instruction**; all else is cycles. -/
theorem deeds_step (p : Processor) (bus : β) : ∃ before after,
    (∀ d ∈ before ++ after, d.cause = .cycle) ∧ p.deeds [.step] bus = before ++ p.carried bus :: after := by
  obtain ⟨before, hbefore, htold⟩ := tellClocks_of_le (Nat.le_refl p.cycles)
  have hcomplete : (p.elapse p.cycles).complete = true := p.complete_settled
  have hact : ((p.elapse p.cycles).act .instruction).run bus = p.next bus := rfl
  have htraffic : ((p.elapse p.cycles).act .instruction).traffic bus = (p.execution bus).traffic p :=
    p.settled.traffic_execute bus
  obtain ⟨after, hafter, htold'⟩ := tellClocks_of_le (Nat.le_refl ((p.execution bus).result p.settled).tick.cycles)
  refine ⟨before, ⟨.cycle, (p.execution bus).result p.settled, [], ((p.execution bus).result p.settled).tick⟩ :: after,
    ?_, ?_⟩
  · intro d hd
    simp only [List.mem_append, List.mem_cons] at hd
    rcases hd with hd | rfl | hd
    · exact hbefore d hd
    · rfl
    · exact hafter d hd
  · simp only [deeds, tellAll, tellServe, tellClock, Telling.followedBy, htold, hcomplete, if_true, Transaction.done_bind,
      Transaction.run_bind, run_tell, hact, htraffic, next_fst, tell_cycle, htold', Transaction.pure_eq, Transaction.run_done]
    simp [carried, settled]

/-- The operation of a step is that of the instruction at hand. -/
theorem operation_of_mem_deeds_step {p : Processor} {bus : β} {d : Deed} {op : Operation} (hd : d ∈ p.deeds [.step] bus)
    (hop : d.operation = some op) : op = (p.execution bus).instruction.operation := by
  obtain ⟨before, after, hcycles, hdeeds⟩ := p.deeds_step bus
  have hcause : d.cause = .instruction := Deed.cause_of_operation hop
  rw [hdeeds, List.mem_append, List.mem_cons] at hd
  rcases hd with hd | rfl | hd
  · cases hcause.symm.trans (hcycles d (List.mem_append_left _ hd))
  · exact (Option.some.inj hop).symm
  · cases hcause.symm.trans (hcycles d (List.mem_append_right _ hd))

/-! ## The deeds of a request -/

/-- A request leads to one deed at most that is not a cycle. -/
theorem deeds_request (p : Processor) (request : Request) (bus : β) : ∃ before main after,
    (∀ d ∈ before ++ after, d.cause = .cycle) ∧ (main = [] ∨ ∃ d, main = [d] ∧ d.cause = request.cause) ∧
      p.deeds [request] bus = before ++ main ++ after := by
  have hdeeds : p.deeds [request] bus = ((p.tellServe request).run bus).1.1 := by
    simp [deeds, tellAll, Telling.followedBy]
  cases request with
  | clock =>
    rw [hdeeds, tellServe, tellClock]
    cases p.complete with
    | false => exact ⟨[⟨.cycle, p, [], p.tick⟩], [], [], by simp, .inl rfl, rfl⟩
    | true =>
      let d : Deed := ⟨.instruction, p, p.execute.traffic bus, (p.execute.run bus).1⟩
      refine ⟨[], [d], [⟨.cycle, d.after, [], d.after.tick⟩], by simp, .inr ⟨d, rfl, rfl⟩, ?_⟩
      simp only [if_true, Telling.followedBy, Transaction.run_bind, run_tell, tell_cycle]
      rfl
  | step =>
    obtain ⟨before, after, hcycles, hstep⟩ := p.deeds_step bus
    exact ⟨before, [p.carried bus], after, hcycles, .inr ⟨_, rfl, rfl⟩, by simpa using hstep⟩
  | irq =>
    rw [hdeeds, tellServe]
    split
    · exact ⟨[], [], [], by simp, .inl rfl, rfl⟩
    · rw [run_tell]
      exact ⟨[], _, [], by simp, .inr ⟨_, rfl, rfl⟩, rfl⟩
  | nmi =>
    rw [hdeeds, tellServe, run_tell]
    exact ⟨[], _, [], by simp, .inr ⟨_, rfl, rfl⟩, rfl⟩
  | reset =>
    rw [hdeeds, tellServe, run_tell]
    exact ⟨[], _, [], by simp, .inr ⟨_, rfl, rfl⟩, rfl⟩

/-! ## The deeds of a run -/

theorem run_tellServe (p : Processor) (request : Request) (bus : β) : (p.tellServe request).run bus =
    ((p.deeds [request] bus, ((p.serve request).run bus).1.2), ((p.serve request).run bus).2) := by
  have hforget := congrArg (·.run bus) (p.forget_tellServe request)
  simp only [Telling.forget, Transaction.run_bind, Transaction.pure_eq, Transaction.run_done] at hforget
  obtain ⟨hprocessor, hbus⟩ := Prod.mk.inj hforget
  have hdeeds : p.deeds [request] bus = ((p.tellServe request).run bus).1.1 := by
    simp [deeds, tellAll, Telling.followedBy]
  rw [hdeeds, ← hprocessor, ← hbus]

theorem deeds_cons (p : Processor) (request : Request) (rest : List Request) (bus : β) :
    p.deeds (request :: rest) bus = p.deeds [request] bus ++
      ((p.serve request).run bus).1.2.deeds rest ((p.serve request).run bus).2 := by
  rw [deeds, tellAll, Telling.followedBy, Transaction.run_bind, run_tellServe, Transaction.run_bind]
  rfl

/-- The deeds of a run are those of its first part and then those of the rest. -/
theorem deeds_append (p : Processor) (first rest : List Request) (bus : β) :
    p.deeds (first ++ rest) bus = p.deeds first bus ++
      ((p.serveAll first).run bus).1.2.deeds rest ((p.serveAll first).run bus).2 := by
  induction first generalizing p bus with
  | nil => rfl
  | cons request first ih =>
    rw [List.cons_append, deeds_cons, ih, deeds_cons p request first, List.append_assoc]
    simp only [serveAll, Transaction.run_bind, Transaction.pure_eq, Transaction.run_done]

/-- What is done is a cycle, or asked for. -/
theorem cause_of_mem_deeds {p : Processor} {requests : List Request} {bus : β} {d : Deed}
    (h : d ∈ p.deeds requests bus) : d.cause = .cycle ∨ ∃ request ∈ requests, d.cause = request.cause := by
  induction requests generalizing p bus with
  | nil => cases h
  | cons request rest ih =>
    rw [deeds_cons, List.mem_append] at h
    rcases h with h | h
    · obtain ⟨before, main, after, hcycles, hmain, hdeeds⟩ := p.deeds_request request bus
      rw [hdeeds, List.append_assoc, List.mem_append, List.mem_append] at h
      rcases h with h | h | h
      · exact .inl (hcycles d (List.mem_append_left _ h))
      · rcases hmain with rfl | ⟨d', rfl, hcause⟩
        · cases h
        · exact .inr ⟨request, List.mem_cons_self, List.mem_singleton.mp h ▸ hcause⟩
      · exact .inl (hcycles d (List.mem_append_right _ h))
    · rcases ih h with hcycle | ⟨asked, hasked, hcause⟩
      · exact .inl hcycle
      · exact .inr ⟨asked, List.mem_cons_of_mem _ hasked, hcause⟩

/-! ## Runs of steps -/

/-- A number of steps, one after the other. -/
def steps (p : Processor) (n : Nat) : Transaction (List (Option Nat) × Processor) := p.serveAll (.replicate n .step)

/-- The processor and the bus after a number of steps. -/
def after (p : Processor) (n : Nat) (bus : β) : Processor × β := (((p.steps n).run bus).1.2, ((p.steps n).run bus).2)

/-- The deeds of a number of steps. -/
def deedsOfSteps (p : Processor) (n : Nat) (bus : β) : List Deed := p.deeds (.replicate n .step) bus

@[simp] theorem after_zero (p : Processor) (bus : β) : p.after 0 bus = (p, bus) := rfl

theorem steps_succ (p : Processor) (n : Nat) : p.steps (n + 1) = do
    let (costs, q) ← p.steps n
    let (cost, q) ← q.serve .step
    return (costs ++ [cost], q) := by
  simp [steps, List.replicate_succ', serveAll_append, serveAll]

/-- One step more. -/
theorem run_steps_succ (p : Processor) (n : Nat) (bus : β) : (p.steps (n + 1)).run bus =
    let q := p.after n bus
    ((((p.steps n).run bus).1.1 ++ [some (q.1.execution q.2).cost], q.1.stepped q.2), (q.1.next q.2).2) := by
  simp only [steps_succ, Transaction.run_bind, run_serve_step, Transaction.pure_eq, Transaction.run_done]
  rfl

theorem after_succ (p : Processor) (n : Nat) (bus : β) : p.after (n + 1) bus =
    ((p.after n bus).1.stepped (p.after n bus).2, ((p.after n bus).1.next (p.after n bus).2).2) := by
  rw [after, run_steps_succ]

theorem traffic_steps_succ (p : Processor) (n : Nat) (bus : β) : (p.steps (n + 1)).traffic bus =
    (p.steps n).traffic bus ++ (p.after n bus).1.step.traffic (p.after n bus).2 := by
  simp only [steps_succ, Transaction.traffic_bind, traffic_serve_step, Transaction.pure_eq, Transaction.traffic_done,
    List.append_nil]
  rfl

theorem deedsOfSteps_succ (p : Processor) (n : Nat) (bus : β) : p.deedsOfSteps (n + 1) bus =
    p.deedsOfSteps n bus ++ (p.after n bus).1.deeds [.step] (p.after n bus).2 := by
  rw [deedsOfSteps, List.replicate_succ', deeds_append]
  rfl

/-- The instructions of a run of steps are those at hand after each of the steps before. -/
theorem mem_deedsOfSteps {p : Processor} {n : Nat} {bus : β} {d : Deed} (hd : d.cause ≠ .cycle) :
    d ∈ p.deedsOfSteps n bus ↔ ∃ j < n, d = (p.after j bus).1.carried (p.after j bus).2 := by
  induction n with
  | zero => simp [deedsOfSteps, deeds, tellAll]
  | succ n ih =>
    obtain ⟨before, after, hcycles, hdeeds⟩ := (p.after n bus).1.deeds_step (p.after n bus).2
    have hbefore : d ∉ before := fun h => hd (hcycles d (List.mem_append_left _ h))
    have hafter : d ∉ after := fun h => hd (hcycles d (List.mem_append_right _ h))
    rw [deedsOfSteps_succ, hdeeds, List.mem_append, ih]
    simp only [List.mem_append, List.mem_cons, hbefore, hafter, false_or, or_false]
    constructor
    · rintro (⟨j, hj, rfl⟩ | rfl)
      · exact ⟨j, by omega, rfl⟩
      · exact ⟨n, by omega, rfl⟩
    · rintro ⟨j, hj, rfl⟩
      rcases Nat.lt_succ_iff_lt_or_eq.mp hj with hj | rfl
      · exact .inl ⟨j, hj, rfl⟩
      · exact .inr rfl

theorem carried_mem_deedsOfSteps (p : Processor) (bus : β) {j n : Nat} (hj : j < n) :
    (p.after j bus).1.carried (p.after j bus).2 ∈ p.deedsOfSteps n bus :=
  (mem_deedsOfSteps (by rintro ⟨⟩)).mpr ⟨j, hj, rfl⟩

theorem eq_carried_of_operation {p : Processor} {n : Nat} {bus : β} {d : Deed} {op : Operation}
    (hd : d ∈ p.deedsOfSteps n bus) (hop : d.operation = some op) :
    ∃ j < n, d = (p.after j bus).1.carried (p.after j bus).2 := by
  have hcause : d.cause ≠ .cycle := by
    rw [Deed.cause_of_operation hop]
    rintro ⟨⟩
  exact (mem_deedsOfSteps hcause).mp hd

end Processor

end Nes
