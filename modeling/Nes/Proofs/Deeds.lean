import Nes.Proofs.Execution

/-!
# Deeds

Serving requests comes apart into deeds: a cycle of what is in flight, an instruction, an interrupt that is taken, a
reset. A deed has the processor before and after it and the traffic in between.

* `Processor.tellAll` serves requests and tells the deeds; without the telling it is `Processor.serveAll`
  (`Processor.forget_tellAll`).
* Told deeds follow one another, each by the processor's rules, and their traffic is all there is
  (`Processor.truthful_tellAll`, and `Processor.run_deeds` for a run).
* What every deed keeps, a run keeps (`Deeds.preserves`).
-/

namespace Nes

/-- What makes a processor act. -/
inductive Cause
  /-- Something is in flight. -/
  | cycle
  /-- Nothing is in flight. -/
  | instruction
  | irq
  | nmi
  | reset
  deriving DecidableEq

/-- One thing that a processor did. -/
structure Deed where
  cause : Cause
  before : Processor
  traffic : List Access
  after : Processor

namespace Processor

/-- What a processor does for a cause. -/
def act (p : Processor) : Cause → Transaction Processor
  | .cycle => return p.tick
  | .instruction => p.execute
  | .irq => p.irq
  | .nmi => p.nmi
  | .reset => p.reset

/-- Whether a cause makes a processor act: requests can be disabled, and one instruction waits for the end of another. -/
def heeds (p : Processor) : Cause → Bool
  | .cycle => !p.complete
  | .instruction => p.complete
  | .irq => !p.registers.isSet Flag.irqDisable
  | .nmi | .reset => true

end Processor

/-! ## Interrupts and reset -/

namespace Processor

variable {p : Processor} {Q : List Access → Processor → Prop}

theorem ensures_irq (h : p.registers.isSet Flag.irqDisable = false) : p.irq.Ensures Q ↔
    ∀ low high, Q (p.registers.entryTraffic irqVector false low high)
      { p with registers := p.registers.entered low high, cycles := 7 } := by
  rw [irq, if_neg (Bool.eq_false_iff.mp h)]
  simp [Registers.ensures_enterHandler]

theorem ensures_nmi : p.nmi.Ensures Q ↔
    ∀ low high, Q (p.registers.entryTraffic nmiVector false low high)
      { p with registers := p.registers.entered low high, cycles := 8 } := by
  simp [nmi, Registers.ensures_enterHandler]

theorem ensures_reset : p.reset.Ensures Q ↔
    ∀ low high, Q [.read .live resetVector low, .read .live (resetVector + 1) high]
      { p with registers := { sp := 0xFD, pc := .ofBytes low high, status := Flag.unused }, cycles := 8 } := by
  simp [reset, Transaction.readWord, Transaction.read]

end Processor

/-! ## Sequences of deeds -/

/-- A deed by the processor's rules. -/
structure Deed.Lawful (d : Deed) : Prop where
  heeded : d.before.heeds d.cause = true
  acted : (d.before.act d.cause).CanEnd d.traffic d.after

/-- What a deed can be, cause by cause. -/
inductive Deed.Form : Deed → Prop
  | cycle {p : Processor} (busy : 0 < p.cycles) : Form ⟨.cycle, p, [], p.tick⟩
  | instruction {p : Processor} {e : Execution} (idle : p.cycles = 0) (parts : e.Of p) :
      Form ⟨.instruction, p, e.traffic p, e.result p⟩
  | irq {p : Processor} {low high : Byte} (enabled : p.registers.isSet Flag.irqDisable = false) :
      Form ⟨.irq, p, p.registers.entryTraffic irqVector false low high,
        { p with registers := p.registers.entered low high, cycles := 7 }⟩
  | nmi {p : Processor} {low high : Byte} :
      Form ⟨.nmi, p, p.registers.entryTraffic nmiVector false low high,
        { p with registers := p.registers.entered low high, cycles := 8 }⟩
  | reset {p : Processor} {low high : Byte} :
      Form ⟨.reset, p, [.read .live resetVector low, .read .live (resetVector + 1) high],
        { p with registers := { sp := 0xFD, pc := .ofBytes low high, status := Flag.unused }, cycles := 8 }⟩

/-- A lawful deed has one of the forms. -/
theorem Deed.Lawful.form {d : Deed} (h : d.Lawful) : d.Form := by
  obtain ⟨cause, p, traffic, q⟩ := d
  have heeded : p.heeds cause = true := h.heeded
  have acted : (p.act cause).CanEnd traffic q := h.acted
  clear h
  cases cause with
  | cycle =>
    have hbusy : 0 < p.cycles := by
      simp only [Processor.heeds, Processor.complete, Bool.not_eq_true', beq_eq_false_iff_ne] at heeded
      omega
    obtain ⟨rfl, rfl⟩ := Transaction.canEnd_done.mp acted
    exact .cycle hbusy
  | instruction =>
    have hidle : p.cycles = 0 := by simpa [Processor.heeds, Processor.complete] using heeded
    obtain ⟨e, he, rfl, rfl⟩ := Processor.canEnd_execute acted
    exact .instruction hidle he
  | irq =>
    have henabled : p.registers.isSet Flag.irqDisable = false := by simpa [Processor.heeds] using heeded
    have hirq : p.irq.Ensures fun traffic q => Form ⟨.irq, p, traffic, q⟩ :=
      (Processor.ensures_irq henabled).mpr fun _ _ => .irq henabled
    exact hirq _ _ acted
  | nmi =>
    have hnmi : p.nmi.Ensures fun traffic q => Form ⟨.nmi, p, traffic, q⟩ :=
      Processor.ensures_nmi.mpr fun _ _ => .nmi
    exact hnmi _ _ acted
  | reset =>
    have hreset : p.reset.Ensures fun traffic q => Form ⟨.reset, p, traffic, q⟩ :=
      Processor.ensures_reset.mpr fun _ _ => .reset
    exact hreset _ _ acted

/-- Deeds that follow one another, from one processor to another. -/
inductive Deeds : Processor → List Deed → Processor → Prop
  | nil (p : Processor) : Deeds p [] p
  | cons {d : Deed} {rest : List Deed} {q : Processor} : d.Lawful → Deeds d.after rest q → Deeds d.before (d :: rest) q

namespace Deeds

variable {p q r : Processor} {first second : List Deed}

theorem append (h : Deeds p first q) (h' : Deeds q second r) : Deeds p (first ++ second) r := by
  induction h with
  | nil p => exact h'
  | cons hd _ ih => exact .cons hd (ih h')

/-- A run comes apart at any place. -/
theorem of_append (h : Deeds p (first ++ second) r) : ∃ q, Deeds p first q ∧ Deeds q second r := by
  induction first generalizing p with
  | nil => exact ⟨p, .nil p, h⟩
  | cons d first ih =>
    cases h with
    | cons hd hrest =>
      obtain ⟨q, hfirst, hsecond⟩ := ih hrest
      exact ⟨q, .cons hd hfirst, hsecond⟩

/-- The deed at some place of a run is lawful, and the rest of the run follows it. -/
theorem of_append_cons {d : Deed} (h : Deeds p (first ++ d :: second) r) : d.Lawful ∧ Deeds d.after second r := by
  obtain ⟨q, -, hsecond⟩ := h.of_append
  cases hsecond with
  | cons hd hrest => exact ⟨hd, hrest⟩

/-- **What the deeds of a run keep, the run keeps**, and each of them is as a deed is that keeps it. -/
theorem preserves_on {I : Processor → Prop} {G : Deed → Prop} (h : Deeds p first q)
    (hstep : ∀ d ∈ first, d.Lawful → I d.before → G d ∧ I d.after) (hp : I p) : (∀ d ∈ first, G d) ∧ I q := by
  induction h with
  | nil p => exact ⟨fun _ hd => absurd hd List.not_mem_nil, hp⟩
  | cons hd _ ih =>
    obtain ⟨hfirst, hrest⟩ := List.forall_mem_cons.mp hstep
    obtain ⟨hG, hI⟩ := hfirst hd hp
    obtain ⟨hrest, hq⟩ := ih hrest hI
    exact ⟨List.forall_mem_cons.mpr ⟨hG, hrest⟩, hq⟩

/-- **What one deed keeps, every run keeps**, and every deed of it is as one deed is. -/
theorem preserves {I : Processor → Prop} {G : Deed → Prop}
    (hstep : ∀ d : Deed, d.Lawful → I d.before → G d ∧ I d.after) (h : Deeds p first q) (hp : I p) :
    (∀ d ∈ first, G d) ∧ I q :=
  h.preserves_on (fun d _ => hstep d) hp

end Deeds

/-! ## Telling -/

/-- An exchange that ends in a processor and tells what it did on the way. -/
abbrev Telling := Transaction (List Deed × Processor)

namespace Telling

/-- One telling after the other. -/
def followedBy (t : Telling) (f : Processor → Telling) : Telling := do
  let (first, p) ← t
  let (second, q) ← f p
  return (first ++ second, q)

/-- The exchange without what it tells. -/
def forget (t : Telling) : Transaction Processor := do
  let (_, q) ← t
  return q

theorem forget_followedBy (t : Telling) (f : Processor → Telling) :
    (t.followedBy f).forget = t.forget >>= fun q => (f q).forget := by
  simp [forget, followedBy]

/-- What is told of the way from `p` is so: lawful deeds, with all the traffic. -/
def Truthful (p : Processor) (t : Telling) : Prop :=
  Transaction.Ensures t fun traffic told => traffic = told.1.flatMap Deed.traffic ∧ Deeds p told.1 told.2

theorem truthful_nothing (p : Processor) : Truthful p (return ([], p)) := by
  simpa [Truthful] using Deeds.nil p

theorem Truthful.followedBy {p : Processor} {t : Telling} (h : Truthful p t) (f : Processor → Telling)
    (hf : Transaction.Ensures t fun _ told => Truthful told.2 (f told.2)) : Truthful p (t.followedBy f) := by
  simp only [Truthful, Telling.followedBy, Transaction.ensures_bind, Transaction.pure_eq, Transaction.ensures_done,
    List.append_nil]
  intro traffic told ht traffic' told' ht'
  obtain ⟨rfl, hdeeds⟩ := h _ _ ht
  obtain ⟨rfl, hdeeds'⟩ := hf _ _ ht _ _ ht'
  exact ⟨List.flatMap_append.symm, hdeeds.append hdeeds'⟩

end Telling

namespace Processor

open Telling (Truthful)

/-- Acts, and tells of it. -/
def tell (p : Processor) (cause : Cause) : Telling := do
  let (q, traffic) ← (p.act cause).recorded
  return ([⟨cause, p, traffic, q⟩], q)

theorem forget_tell (p : Processor) (cause : Cause) : (p.tell cause).forget = p.act cause := by
  have h := Transaction.recorded_bind (p.act cause) .done
  rw [Transaction.bind_done] at h
  simpa [tell, Telling.forget] using h

theorem ensures_tell {p : Processor} {cause : Cause} {P : Processor → Prop} (h : (p.act cause).Ensures fun _ => P) :
    Transaction.Ensures (p.tell cause) fun _ told => P told.2 := by
  simp only [tell, Transaction.ensures_bind, Transaction.pure_eq, Transaction.ensures_done]
  intro traffic told ht
  exact h _ _ (Transaction.ensures_recorded _ _ _ ht).2

theorem truthful_tell {p : Processor} {cause : Cause} (h : p.heeds cause = true) : Truthful p (p.tell cause) := by
  simp only [Truthful, tell, Transaction.ensures_bind, Transaction.pure_eq, Transaction.ensures_done, List.append_nil]
  rintro traffic ⟨q, told⟩ ht
  obtain ⟨rfl, hend⟩ := Transaction.ensures_recorded _ _ _ ht
  have hlawful : Deed.Lawful ⟨cause, p, told, q⟩ := ⟨h, hend⟩
  exact ⟨by simp, .cons hlawful (.nil q)⟩

/-- One cycle, and the instruction that begins in it. -/
def tellClock (p : Processor) : Telling :=
  if p.complete then (p.tell .instruction).followedBy (·.tell .cycle) else p.tell .cycle

/-- A number of cycles. -/
def tellClocks (p : Processor) : Nat → Telling
  | 0 => return ([], p)
  | n + 1 => p.tellClock.followedBy (·.tellClocks n)

/-- One request. -/
def tellServe (p : Processor) : Request → Telling
  | .clock => p.tellClock
  | .step => (p.tellClocks p.cycles).followedBy fun p => p.tellClock.followedBy fun p => p.tellClocks p.cycles
  | .irq => if p.registers.isSet Flag.irqDisable then return ([], p) else p.tell .irq
  | .nmi => p.tell .nmi
  | .reset => p.tell .reset

/-- Requests in order. -/
def tellAll (p : Processor) : List Request → Telling
  | [] => return ([], p)
  | request :: rest => (p.tellServe request).followedBy (·.tellAll rest)

/-! ## Nothing is changed by telling -/

theorem forget_tellClock (p : Processor) : p.tellClock.forget = p.clock := by
  unfold tellClock clock
  split
  · rw [Telling.forget_followedBy, forget_tell]
    simp only [forget_tell, act]
  · exact forget_tell p .cycle

theorem forget_tellClocks (p : Processor) (n : Nat) : (p.tellClocks n).forget = p.clocks n := by
  induction n generalizing p with
  | zero => rfl
  | succ n ih => simp only [tellClocks, clocks, Telling.forget_followedBy, forget_tellClock, ih]

theorem forget_tellServe (p : Processor) (request : Request) :
    (p.tellServe request).forget = do
      let (_, q) ← p.serve request
      return q := by
  cases request with
  | clock => simp [tellServe, forget_tellClock, serve, Transaction.bind_done]
  | step =>
    simp [tellServe, Telling.forget_followedBy, forget_tellClock, forget_tellClocks, serve, step,
      Transaction.bind_done]
  | irq =>
    simp only [tellServe, serve, bind_assoc, Transaction.pure_eq, Transaction.done_bind, Transaction.bind_done]
    by_cases h : p.registers.isSet Flag.irqDisable = true
    · rw [irq, if_pos h, if_pos h]
      rfl
    · rw [if_neg h, forget_tell]
      rfl
  | nmi => simp [tellServe, forget_tell, act, serve, Transaction.bind_done]
  | reset => simp [tellServe, forget_tell, act, serve, Transaction.bind_done]

/-- Telling serves the requests as serving does. -/
theorem forget_tellAll (p : Processor) (requests : List Request) :
    (p.tellAll requests).forget = do
      let (_, q) ← p.serveAll requests
      return q := by
  induction requests generalizing p with
  | nil => rfl
  | cons request rest ih => simp [tellAll, serveAll, Telling.forget_followedBy, forget_tellServe, ih]

/-! ## What is told is so -/

theorem truthful_tellClock (p : Processor) : Truthful p p.tellClock := by
  unfold tellClock
  cases hp : p.complete with
  | false => exact truthful_tell (by simp [heeds, hp])
  | true =>
    have hinstruction : Truthful p (p.tell .instruction) := truthful_tell hp
    -- the instruction leaves something in flight, so that a cycle can follow
    have hcycle : (p.act .instruction).Ensures fun _ q => Truthful q (q.tell .cycle) := by
      intro traffic q hq
      have hcost : 2 ≤ q.cycles := (p.ensures_execute _ _ hq).1
      have hbusy : q.complete = false := by
        simp only [complete, beq_eq_false_iff_ne]
        omega
      exact truthful_tell (by simp [heeds, hbusy])
    exact hinstruction.followedBy (·.tell .cycle) (ensures_tell hcycle)

theorem truthful_tellClocks (p : Processor) (n : Nat) : Truthful p (p.tellClocks n) := by
  induction n generalizing p with
  | zero => exact Telling.truthful_nothing p
  | succ n ih => exact p.truthful_tellClock.followedBy _ fun _ _ _ => ih _

theorem truthful_tellServe (p : Processor) (request : Request) : Truthful p (p.tellServe request) := by
  cases request with
  | clock => exact p.truthful_tellClock
  | step =>
    rw [tellServe]
    refine (p.truthful_tellClocks p.cycles).followedBy _ fun _ told _ => ?_
    exact told.2.truthful_tellClock.followedBy _ fun _ told' _ => told'.2.truthful_tellClocks told'.2.cycles
  | irq =>
    show Truthful p (if p.registers.isSet Flag.irqDisable then return ([], p) else p.tell .irq)
    split
    · exact Telling.truthful_nothing p
    · next h =>
      have henabled : p.registers.isSet Flag.irqDisable = false := Bool.eq_false_iff.mpr h
      exact truthful_tell (by rw [heeds, henabled]; rfl)
  | nmi => exact truthful_tell rfl
  | reset => exact truthful_tell rfl

theorem truthful_tellAll (p : Processor) (requests : List Request) : Truthful p (p.tellAll requests) := by
  induction requests generalizing p with
  | nil => exact Telling.truthful_nothing p
  | cons request rest ih => exact (p.truthful_tellServe request).followedBy _ fun _ _ _ => ih _

/-! ## Runs -/

section Run

variable {β : Type} [Bus β]

/-- The deeds of a run. -/
def deeds (p : Processor) (requests : List Request) (bus : β) : List Deed := ((p.tellAll requests).run bus).1.1

/-- **The deeds of a run lead from the first processor to the last, and their traffic is what the bus saw.** -/
theorem run_deeds (p : Processor) (requests : List Request) (bus : β) :
    let run := (p.serveAll requests).run (Monitored.mk bus #[])
    run.2.log.toList = (p.deeds requests bus).flatMap Deed.traffic ∧ Deeds p (p.deeds requests bus) run.1.2 := by
  intro run
  have htold := (p.tellAll requests).run_bus (Monitored.mk bus #[])
  have hforget : ((p.tellAll requests).forget.run (Monitored.mk bus #[])) = (run.1.2, run.2) := by
    rw [forget_tellAll, Transaction.run_bind]
    rfl
  rw [Telling.forget, Transaction.run_bind] at hforget
  obtain ⟨hprocessor, hmonitored⟩ := Prod.mk.inj hforget
  obtain ⟨traffic, hlog, hend⟩ := (p.tellAll requests).canEnd_run (Monitored.mk bus #[])
  obtain ⟨htraffic, hdeeds⟩ := p.truthful_tellAll requests _ _ hend
  rw [deeds, htold, ← hprocessor, ← hmonitored]
  exact ⟨by rw [hlog, ← htraffic]; rfl, hdeeds⟩

/-- They do so whether the bus is watched or not. -/
theorem lead_deeds (p : Processor) (requests : List Request) (bus : β) :
    Deeds p (p.deeds requests bus) ((p.serveAll requests).run bus).1.2 := by
  have hrun := (p.serveAll requests).run_bus (Monitored.mk bus #[])
  have hdeeds := (p.run_deeds requests bus).2
  rw [← congrArg (·.1) hrun] at hdeeds
  exact hdeeds

end Run

end Processor

end Nes
