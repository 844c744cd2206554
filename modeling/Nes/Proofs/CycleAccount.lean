import Nes.Proofs.Deeds

/-!
# The account of cycles

Every deed but a cycle charges the processor with cycles to come: an instruction with its cost, an interrupt request
with seven, a non-maskable interrupt or a reset with eight. Interrupts and resets do not wait, and discard what is in
flight.

The cycles that have passed and those in flight are what was charged and not discarded. One deed keeps the account
(`Deed.Lawful.balanced`), so every run does (`Deeds.balanced`). There are never more than eight cycles in flight
(`Deed.Lawful.withinEight`), and `Processor.cycles_accounted` says both of a new processor.
-/

namespace Nes

/-- Whether a cause makes a processor drop what is in flight. -/
def Cause.interrupts : Cause → Bool
  | .cycle | .instruction => false
  | .irq | .nmi | .reset => true

namespace Deed

/-- The cycles that a deed is charged with. -/
def charge (d : Deed) : Nat :=
  match d.cause with
  | .cycle => 0
  | .instruction => d.after.cycles
  | .irq => 7
  | .nmi | .reset => 8

/-- The cycles in flight that a deed discards. -/
def discarded (d : Deed) : Nat := if d.cause.interrupts then d.before.cycles else 0

/-- One deed: what passed and what is in flight grows by the charge and shrinks by what is discarded. -/
theorem Lawful.balanced {d : Deed} (h : d.Lawful) :
    d.after.clockCount + d.after.cycles + d.discarded = d.before.clockCount + d.before.cycles + d.charge := by
  cases h.form with
  | cycle busy =>
    simp only [charge, discarded, Cause.interrupts, Processor.tick, Bool.false_eq_true, if_false]
    omega
  | instruction idle parts =>
    simp only [charge, discarded, Cause.interrupts, Execution.result, Bool.false_eq_true, if_false]
    omega
  | irq => simp only [charge, discarded, Cause.interrupts, if_true]; omega
  | nmi => simp only [charge, discarded, Cause.interrupts, if_true]; omega
  | reset => simp only [charge, discarded, Cause.interrupts, if_true]; omega

/-- What the counters of a fixed width rely on, for one deed. -/
structure WithinEight (d : Deed) : Prop where
  before : d.before.cycles ≤ 8
  after : d.after.cycles ≤ 8
  /-- There is a cycle to count down. -/
  counted : d.cause = .cycle → 0 < d.before.cycles
  /-- The sum of base cost and penalties is small. -/
  charged : d.cause = .instruction → ∃ e : Execution, e.Of d.before ∧ d.after = e.result d.before ∧ e.cost ≤ 8

/-- One deed: no more than eight cycles are in flight, before and after. -/
theorem Lawful.withinEight {d : Deed} (h : d.Lawful) (hbefore : d.before.cycles ≤ 8) :
    d.WithinEight ∧ d.after.cycles ≤ 8 := by
  have hafter : d.after.cycles ≤ 8 := by
    cases h.form with
    | cycle busy => exact Nat.le_trans (Nat.sub_le _ 1) hbefore
    | instruction idle parts => exact parts.cost_bounds.2
    | irq => exact Nat.le_succ 7
    | nmi => exact Nat.le_refl 8
    | reset => exact Nat.le_refl 8
  refine ⟨⟨hbefore, hafter, ?_, ?_⟩, hafter⟩
  · intro hcause
    cases h.form with
    | cycle busy => exact busy
    | _ => cases hcause
  · intro hcause
    cases h.form with
    | instruction idle parts => exact ⟨_, parts, rfl, parts.cost_bounds.2⟩
    | _ => cases hcause

end Deed

/-- All charges of some deeds. -/
def charges : List Deed → Nat
  | [] => 0
  | d :: rest => d.charge + charges rest

/-- All cycles that some deeds discard. -/
def discards : List Deed → Nat
  | [] => 0
  | d :: rest => d.discarded + discards rest

/-- A run: what passed and what is in flight grows by the charges and shrinks by what is discarded. -/
theorem Deeds.balanced {p q : Processor} {deeds : List Deed} (h : Deeds p deeds q) :
    q.clockCount + q.cycles + discards deeds = p.clockCount + p.cycles + charges deeds := by
  induction h with
  | nil p => rfl
  | cons hd _ ih =>
    have hone := hd.balanced
    simp only [discards, charges]
    omega

theorem discards_eq_zero {deeds : List Deed} (h : ∀ d ∈ deeds, d.cause.interrupts = true → d.before.complete = true) :
    discards deeds = 0 := by
  induction deeds with
  | nil => rfl
  | cons d rest ih =>
    obtain ⟨hd, hrest⟩ := List.forall_mem_cons.mp h
    have hnone : d.discarded = 0 := by
      unfold Deed.discarded
      split
      · next hinterrupts => simpa [Processor.complete] using hd hinterrupts
      · rfl
    rw [discards, hnone, ih hrest]

/-- **The account of cycles of a new processor.** However requests are served, and whatever the bus answers: no more
than eight cycles are in flight, a cycle is counted down only if there is one, and the cost of an instruction is at most
eight. The cycles that have passed and those in flight, and those discarded, are all that was charged; if interrupts and
resets come only when nothing is in flight, none are discarded. -/
theorem Processor.cycles_accounted {β : Type} [Bus β] (requests : List Request) (bus : β) :
    let deeds := ({} : Processor).deeds requests bus
    let q := ((({} : Processor).serveAll requests).run bus).1.2
    Deeds {} deeds q ∧ q.cycles ≤ 8 ∧ (∀ d ∈ deeds, d.WithinEight) ∧
      q.clockCount + q.cycles + discards deeds = charges deeds ∧
        ((∀ d ∈ deeds, d.cause.interrupts = true → d.before.complete = true) →
          q.clockCount + q.cycles = charges deeds) := by
  intro deeds q
  have hq : q = ((({} : Processor).serveAll requests).run (Monitored.mk bus #[])).1.2 := by
    have hrun := (({} : Processor).serveAll requests).run_bus (Monitored.mk bus #[])
    show ((({} : Processor).serveAll requests).run bus).1.2 = _
    rw [hrun]
  have hdeeds : Deeds {} deeds q := hq ▸ (run_deeds {} requests bus).2
  obtain ⟨hwithin, hcycles⟩ :=
    hdeeds.preserves (I := fun p => p.cycles ≤ 8) (fun d hd => hd.withinEight) (Nat.zero_le 8)
  have hbalanced : q.clockCount + q.cycles + discards deeds = charges deeds := by
    simpa using hdeeds.balanced
  refine ⟨hdeeds, hcycles, hwithin, hbalanced, fun hidle => ?_⟩
  rw [discards_eq_zero hidle] at hbalanced
  exact hbalanced

end Nes
