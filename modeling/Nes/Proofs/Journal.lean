import Nes.Proofs.Costs
import Nes.Proofs.CycleAccount
import Nes.Proofs.Past

/-!
# The journal

A processor can keep a journal. Whether it does makes no difference to anything else (`Processor.serveAll_following`), and
the journal of a run is made of one entry for each instruction of its deeds (`Deeds.journal_eq`).

An entry has the clock at which its opcode was fetched. Something is in flight after an instruction, after an interrupt
and after a reset, and cycles have to pass before the next instruction, so no two entries have the same clock
(`Deeds.pairwise_clock`). If there are only cycles between two entries, these are all the cycles that the first of the two
instructions costs (`Deeds.clock_next`).
-/

namespace Nes

/-! ## With and without a journal -/

namespace Processor

/-- The processor with another journal, or without one. -/
def keeping (p : Processor) (journal : Option (Array JournalEntry)) : Processor := { p with journal }

section Following

variable (p : Processor) (past : Past)

theorem following_nothing : p.following ⟨0, none⟩ = p.keeping none := by
  simp [following, keeping]

theorem clocks_following (n : Nat) :
    (p.following past).clocks n = p.clocks n >>= fun q => .done (q.following past) := by
  induction n generalizing p with
  | zero => rfl
  | succ n ih => simp [clocks, clock_following, ih]

theorem step_following :
    (p.following past).step = p.step >>= fun result => .done (result.1, result.2.following past) := by
  have hcycles (q : Processor) : (q.following past).cycles = q.cycles := rfl
  simp [step, clock_following, clocks_following, hcycles]

theorem serve_following (request : Request) :
    (p.following past).serve request = p.serve request >>= fun result => .done (result.1, result.2.following past) := by
  cases request with
  | clock => simp [serve, clock_following]
  | step => simp [serve, step_following]
  | irq => simp [serve, irq_following]
  | nmi => simp [serve, nmi_following]
  | reset => simp [serve, reset_following]

/-- Requests are served in the same way whatever the past. -/
theorem serveAll_following (requests : List Request) : (p.following past).serveAll requests =
    p.serveAll requests >>= fun result => .done (result.1, result.2.following past) := by
  induction requests generalizing p with
  | nil => rfl
  | cons request rest ih => simp [serveAll, serve_following, ih]

end Following

/-- **Keeping a journal changes nothing else**, neither in the processor nor on the bus. -/
theorem run_keeping_none {β : Type} [Bus β] (p : Processor) (old : Array JournalEntry) (requests : List Request)
    (bus : β) :
    let run := ((p.keeping (some old)).serveAll requests).run bus
    ((p.keeping none).serveAll requests).run bus = ((run.1.1, run.1.2.keeping none), run.2) := by
  have hnone : p.keeping none = (p.keeping (some old)).following ⟨0, none⟩ := (following_nothing _).symm
  rw [hnone, serveAll_following, Transaction.run_bind, Transaction.run_done, following_nothing]

end Processor

/-! ## The entries of a run -/

namespace Deed

/-- What the journal says of a deed. Only instructions are recorded: where and when the opcode was read, what it stands
for, and the registers after the instruction. -/
def note? (d : Deed) : Option JournalEntry :=
  match d.cause, d.traffic with
  | .instruction, .read _ addr opcode :: _ => some {
      clock := d.before.clockCount
      pc := addr
      opcode
      mnemonic := (Instruction.ofOpcode opcode).mnemonic
      a := d.after.registers.a
      x := d.after.registers.x
      y := d.after.registers.y
      sp := d.after.registers.sp
      status := d.after.registers.status }
  | _, _ => none

/-- What an instruction costs, by the bytes that it read. -/
def cost (d : Deed) : Nat :=
  match d.traffic with
  | .read _ _ opcode :: accesses => (Instruction.ofOpcode opcode).cost d.before.registers accesses
  | _ => 0

variable {d : Deed}

theorem clock_note? {e : JournalEntry} (h : d.note? = some e) : e.clock = d.before.clockCount := by
  unfold note? at h
  split at h
  · cases h
    rfl
  · cases h

theorem cause_of_note? {e : JournalEntry} (h : d.note? = some e) : d.cause = .instruction := by
  unfold note? at h
  split at h
  · next hcause _ => exact hcause
  · cases h

namespace Lawful

/-- Every instruction has an entry, and nothing else has. -/
theorem isSome_note? (h : d.Lawful) : d.note?.isSome = true ↔ d.cause = .instruction := by
  cases h.form <;> simp [note?, Execution.traffic]

/-- One deed adds its entry. -/
theorem journal_eq (h : d.Lawful) : d.after.journal = d.before.journal.map (· ++ d.note?.toArray) := by
  cases h.form with
  | instruction idle parts => rfl
  | _ => simp [note?, Processor.tick]

theorem idle (h : d.Lawful) (hcause : d.cause = .instruction) : d.before.cycles = 0 := by
  have hheeded := h.heeded
  rw [hcause] at hheeded
  simpa [Processor.heeds, Processor.complete] using hheeded

/-- What an instruction is charged with is what it costs. -/
theorem charge_eq (h : d.Lawful) (hcause : d.cause = .instruction) : d.charge = d.cost := by
  cases h.form with
  | instruction idle parts => exact parts.cost_eq
  | _ => cases hcause

/-- Time does not go back. What is not a cycle leaves something in flight. -/
theorem clockCount_after (h : d.Lawful) :
    d.before.clockCount < d.after.clockCount ∨ d.before.clockCount = d.after.clockCount ∧ 0 < d.after.cycles := by
  cases h.form with
  | cycle busy => exact .inl (Nat.lt_succ_self _)
  | instruction idle parts => exact .inr ⟨rfl, Nat.lt_of_lt_of_le Nat.two_pos parts.cost_bounds.1⟩
  | irq => exact .inr ⟨rfl, Nat.succ_pos 6⟩
  | nmi => exact .inr ⟨rfl, Nat.succ_pos 7⟩
  | reset => exact .inr ⟨rfl, Nat.succ_pos 7⟩

end Lawful

end Deed

namespace Deeds

variable {p q : Processor} {deeds : List Deed}

theorem lawful (h : Deeds p deeds q) : ∀ d ∈ deeds, d.Lawful :=
  (h.preserves (I := fun _ => True) (fun _ hd _ => ⟨hd, trivial⟩) trivial).1

/-- **The journal of a run** has the entries of its deeds, in their order. -/
theorem journal_eq (h : Deeds p deeds q) :
    q.journal = p.journal.map (· ++ (deeds.filterMap Deed.note?).toArray) := by
  induction h with
  | nil p => simp
  | cons hd hrest ih =>
    rename_i d rest q
    rw [ih, hd.journal_eq, Option.map_map]
    congr 1
    funext old
    cases hentry : d.note? <;> simp [hentry]

/-! ## The clocks of the entries -/

/-- What is recorded has the clock of a time to come, and of a later one if something is in flight. -/
theorem le_clock (h : Deeds p deeds q) : ∀ e ∈ deeds.filterMap Deed.note?,
    p.clockCount ≤ e.clock ∧ (0 < p.cycles → p.clockCount < e.clock) := by
  induction h with
  | nil p => simp
  | cons hd hrest ih =>
    rename_i d rest q
    intro e he
    obtain ⟨d', hmem, hentry⟩ := List.mem_filterMap.mp he
    rcases List.mem_cons.mp hmem with rfl | hmem
    · -- the instruction of the entry comes first, so nothing is in flight
      have hidle := hd.idle (Deed.cause_of_note? hentry)
      rw [Deed.clock_note? hentry]
      omega
    · obtain ⟨hle, hlt⟩ := ih e (List.mem_filterMap.mpr ⟨d', hmem, hentry⟩)
      have hafter := hd.clockCount_after
      omega

/-- **No two instructions begin at the same time.** -/
theorem pairwise_clock (h : Deeds p deeds q) :
    (deeds.filterMap Deed.note?).Pairwise fun e e' => e.clock < e'.clock := by
  induction h with
  | nil p => exact .nil
  | cons hd hrest ih =>
    rename_i d rest q
    cases hentry : d.note? with
    | none =>
      rw [List.filterMap_cons_none hentry]
      exact ih
    | some e =>
      rw [List.filterMap_cons_some hentry]
      refine .cons (fun e' he' => ?_) ih
      obtain ⟨hle, hlt⟩ := hrest.le_clock e' he'
      have hafter := hd.clockCount_after
      rw [Deed.clock_note? hentry]
      omega

/-- Cycles are charged with nothing. -/
theorem charges_of_cycles (h : ∀ d ∈ deeds, d.cause = .cycle) : charges deeds = 0 := by
  induction deeds with
  | nil => rfl
  | cons d rest ih =>
    obtain ⟨hd, hrest⟩ := List.forall_mem_cons.mp h
    rw [charges, ih hrest, Deed.charge, hd]

/-- **An instruction that nothing interrupts takes as long as it costs.** -/
theorem clock_next {before between after : List Deed} {d d' : Deed}
    (h : Deeds p (before ++ d :: (between ++ d' :: after)) q) (hd : d.cause = .instruction)
    (hd' : d'.cause = .instruction) (hbetween : ∀ b ∈ between, b.cause = .cycle) :
    d'.before.clockCount = d.before.clockCount + d.cost := by
  obtain ⟨s, -, hfrom⟩ := h.of_append
  rw [← List.cons_append] at hfrom
  obtain ⟨t, hspan, hto⟩ := hfrom.of_append
  cases hto with
  | cons hlawful' _ =>
    have hbalanced := hspan.balanced
    cases hspan with
    | cons hlawful _ =>
      have hidle := hlawful.idle hd
      have hidle' := hlawful'.idle hd'
      have hdiscards : discards (d :: between) = 0 := by
        apply discards_eq_zero
        intro b hb hinterrupts
        rcases List.mem_cons.mp hb with rfl | hb
        · rw [hd] at hinterrupts
          cases hinterrupts
        · rw [hbetween b hb] at hinterrupts
          cases hinterrupts
      rw [hdiscards, charges, charges_of_cycles hbetween, hlawful.charge_eq hd] at hbalanced
      omega

end Deeds

namespace Processor

variable {β : Type} [Bus β]

/-- **What a journal says.** A processor that keeps a journal and one that does not, and is otherwise the same, serve the
same requests on the same bus. After each of them they are the same but for the journal, and so is the bus.

What the recording processor does is its deeds. Those of them that are instructions, and no others, are recorded, in their
order, with the place and the clock of the fetch and with the registers they leave. The clocks increase. If nothing
interrupts between an entry and the next one, the clocks of the two differ by what the first instruction costs. -/
theorem journal_kept (p : Processor) (old : Array JournalEntry) (bus : β) (requests : List Request) :
    let start := p.keeping (some old)
    let run := (start.serveAll requests).run (Monitored.mk bus #[])
    let deeds := start.deeds requests bus
    (∀ served, served <+: requests →
      let kept := (start.serveAll served).run bus
      let bare := ((p.keeping none).serveAll served).run bus
      bare.1.1 = kept.1.1 ∧ bare.1.2 = kept.1.2.keeping none ∧ bare.2 = kept.2) ∧
    Deeds start deeds run.1.2 ∧ run.2.log.toList = deeds.flatMap Deed.traffic ∧
    (∀ d ∈ deeds, d.note?.isSome = true ↔ d.cause = .instruction) ∧
    run.1.2.journal = some (old ++ (deeds.filterMap Deed.note?).toArray) ∧
    (deeds.filterMap Deed.note?).Pairwise (fun e e' => e.clock < e'.clock) ∧
    ∀ before d between d' after e e', deeds = before ++ d :: (between ++ d' :: after) →
      d.note? = some e → d'.note? = some e' →
      (∀ b ∈ between, b.note? = none ∧ b.cause.interrupts = false) → e'.clock = e.clock + d.cost := by
  intro start run deeds
  obtain ⟨hlog, hdeeds⟩ : run.2.log.toList = deeds.flatMap Deed.traffic ∧ Deeds start deeds run.1.2 :=
    start.run_deeds requests bus
  refine ⟨?_, hdeeds, hlog, fun d hd => (hdeeds.lawful d hd).isSome_note?, hdeeds.journal_eq, hdeeds.pairwise_clock, ?_⟩
  · intro served _ kept bare
    have hbare : bare = ((kept.1.1, kept.1.2.keeping none), kept.2) := p.run_keeping_none old served bus
    rw [hbare]
    exact ⟨rfl, rfl, rfl⟩
  · intro before d between d' after e e' hsplit he he' hbetween
    rw [Deed.clock_note? he, Deed.clock_note? he']
    have hlawful := hdeeds.lawful
    rw [hsplit] at hdeeds hlawful
    refine hdeeds.clock_next (Deed.cause_of_note? he) (Deed.cause_of_note? he') fun b hb => ?_
    -- what is neither recorded nor an interrupt is a cycle
    obtain ⟨hentry, hinterrupts⟩ := hbetween b hb
    have hb : b.Lawful := hlawful b (by simp [hb])
    cases hcause : b.cause with
    | cycle => rfl
    | instruction =>
      rw [← hb.isSome_note?, hentry] at hcause
      cases hcause
    | irq | nmi | reset =>
      rw [hcause] at hinterrupts
      cases hinterrupts

theorem note?_carried (p : Processor) (bus : β) :
    (p.carried bus).note? = some ((p.execution bus).entry p.settled) := rfl

/-- Between the instructions of two steps there are only cycles. -/
theorem deeds_two_steps (p : Processor) (bus : β) : ∃ before between after,
    p.deeds [.step, .step] bus =
        before ++ p.carried bus :: (between ++ (p.stepped bus).carried (p.next bus).2 :: after) ∧
      ∀ b ∈ between, b.note? = none ∧ b.cause.interrupts = false := by
  obtain ⟨before, between, hcycles, hfirst⟩ := p.deeds_step bus
  obtain ⟨between', after, hcycles', hsecond⟩ := (p.stepped bus).deeds_step (p.next bus).2
  refine ⟨before, between ++ between', after, ?_, ?_⟩
  · rw [deeds_cons, run_serve_step, hfirst, hsecond]
    simp
  · intro b hb
    have hcycle : b.cause = .cycle := by
      rcases List.mem_append.mp hb with hb | hb
      · exact hcycles b (List.mem_append_right _ hb)
      · exact hcycles' b (List.mem_append_left _ hb)
    simp [Deed.note?, hcycle, Cause.interrupts]

/-- A processor on its way through a memory in which there is nothing to do. -/
def sampleBusy : Processor := { registers := { pc := 0xFFFF, status := 0x24 }, cycles := 3, clockCount := 100 }

theorem journal_kept_sample :
    let start := sampleBusy.keeping (some #[])
    ∃ before d between d' after e e',
      start.deeds [.step, .step] (FlatMemory.filled 0xEA) = before ++ d :: (between ++ d' :: after) ∧
        d.note? = some e ∧ d'.note? = some e' ∧ e'.clock = e.clock + d.cost := by
  intro start
  obtain ⟨before, between, after, hsplit, hbetween⟩ := start.deeds_two_steps (FlatMemory.filled 0xEA)
  obtain ⟨-, -, -, -, -, -, hclocks⟩ :=
    journal_kept sampleBusy #[] (FlatMemory.filled 0xEA) [.step, .step]
  exact ⟨before, _, between, _, after, _, _, hsplit, note?_carried _ _, note?_carried _ _,
    hclocks _ _ _ _ _ _ _ hsplit (note?_carried _ _) (note?_carried _ _) hbetween⟩

end Processor

end Nes
