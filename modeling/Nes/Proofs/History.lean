import Nes.Proofs.Past

/-!
# The history of a console

What happens on the two buses of a console while it carries out commands: the accesses of the processor's side, by a
command or by the processor itself, the writes of the graphics side, and the resets (`Console.history`). The accesses are
those that a monitor sees (`Transaction.log_run`); time passes by ticks alone (`Console.step_eq_ticks`), so that what the
processor does in a step is what it does in its turns.

A statement about memory that speaks of the history is proved for one happening at a time, and then holds after every run
(`Console.Chronicled.obeyAll`).
-/

namespace Nes

namespace Console

/-! ## Time -/

section Time

variable {δ : Type} [Device δ]

/-- Every step ends as many ticks later as the master clock says. -/
theorem step_eq_ticks (c : Console δ) : c.step.2 = c.ticks (c.step.2.clock - c.clock) := by
  obtain ⟨n, hn⟩ : ∃ n, c.step.2 = c.ticks n := by
    have hstep : c.step.2 = c.settle.toNextTurn.settle := rfl
    rw [hstep, settle_eq, toNextTurn_eq, settle_eq c, ← ticks_add, ← ticks_add]
    exact ⟨_, rfl⟩
  rw [hn, clock_ticks, Nat.add_sub_cancel_left]

theorem run_eq_ticks (c : Console δ) (count : Nat) : c.run count = c.ticks ((c.run count).clock - c.clock) := by
  obtain ⟨n, hn⟩ : ∃ n, c.run count = c.ticks n := by
    induction count generalizing c with
    | zero => exact ⟨0, rfl⟩
    | succ count ih =>
      obtain ⟨n, hn⟩ := ih c.step.2
      have hrun : c.run (count + 1) = c.step.2.run count := rfl
      rw [hrun, hn, step_eq_ticks, ← ticks_add]
      exact ⟨_, rfl⟩
  rw [hn, clock_ticks, Nat.add_sub_cancel_left]

/-- The accesses of the processor in one tick: none, unless it is its turn. -/
def tickTraffic (c : Console δ) : List Access :=
  if c.isProcessorTick then c.processor.clock.traffic { c.memory with device := Device.tick c.memory.device } else []

/-- The accesses of the processor in a number of ticks. -/
def ticksTraffic (c : Console δ) : Nat → List Access
  | 0 => []
  | n + 1 => c.tickTraffic ++ c.tick.ticksTraffic n

end Time

/-! ## Happenings -/

/-- Something that can leave a trace in storage. -/
inductive Happening
  /-- An access of the processor's side. -/
  | access (access : Access)
  /-- A write of the graphics side. -/
  | graphicsWrite (addr : Addr) (value : Byte)
  /-- The board and the device were started again. -/
  | reset

section History

variable {δ : Type} [Device δ]

/-- What happens for one command. -/
def happenings (c : Console δ) : Command → List Happening
  | .tick => (c.ticksTraffic 1).map .access
  | .step => (c.ticksTraffic (c.step.2.clock - c.clock)).map .access
  | .run count => (c.ticksTraffic ((c.run count).clock - c.clock)).map .access
  | .reset => .reset :: (c.processor.reset.traffic c.memory.restart).map .access
  | .irq => (c.processor.irq.traffic c.memory).map .access
  | .nmi => (c.processor.nmi.traffic c.memory).map .access
  | .insert _ | .eject => []
  | .call (.read mode addr) => [.access (.read mode addr (Bus.read mode addr c.memory).1)]
  | .call (.write addr value) => [.access (.write addr value)]
  | .call (.readGraphics _) => []
  | .call (.writeGraphics addr value) => [.graphicsWrite addr value]
  | .list first last => ((Listing.ofRange first last).traffic c.memory).map .access

/-- What happens for a sequence of commands. -/
def history (c : Console δ) : List Command → List Happening
  | [] => []
  | command :: rest => c.happenings command ++ (c.obey command).2.history rest

/-- Whether a command leaves the cartridge in the slot, or the slot empty. -/
def Command.keepsSlot : Command → Bool
  | .insert _ | .eject => false
  | _ => true

/-- A statement about memory and the past that each happening keeps. -/
structure Chronicled (P : List Happening → MemoryMap δ → Prop) : Prop where
  read {past : List Happening} {m : MemoryMap δ} (mode : ReadMode) (addr : Addr) : P past m →
    P (past ++ [.access (.read mode addr (Bus.read mode addr m).1)]) (Bus.read mode addr m).2
  write {past : List Happening} {m : MemoryMap δ} (addr : Addr) (value : Byte) : P past m →
    P (past ++ [.access (.write addr value)]) (Bus.write addr value m)
  graphicsWrite {past : List Happening} {m : MemoryMap δ} (addr : Addr) (value : Byte) : P past m →
    P (past ++ [.graphicsWrite addr value])
      { m with cartridge := m.cartridge.map fun k => (k.writeGraphics (graphicsAddr addr) value).2 }
  restart {past : List Happening} {m : MemoryMap δ} : P past m → P (past ++ [.reset]) m.restart
  tick {past : List Happening} {m : MemoryMap δ} : P past m → P past { m with device := Device.tick m.device }

namespace Chronicled

variable {P : List Happening → MemoryMap δ → Prop} {past : List Happening} {m : MemoryMap δ} {c : Console δ}

theorem run (h : Chronicled P) {α : Type} (t : Transaction α) (hm : P past m) :
    P (past ++ (t.traffic m).map .access) (t.run m).2 := by
  have hstart : P (past ++ ([] : List Access).map .access) m := by
    rw [List.map_nil, List.append_nil]
    exact hm
  refine t.traffic_preserves (P := fun accesses m => P (past ++ accesses.map .access) m) ?_ ?_ [] m hstart
  · intro accesses m mode addr hm
    rw [List.map_append, ← List.append_assoc]
    exact h.read mode addr hm
  · intro accesses m addr value hm
    rw [List.map_append, ← List.append_assoc]
    exact h.write addr value hm

theorem oneTick (h : Chronicled P) (hc : P past c.memory) : P (past ++ c.tickTraffic.map .access) c.tick.memory := by
  have hticked := h.tick hc
  unfold tickTraffic Console.tick
  split
  · exact h.run c.processor.clock hticked
  · simpa using hticked

theorem ticks (h : Chronicled P) (n : Nat) (hc : P past c.memory) :
    P (past ++ (c.ticksTraffic n).map .access) (c.ticks n).memory := by
  induction n generalizing c past with
  | zero =>
    rw [ticksTraffic, List.map_nil, List.append_nil]
    exact hc
  | succ n ih =>
    have hrest := ih (h.oneTick hc)
    rw [ticksTraffic, List.map_append, ← List.append_assoc]
    exact hrest

/-- One command. -/
theorem obey (h : Chronicled P) {command : Command} (hcommand : command.keepsSlot = true) (hc : P past c.memory) :
    P (past ++ c.happenings command) (c.obey command).2.memory := by
  cases command with
  | tick => exact h.ticks 1 hc
  | step =>
    show P _ c.step.2.memory
    rw [step_eq_ticks]
    exact h.ticks _ hc
  | run count =>
    show P _ (c.run count).memory
    rw [run_eq_ticks]
    exact h.ticks _ hc
  | reset =>
    have hreset := h.run c.processor.reset (h.restart hc)
    rwa [List.append_assoc] at hreset
  | irq => exact h.run c.processor.irq hc
  | nmi => exact h.run c.processor.nmi hc
  | insert cartridge => cases hcommand
  | eject => cases hcommand
  | call call =>
    cases call with
    | read mode addr => exact h.read mode addr hc
    | write addr value => exact h.write addr value hc
    | readGraphics addr =>
      rw [happenings, List.append_nil]
      exact hc
    | writeGraphics addr value =>
      have hwrite := h.graphicsWrite addr value hc
      rw [← memory_writeGraphics] at hwrite
      exact hwrite
  | list first last => exact h.run (Listing.ofRange first last) hc

/-- **What each happening keeps holds after every run.** -/
theorem obeyAll (h : Chronicled P) {commands : List Command} (hcommands : ∀ command ∈ commands, command.keepsSlot = true)
    (hc : P past c.memory) : P (past ++ c.history commands) (c.obeyAll commands).2.memory := by
  induction commands generalizing c past with
  | nil =>
    rw [history, List.append_nil]
    exact hc
  | cons command rest ih =>
    obtain ⟨hfirst, hrest⟩ := List.forall_mem_cons.mp hcommands
    have hall := ih hrest (h.obey hfirst hc)
    rw [history, ← List.append_assoc]
    exact hall

end Chronicled

end History

end Console

end Nes
