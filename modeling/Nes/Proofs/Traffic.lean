import Nes.Processor.Basic

/-!
# Traffic

What a transaction does to a bus is seen in the log of a monitored bus. Two buses of different kinds are compared by a
relation that accesses of some kind keep (`Transaction.Simulation`): a transaction whose accesses on the one bus are all
of that kind has the same result and the same traffic on the other (`Transaction.Simulation.run`).

A processor is used by requests. Serving a list of them is one transaction (`Processor.serveAll`), so that what holds of
every transaction holds of every run of a processor.
-/

namespace Nes

namespace Transaction

variable {α β β' : Type} [Bus β] [Bus β']

/-! ## The log -/

/-- What is recorded stays recorded. -/
theorem log_run_prefix (t : Transaction α) (m : Monitored β) : m.log.toList <+: (t.run m).2.log.toList := by
  induction t generalizing m with
  | done a => exact List.prefix_refl _
  | reading mode addr next ih =>
    have hread : m.log.toList <+: (Bus.read mode addr m).2.log.toList := by simp [Bus.read]
    exact hread.trans (ih _ _)
  | writing addr value next ih =>
    have hwrite : m.log.toList <+: (Bus.write addr value m).log.toList := by simp [Bus.write]
    exact hwrite.trans (ih _)

theorem mem_log_run (t : Transaction α) {m : Monitored β} {access : Access} (h : access ∈ m.log) :
    access ∈ (t.run m).2.log := by
  rw [← Array.mem_toList_iff] at h ⊢
  exact (t.log_run_prefix m).subset h

/-! ## Simulation -/

/-- As long as the accesses are `ok`, buses related by `R` give the same bytes and stay related. -/
structure Simulation (ok : Access → Prop) (R : β → β' → Prop) : Prop where
  value {mode : ReadMode} {addr : Addr} {bus : β} {bus' : β'} : R bus bus' →
    ok (.read mode addr (Bus.read mode addr bus).1) → (Bus.read mode addr bus').1 = (Bus.read mode addr bus).1
  read {mode : ReadMode} {addr : Addr} {bus : β} {bus' : β'} : R bus bus' →
    ok (.read mode addr (Bus.read mode addr bus).1) → R (Bus.read mode addr bus).2 (Bus.read mode addr bus').2
  write {addr : Addr} {value : Byte} {bus : β} {bus' : β'} : R bus bus' →
    ok (.write addr value) → R (Bus.write addr value bus) (Bus.write addr value bus')

variable {ok : Access → Prop} {R : β → β' → Prop}

/-- **A transaction whose traffic on one bus is `ok` has the same result and the same traffic on a related bus**, and
leaves the two related. -/
theorem Simulation.run (sim : Simulation ok R) (t : Transaction α) {m : Monitored β} {m' : Monitored β'}
    (hR : R m.bus m'.bus) (hlog : m'.log = m.log) (hok : ∀ access ∈ (t.run m).2.log, ok access) :
    (t.run m').1 = (t.run m).1 ∧ (t.run m').2.log = (t.run m).2.log ∧ R (t.run m).2.bus (t.run m').2.bus := by
  induction t generalizing m m' with
  | done a => exact ⟨rfl, hlog, hR⟩
  | reading mode addr next ih =>
    -- the access is in the log at once, and so in the log at the end
    have haccess : ok (.read mode addr (Bus.read mode addr m.bus).1) :=
      hok _ (mem_log_run (next _) (m := (Bus.read mode addr m).2) Array.mem_push_self)
    have hvalue : (Bus.read mode addr m').1 = (Bus.read mode addr m).1 := sim.value hR haccess
    have hlog' : (Bus.read mode addr m').2.log = (Bus.read mode addr m).2.log := by
      show m'.log.push (.read mode addr (Bus.read mode addr m').1) =
        m.log.push (.read mode addr (Bus.read mode addr m).1)
      rw [hlog, hvalue]
    rw [run_reading, run_reading, hvalue]
    exact ih _ (sim.read hR haccess) hlog' hok
  | writing addr value next ih =>
    have haccess : ok (.write addr value) :=
      hok _ (mem_log_run next (m := Bus.write addr value m) Array.mem_push_self)
    have hlog' : (Bus.write addr value m').log = (Bus.write addr value m).log := by
      show m'.log.push (.write addr value) = m.log.push (.write addr value)
      rw [hlog]
    exact ih (sim.write hR haccess) hlog' hok

end Transaction

/-! ## Requests -/

/-- What a processor can be asked for. -/
inductive Request
  | clock
  | step
  | irq
  | nmi
  | reset
  deriving DecidableEq

namespace Processor

/-- Serves a request. A step says what it cost. -/
def serve (p : Processor) : Request → Transaction (Option Nat × Processor)
  | .clock => return (none, ← p.clock)
  | .step => do
    let (cost, p) ← p.step
    return (some cost, p)
  | .irq => return (none, ← p.irq)
  | .nmi => return (none, ← p.nmi)
  | .reset => return (none, ← p.reset)

/-- Serves requests in order, with what each one said. -/
def serveAll (p : Processor) : List Request → Transaction (List (Option Nat) × Processor)
  | [] => return ([], p)
  | request :: rest => do
    let (cost, p) ← p.serve request
    let (costs, p) ← p.serveAll rest
    return (cost :: costs, p)

theorem serveAll_append (p : Processor) (first rest : List Request) : p.serveAll (first ++ rest) = do
    let (costs, p) ← p.serveAll first
    let (costs', p) ← p.serveAll rest
    return (costs ++ costs', p) := by
  induction first generalizing p with
  | nil => exact (Transaction.bind_done (p.serveAll rest)).symm
  | cons request first ih => simp [serveAll, ih]

/-- The traffic of the first requests is part of the traffic of all of them. -/
theorem mem_log_serveAll {β : Type} [Bus β] (p : Processor) (requests : List Request) (k : Nat) {m : Monitored β}
    {access : Access} (h : access ∈ ((p.serveAll (requests.take k)).run m).2.log) :
    access ∈ ((p.serveAll requests).run m).2.log := by
  rw [← List.take_append_drop k requests, serveAll_append, Transaction.run_bind]
  exact Transaction.mem_log_run _ h

end Processor

end Nes
