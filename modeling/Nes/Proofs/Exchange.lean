import Nes.Proofs.Traffic

/-!
# What a transaction can end in

A transaction does not choose what a bus answers. `Transaction.CanEnd` says in which results it can end, and with which
traffic, whatever the answers are; `Transaction.Ensures` says that all of these are as described.

* What a sequence ensures is found part by part (`Transaction.ensures_bind`).
* What is ensured holds of every run on every bus (`Transaction.Ensures.run`, and `Transaction.canEnd_run` with the log).
* `Transaction.recorded` hands the traffic out with the result, and is otherwise the same exchange. On a given bus,
  `Transaction.traffic` is what it hands out.
-/

namespace Nes

/-! ## Writes -/

namespace Access

/-- The address and the byte of a write. -/
def written? : Access → Option (Addr × Byte)
  | .read _ _ _ => none
  | .write addr value => some (addr, value)

/-- The writes among some accesses. -/
def writes (traffic : List Access) : List (Addr × Byte) := traffic.filterMap written?

@[simp] theorem writes_nil : writes [] = [] := rfl

@[simp] theorem writes_read (mode : ReadMode) (addr : Addr) (value : Byte) (traffic : List Access) :
    writes (.read mode addr value :: traffic) = writes traffic := rfl

@[simp] theorem writes_write (addr : Addr) (value : Byte) (traffic : List Access) :
    writes (.write addr value :: traffic) = (addr, value) :: writes traffic := rfl

@[simp] theorem writes_append (first second : List Access) : writes (first ++ second) = writes first ++ writes second :=
  List.filterMap_append

end Access

namespace Transaction

variable {α γ : Type} {t : Transaction α} {f : α → Transaction γ} {Q Q' : List Access → α → Prop}

/-- A transaction can end in a result, with some traffic, if a bus may answer as the traffic says. -/
inductive CanEnd : Transaction α → List Access → α → Prop
  | done (a : α) : CanEnd (.done a) [] a
  | reading {mode : ReadMode} {addr : Addr} {next : Byte → Transaction α} {value : Byte} {traffic : List Access}
      {result : α} : CanEnd (next value) traffic result →
        CanEnd (.reading mode addr next) (.read mode addr value :: traffic) result
  | writing {addr : Addr} {value : Byte} {next : Transaction α} {traffic : List Access} {result : α} :
      CanEnd next traffic result → CanEnd (.writing addr value next) (.write addr value :: traffic) result

/-- Whatever a bus answers, the traffic and the result are as `Q` says. -/
def Ensures (t : Transaction α) (Q : List Access → α → Prop) : Prop :=
  ∀ traffic result, t.CanEnd traffic result → Q traffic result

/-! ## Rules -/

theorem CanEnd.bind {first second : List Access} {a : α} {c : γ} (h : t.CanEnd first a) (h' : (f a).CanEnd second c) :
    (t >>= f).CanEnd (first ++ second) c := by
  induction h with
  | done a => exact h'
  | reading _ ih => exact .reading (ih h')
  | writing _ ih => exact .writing (ih h')

/-- The traffic of a sequence is that of its parts, one after the other. -/
theorem canEnd_bind {traffic : List Access} {c : γ} : (t >>= f).CanEnd traffic c ↔
    ∃ first second a, traffic = first ++ second ∧ t.CanEnd first a ∧ (f a).CanEnd second c := by
  constructor
  · intro h
    induction t generalizing traffic with
    | done a => exact ⟨[], traffic, a, rfl, .done a, h⟩
    | reading mode addr next ih =>
      cases h with
      | reading h =>
        obtain ⟨first, second, a, rfl, hfirst, hsecond⟩ := ih _ h
        exact ⟨_, second, a, rfl, .reading hfirst, hsecond⟩
    | writing addr value next ih =>
      cases h with
      | writing h =>
        obtain ⟨first, second, a, rfl, hfirst, hsecond⟩ := ih h
        exact ⟨_, second, a, rfl, .writing hfirst, hsecond⟩
  · rintro ⟨first, second, a, rfl, hfirst, hsecond⟩
    exact hfirst.bind hsecond

@[simp] theorem canEnd_done {a b : α} {traffic : List Access} :
    (Transaction.done a).CanEnd traffic b ↔ traffic = [] ∧ b = a := by
  constructor
  · rintro ⟨⟩
    exact ⟨rfl, rfl⟩
  · rintro ⟨rfl, rfl⟩
    exact .done b

@[simp] theorem ensures_done {a : α} : (Transaction.done a).Ensures Q ↔ Q [] a := by
  simp [Ensures]

@[simp] theorem ensures_reading {mode : ReadMode} {addr : Addr} {next : Byte → Transaction α} :
    (Transaction.reading mode addr next).Ensures Q ↔
      ∀ value, (next value).Ensures fun traffic result => Q (.read mode addr value :: traffic) result := by
  constructor
  · intro h value traffic result hnext
    exact h _ _ (.reading hnext)
  · rintro h _ _ ⟨⟩
    rename_i hnext
    exact h _ _ _ hnext

@[simp] theorem ensures_writing {addr : Addr} {value : Byte} {next : Transaction α} :
    (Transaction.writing addr value next).Ensures Q ↔
      next.Ensures fun traffic result => Q (.write addr value :: traffic) result := by
  constructor
  · intro h traffic result hnext
    exact h _ _ (.writing hnext)
  · rintro h _ _ ⟨⟩
    rename_i hnext
    exact h _ _ hnext

@[simp] theorem ensures_bind {Q : List Access → γ → Prop} : (t >>= f).Ensures Q ↔
    t.Ensures fun first a => (f a).Ensures fun second c => Q (first ++ second) c := by
  constructor
  · intro h first a ht second c hf
    exact h _ _ (ht.bind hf)
  · intro h traffic c ht
    obtain ⟨first, second, a, rfl, hfirst, hsecond⟩ := canEnd_bind.mp ht
    exact h _ _ hfirst _ _ hsecond

theorem Ensures.mono (h : t.Ensures Q) (hQ : ∀ traffic result, Q traffic result → Q' traffic result) : t.Ensures Q' :=
  fun traffic result ht => hQ _ _ (h traffic result ht)

@[simp] theorem ensures_true (t : Transaction α) : t.Ensures fun _ _ => True := fun _ _ _ => trivial

/-! ## The traffic as a result -/

/-- The same exchange, which ends in its result and its traffic. -/
def recorded : Transaction α → Transaction (α × List Access)
  | .done a => .done (a, [])
  | .reading mode addr next => .reading mode addr fun value => do
    let (a, traffic) ← (next value).recorded
    return (a, .read mode addr value :: traffic)
  | .writing addr value next => .writing addr value do
    let (a, traffic) ← next.recorded
    return (a, .write addr value :: traffic)

theorem recorded_bind (t : Transaction α) (f : α → Transaction γ) : (t.recorded >>= fun r => f r.1) = t >>= f := by
  induction t with
  | done a => rfl
  | reading mode addr next ih => simp [recorded, ih]
  | writing addr value next ih => simp [recorded, ih]

theorem ensures_recorded (t : Transaction α) :
    t.recorded.Ensures fun traffic r => r.2 = traffic ∧ t.CanEnd traffic r.1 := by
  induction t with
  | done a => simp [recorded]
  | reading mode addr next ih =>
    simp only [recorded, ensures_reading, ensures_bind, pure_eq, ensures_done, List.append_nil]
    rintro value traffic r hr
    obtain ⟨rfl, hend⟩ := ih value _ _ hr
    exact ⟨rfl, .reading hend⟩
  | writing addr value next ih =>
    simp only [recorded, ensures_writing, ensures_bind, pure_eq, ensures_done, List.append_nil]
    rintro traffic r hr
    obtain ⟨rfl, hend⟩ := ih _ _ hr
    exact ⟨rfl, .writing hend⟩

/-! ## Runs -/

section Run

variable {β : Type} [Bus β]

/-- To be watched changes nothing. -/
theorem run_bus (t : Transaction α) (m : Monitored β) : t.run m.bus = ((t.run m).1, (t.run m).2.bus) := by
  induction t generalizing m with
  | done a => rfl
  | reading mode addr next ih => exact ih _ (Bus.read mode addr m).2
  | writing addr value next ih => exact ih (Bus.write addr value m)

/-- The accesses that a transaction makes on a bus. -/
def traffic (t : Transaction α) (bus : β) : List Access := (t.recorded.run bus).1.2

@[simp] theorem traffic_done (a : α) (bus : β) : (Transaction.done a).traffic bus = [] := rfl

@[simp] theorem traffic_reading (mode : ReadMode) (addr : Addr) (next : Byte → Transaction α) (bus : β) :
    (Transaction.reading mode addr next).traffic bus = .read mode addr (Bus.read mode addr bus).1 ::
      (next (Bus.read mode addr bus).1).traffic (Bus.read mode addr bus).2 := by
  simp [traffic, recorded]

@[simp] theorem traffic_writing (addr : Addr) (value : Byte) (next : Transaction α) (bus : β) :
    (Transaction.writing addr value next).traffic bus =
      .write addr value :: next.traffic (Bus.write addr value bus) := by
  simp [traffic, recorded]

@[simp] theorem traffic_bind (t : Transaction α) (f : α → Transaction γ) (bus : β) :
    (t >>= f).traffic bus = t.traffic bus ++ (f (t.run bus).1).traffic (t.run bus).2 := by
  induction t generalizing bus with
  | done a => rfl
  | reading mode addr next ih => simp [ih]
  | writing addr value next ih => simp [ih]

/-- They are handed out on top of what the transaction does. -/
theorem run_recorded (t : Transaction α) (bus : β) :
    t.recorded.run bus = (((t.run bus).1, t.traffic bus), (t.run bus).2) := by
  have hforget := t.recorded_bind .done
  have hrun := congrArg (·.run bus) hforget
  simp only [bind_done, run_bind, run_done] at hrun
  rw [← hrun]
  rfl

/-- They are what a monitor records. -/
theorem log_run (t : Transaction α) (m : Monitored β) : (t.run m).2.log.toList = m.log.toList ++ t.traffic m.bus := by
  induction t generalizing m with
  | done a => simp
  | reading mode addr next ih =>
    rw [run_reading, ih, traffic_reading]
    simp [Bus.read]
  | writing addr value next ih =>
    rw [run_writing, ih, traffic_writing]
    simp [Bus.write]

/-- A bus that is watched from now on. -/
theorem run_monitored (t : Transaction α) (bus : β) :
    t.run (Monitored.mk bus #[]) = ((t.run bus).1, ⟨(t.run bus).2, (t.traffic bus).toArray⟩) := by
  have hbus := t.run_bus (Monitored.mk bus #[])
  have hlog := t.log_run (Monitored.mk bus #[])
  obtain ⟨hresult, hbus⟩ := Prod.mk.inj hbus
  have hlog : (t.run (Monitored.mk bus #[])).2.log = (t.traffic bus).toArray := by
    apply Array.toList_inj.mp
    simpa using hlog
  rw [hresult, hbus, ← hlog]

/-- A transaction can end as it does. -/
theorem canEnd_traffic (t : Transaction α) (bus : β) : t.CanEnd (t.traffic bus) (t.run bus).1 := by
  induction t generalizing bus with
  | done a => exact .done a
  | reading mode addr next ih =>
    rw [traffic_reading]
    exact .reading (ih _ _)
  | writing addr value next ih =>
    rw [traffic_writing]
    exact .writing (ih _)

/-- A run is one of the ways in which a transaction can end, and the log has its traffic. -/
theorem canEnd_run (t : Transaction α) (m : Monitored β) :
    ∃ traffic, (t.run m).2.log.toList = m.log.toList ++ traffic ∧ t.CanEnd traffic (t.run m).1 := by
  have hend := t.canEnd_traffic m.bus
  rw [run_bus] at hend
  exact ⟨t.traffic m.bus, t.log_run m, hend⟩

/-- What is ensured of the result holds on every bus. -/
theorem Ensures.run {P : α → Prop} (h : t.Ensures fun _ => P) (bus : β) : P (t.run bus).1 :=
  h _ _ (t.canEnd_traffic bus)

/-- What is kept by each access, with the access added to the past, a transaction keeps. -/
theorem traffic_preserves {P : List Access → β → Prop}
    (hread : ∀ past bus mode addr, P past bus →
      P (past ++ [.read mode addr (Bus.read mode addr bus).1]) (Bus.read mode addr bus).2)
    (hwrite : ∀ past bus addr value, P past bus → P (past ++ [.write addr value]) (Bus.write addr value bus))
    (t : Transaction α) (past : List Access) (bus : β) (h : P past bus) : P (past ++ t.traffic bus) (t.run bus).2 := by
  induction t generalizing past bus with
  | done a => simpa using h
  | reading mode addr next ih =>
    have hnext := ih (Bus.read mode addr bus).1 _ _ (hread past bus mode addr h)
    rw [List.append_assoc] at hnext
    rw [traffic_reading]
    exact hnext
  | writing addr value next ih =>
    have hnext := ih _ _ (hwrite past bus addr value h)
    rw [List.append_assoc] at hnext
    rw [traffic_writing]
    exact hnext

end Run

end Transaction

end Nes
