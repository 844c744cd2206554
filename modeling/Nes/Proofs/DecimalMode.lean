import Nes.Memory.Flat
import Nes.Proofs.Steps

/-!
# The decimal flag

The decimal flag can be set and cleared, pushed and pulled, and nothing else depends on it. Two operations show it to the
bus, by pushing the status; four settle it, whatever it was (`Operation.settlesDecimal`). All others carry it along: with
the flag changed before, they do what they do, and the flag is changed after (`Operation.perform_withDecimal`).

So two processors that differ in this flag only make the same accesses at the same cost, as long as neither pushes its
status (`Processor.decimal_inert`).
-/

namespace Nes

/-! ## Changing the flag -/

namespace Byte

variable {b mask other : Byte}

/-- Different flags are set and cleared in any order. -/
theorem or_and_not (h : mask &&& other = 0) : (b ||| mask) &&& ~~~other = (b &&& ~~~other) ||| mask := by
  ext i hi
  have hbit := congrArg (·[i]) h
  simp only [BitVec.getElem_and, BitVec.getElem_or, BitVec.getElem_not] at hbit ⊢
  cases hmask : mask[i] with
  | false => simp
  | true => simp_all

end Byte

namespace Registers

variable (r : Registers) (on : Bool)

/-- The registers with the decimal flag set or clear. -/
def withDecimal : Registers := r.assign Flag.decimal on

/-- Assigning other flags does not interfere. -/
theorem assign_withDecimal {mask : Byte} (h : mask &&& Flag.decimal = 0) (value : Bool) :
    (r.withDecimal on).assign mask value = (r.assign mask value).withDecimal on := by
  have h' : Flag.decimal &&& mask = 0 := (BitVec.and_comm _ _).trans h
  have hset (s : Byte) : s ||| Flag.decimal ||| mask = s ||| mask ||| Flag.decimal := by ac_rfl
  have hclear (s : Byte) : s &&& ~~~Flag.decimal &&& ~~~mask = s &&& ~~~mask &&& ~~~Flag.decimal := by ac_rfl
  cases on <;> cases value <;>
    simp only [withDecimal, assign, if_true, Bool.false_eq_true, if_false, Byte.or_and_not h, Byte.or_and_not h', hset,
      hclear]

theorem isSet_withDecimal {mask : Byte} (h : mask &&& Flag.decimal = 0) : (r.withDecimal on).isSet mask = r.isSet mask := by
  rw [BitVec.and_comm] at h
  exact meets_assign h on

theorem bit_withDecimal {mask : Byte} (h : mask &&& Flag.decimal = 0) : (r.withDecimal on).bit mask = r.bit mask := by
  rw [bit, isSet_withDecimal r on h, bit]

/-- Registers are those with the decimal flag that they have. -/
theorem withDecimal_self : r.withDecimal (r.isSet Flag.decimal) = r := by
  have hstatus : ∀ s : Byte, (Registers.assign { status := s } Flag.decimal (s.meets Flag.decimal)).status = s := by decide
  exact congrArg (fun s => { r with status := s }) (hstatus r.status)

/-! ## Arithmetic carries the flag along -/

theorem setZN_withDecimal (v : Byte) : (r.withDecimal on).setZN v = (r.setZN v).withDecimal on := by
  rw [setZN, assign_withDecimal r on (by decide), assign_withDecimal _ on (by decide), setZN]

theorem setA_withDecimal (v : Byte) : (r.withDecimal on).setA v = (r.setA v).withDecimal on :=
  setZN_withDecimal { r with a := v } on v

theorem setX_withDecimal (v : Byte) : (r.withDecimal on).setX v = (r.setX v).withDecimal on :=
  setZN_withDecimal { r with x := v } on v

theorem setY_withDecimal (v : Byte) : (r.withDecimal on).setY v = (r.setY v).withDecimal on :=
  setZN_withDecimal { r with y := v } on v

/-- A sum is loaded like any byte, on top of the flags that are its own. -/
theorem addWithCarry_eq (m : Byte) :
    let sum := r.a + m + r.bit Flag.carry
    let total := r.a.toNat + m.toNat + (r.bit Flag.carry).toNat
    r.addWithCarry m = ((r.assign Flag.carry (0xFF < total)).assign Flag.overflow
      ((sum ^^^ r.a) &&& (sum ^^^ m)).msb).setA sum := rfl

theorem addWithCarry_withDecimal (m : Byte) : (r.withDecimal on).addWithCarry m = (r.addWithCarry m).withDecimal on := by
  have ha : (r.withDecimal on).a = r.a := rfl
  have hcarry : (r.withDecimal on).bit Flag.carry = r.bit Flag.carry := r.bit_withDecimal on (by decide)
  rw [addWithCarry_eq, addWithCarry_eq, ha, hcarry, assign_withDecimal r on (by decide),
    assign_withDecimal _ on (by decide), setA_withDecimal]

theorem compare_withDecimal (register m : Byte) :
    (r.withDecimal on).compare register m = (r.compare register m).withDecimal on := by
  rw [compare, assign_withDecimal r on (by decide), setZN_withDecimal, compare]

theorem testBits_withDecimal (m : Byte) : (r.withDecimal on).testBits m = (r.testBits m).withDecimal on := by
  rw [testBits, assign_withDecimal r on (by decide), assign_withDecimal _ on (by decide),
    assign_withDecimal _ on (by decide)]
  rfl

end Registers

/-- A byte in the making carries the flag along. -/
def Shifted.withDecimal (s : Shifted) (on : Bool) : Shifted := ⟨s.value, s.registers.withDecimal on⟩

namespace Shifted

variable (r : Registers) (on : Bool) (v : Byte)

theorem left_withDecimal : left (r.withDecimal on) v = (left r v).withDecimal on := by
  rw [left, r.assign_withDecimal on (by decide), withDecimal, left]

theorem right_withDecimal : right (r.withDecimal on) v = (right r v).withDecimal on := by
  rw [right, r.assign_withDecimal on (by decide), withDecimal, right]

theorem rotateLeft_withDecimal : rotateLeft (r.withDecimal on) v = (rotateLeft r v).withDecimal on := by
  rw [rotateLeft, r.assign_withDecimal on (by decide), r.bit_withDecimal on (by decide), withDecimal, rotateLeft]

theorem rotateRight_withDecimal : rotateRight (r.withDecimal on) v = (rotateRight r v).withDecimal on := by
  rw [rotateRight, r.assign_withDecimal on (by decide), r.bit_withDecimal on (by decide), withDecimal, rotateRight]

end Shifted

def Outcome.withDecimal (o : Outcome) (on : Bool) : Outcome := { o with registers := o.registers.withDecimal on }

def Resolved.withDecimal (z : Resolved) (on : Bool) : Resolved := { z with registers := z.registers.withDecimal on }

/-! ## Operations carry the flag along -/

/-- Whether an operation shows the decimal flag to the bus. -/
def Operation.showsDecimal : Operation → Bool
  | .php | .brk => true
  | _ => false

theorem Operation.showsDecimal_eq_false {op : Operation} (hphp : op ≠ .php) (hbrk : op ≠ .brk) :
    op.showsDecimal = false := by
  cases op
  case php => exact absurd rfl hphp
  case brk => exact absurd rfl hbrk
  all_goals rfl

/-- Whether an operation leaves a decimal flag that does not depend on the one before. -/
def Operation.settlesDecimal : Operation → Bool
  | .sed | .cld | .plp | .rti => true
  | _ => false

namespace Operand

variable {operand : Operand} {r : Registers} {on : Bool}

theorem consume_withDecimal {f f' : Byte → Registers} (h : ∀ v, f' v = (f v).withDecimal on) :
    operand.consume (r.withDecimal on) f' = operand.consume r f >>= fun o => .done (o.withDecimal on) := by
  obtain rfl : f' = fun v => (f v).withDecimal on := funext h
  cases operand <;> rfl

theorem inspect_withDecimal {f f' : Byte → Registers} (h : ∀ v, f' v = (f v).withDecimal on) :
    operand.inspect (r.withDecimal on) f' = operand.inspect r f >>= fun o => .done (o.withDecimal on) := by
  obtain rfl : f' = fun v => (f v).withDecimal on := funext h
  cases operand <;> rfl

theorem update_withDecimal {f : Registers → Byte → Shifted}
    (h : ∀ v, f (r.withDecimal on) v = (f r v).withDecimal on) :
    operand.update (r.withDecimal on) f = operand.update r f >>= fun o => .done (o.withDecimal on) := by
  have ha : (r.withDecimal on).a = r.a := rfl
  cases operand <;>
    simp only [update, ha, h, Shifted.withDecimal, Registers.setA_withDecimal, Registers.setZN_withDecimal] <;>
    rfl

theorem branch_withDecimal {mask : Byte} (h : mask &&& Flag.decimal = 0) (value : Bool) :
    operand.branch (r.withDecimal on) mask value = operand.branch r mask value >>= fun o => .done (o.withDecimal on) := by
  unfold branch
  rw [Registers.isSet_withDecimal r on h]
  split <;> rfl

end Operand

/-- Finding an operand carries the flag along. -/
theorem Mode.resolve_withDecimal (mode : Mode) (r : Registers) (on : Bool) :
    mode.resolve (r.withDecimal on) = mode.resolve r >>= fun z => .done (z.withDecimal on) := by
  cases mode <;> rfl

/-- **Operations do not depend on the decimal flag**, but for those that show it, and change it only if they settle it. -/
theorem Operation.perform_withDecimal {op : Operation} (hshows : op.showsDecimal = false)
    (hsettles : op.settlesDecimal = false) (operand : Operand) (r : Registers) (on : Bool) :
    op.perform operand (r.withDecimal on) = op.perform operand r >>= fun o => .done (o.withDecimal on) := by
  have hfinish {q q' : Registers} (h : q' = q.withDecimal on) :
      q'.finish = q.finish >>= fun o => .done (o.withDecimal on) := by
    rw [h]
    rfl
  cases op
  case php | brk => cases hshows
  case sed | cld | plp | rti => cases hsettles
  case lda => exact Operand.consume_withDecimal (r.setA_withDecimal on)
  case ldx => exact Operand.consume_withDecimal (r.setX_withDecimal on)
  case ldy => exact Operand.consume_withDecimal (r.setY_withDecimal on)
  case adc => exact Operand.consume_withDecimal (r.addWithCarry_withDecimal on)
  case sbc => exact Operand.consume_withDecimal fun m => r.addWithCarry_withDecimal on (~~~m)
  case and | ora | eor => exact Operand.consume_withDecimal fun m => r.setA_withDecimal on _
  case cmp => exact Operand.consume_withDecimal (r.compare_withDecimal on r.a)
  case cpx => exact Operand.inspect_withDecimal (r.compare_withDecimal on r.x)
  case cpy => exact Operand.inspect_withDecimal (r.compare_withDecimal on r.y)
  case bit => exact Operand.inspect_withDecimal (r.testBits_withDecimal on)
  case asl => exact Operand.update_withDecimal (Shifted.left_withDecimal r on)
  case lsr => exact Operand.update_withDecimal (Shifted.right_withDecimal r on)
  case rol => exact Operand.update_withDecimal (Shifted.rotateLeft_withDecimal r on)
  case ror => exact Operand.update_withDecimal (Shifted.rotateRight_withDecimal r on)
  case inc | dec => exact Operand.update_withDecimal fun v => rfl
  case inx | dex | tax | tsx => exact hfinish (r.setX_withDecimal on _)
  case iny | dey | tay => exact hfinish (r.setY_withDecimal on _)
  case txa | tya => exact hfinish (r.setA_withDecimal on _)
  case bcc | bcs | bne | beq | bpl | bmi | bvc | bvs => exact Operand.branch_withDecimal (by decide) _
  case clc | sec | cli | sei | clv => exact hfinish (r.assign_withDecimal on (by decide) _)
  case pla =>
    have hpulled (v : Byte) := hfinish (Registers.setA_withDecimal { r with sp := r.sp + 1 } on v)
    exact congrArg (Transaction.reading .live (.stackPage (r.sp + 1))) (funext hpulled)
  case sta | stx | sty | jmp | jsr | rts | pha | txs | nop | undefined => rfl

/-- Four operations leave the same flag whatever it was. -/
theorem Operation.perform_settlesDecimal {op : Operation} (h : op.settlesDecimal = true) (operand : Operand)
    (r : Registers) (on : Bool) : op.perform operand (r.withDecimal on) = op.perform operand r := by
  cases op
  case plp | rti => rfl
  case sed | cld => rw [perform, Registers.withDecimal, Registers.assign_assign, perform]
  all_goals cases h

/-! ## Instructions -/

/-- Two instructions are the same to the bus and to the clock, and to all registers but for the decimal flag. -/
structure Execution.AgreeButDecimal (e e' : Execution) : Prop where
  opcode : e'.opcode = e.opcode
  operandTraffic : e'.operandTraffic = e.operandTraffic
  operationTraffic : e'.operationTraffic = e.operationTraffic
  cost : e'.cost = e.cost
  registers : ∃ on, e'.registers = e.registers.withDecimal on
  settled : e.instruction.operation.settlesDecimal = true → e'.registers = e.registers

namespace Processor

variable {β : Type} [Bus β]

/-- **The instruction at hand does not depend on the decimal flag**, unless it pushes the status. -/
theorem execution_withDecimal {p p' : Processor} {on : Bool} (h : p'.registers = p.registers.withDecimal on) (bus : β)
    (hshows : (p.execution bus).instruction.operation.showsDecimal = false) :
    (p.execution bus).AgreeButDecimal (p'.execution bus) ∧ (p'.execute.run bus).2 = (p.execute.run bus).2 := by
  have hread : Bus.read .live p'.registers.pc bus = Bus.read .live p.registers.pc bus := by
    rw [h]
    rfl
  have hfetched : Execution.fetched p' = (Execution.fetched p).withDecimal on := by
    rw [Execution.fetched, h]
    exact Registers.assign_withDecimal { p.registers with pc := p.registers.pc + 1 } on (by decide) true
  have hshows : (Instruction.ofOpcode (Bus.read .live p.registers.pc bus).1).operation.showsDecimal = false := hshows
  rw [run_execute_snd, run_execute_snd]
  simp only [execution, Execution.instruction, hread, hfetched, Mode.resolve_withDecimal, Transaction.run_bind,
    Transaction.run_done, Transaction.traffic_bind, Transaction.traffic_done, List.append_nil, Resolved.withDecimal]
  generalize Bus.read .live p.registers.pc bus = fetch at hshows
  generalize ((Instruction.ofOpcode fetch.1).mode.resolve (Execution.fetched p)).run fetch.2 = found
  cases hsettles : (Instruction.ofOpcode fetch.1).operation.settlesDecimal with
  | true =>
    rw [Operation.perform_settlesDecimal hsettles]
    refine ⟨⟨rfl, rfl, rfl, rfl, ?_, fun _ => rfl⟩, rfl⟩
    exact ⟨_, (Registers.withDecimal_self _).symm⟩
  | false =>
    rw [Operation.perform_withDecimal hshows hsettles]
    simp only [Transaction.run_bind, Transaction.run_done, Transaction.traffic_bind, Transaction.traffic_done,
      List.append_nil]
    refine ⟨⟨rfl, rfl, rfl, rfl, ⟨on, ?_⟩, fun h => ?_⟩, trivial⟩
    · exact Registers.assign_withDecimal _ on (by decide) true
    · cases hsettles.symm.trans h

/-! ## Runs of steps -/

/-- Two processors differ in the decimal flag at most, their journals apart. -/
structure AgreeButDecimal (p p' : Processor) : Prop where
  a : p'.registers.a = p.registers.a
  x : p'.registers.x = p.registers.x
  y : p'.registers.y = p.registers.y
  sp : p'.registers.sp = p.registers.sp
  pc : p'.registers.pc = p.registers.pc
  status : p'.registers.status ||| Flag.decimal = p.registers.status ||| Flag.decimal
  cycles : p'.cycles = p.cycles
  clockCount : p'.clockCount = p.clockCount

/-- They agree if the one has the registers of the other with the flag set or clear. -/
theorem agreeButDecimal_iff {p p' : Processor} : p.AgreeButDecimal p' ↔
    (∃ on, p'.registers = p.registers.withDecimal on) ∧ p'.cycles = p.cycles ∧ p'.clockCount = p.clockCount := by
  constructor
  · intro h
    refine ⟨⟨p'.registers.isSet Flag.decimal, ?_⟩, h.cycles, h.clockCount⟩
    have hclear (s : Byte) : s &&& ~~~Flag.decimal = (s ||| Flag.decimal) &&& ~~~Flag.decimal := by
      revert s
      decide
    have hstatus : (p'.registers.withDecimal (p'.registers.isSet Flag.decimal)).status =
        (p.registers.withDecimal (p'.registers.isSet Flag.decimal)).status := by
      cases p'.registers.isSet Flag.decimal with
      | true => exact h.status
      | false =>
        show p'.registers.status &&& ~~~Flag.decimal = p.registers.status &&& ~~~Flag.decimal
        rw [hclear, h.status, ← hclear]
    rw [Registers.withDecimal_self] at hstatus
    exact Registers.ext h.a h.x h.y h.sp h.pc hstatus
  · rintro ⟨⟨on, h⟩, hcycles, hclock⟩
    have hstatus : ∀ (s : Byte) (on : Bool),
        (Registers.assign { status := s } Flag.decimal on).status ||| Flag.decimal = s ||| Flag.decimal := by decide
    refine ⟨?_, ?_, ?_, ?_, ?_, ?_, hcycles, hclock⟩ <;> rw [h]
    case refine_6 => exact hstatus p.registers.status on
    all_goals rfl

/-- The instruction at hand depends on the registers only. -/
theorem execution_congr {p p' : Processor} (h : p'.registers = p.registers) (bus : β) :
    p'.execution bus = p.execution bus := by
  unfold execution Execution.fetched
  rw [h]

/-- What one step keeps. -/
theorem AgreeButDecimal.step {p p' : Processor} (h : p.AgreeButDecimal p') (bus : β)
    (hshows : (p.execution bus).instruction.operation.showsDecimal = false) :
    (p.stepped bus).AgreeButDecimal (p'.stepped bus) ∧ (p'.next bus).2 = (p.next bus).2 ∧
      (p'.execution bus).cost = (p.execution bus).cost ∧ p'.step.traffic bus = p.step.traffic bus ∧
      ((p.execution bus).instruction.operation.settlesDecimal = true →
        (p'.stepped bus).registers = (p.stepped bus).registers) := by
  obtain ⟨⟨on, hregisters⟩, hcycles, hclock⟩ := agreeButDecimal_iff.mp h
  obtain ⟨hagree, -⟩ := execution_withDecimal hregisters bus hshows
  have hnext : (p'.next bus).2 = (p.next bus).2 :=
    have hsettled : p'.settled.registers = p.settled.registers.withDecimal on := hregisters
    (execution_withDecimal hsettled bus hshows).2
  have hclock' : (p'.stepped bus).clockCount = (p.stepped bus).clockCount := by
    show p'.clockCount + p'.cycles + (p'.execution bus).cost = p.clockCount + p.cycles + (p.execution bus).cost
    rw [hcycles, hclock, hagree.cost]
  have hcycles' : (p'.stepped bus).cycles = (p.stepped bus).cycles := by
    show (p'.execution bus).cost - (p'.execution bus).cost = (p.execution bus).cost - (p.execution bus).cost
    rw [Nat.sub_self, Nat.sub_self]
  refine ⟨agreeButDecimal_iff.mpr ⟨hagree.registers, hcycles', hclock'⟩, hnext, hagree.cost, ?_, hagree.settled⟩
  rw [traffic_step, traffic_step, Execution.traffic, Execution.traffic, h.pc, hagree.opcode, hagree.operandTraffic,
    hagree.operationTraffic]

/-- What a run of steps keeps, as long as no operation shows the flag. -/
theorem AgreeButDecimal.steps {p p' : Processor} (h : p.AgreeButDecimal p') (bus : β) {k : Nat}
    (hshows : ∀ j < k, ((p.after j bus).1.execution (p.after j bus).2).instruction.operation.showsDecimal = false) :
    (p.after k bus).1.AgreeButDecimal (p'.after k bus).1 ∧ (p'.after k bus).2 = (p.after k bus).2 ∧
      ((p'.steps k).run bus).1.1 = ((p.steps k).run bus).1.1 ∧ (p'.steps k).traffic bus = (p.steps k).traffic bus ∧
      ∀ j < k, ((p.after j bus).1.execution (p.after j bus).2).instruction.operation.settlesDecimal = true →
        (p'.after k bus).1.registers = (p.after k bus).1.registers := by
  induction k with
  | zero => exact ⟨h, rfl, rfl, rfl, fun j hj => absurd hj (Nat.not_lt_zero j)⟩
  | succ k ih =>
    obtain ⟨hagree, hbus, hcosts, htraffic, hsettled⟩ := ih fun j hj => hshows j (by omega)
    obtain ⟨hagree', hbus', hcost', htraffic', hsettled'⟩ := hagree.step (p.after k bus).2 (hshows k (by omega))
    rw [after_succ, after_succ, run_steps_succ, run_steps_succ, traffic_steps_succ, traffic_steps_succ, hbus]
    refine ⟨hagree', hbus', ?_, ?_, ?_⟩
    · simp only [hcosts, hbus, hcost']
    · rw [htraffic, htraffic']
    · intro j hj hsettles
      rcases Nat.lt_succ_iff_lt_or_eq.mp hj with hj | rfl
      · -- the registers have been the same since, and decide alone what follows
        have hsame := execution_congr (hsettled j hj hsettles) (p.after k bus).2
        rw [registers_stepped, registers_stepped, hsame]
      · exact hsettled' hsettles

/-- **The decimal flag is inert.** Two processors differ in the decimal flag at most, and make steps on the same bus. As
long as the one carries out no `PHP` and no `BRK`, after each step the costs, the bus and the accesses to it are the same,
and the processors still differ in the decimal flag at most. Once one of `SED`, `CLD`, `PLP` and `RTI` has been carried
out, they do not differ in that either. -/
theorem decimal_inert (p p' : Processor) (bus : β) (n : Nat) (hagree : p.AgreeButDecimal p')
    (hquiet : ∀ d ∈ p.deedsOfSteps n bus, d.operation ≠ some .php ∧ d.operation ≠ some .brk) (k : Nat) (hk : k ≤ n) :
    let run := (p.steps k).run (Monitored.mk bus #[])
    let run' := (p'.steps k).run (Monitored.mk bus #[])
    run'.1.1 = run.1.1 ∧ run'.2.bus = run.2.bus ∧ run'.2.log = run.2.log ∧ run.1.2.AgreeButDecimal run'.1.2 ∧
      ((∃ d ∈ p.deedsOfSteps k bus, d.operation ∈ [some .sed, some .cld, some .plp, some .rti]) →
        run'.1.2.registers.status = run.1.2.registers.status) := by
  have hshows : ∀ j < k,
      ((p.after j bus).1.execution (p.after j bus).2).instruction.operation.showsDecimal = false := by
    intro j hj
    obtain ⟨hphp, hbrk⟩ := hquiet _ (p.carried_mem_deedsOfSteps bus (Nat.lt_of_lt_of_le hj hk))
    exact Operation.showsDecimal_eq_false (fun h => hphp (congrArg some h)) (fun h => hbrk (congrArg some h))
  obtain ⟨hprocessor, hbus, hcosts, htraffic, hsettled⟩ := hagree.steps bus hshows
  intro run run'
  have hrun : run = (((p.steps k).run bus).1, ⟨(p.after k bus).2, ((p.steps k).traffic bus).toArray⟩) :=
    Transaction.run_monitored _ _
  have hrun' : run' = (((p'.steps k).run bus).1, ⟨(p'.after k bus).2, ((p'.steps k).traffic bus).toArray⟩) :=
    Transaction.run_monitored _ _
  rw [hrun, hrun']
  refine ⟨hcosts, hbus, congrArg List.toArray htraffic, hprocessor, ?_⟩
  rintro ⟨d, hd, hop⟩
  obtain ⟨op, hoperation, hsettles⟩ : ∃ op, d.operation = some op ∧ op.settlesDecimal = true := by
    simp only [List.mem_cons, List.not_mem_nil, or_false] at hop
    rcases hop with h | h | h | h <;> exact ⟨_, h, rfl⟩
  obtain ⟨j, hj, rfl⟩ := eq_carried_of_operation hd hoperation
  rw [operation_carried, Option.some.injEq] at hoperation
  rw [← hoperation] at hsettles
  exact congrArg Registers.status (hsettled j hj hsettles)

/-- A program that adds and then sets the decimal flag. -/
theorem operations_of_addition {p : Processor} {m : FlatMemory} (hadd : m.peek p.registers.pc = 0x69)
    (hset : m.peek (p.registers.pc + 2) = 0xF8) :
    (∀ d ∈ p.deedsOfSteps 2 m, ∀ op, d.operation = some op → op = .adc ∨ op = .sed) ∧
      ∃ d ∈ p.deedsOfSteps 2 m, d.operation = some .sed := by
  have hread : Bus.read .live p.registers.pc m = (0x69, m) := by rw [FlatMemory.read_eq, hadd]
  have hread' : Bus.read .live (p.registers.pc + 1 + 1) m = (0xF8, m) := by
    rw [FlatMemory.read_eq, BitVec.add_assoc]
    exact congrArg (·, m) hset
  have hpc : (p.stepped m).registers.pc = p.registers.pc + 1 + 1 := by
    simp only [registers_stepped, execution, hread]
    rfl
  have hafter : p.after 1 m = (p.stepped m, m) := by
    have hsettled : Bus.read .live p.settled.registers.pc m = (0x69, m) := hread
    rw [after_succ, after_zero]
    refine congrArg (p.stepped m, ·) ((p.settled.run_execute_snd m).trans ?_)
    simp only [execution, Execution.instruction, hsettled]
    rfl
  have hfirst : (p.carried m).operation = some .adc := by
    simp only [operation_carried, Execution.instruction, execution, hread]
    rfl
  have hsecond : ((p.after 1 m).1.carried (p.after 1 m).2).operation = some .sed := by
    simp only [hafter, operation_carried, Execution.instruction, execution, hpc, hread']
    rfl
  refine ⟨fun d hd op hop => ?_, _, p.carried_mem_deedsOfSteps m (Nat.lt_succ_self 1), hsecond⟩
  obtain ⟨j, hj, rfl⟩ := eq_carried_of_operation hd hop
  obtain rfl | rfl : j = 0 ∨ j = 1 := by omega
  · exact .inl (Option.some.inj (hop.symm.trans hfirst))
  · exact .inr (Option.some.inj (hop.symm.trans hsecond))

def sampleAddition : FlatMemory := FlatMemory.zero.load 0x8000 [0x69, 0x28, 0xF8]

def sampleBinary : Processor := { registers := { a := 0x19, pc := 0x8000, status := 0x24 } }

def sampleDecimal : Processor := { registers := { a := 0x19, pc := 0x8000, status := 0x2C } }

theorem decimal_inert_sample :
    let run := (sampleBinary.steps 2).run (Monitored.mk sampleAddition #[])
    let run' := (sampleDecimal.steps 2).run (Monitored.mk sampleAddition #[])
    run'.1.1 = run.1.1 ∧ run'.2.bus = run.2.bus ∧ run'.2.log = run.2.log ∧ run.1.2.AgreeButDecimal run'.1.2 ∧
      run'.1.2.registers.status = run.1.2.registers.status := by
  have hagree : sampleBinary.AgreeButDecimal sampleDecimal := ⟨rfl, rfl, rfl, rfl, rfl, by decide, rfl, rfl⟩
  have hadd : sampleAddition.peek sampleBinary.registers.pc = 0x69 := by
    simp [sampleAddition, sampleBinary, FlatMemory.peek_poke]
  have hset : sampleAddition.peek (sampleBinary.registers.pc + 2) = 0xF8 := by
    simp [sampleAddition, sampleBinary, FlatMemory.peek_poke]
  obtain ⟨hoperations, d, hd, hsed⟩ := operations_of_addition hadd hset
  have hquiet : ∀ d ∈ sampleBinary.deedsOfSteps 2 sampleAddition,
      d.operation ≠ some .php ∧ d.operation ≠ some .brk := by
    refine fun d hd => ⟨fun h => ?_, fun h => ?_⟩
    · rcases hoperations d hd _ h with h | h <;> cases h
    · rcases hoperations d hd _ h with h | h <;> cases h
  obtain ⟨hcosts, hbus, hlog, hprocessors, hsettled⟩ :=
    decimal_inert sampleBinary sampleDecimal sampleAddition 2 hagree hquiet 2 (Nat.le_refl 2)
  refine ⟨hcosts, hbus, hlog, hprocessors, hsettled ⟨d, hd, ?_⟩⟩
  rw [hsed]
  exact List.mem_cons_self

end Processor

end Nes
