import Nes.Listing
import Nes.Memory.Flat
import Nes.Proofs.Accesses

/-!
# Listed code

A listing and a processor decode the same bytes, each in its own way: the listing walks by the lengths in the opcode
table, the processor by what its modes fetch.

* The lines of a listing follow each other without a gap (`Listing.run_ofRange`, `FlatMemory.sweep`).
* An instruction leaves the program counter behind itself, unless it jumps or is a branch that is taken
  (`Execution.Of.pc_of_passing`). Branches that are taken go to their operand (`Execution.Of.pc_of_taken`).

Hence a processor that starts where a listing starts, and neither jumps nor changes the code, executes the lines one
after the other (`Processor.follows_listing`).
-/

namespace Nes

/-! ## Lines in memory -/

namespace FlatMemory

/-- The line at an address. -/
def lineAt (m : FlatMemory) (address : Addr) : Line :=
  ⟨address, m.peek address, m.peek (address + 1), m.peek (address + 2)⟩

/-- Where the line begins that stands behind a number of lines. -/
def lineStart (m : FlatMemory) (first : Addr) : Nat → Addr
  | 0 => first
  | n + 1 => m.lineStart first n + BitVec.ofNat 16 (m.lineAt (m.lineStart first n)).length

/-- A number of lines without a gap. -/
def sweep (m : FlatMemory) (first : Addr) (n : Nat) : List Line :=
  (List.range n).map fun i => m.lineAt (m.lineStart first i)

variable (m : FlatMemory) (first : Addr)

theorem sweep_succ (n : Nat) : m.sweep first (n + 1) = m.sweep first n ++ [m.lineAt (m.lineStart first n)] := by
  simp [sweep, List.range_succ]

@[simp] theorem length_sweep (n : Nat) : (m.sweep first n).length = n := by simp [sweep]

theorem take_sweep {k n : Nat} (h : k ≤ n) : (m.sweep first n).take k = m.sweep first k := by
  rw [sweep, ← List.map_take, List.take_range, Nat.min_eq_left h, sweep]

theorem mem_sweep {n : Nat} {line : Line} : line ∈ m.sweep first n ↔ ∃ i < n, m.lineAt (m.lineStart first i) = line := by
  simp [sweep]

theorem length_lineAt {address : Addr} {opcode : Byte} (h : m.peek address = opcode) :
    (m.lineAt address).length = (Instruction.ofOpcode opcode).length := by
  rw [← h]
  rfl

theorem run_decode (address : Addr) : (Line.decode address).run m = (m.lineAt address, m) := rfl

end FlatMemory

namespace Listing

/-- Adding lines goes on with the lines that are there. -/
theorem run_extend (m : FlatMemory) (first last : Addr) (place : Nat) (lines : Array Line) {n : Nat}
    (hlines : lines.toList = m.sweep first n) (hplace : BitVec.ofNat 16 place = m.lineStart first n) :
    ∃ count, ((extend last place lines).run m).1.toList = m.sweep first count := by
  fun_induction extend last place lines generalizing n with
  | case1 place lines hle ih =>
    have hlines' : (lines.push (m.lineAt (m.lineStart first n))).toList = m.sweep first (n + 1) := by
      rw [Array.toList_push, hlines, m.sweep_succ]
    have hplace' : BitVec.ofNat 16 (place + (m.lineAt (m.lineStart first n)).length) = m.lineStart first (n + 1) := by
      rw [BitVec.ofNat_add, hplace, FlatMemory.lineStart]
    rw [Transaction.run_bind, m.run_decode, hplace]
    exact ih _ hlines' hplace'
  | case2 place lines hlt => exact ⟨n, hlines⟩

/-- **A listing of memory has no gap.** -/
theorem run_ofRange (m : FlatMemory) (first last : Addr) :
    ∃ count, ((ofRange first last).run m).1.lines.toList = m.sweep first count := by
  have hplace : BitVec.ofNat 16 first.toNat = m.lineStart first 0 := (BitVec.ofNat_toNat 16 first).trans (BitVec.setWidth_eq first)
  obtain ⟨count, hlines⟩ := run_extend m first last first.toNat #[] rfl hplace
  refine ⟨count, ?_⟩
  rw [ofRange, Transaction.run_bind]
  exact hlines

/-- Whether an address holds a byte of some line. Lines go on past the last address from the first. -/
def Covers (l : Listing) (addr : Addr) : Prop :=
  ∃ line ∈ l.lines, ∃ i < line.length, addr = line.address + BitVec.ofNat 16 i

end Listing

/-! ## Where operations go -/

namespace Operation

/-- Whether an operation goes elsewhere in any case. -/
def jumps : Operation → Bool
  | .jmp | .jsr | .rts | .rti | .brk => true
  | _ => false

/-- The flag that a branch depends on, and the value for which it is taken. -/
def condition : Operation → Option (Byte × Bool)
  | .bcc => some (Flag.carry, false)
  | .bcs => some (Flag.carry, true)
  | .bne => some (Flag.zero, false)
  | .beq => some (Flag.zero, true)
  | .bpl => some (Flag.negative, false)
  | .bmi => some (Flag.negative, true)
  | .bvc => some (Flag.overflow, false)
  | .bvs => some (Flag.overflow, true)
  | _ => none

/-- Whether an operation is a branch that is taken. -/
def Taken (op : Operation) (r : Registers) : Prop := ∃ mask on, op.condition = some (mask, on) ∧ r.isSet mask = on

theorem taken_iff {op : Operation} {mask : Byte} {on : Bool} (hcondition : op.condition = some (mask, on))
    (r : Registers) : op.Taken r ↔ r.isSet mask = on := by
  constructor
  · rintro ⟨mask', on', hsome, hset⟩
    cases hcondition.symm.trans hsome
    exact hset
  · exact fun hset => ⟨mask, on, hcondition, hset⟩

theorem Taken.jumps_eq_false {op : Operation} {r : Registers} (h : op.Taken r) : op.jumps = false := by
  obtain ⟨mask, on, hcondition, -⟩ := h
  cases op
  case jmp | jsr | rts | rti | brk => cases hcondition
  all_goals rfl

/-- What does not jump leaves the program counter alone, or is a branch that sets it to its operand. -/
theorem ensures_pc {op : Operation} (hjumps : op.jumps = false) (operand : Operand) (r : Registers) :
    (op.perform operand r).Ensures fun _ outcome =>
      (¬op.Taken r → outcome.registers.pc = r.pc) ∧ (op.Taken r → outcome.registers.pc = operand.addr) := by
  have hbranch {mask : Byte} {on : Bool} (hcondition : op.condition = some (mask, on)) :
      (operand.branch r mask on).Ensures fun _ outcome =>
        (¬op.Taken r → outcome.registers.pc = r.pc) ∧ (op.Taken r → outcome.registers.pc = operand.addr) := by
    have htaken := taken_iff hcondition r
    unfold Operand.branch
    split
    · next hset => exact Transaction.ensures_done.mpr ⟨fun h => absurd (htaken.mpr hset) h, fun _ => rfl⟩
    · next hset => exact Transaction.ensures_done.mpr ⟨fun _ => rfl, fun h => absurd (htaken.mp h) hset⟩
  have hkept (hcondition : op.condition = none)
      (h : (op.perform operand r).Ensures fun _ outcome => outcome.registers.pc = r.pc) :
      (op.perform operand r).Ensures fun _ outcome =>
        (¬op.Taken r → outcome.registers.pc = r.pc) ∧ (op.Taken r → outcome.registers.pc = operand.addr) := by
    refine h.mono fun _ outcome hpc => ⟨fun _ => hpc, ?_⟩
    rintro ⟨mask, on, hsome, -⟩
    cases hcondition.symm.trans hsome
  have hupdate {f : Registers → Byte → Shifted} (hf : ∀ v, (f r v).registers.pc = r.pc) :
      (operand.update r f).Ensures fun _ outcome => outcome.registers.pc = r.pc := Operand.ensures_update hf hf
  cases op
  case bcc | bcs | bne | beq | bpl | bmi | bvc | bvs => exact hbranch rfl
  case jmp | jsr | rts | rti | brk => cases hjumps
  case asl | lsr | rol | ror | inc | dec => exact hkept rfl (hupdate fun _ => rfl)
  all_goals
    apply hkept rfl
    simp only [perform, Operand.ensures_consume, Operand.ensures_inspect, Operand.ensures_store, Registers.finish,
      Registers.ensures_push, Registers.ensures_pop, Registers.setA, Registers.setX, Registers.setY, Registers.setZN,
      Registers.addWithCarry, Registers.subtractWithCarry, Registers.compare, Registers.testBits, Registers.pc_assign,
      Transaction.ensures_bind, Transaction.ensures_done, Transaction.pure_eq, Transaction.ensures_true, implies_true]

/-- Flags that are not used decide no branch. -/
theorem taken_iff_of_flags {op : Operation} {r q : Registers}
    (h : ∀ mask, mask &&& Flag.unused = 0 → q.isSet mask = r.isSet mask) : op.Taken q ↔ op.Taken r := by
  have hmask {mask : Byte} {on : Bool} (hcondition : op.condition = some (mask, on)) : q.isSet mask = r.isSet mask := by
    apply h
    cases op
    case bcc | bcs | bne | beq | bpl | bmi | bvc | bvs =>
      cases hcondition
      decide
    all_goals cases hcondition
  constructor
  · rintro ⟨mask, on, hcondition, hset⟩
    exact ⟨mask, on, hcondition, (hmask hcondition).symm.trans hset⟩
  · rintro ⟨mask, on, hcondition, hset⟩
    exact ⟨mask, on, hcondition, (hmask hcondition).trans hset⟩

end Operation

namespace Execution.Of

variable {e : Execution} {p : Processor}

/-- The flags are still those of the processor when the operation is carried out. -/
theorem taken_resolved (h : e.Of p) :
    e.instruction.operation.Taken e.resolved.registers ↔ e.instruction.operation.Taken p.registers := by
  apply Operation.taken_iff_of_flags
  intro mask hmask
  rw [h.registers_resolved]
  exact Registers.meets_assign ((BitVec.and_comm _ _).trans hmask) true

/-- An instruction that goes nowhere else leaves the program counter behind itself. -/
theorem pc_of_passing (h : e.Of p) (hjumps : e.instruction.operation.jumps = false)
    (hpassing : ¬e.instruction.operation.Taken p.registers) :
    e.registers.pc = p.registers.pc + BitVec.ofNat 16 e.instruction.length := by
  have hpc := (Operation.ensures_pc hjumps _ _ _ _ h.perform).1 (mt h.taken_resolved.mp hpassing)
  exact hpc.trans h.pc_resolved

/-- A branch that is taken goes to its operand. -/
theorem pc_of_taken (h : e.Of p) (htaken : e.instruction.operation.Taken p.registers) :
    e.registers.pc = e.resolved.operand.addr :=
  (Operation.ensures_pc htaken.jumps_eq_false _ _ _ _ h.perform).2 (h.taken_resolved.mpr htaken)

end Execution.Of

namespace Deed

/-- A branch is taken. -/
def TakesBranch (d : Deed) : Prop := ∃ op, d.operation = some op ∧ op.Taken d.before.registers

/-- An instruction goes elsewhere than behind itself. -/
def Diverts (d : Deed) : Prop := ∃ op, d.operation = some op ∧ (op.jumps = true ∨ op.Taken d.before.registers)

end Deed

/-- Branches have a mode of their own. -/
theorem Instruction.mode_of_condition (opcode : Byte) :
    (ofOpcode opcode).operation.condition.isSome = true → (ofOpcode opcode).mode = .relative := by
  revert opcode
  decide +kernel

/-- The bytes of a line are in one memory as in another. -/
def Line.Unchanged (line : Line) (m now : FlatMemory) : Prop :=
  ∀ i < line.length, now.peek (line.address + BitVec.ofNat 16 i) = m.peek (line.address + BitVec.ofNat 16 i)

/-- What a listing covers holds the bytes of its lines. -/
theorem Listing.unchanged_of_covers {listing : Listing} {m now : FlatMemory}
    (h : ∀ addr, listing.Covers addr → now.peek addr = m.peek addr) {line : Line} (hline : line ∈ listing.lines) :
    line.Unchanged m now :=
  fun i hi => h _ ⟨line, hline, i, hi, rfl⟩

namespace Processor

/-! ## One step -/

section

variable {p : Processor} {m now : FlatMemory} {address : Addr}

/-- Where a line is unchanged, its instruction is executed. -/
theorem opcode_execution (hpc : p.registers.pc = address) (hsame : (m.lineAt address).Unchanged m now) :
    (p.execution now).opcode = (m.lineAt address).opcode := by
  have hopcode := hsame 0 (Line.length_pos _)
  rw [BitVec.add_zero] at hopcode
  have hread : (p.execution now).opcode = now.peek p.registers.pc := rfl
  rw [hread, hpc]
  exact hopcode

theorem instruction_execution (hpc : p.registers.pc = address) (hsame : (m.lineAt address).Unchanged m now) :
    (p.execution now).instruction = (m.lineAt address).instruction :=
  congrArg Instruction.ofOpcode (opcode_execution hpc hsame)

/-- What does not divert goes from one line to the next. -/
theorem pc_stepped (hpc : p.registers.pc = address) (hsame : (m.lineAt address).Unchanged m now)
    (hpassing : ¬(p.carried now).Diverts) :
    (p.stepped now).registers.pc = address + BitVec.ofNat 16 (m.lineAt address).length := by
  have hjumps : (p.execution now).instruction.operation.jumps = false := by
    cases hjumps : (p.execution now).instruction.operation.jumps with
    | false => rfl
    | true => exact absurd ⟨_, rfl, .inl hjumps⟩ hpassing
  have htaken : ¬(p.execution now).instruction.operation.Taken p.registers :=
    fun htaken => hpassing ⟨_, rfl, .inr htaken⟩
  rw [registers_stepped, (p.execution_of now).pc_of_passing hjumps htaken, hpc, instruction_execution hpc hsame,
    Line.length]

/-- The operand of a branch is the target of its line. -/
theorem addr_of_relative (hpc : p.registers.pc = address) (hsame : (m.lineAt address).Unchanged m now)
    (hmode : (m.lineAt address).instruction.mode = .relative) :
    (p.execution now).resolved.operand.addr = (m.lineAt address).branchTarget := by
  have hlength : 1 < (m.lineAt address).length := by
    rw [Line.length, Instruction.length, hmode]
    decide
  have hdistance : now.peek (address + 1) = m.peek (address + 1) := hsame 1 hlength
  have hmode' : (Instruction.ofOpcode (now.peek p.registers.pc)).mode = .relative :=
    (congrArg Instruction.mode (instruction_execution hpc hsame)).trans hmode
  have hoperand : (p.execution now).resolved.operand.addr =
      p.registers.pc + 1 + 1 + (now.peek (p.registers.pc + 1)).signExtend 16 := by
    simp only [execution, FlatMemory.read_eq, hmode']
    rfl
  rw [hoperand, hpc, hdistance, BitVec.add_assoc address 1 1]
  rfl

/-- A branch that is taken goes where its line says. -/
theorem pc_of_takesBranch (hpc : p.registers.pc = address) (hsame : (m.lineAt address).Unchanged m now)
    (htakes : (p.carried now).TakesBranch) :
    (m.lineAt address).instruction.mode = .relative ∧
      (p.carried now).after.registers.pc = (m.lineAt address).branchTarget := by
  obtain ⟨op, hop, htaken⟩ := htakes
  obtain rfl : (p.execution now).instruction.operation = op := Option.some.inj hop
  have hmode : (m.lineAt address).instruction.mode = .relative := by
    obtain ⟨mask, on, hcondition, -⟩ := htaken
    rw [instruction_execution hpc hsame] at hcondition
    exact Instruction.mode_of_condition _ (Option.isSome_of_eq_some hcondition)
  exact ⟨hmode, ((p.execution_of now).pc_of_taken htaken).trans (addr_of_relative hpc hsame hmode)⟩

end

end Processor

/-! ## Runs of steps -/

/-- The address, the opcode and the mnemonic of a line. -/
def Line.decoded (line : Line) : Addr × Byte × String := (line.address, line.opcode, line.instruction.mnemonic)

/-- The same of a journal entry. -/
def JournalEntry.decoded (entry : JournalEntry) : Addr × Byte × String := (entry.pc, entry.opcode, entry.mnemonic)

namespace Processor

/-- A number of steps find the listed code in memory as it was. -/
def KeepsCode (p : Processor) (m : FlatMemory) (listing : Listing) (n : Nat) : Prop :=
  ∀ j < n, ∀ addr, listing.Covers addr → (p.after j m).2.peek addr = m.peek addr

/-- Along the lines of a listing a processor stands at the next one, and has recorded those before. -/
theorem along_lines {p : Processor} {m : FlatMemory} {first : Addr} {old : Array JournalEntry} {k : Nat}
    (hpc : p.registers.pc = first) (hjournal : p.journal = some old)
    (hpassing : ∀ j < k, ¬((p.after j m).1.carried (p.after j m).2).Diverts)
    (hsame : ∀ j < k, (m.lineAt (m.lineStart first j)).Unchanged m (p.after j m).2) :
    (p.after k m).1.registers.pc = m.lineStart first k ∧
      ∃ entries, (p.after k m).1.journal = some (old ++ entries) ∧
        entries.toList.map (·.decoded) = (m.sweep first k).map (·.decoded) := by
  induction k with
  | zero => exact ⟨hpc, #[], by simpa using hjournal, rfl⟩
  | succ k ih =>
    obtain ⟨hat, entries, hrecorded, hdecoded⟩ := ih (fun j hj => hpassing j (by omega)) fun j hj => hsame j (by omega)
    -- the last step finds line `k` as it was listed, so it executes and records this line
    have hline := hsame k (Nat.lt_succ_self k)
    let entry := ((p.after k m).1.execution (p.after k m).2).entry (p.after k m).1.settled
    have hentry : entry.decoded = (m.lineAt (m.lineStart first k)).decoded := by
      have hmnemonic := congrArg Instruction.mnemonic (instruction_execution hat hline)
      rw [Line.decoded, ← opcode_execution hat hline, ← hmnemonic]
      exact congrArg (·, _, _) hat
    have hpushed : ((p.after k m).1.stepped (p.after k m).2).journal = (p.after k m).1.journal.map (·.push entry) := rfl
    rw [after_succ]
    refine ⟨pc_stepped hat hline (hpassing k (Nat.lt_succ_self k)), entries.push entry, ?_, ?_⟩
    · rw [hpushed, hrecorded, Option.map_some, Array.append_push]
    · rw [Array.toList_push, List.map_append, hdecoded, m.sweep_succ, List.map_append, List.map_singleton, hentry,
        List.map_singleton]

end Processor

/-- A branch shows its distance and then its target. -/
theorem Line.operand_of_relative {line : Line} (h : line.instruction.mode = .relative) :
    line.operand = "$" ++ line.first.hex ++ " [$" ++ line.branchTarget.hex ++ "] \x7bREL\x7d" := by
  rw [operand, body, h, String.append_assoc, String.append_assoc, String.append_assoc]
  simp [Mode.tag]

namespace Processor

/-- **Listings and processors agree on code.** A processor that keeps a journal starts where a listing starts.

As long as it finds the listed code as it was, and neither jumps nor takes a branch, its journal tells of the lines of the
listing one after the other, and after each step the program counter is behind the line.

Whatever it has done before, as long as it finds the listed code as it was, a branch that it takes at the address of a
line leads to the target that this line shows. -/
theorem follows_listing (p : Processor) (m : FlatMemory) (first last : Addr) (old : Array JournalEntry)
    (hpc : p.registers.pc = first) (hjournal : p.journal = some old) :
    let listing := ((Listing.ofRange first last).run m).1
    (∀ k ≤ listing.lines.size, p.KeepsCode m listing k → (∀ d ∈ p.deedsOfSteps k m, ¬d.Diverts) →
      (∃ entries, (p.after k m).1.journal = some (old ++ entries) ∧
        entries.toList.map (·.decoded) = (listing.lines.toList.take k).map (·.decoded)) ∧
      ∀ line, (listing.lines.toList.take k).getLast? = some line →
        (p.after k m).1.registers.pc = line.address + BitVec.ofNat 16 line.length) ∧
    ∀ n, p.KeepsCode m listing n → ∀ d ∈ p.deedsOfSteps n m, d.TakesBranch →
      ∀ line ∈ listing.lines, d.before.registers.pc = line.address →
        d.after.registers.pc = line.branchTarget ∧
          line.operand = "$" ++ line.first.hex ++ " [$" ++ d.after.registers.pc.hex ++ "] \x7bREL\x7d" := by
  intro listing
  obtain ⟨count, hlines⟩ := Listing.run_ofRange m first last
  have hmem {i : Nat} (hi : i < count) : m.lineAt (m.lineStart first i) ∈ listing.lines := by
    rw [← Array.mem_toList_iff, hlines, m.mem_sweep]
    exact ⟨i, hi, rfl⟩
  constructor
  · intro k hk hkeeps hpassing
    have hcount : k ≤ count := by
      rw [← m.length_sweep first count, ← hlines]
      exact hk
    obtain ⟨hat, entries, hrecorded, hdecoded⟩ := along_lines hpc hjournal
      (fun j hj => hpassing _ (p.carried_mem_deedsOfSteps m hj))
      fun j hj => Listing.unchanged_of_covers (hkeeps j hj) (hmem (Nat.lt_of_lt_of_le hj hcount))
    rw [hlines, m.take_sweep first hcount]
    refine ⟨⟨entries, hrecorded, hdecoded⟩, fun line hlast => ?_⟩
    cases k with
    | zero => cases hlast
    | succ k =>
      rw [m.sweep_succ, List.getLast?_concat, Option.some.injEq] at hlast
      rw [hat, ← hlast]
      rfl
  · intro n hkeeps d hd htakes line hline hbefore
    have ⟨op, hop, _⟩ := htakes
    obtain ⟨j, hj, rfl⟩ := eq_carried_of_operation hd hop
    obtain ⟨i, -, rfl⟩ := (m.mem_sweep first).mp (hlines ▸ Array.mem_toList_iff.mpr hline)
    have hat : (p.after j m).1.registers.pc = m.lineStart first i := hbefore
    obtain ⟨hmode, htarget⟩ := pc_of_takesBranch hat (Listing.unchanged_of_covers (hkeeps j hj) hline) htakes
    rw [htarget]
    exact ⟨rfl, Line.operand_of_relative hmode⟩

/-- A program that loads something and takes a branch. -/
theorem operations_of_loading {p : Processor} {m : FlatMemory} (hload : m.peek p.registers.pc = 0xA9)
    (hvalue : m.peek (p.registers.pc + 1) = 0x01) (hbranch : m.peek (p.registers.pc + 2) = 0xD0) :
    ¬(p.carried m).Diverts ∧ p.after 1 m = (p.stepped m, m) ∧ (p.stepped m).registers.pc = p.registers.pc + 2 ∧
      ((p.stepped m).carried m).TakesBranch := by
  have hread : Bus.read .live p.registers.pc m = (0xA9, m) := by rw [FlatMemory.read_eq, hload]
  have hoperation : (p.carried m).operation = some .lda := by
    simp only [operation_carried, Execution.instruction, execution, hread]
    rfl
  have hpassing : ¬(p.carried m).Diverts := by
    rintro ⟨op, hop, hdiverts⟩
    cases hoperation.symm.trans hop
    rcases hdiverts with hjumps | ⟨mask, on, hcondition, -⟩
    · cases hjumps
    · cases hcondition
  have hpc : (p.stepped m).registers.pc = p.registers.pc + 2 := by
    have hlength : (m.lineAt p.registers.pc).length = 2 := (m.length_lineAt hload).trans (by decide)
    rw [pc_stepped rfl (fun _ _ => rfl) hpassing, hlength]
    rfl
  have hafter : p.after 1 m = (p.stepped m, m) := by
    have hsettled : Bus.read .live p.settled.registers.pc m = (0xA9, m) := hread
    rw [after_succ, after_zero]
    refine congrArg (p.stepped m, ·) ((p.settled.run_execute_snd m).trans ?_)
    simp only [execution, Execution.instruction, hsettled]
    rfl
  have hzero : (p.stepped m).registers.isSet Flag.zero = false := by
    have hloaded : (p.stepped m).registers.status =
        (((Execution.fetched p).setA (m.peek (p.registers.pc + 1))).assign Flag.unused true).status := by
      simp only [registers_stepped, execution, hread]
      rfl
    have hstatus : ∀ s : Byte, ((((Registers.assign { status := s } Flag.unused true).setA 0x01).assign Flag.unused
        true).status).meets Flag.zero = false := by decide
    rw [Registers.isSet, hloaded, hvalue]
    exact hstatus p.registers.status
  refine ⟨hpassing, hafter, hpc, .bne, ?_, _, _, rfl, hzero⟩
  have hread' : Bus.read .live (p.registers.pc + 2) m = (0xD0, m) := by rw [FlatMemory.read_eq, hbranch]
  simp only [operation_carried, Execution.instruction, execution, hpc, hread']
  rfl

/-- The listing of such a program at the end of memory, where the distance of the branch is at the beginning. -/
theorem lines_of_loading {m : FlatMemory} (hload : m.peek 0xFFFD = 0xA9) (hbranch : m.peek 0xFFFF = 0xD0) :
    ((Listing.ofRange 0xFFFD 0xFFFF).run m).1.lines = #[m.lineAt 0xFFFD, m.lineAt 0xFFFF] := by
  have hfirst : (m.lineAt 0xFFFD).length = 2 := (m.length_lineAt hload).trans (by decide)
  have hsecond : (m.lineAt 0xFFFF).length = 2 := (m.length_lineAt hbranch).trans (by decide)
  have hplace : BitVec.ofNat 16 (BitVec.toNat (0xFFFD : Addr)) = 0xFFFD := by decide
  have hplace' : BitVec.ofNat 16 (BitVec.toNat (0xFFFD : Addr) + 2) = 0xFFFF := by decide
  rw [Listing.ofRange, Transaction.run_bind, Listing.extend, if_pos (by decide), Transaction.run_bind, m.run_decode,
    hplace, hfirst, Listing.extend, if_pos (by decide), Transaction.run_bind, m.run_decode, hplace', hsecond,
    Listing.extend, if_neg (by decide)]
  rfl

/-- Such a program leaves itself as it is. It first goes straight on and then takes a branch that is listed. -/
theorem run_of_loading {p : Processor} {m : FlatMemory} (hpc : p.registers.pc = 0xFFFD) (hload : m.peek 0xFFFD = 0xA9)
    (hvalue : m.peek 0xFFFE = 0x01) (hbranch : m.peek 0xFFFF = 0xD0) :
    let listing := ((Listing.ofRange 0xFFFD 0xFFFF).run m).1
    1 ≤ listing.lines.size ∧ (∀ n ≤ 2, p.KeepsCode m listing n) ∧ (∀ d ∈ p.deedsOfSteps 1 m, ¬d.Diverts) ∧
      ∃ d ∈ p.deedsOfSteps 2 m, d.TakesBranch ∧ ∃ line ∈ listing.lines, d.before.registers.pc = line.address := by
  intro listing
  have hlines : listing.lines = #[m.lineAt 0xFFFD, m.lineAt 0xFFFF] := lines_of_loading hload hbranch
  have hvalue' : m.peek (p.registers.pc + 1) = 0x01 := by
    rw [hpc]
    exact hvalue
  have hbranch' : m.peek (p.registers.pc + 2) = 0xD0 := by
    rw [hpc]
    exact hbranch
  obtain ⟨hpassing, hafter, hnext, htakes⟩ := operations_of_loading (hpc ▸ hload) hvalue' hbranch'
  refine ⟨?_, ?_, ?_, _, p.carried_mem_deedsOfSteps m (Nat.lt_succ_self 1), ?_, m.lineAt 0xFFFF, ?_, ?_⟩
  · rw [hlines]
    exact Nat.le_succ 1
  · intro n hn j hj addr _
    obtain rfl | rfl : j = 0 ∨ j = 1 := by omega
    · rw [after_zero]
    · rw [hafter]
  · intro d hd hdiverts
    have ⟨op, hop, _⟩ := hdiverts
    obtain ⟨j, hj, rfl⟩ := eq_carried_of_operation hd hop
    obtain rfl : j = 0 := by omega
    exact hpassing hdiverts
  · rw [hafter]
    exact htakes
  · rw [hlines]
    simp
  · rw [hafter]
    exact hnext.trans (congrArg (· + 2) hpc)

/-- `LDA #$01` and `BNE`, the branch on the last byte of memory. -/
def sampleCode : FlatMemory := FlatMemory.zero.load 0xFFFD [0xA9, 0x01, 0xD0, 0x85]

def sampleReader : Processor := { registers := { pc := 0xFFFD, status := 0x22 }, journal := some #[] }

theorem follows_listing_sample :
    let listing := ((Listing.ofRange 0xFFFD 0xFFFF).run sampleCode).1
    (∃ entries, (sampleReader.after 1 sampleCode).1.journal = some (#[] ++ entries) ∧
      entries.toList.map (·.decoded) = (listing.lines.toList.take 1).map (·.decoded)) ∧
    ∃ d ∈ sampleReader.deedsOfSteps 2 sampleCode, ∃ line ∈ listing.lines,
      d.after.registers.pc = line.branchTarget ∧
        line.operand = "$" ++ line.first.hex ++ " [$" ++ d.after.registers.pc.hex ++ "] \x7bREL\x7d" := by
  have hpc : sampleReader.registers.pc = 0xFFFD := rfl
  have hload : sampleCode.peek 0xFFFD = 0xA9 := by simp [sampleCode, FlatMemory.peek_poke]
  have hvalue : sampleCode.peek 0xFFFE = 0x01 := by simp [sampleCode, FlatMemory.peek_poke]
  have hbranch : sampleCode.peek 0xFFFF = 0xD0 := by simp [sampleCode, FlatMemory.peek_poke]
  obtain ⟨hone, hkeeps, hstraight, d, hd, htakes, line, hline, hbefore⟩ := run_of_loading hpc hload hvalue hbranch
  obtain ⟨halong, hbranches⟩ := follows_listing sampleReader sampleCode 0xFFFD 0xFFFF #[] hpc rfl
  exact ⟨(halong 1 hone (hkeeps 1 (by omega)) hstraight).1, d, hd, line, hline,
    hbranches 2 (hkeeps 2 (by omega)) d hd htakes line hline hbefore⟩

end Processor

end Nes
