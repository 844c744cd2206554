import Nes.Proofs.Costs
import Nes.Proofs.Numbers

/-!
# Effective addresses

The processor finds an operand with bytes and addresses, which wrap in several ways: an index stays in the zero page or
runs through all of memory, the second byte of a pointer stays in the page of the first, and the operand bytes themselves
may lie across the end of memory. Here the same is said in numbers, with each remainder written out (`Mode.effective`).

Every piece of address arithmetic has its law in numbers (`Addr.toNat_indexed`, `Addr.toNat_pointerEnd`,
`Addr.toNat_branch`), and so have the words that are fetched (`Registers.run_fetchWord_flat`, `run_readPointer_flat`).
`Mode.resolve_exact` puts them together: in flat memory a mode finds the operand that the numbers say, notices exactly the
indices that carry into the high byte, and changes nothing but the program counter.
-/

namespace Nes

/-! ## Memory in numbers -/

namespace FlatMemory

variable (m : FlatMemory)

/-- The byte at an address as a number. Past the last address the first ones follow. -/
def byteAt (n : Nat) : Nat := (m.peek (BitVec.ofNat 16 n)).toNat

/-- The word whose low and high byte are at two addresses. -/
def wordAt (low high : Nat) : Nat := m.byteAt low + 256 * m.byteAt high

theorem byteAt_toNat (addr : Addr) : m.byteAt addr.toNat = (m.peek addr).toNat := by
  rw [byteAt, BitVec.ofNat_toNat, BitVec.setWidth_eq]

theorem byteAt_succ (addr : Addr) : m.byteAt (addr.toNat + 1) = (m.peek (addr + 1)).toNat := by
  rw [byteAt, BitVec.ofNat_add, BitVec.ofNat_toNat, BitVec.setWidth_eq]
  rfl

/-- A word made of two bytes of memory. -/
theorem toNat_ofBytes_peek (low high : Addr) :
    (Addr.ofBytes (m.peek low) (m.peek high)).toNat = m.wordAt low.toNat high.toNat := by
  rw [Addr.toNat_ofBytes, wordAt, byteAt_toNat, byteAt_toNat, Nat.add_comm]

end FlatMemory

/-! ## Address arithmetic in numbers -/

namespace Addr

theorem toNat_zeroPage (b : Byte) : (zeroPage b).toNat = b.toNat := by
  rw [zeroPage, toNat_ofBytes]
  exact Nat.zero_add b.toNat

/-- An index runs through all of memory. -/
theorem toNat_indexed (base : Addr) (index : Byte) :
    (base + index.setWidth 16).toNat = (base.toNat + index.toNat) % 65536 := by
  have := index.isLt
  rw [BitVec.toNat_add, BitVec.toNat_setWidth]
  omega

/-- The second byte of a pointer is in the page of the first. -/
theorem toNat_pointerEnd (addr : Addr) :
    (ofBytes (addr.low + 1) addr.high).toNat = 256 * (addr.toNat / 256) + (addr.toNat % 256 + 1) % 256 := by
  rw [toNat_ofBytes, toNat_high, BitVec.toNat_add, toNat_low]
  rfl

/-- A distance is counted from the next instruction, forwards or backwards. -/
theorem toNat_branch (pc : Addr) (distance : Byte) :
    (pc + 1 + distance.signExtend 16).toNat = ((pc.toNat + 1 + signed 1 distance.toNat) % 65536).toNat := by
  have hsigned : (distance.signExtend 16).toInt = signed 1 distance.toNat := by
    rw [BitVec.toInt_signExtend_of_le (by decide), BitVec.toInt_eq_toNat_bmod]
    rfl
  have hofInt : pc + 1 + distance.signExtend 16 = BitVec.ofInt 16 (pc.toNat + 1 + signed 1 distance.toNat) := by
    rw [← hsigned, BitVec.ofInt_add, BitVec.ofInt_add, BitVec.ofInt_toInt, BitVec.ofInt_natCast, BitVec.ofNat_toNat,
      BitVec.setWidth_eq]
    rfl
  rw [hofInt, BitVec.toNat_ofInt]
  rfl

end Addr

/-! ## Words from flat memory -/

section

variable (m : FlatMemory) (r : Registers)

theorem Registers.run_fetch_flat : r.fetch.run m = ((m.peek r.pc, { r with pc := r.pc + 1 }), m) := rfl

theorem Registers.run_fetchWord_flat : ∃ word : Addr,
    r.fetchWord.run m = ((word, { r with pc := r.pc + 1 + 1 }), m) ∧
      word.toNat = m.wordAt r.pc.toNat (r.pc.toNat + 1) := by
  refine ⟨.ofBytes (m.peek r.pc) (m.peek (r.pc + 1)), rfl, ?_⟩
  rw [Addr.toNat_ofBytes, FlatMemory.wordAt, m.byteAt_toNat, m.byteAt_succ, Nat.add_comm]

theorem run_readPointer_flat (addr : Addr) : ∃ word : Addr, (readPointer addr).run m = (word, m) ∧
    word.toNat = m.wordAt addr.toNat (256 * (addr.toNat / 256) + (addr.toNat % 256 + 1) % 256) := by
  refine ⟨.ofBytes (m.peek addr) (m.peek (.ofBytes (addr.low + 1) addr.high)), rfl, ?_⟩
  rw [m.toNat_ofBytes_peek, Addr.toNat_pointerEnd]

/-- In the zero page a pointer that begins at the end goes on at the beginning. -/
theorem run_readPointer_zeroPage (place : Byte) : ∃ word : Addr, (readPointer (.zeroPage place)).run m = (word, m) ∧
    word.toNat = m.wordAt place.toNat ((place.toNat + 1) % 256) := by
  obtain ⟨word, hrun, hword⟩ := run_readPointer_flat m (.zeroPage place)
  have hplace := place.isLt
  refine ⟨word, hrun, ?_⟩
  rw [hword, Addr.toNat_zeroPage, Nat.div_eq_of_lt hplace, Nat.mod_eq_of_lt hplace, Nat.mul_zero, Nat.zero_add]

end

/-! ## The reference -/

namespace Mode

variable (m : FlatMemory) (r : Registers)

/-- The address that a mode adds an index to, and the index. The operand bytes begin at the program counter. -/
def indexed (mode : Mode) : Option (Nat × Nat) :=
  let pc := r.pc.toNat
  match mode with
  | .absoluteX => some (m.wordAt pc (pc + 1), r.x.toNat)
  | .absoluteY => some (m.wordAt pc (pc + 1), r.y.toNat)
  | .indirectIndexed => some (m.wordAt (m.byteAt pc) ((m.byteAt pc + 1) % 256), r.y.toNat)
  | _ => none

/-- The address that a mode refers to, 0 where there is none. The operand bytes begin at the program counter. -/
def effective (mode : Mode) : Nat :=
  let pc := r.pc.toNat
  let byte := m.byteAt pc
  let word := m.wordAt pc (pc + 1)
  match mode with
  | .implied => 0
  | .immediate => pc
  | .zeroPage => byte
  | .zeroPageX => (byte + r.x.toNat) % 256
  | .zeroPageY => (byte + r.y.toNat) % 256
  | .relative => ((pc + 1 + signed 1 byte) % 65536).toNat
  | .absolute => word
  | .absoluteX => (word + r.x.toNat) % 65536
  | .absoluteY => (word + r.y.toNat) % 65536
  -- the low byte goes up by one, with no carry into the page
  | .indirect => m.wordAt word (256 * (word / 256) + (word % 256 + 1) % 256)
  | .indexedIndirect =>
    let place := (byte + r.x.toNat) % 256
    m.wordAt place ((place + 1) % 256)
  | .indirectIndexed => (m.wordAt byte ((byte + 1) % 256) + r.y.toNat) % 65536

/-- The operand of a mode, given its address. -/
def operandAt (mode : Mode) (addr : Addr) : Operand :=
  match mode with
  | .implied => .implied
  | .relative => .relative addr
  | _ => .address addr

/-- A resolved mode has the operand that the numbers say, and notices an index that carries. -/
structure Refers (mode : Mode) (resolved : Resolved) : Prop where
  operand : ∃ addr : Addr, resolved.operand = mode.operandAt addr ∧ addr.toNat = mode.effective m r
  crossed : resolved.crossed = true ↔ ∃ base index, mode.indexed m r = some (base, index) ∧ 0xFF < base % 256 + index

variable {m r}

/-- A mode without an index. -/
theorem Refers.of_plain {mode : Mode} (hindexed : mode.indexed m r = none) {addr : Addr}
    (haddr : addr.toNat = mode.effective m r) (registers : Registers) :
    mode.Refers m r ⟨mode.operandAt addr, false, registers⟩ :=
  ⟨⟨addr, rfl, haddr⟩, by simp [hindexed]⟩

/-- A mode with an index. -/
theorem Refers.of_indexed {mode : Mode} {base : Addr} {index : Byte}
    (hoperand : ∀ addr, mode.operandAt addr = .address addr)
    (hindexed : mode.indexed m r = some (base.toNat, index.toNat))
    (heffective : mode.effective m r = (base.toNat + index.toNat) % 65536) (registers : Registers) :
    mode.Refers m r (.indexed base index registers) := by
  refine ⟨⟨base + index.setWidth 16, (hoperand _).symm, ?_⟩, ?_⟩
  · rw [Addr.toNat_indexed, heffective]
  · have hcrossed : (Resolved.indexed base index registers).crossed = decide (0xFF < base.low.toNat + index.toNat) :=
      base.crosses_indexed index
    rw [hcrossed, decide_eq_true_iff, hindexed, Addr.toNat_low]
    constructor
    · exact fun hcarry => ⟨_, _, rfl, hcarry⟩
    · rintro ⟨_, _, hsome, hcarry⟩
      cases hsome
      exact hcarry

/-- Resolving a mode moves the program counter past the operand bytes. -/
theorem run_resolve_flat (mode : Mode) (r : Registers) (m : FlatMemory) :
    ((mode.resolve r).run m).2 = m ∧
      ((mode.resolve r).run m).1.registers = { r with pc := r.pc + BitVec.ofNat 16 mode.operandLength } := by
  have hpc : r.pc + 1 + 1 = r.pc + 2 := by bv_omega
  cases mode
  case implied => exact ⟨rfl, by rw [operandLength, BitVec.add_zero]; rfl⟩
  case absolute | absoluteX | absoluteY | indirect => exact ⟨rfl, congrArg (fun pc => { r with pc }) hpc⟩
  all_goals exact ⟨rfl, rfl⟩

/-- What a mode finds is what the numbers say. -/
theorem refers_resolve (mode : Mode) (r : Registers) (m : FlatMemory) : mode.Refers m r ((mode.resolve r).run m).1 := by
  have hbyte : (m.peek r.pc).toNat = m.byteAt r.pc.toNat := (m.byteAt_toNat r.pc).symm
  have hplace (index : Byte) : (m.peek r.pc + index).toNat = (m.byteAt r.pc.toNat + index.toNat) % 256 := by
    rw [BitVec.toNat_add, hbyte]
  obtain ⟨word, hfetch, hword⟩ := r.run_fetchWord_flat m
  cases mode
  case implied => exact .of_plain rfl (BitVec.toNat_zero (w := 16)) _
  case immediate => exact .of_plain rfl (rfl : r.pc.toNat = _) _
  case zeroPage => exact .of_plain rfl ((Addr.toNat_zeroPage _).trans hbyte) _
  case zeroPageX => exact .of_plain rfl ((Addr.toNat_zeroPage _).trans (hplace r.x)) _
  case zeroPageY => exact .of_plain rfl ((Addr.toNat_zeroPage _).trans (hplace r.y)) _
  case relative => exact .of_plain rfl ((Addr.toNat_branch r.pc _).trans (by rw [hbyte]; rfl)) _
  case absolute =>
    simp only [resolve, Transaction.run_bind, hfetch]
    exact .of_plain rfl hword _
  case absoluteX =>
    simp only [resolve, Transaction.run_bind, hfetch]
    exact .of_indexed (fun _ => rfl) (by rw [hword]; rfl) (by rw [hword]; rfl) _
  case absoluteY =>
    simp only [resolve, Transaction.run_bind, hfetch]
    exact .of_indexed (fun _ => rfl) (by rw [hword]; rfl) (by rw [hword]; rfl) _
  case indirect =>
    obtain ⟨addr, hpointer, haddr⟩ := run_readPointer_flat m word
    simp only [resolve, Transaction.run_bind, hfetch, hpointer]
    exact .of_plain rfl (by rw [haddr, hword]; rfl) _
  case indexedIndirect =>
    obtain ⟨addr, hpointer, haddr⟩ := run_readPointer_zeroPage m (m.peek r.pc + r.x)
    simp only [resolve, Transaction.run_bind, r.run_fetch_flat, hpointer]
    exact .of_plain rfl (by rw [haddr, hplace]; rfl) _
  case indirectIndexed =>
    obtain ⟨base, hpointer, hbase⟩ := run_readPointer_zeroPage m (m.peek r.pc)
    rw [hbyte] at hbase
    simp only [resolve, Transaction.run_bind, r.run_fetch_flat, hpointer]
    exact .of_indexed (fun _ => rfl) (by rw [hbase]; rfl) (by rw [hbase]; rfl) _

/-- **Modes in flat memory.** Resolving a mode changes nothing in memory and moves the program counter past the operand
bytes, with no other register touched. Its operand is the one that the numbers say, and it reports an index exactly if
there is one that carries out of the low byte of its base address. -/
theorem resolve_exact (mode : Mode) (r : Registers) (m : FlatMemory) :
    let run := (mode.resolve r).run m
    run.2 = m ∧
    (∃ pc : Addr, run.1.registers = { r with pc } ∧ pc.toNat = (r.pc.toNat + mode.operandLength) % 65536) ∧
    (∃ addr : Addr, run.1.operand = mode.operandAt addr ∧ addr.toNat = mode.effective m r) ∧
    (run.1.crossed = true ↔ ∃ base index, mode.indexed m r = some (base, index) ∧ 0xFF < base % 256 + index) := by
  intro run
  obtain ⟨hmemory, hregisters⟩ := run_resolve_flat mode r m
  have hrefers : mode.Refers m r run.1 := refers_resolve mode r m
  refine ⟨hmemory, ⟨_, hregisters, ?_⟩, hrefers.operand, hrefers.crossed⟩
  rw [BitVec.toNat_add, BitVec.toNat_ofNat, Nat.add_mod_mod]

end Mode

end Nes
