import Nes.Proofs.Numbers
import Nes.Proofs.StatusFlags

/-!
# Long shifts

A number of many bytes is doubled by rotating its bytes to the left, from the lowest on, and halved by rotating them to
the right, from the highest on: the bit that leaves a byte is in the carry when the next byte needs it. Nothing is lost in
a byte (`Shifted.rotateLeft_exact`, `Shifted.rotateRight_exact`), so nothing is lost in the number
(`Operation.run_rol`, `Operation.run_ror`), and going back restores number and carry.

A shift is a rotation with the carry clear (`Operation.asl_eq`, `Operation.lsr_eq`), so a program that begins with one is
the same as a program of rotations. `Operation.along_exact` has the laws of the four programs, and that the accumulator is
shifted as a cell is.
-/

namespace Nes

/-! ## One byte -/

theorem Registers.bit_carry_clear (r : Registers) : (r.assign Flag.carry false).bit Flag.carry = 0 := by
  rw [bit, r.isSet_assign (by decide)]
  rfl

namespace Shifted

variable (r : Registers) (v : Byte)

/-- What is stored, with the registers after the flags have been set from it. -/
def flagged (s : Shifted) : Shifted := ⟨s.value, s.registers.setZN s.value⟩

theorem isSet_carry_flagged {s : Shifted} : s.flagged.registers.isSet Flag.carry = s.registers.isSet Flag.carry :=
  s.registers.isSet_setZN (by decide) _

theorem rotateLeft_exact :
    let new := (rotateLeft r v).flagged
    2 * v.toNat + (r.isSet Flag.carry).toNat =
      new.value.toNat + 256 * (new.registers.isSet Flag.carry).toNat := by
  intro new
  have hbits : ∀ (v : Byte) (c : Bool),
      2 * v.toNat + c.toNat = (v <<< 1 ||| Byte.ofBool c).toNat + 256 * v.msb.toNat := by decide
  have hcarry : new.registers.isSet Flag.carry = v.msb :=
    isSet_carry_flagged.trans (r.isSet_assign (by decide))
  rw [hcarry]
  exact hbits v (r.isSet Flag.carry)

theorem rotateRight_exact :
    let new := (rotateRight r v).flagged
    v.toNat + 256 * (r.isSet Flag.carry).toNat =
      2 * new.value.toNat + (new.registers.isSet Flag.carry).toNat := by
  intro new
  have hbits : ∀ (v : Byte) (c : Bool),
      v.toNat + 256 * c.toNat = 2 * (v >>> 1 ||| Byte.ofBool c <<< 7).toNat + (v.getLsbD 0).toNat := by decide
  have hcarry : new.registers.isSet Flag.carry = v.getLsbD 0 :=
    isSet_carry_flagged.trans (r.isSet_assign (by decide))
  rw [hcarry]
  exact hbits v (r.isSet Flag.carry)

theorem left_eq : left r v = rotateLeft (r.assign Flag.carry false) v := by
  rw [left, rotateLeft, Registers.bit_carry_clear, Registers.assign_assign]
  simp

theorem right_eq : right r v = rotateRight (r.assign Flag.carry false) v := by
  rw [right, rotateRight, Registers.bit_carry_clear, Registers.assign_assign]
  simp

end Shifted

/-! ## Many bytes -/

namespace Registers

variable (r : Registers) (bytes : List Byte)

/-- **Rotating to the left doubles.** The bytes are taken from the lowest on. -/
theorem thread_rotateLeft :
    let out := r.thread (fun r v => (Shifted.rotateLeft r v).flagged) bytes
    2 * littleEndian bytes + (r.isSet Flag.carry).toNat =
      littleEndian out.1 + 256 ^ bytes.length * (out.2.isSet Flag.carry).toNat := by
  induction bytes generalizing r with
  | nil => simp
  | cons v rest ih =>
    have hbyte := Shifted.rotateLeft_exact r v
    have hrest := ih (Shifted.rotateLeft r v).flagged.registers
    simp only [thread_cons_fst, thread_cons_snd, List.length_cons, littleEndian_cons, pow_succ_mul]
    omega

/-- **Rotating to the right halves.** The bytes are taken from the highest on. -/
theorem thread_rotateRight :
    let out := r.thread (fun r v => (Shifted.rotateRight r v).flagged) bytes
    littleEndian bytes.reverse + (r.isSet Flag.carry).toNat * 256 ^ bytes.length =
      2 * littleEndian out.1.reverse + (out.2.isSet Flag.carry).toNat := by
  induction bytes generalizing r with
  | nil => simp
  | cons v rest ih =>
    have hbyte := Shifted.rotateRight_exact r v
    have hrest := ih (Shifted.rotateRight r v).flagged.registers
    simp only [thread_cons_fst, thread_cons_snd, List.length_cons, List.reverse_cons, littleEndian_concat,
      List.length_reverse, length_thread]
    -- the law of the byte holds at its place
    have hplace := congrArg (256 ^ rest.length * ·) hbyte
    simp only [Nat.mul_add] at hplace
    rw [pow_succ]
    linarith

end Registers

/-! ## In memory -/

namespace Operation

/-- Carries out an operation on a cell. -/
def onCell (op : Operation) (r : Registers) (cell : Addr) : Transaction Registers := do
  let outcome ← op.perform (.address cell) r
  return outcome.registers

/-- Carries out one operation on the first cell and another on each cell after it, in order. -/
def along (first next : Operation) (cells : List Addr) (r : Registers) : Transaction Registers :=
  match cells with
  | [] => return r
  | cell :: rest => do
    let r ← first.onCell r cell
    rest.foldlM next.onCell r

theorem along_self (op : Operation) (cells : List Addr) (r : Registers) :
    op.along op cells r = cells.foldlM op.onCell r := by
  cases cells <;> rfl

/-- A shift to the left is a rotation with the carry clear. -/
theorem asl_eq (operand : Operand) (r : Registers) :
    asl.perform operand r = rol.perform operand (r.assign Flag.carry false) := by
  cases operand <;> simp [perform, Operand.update, Shifted.left_eq]

/-- A shift to the right is a rotation with the carry clear. -/
theorem lsr_eq (operand : Operand) (r : Registers) :
    lsr.perform operand r = ror.perform operand (r.assign Flag.carry false) := by
  cases operand <;> simp [perform, Operand.update, Shifted.right_eq]

theorem along_of_eq {first next : Operation} {r r' : Registers} {cells : List Addr} (hne : cells ≠ [])
    (h : ∀ operand, first.perform operand r = next.perform operand r') :
    first.along next cells r = next.along next cells r' := by
  cases cells with
  | nil => exact absurd rfl hne
  | cons cell rest => simp only [along, onCell, h]

section

variable {f : Registers → Byte → Shifted} {cells : List Addr}

/-- An operation that changes bytes in place changes those of different cells one after another. -/
theorem run_along (op : Operation) (hop : ∀ operand r, op.perform operand r = operand.update r f)
    (hcells : cells.Nodup) (r : Registers) (m : FlatMemory) :
    let out := (op.along op cells r).run m
    (cells.map out.2.peek, out.1) = r.thread (fun r v => (f r v).flagged) (cells.map m.peek) := by
  have hcomputes : Registers.Computes op.onCell (fun r v => (f r v).flagged) FlatMemory.peek id := by
    intro r cell m
    rw [onCell, hop]
    rfl
  have hapart : cells.Pairwise fun cell later => cell ≠ later ∧
      ∀ (m : FlatMemory) value, (m.poke cell value).peek later = m.peek later :=
    hcells.imp fun hne => ⟨hne, fun m value => by rw [FlatMemory.peek_poke, if_neg hne]⟩
  have hthread := hcomputes.run_foldlM hapart r m
  rw [along_self]
  simpa only [List.map_id] using hthread

theorem run_rol (hcells : cells.Nodup) (r : Registers) (m : FlatMemory) :
    let out := (rol.along rol cells r).run m
    2 * m.number cells + (r.isSet Flag.carry).toNat =
      out.2.number cells + 256 ^ cells.length * (out.1.isSet Flag.carry).toNat := by
  have hexact := r.thread_rotateLeft (cells.map m.peek)
  rw [← run_along rol (fun _ _ => rfl) hcells r m, List.length_map] at hexact
  exact hexact

theorem run_ror (hcells : cells.Nodup) (r : Registers) (m : FlatMemory) :
    let out := (ror.along ror cells.reverse r).run m
    m.number cells + (r.isSet Flag.carry).toNat * 256 ^ cells.length =
      2 * out.2.number cells + (out.1.isSet Flag.carry).toNat := by
  have hreverse : cells.reverse.Nodup := List.pairwise_reverse.mpr (hcells.imp Ne.symm)
  have hexact := r.thread_rotateRight (cells.reverse.map m.peek)
  rw [← run_along ror (fun _ _ => rfl) hreverse r m] at hexact
  simp only [List.map_reverse, List.reverse_reverse, List.length_reverse, List.length_map] at hexact
  exact hexact

end

/-! ## In the accumulator -/

/-- The flags that a shift sets say where the bit went and what the byte is. -/
theorem isSet_shifted (r : Registers) (carried : Bool) (v : Byte) :
    let after := (r.assign Flag.carry carried).setZN v
    after.isSet Flag.carry = carried ∧ after.isSet Flag.zero = (v == 0) ∧ after.isSet Flag.negative = v.msb :=
  ⟨(Registers.isSet_setZN _ (by decide) v).trans (r.isSet_assign (by decide)),
    (Registers.meets_assign (by decide) _).trans (Registers.isSet_assign _ (by decide)),
    Registers.isSet_assign _ (by decide)⟩

/-- **A byte is shifted in the accumulator as it is in a cell**, by an operation that looks at no flag but the carry. -/
theorem forms_agree (op : Operation) {f : Registers → Byte → Shifted}
    (hop : ∀ operand r, op.perform operand r = operand.update r f) (value : Bool → Byte → Byte) (carried : Byte → Bool)
    (hf : ∀ r v, f r v = ⟨value (r.isSet Flag.carry) v, r.assign Flag.carry (carried v)⟩) {held q : Registers}
    {m : FlatMemory} {cell : Addr} (hvalue : held.a = m.peek cell)
    (hcarry : held.isSet Flag.carry = q.isSet Flag.carry) :
    let inA := (op.perform .implied held).run m
    let inCell := (op.perform (.address cell) q).run m
    inA.1.registers.a = inCell.2.peek cell ∧
      (∀ flag ∈ [Flag.carry, Flag.zero, Flag.negative],
        inA.1.registers.isSet flag = inCell.1.registers.isSet flag) ∧
      (held.status = q.status → inA.1.registers.status = inCell.1.registers.status) := by
  rw [hop, hop]
  intro inA inCell
  obtain ⟨new, hnew⟩ : ∃ new, new = value (q.isSet Flag.carry) (m.peek cell) := ⟨_, rfl⟩
  have hA : inA.1.registers = (held.assign Flag.carry (carried (m.peek cell))).setA new := by
    rw [hnew, ← hcarry, ← hvalue]
    exact congrArg (fun s => s.registers.setA s.value) (hf held held.a)
  have hCell : inCell = ({ registers := (q.assign Flag.carry (carried (m.peek cell))).setZN new },
      m.poke cell new) := by
    rw [hnew]
    exact congrArg (fun s => (({ registers := s.flagged.registers } : Outcome), m.poke cell s.value)) (hf q _)
  rw [hA, hCell]
  refine ⟨?_, ?_, ?_⟩
  · rw [FlatMemory.peek_poke, if_pos rfl]
    rfl
  · obtain ⟨hc, hz, hn⟩ := isSet_shifted held (carried (m.peek cell)) new
    obtain ⟨hc', hz', hn'⟩ := isSet_shifted q (carried (m.peek cell)) new
    intro flag hflag
    rcases List.mem_cons.mp hflag with rfl | hflag
    · exact hc.trans hc'.symm
    rcases List.mem_cons.mp hflag with rfl | hflag
    · exact hz.trans hz'.symm
    rw [List.mem_singleton.mp hflag]
    exact hn.trans hn'.symm
  · intro hstatus
    simp only [Registers.setA, Registers.setZN, Registers.assign, hstatus]

/-- **Long shifts are exact.** The number is in the given cells, the lowest byte first, and the carry is `c`. Going up,
with a shift or a rotation first, doubles the number; the carry is the bit above it. Going down halves it; the carry is the
bit that is left over. A rotation up is undone by one down. The accumulator is shifted as a cell is. -/
theorem along_exact (m : FlatMemory) (r : Registers) (cells : List Addr) (hne : cells ≠ []) (hcells : cells.Nodup) :
    let n := cells.length
    let number := m.number cells
    let c := (r.isSet Flag.carry).toNat
    let shiftedUp := (asl.along rol cells r).run m
    let rotatedUp := (rol.along rol cells r).run m
    let shiftedDown := (lsr.along ror cells.reverse r).run m
    let rotatedDown := (ror.along ror cells.reverse r).run m
    let restored := (ror.along ror cells.reverse rotatedUp.1).run rotatedUp.2
    (2 * number = shiftedUp.2.number cells + 256 ^ n * (shiftedUp.1.isSet Flag.carry).toNat ∧
      2 * number + c = rotatedUp.2.number cells + 256 ^ n * (rotatedUp.1.isSet Flag.carry).toNat) ∧
    (number = 2 * shiftedDown.2.number cells + (shiftedDown.1.isSet Flag.carry).toNat ∧
      number + c * 256 ^ n = 2 * rotatedDown.2.number cells + (rotatedDown.1.isSet Flag.carry).toNat) ∧
    (restored.2.number cells = number ∧ restored.1.isSet Flag.carry = r.isSet Flag.carry) ∧
    ∀ op ∈ [asl, lsr, rol, ror], ∀ (held q : Registers) (m : FlatMemory) (cell : Addr), held.a = m.peek cell →
      held.isSet Flag.carry = q.isSet Flag.carry →
      let inA := (op.perform .implied held).run m
      let inCell := (op.perform (.address cell) q).run m
      inA.1.registers.a = inCell.2.peek cell ∧
        (∀ flag ∈ [Flag.carry, Flag.zero, Flag.negative],
          inA.1.registers.isSet flag = inCell.1.registers.isSet flag) ∧
        (held.status = q.status → inA.1.registers.status = inCell.1.registers.status) := by
  intro n number c shiftedUp rotatedUp shiftedDown rotatedDown restored
  have hclear : (r.assign Flag.carry false).isSet Flag.carry = false := r.isSet_assign (by decide)
  have hrotatedUp := run_rol hcells r m
  have hrestored := run_ror hcells rotatedUp.1 rotatedUp.2
  refine ⟨⟨?_, hrotatedUp⟩, ⟨?_, run_ror hcells r m⟩, ?_, ?_⟩
  · have hexact := run_rol hcells (r.assign Flag.carry false) m
    rw [← along_of_eq hne fun operand => asl_eq operand r, hclear] at hexact
    exact hexact
  · have hexact := run_ror hcells (r.assign Flag.carry false) m
    rw [← along_of_eq (by simpa using hne) fun operand => lsr_eq operand r, hclear, Bool.toNat_false, Nat.zero_mul]
      at hexact
    exact hexact
  · -- what went up comes down, so twice the number and the carry are as they were
    rw [Nat.mul_comm (Bool.toNat _)] at hrestored
    have htwice : 2 * number + c = 2 * restored.2.number cells + (restored.1.isSet Flag.carry).toNat :=
      hrotatedUp.trans hrestored
    have hcarry := Bool.toNat_le (r.isSet Flag.carry)
    have hcarry' := Bool.toNat_le (restored.1.isSet Flag.carry)
    have hnumber : restored.2.number cells = number := by omega
    have hcarries : (restored.1.isSet Flag.carry).toNat = (r.isSet Flag.carry).toNat := by omega
    exact ⟨hnumber, by rw [Bool.eq_iff_iff, ← Bool.toNat_eq_one, ← Bool.toNat_eq_one, hcarries]⟩
  · intro op hop held q m cell hvalue hcarry
    simp only [List.mem_cons, List.not_mem_nil, or_false] at hop
    rcases hop with rfl | rfl | rfl | rfl
    · exact forms_agree asl (fun _ _ => rfl) (fun _ v => v <<< 1) (·.msb) (fun _ _ => rfl) hvalue hcarry
    · exact forms_agree lsr (fun _ _ => rfl) (fun _ v => v >>> 1) (·.getLsbD 0) (fun _ _ => rfl) hvalue hcarry
    · exact forms_agree rol (fun _ _ => rfl) (fun c v => v <<< 1 ||| Byte.ofBool c) (·.msb) (fun _ _ => rfl) hvalue hcarry
    · exact forms_agree ror (fun _ _ => rfl) (fun c v => v >>> 1 ||| Byte.ofBool c <<< 7) (·.getLsbD 0) (fun _ _ => rfl)
        hvalue hcarry

/-- A number of three bytes whose cells are not in order, in a memory of bytes with two bits set. -/
def sampleCells : List Addr := [0x10, 0x0F, 0x200]

theorem number_sampleCells : (FlatMemory.filled 0x81).number sampleCells = 0x818181 := by
  simp [FlatMemory.number, sampleCells]

theorem along_exact_sample :
    let m := FlatMemory.filled 0x81
    let up := (asl.along rol sampleCells {}).run m
    let down := (lsr.along ror sampleCells.reverse {}).run m
    let held : Registers := { a := 0x81, status := 0x01 }
    sampleCells ≠ [] ∧ sampleCells.Nodup ∧
      0x1030302 = up.2.number sampleCells + 0x1000000 * (up.1.isSet Flag.carry).toNat ∧
      0x818181 = 2 * down.2.number sampleCells + (down.1.isSet Flag.carry).toNat ∧
      held.a = m.peek 0x10 ∧
      ((ror.perform .implied held).run m).1.registers.a =
        ((ror.perform (.address 0x10) { status := 0x81 }).run m).2.peek 0x10 := by
  intro m up down held
  have hne : sampleCells ≠ [] := by decide
  have hcells : sampleCells.Nodup := by decide
  have hvalue : held.a = m.peek 0x10 := (FlatMemory.peek_filled 0x81 0x10).symm
  obtain ⟨⟨hup, -⟩, ⟨hdown, -⟩, -, hforms⟩ := along_exact m {} sampleCells hne hcells
  rw [number_sampleCells] at hup hdown
  exact ⟨hne, hcells, hup, hdown, hvalue, (hforms ror (by simp) held { status := 0x81 } m 0x10 hvalue (by decide)).1⟩

end Operation

end Nes
