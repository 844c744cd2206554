import Mathlib.Data.Nat.Digits.Defs
import Nes.Memory.Flat
import Nes.Processor.Semantics

/-!
# Numbers of several bytes

The processor computes with bytes; longer numbers lie in memory byte by byte, the lowest first (`littleEndian`). With the
top bit for the sign they are numbers in two's complement (`signed`), and putting one more byte below such a number
shifts it by a byte (`signed_cons`).

A program for long numbers goes through their bytes one after another and hands the carry on in the registers. What it
computes does not need memory (`Registers.thread`); that the program computes it is a matter of cells that do not get in
each other's way (`Registers.Computes.run_foldlM`).
-/

namespace Nes

/-! ## Little-endian numbers -/

/-- The number with the given bytes, the lowest first. -/
def littleEndian (bytes : List Byte) : Nat := Nat.ofDigits 256 (bytes.map BitVec.toNat)

/-- The number in the given cells, the lowest byte first. -/
def FlatMemory.number (m : FlatMemory) (cells : List Addr) : Nat := littleEndian (cells.map m.peek)

section

variable (b : Byte) (bytes : List Byte)

@[simp] theorem littleEndian_nil : littleEndian [] = 0 := rfl

@[simp] theorem littleEndian_cons : littleEndian (b :: bytes) = b.toNat + 256 * littleEndian bytes := rfl

theorem littleEndian_concat : littleEndian (bytes ++ [b]) = littleEndian bytes + 256 ^ bytes.length * b.toNat := by
  simp [littleEndian, Nat.ofDigits_append]

theorem littleEndian_lt : littleEndian bytes < 256 ^ bytes.length := by
  induction bytes with
  | nil => decide
  | cons b bytes ih =>
    have := b.isLt
    rw [littleEndian_cons, List.length_cons, Nat.pow_succ]
    omega

theorem pow_succ_mul (n value : Nat) : 256 ^ (n + 1) * value = 256 * (256 ^ n * value) := by ring

theorem FlatMemory.number_lt (m : FlatMemory) (cells : List Addr) : m.number cells < 256 ^ cells.length := by
  have hlt := littleEndian_lt (cells.map m.peek)
  rwa [List.length_map] at hlt

/-- A number and the one with every bit turned over add up to all ones. -/
theorem littleEndian_complement :
    littleEndian (bytes.map fun b => ~~~b) + littleEndian bytes + 1 = 256 ^ bytes.length := by
  induction bytes with
  | nil => rfl
  | cons b bytes ih =>
    have hb : (~~~b).toNat = 255 - b.toNat := BitVec.toNat_not
    have := b.isLt
    rw [List.map_cons, littleEndian_cons, littleEndian_cons, List.length_cons, Nat.pow_succ, hb]
    omega

end

/-! ## Two's complement -/

/-- A number of `n` bytes with its top bit as the sign. -/
def signed (n value : Nat) : Int := (value : Int).bmod (256 ^ n)

/-- The integers that two's complement writes with `n` bytes. -/
def FitsSigned (n : Nat) (value : Int) : Prop := -256 ^ n ≤ 2 * value ∧ 2 * value < 256 ^ n

instance (n : Nat) (value : Int) : Decidable (FitsSigned n value) := inferInstanceAs (Decidable (_ ∧ _))

section

variable {n value : Nat}

theorem signed_eq (h : value < 256 ^ n) :
    signed n value = if 2 * value < 256 ^ n then (value : Int) else value - 256 ^ n := by
  have hmod : (value : Int) % (256 ^ n : Nat) = value := Int.emod_eq_of_lt (by omega) (by omega)
  have hcast : ((256 ^ n : Nat) : Int) = 256 ^ n := by push_cast; rfl
  rw [signed, Int.bmod_def, hmod, ← hcast]
  split <;> split <;> omega

/-- From one byte on the numbers split into two halves. -/
theorem exists_half (hn : n ≠ 0) : ∃ half : Nat, 256 ^ n = 2 * half ∧ 256 ^ (n + 1) = 512 * half ∧
    (256 ^ n : Int) = 2 * half ∧ (256 ^ (n + 1) : Int) = 512 * half := by
  obtain ⟨k, rfl⟩ := Nat.exists_eq_add_one_of_ne_zero hn
  refine ⟨128 * 256 ^ k, ?_, ?_, ?_, ?_⟩ <;> push_cast <;> ring

/-- A byte below a number of some bytes leaves its sign where it is. -/
theorem signed_cons (hn : n ≠ 0) (b : Byte) (h : value < 256 ^ n) :
    signed (n + 1) (b.toNat + 256 * value) = b.toNat + 256 * signed n value := by
  obtain ⟨half, hpow, hpow', hcast, hcast'⟩ := exists_half hn
  have := b.isLt
  have hlt : b.toNat + 256 * value < 256 ^ (n + 1) := by omega
  rw [signed_eq h, signed_eq hlt, hcast, hcast', hpow, hpow']
  split <;> split <;> push_cast <;> omega

/-- With its bits turned over a number is the one before its negative. -/
theorem signed_complement (hn : n ≠ 0) {other : Nat} (h : other + value + 1 = 256 ^ n) :
    signed n other = -signed n value - 1 := by
  obtain ⟨half, hpow, -, hcast, -⟩ := exists_half hn
  rw [signed_eq (by omega), signed_eq (by omega), hcast, hpow]
  split <;> split <;> omega

theorem fitsSigned_cons (hn : n ≠ 0) (b : Byte) (value : Int) :
    FitsSigned (n + 1) (b.toNat + 256 * value) ↔ FitsSigned n value := by
  obtain ⟨half, -, -, hcast, hcast'⟩ := exists_half hn
  have := b.isLt
  rw [FitsSigned, FitsSigned, hcast, hcast']
  omega

end

/-! ## Byte after byte -/

namespace Registers

variable {ι κ : Type}

/-- Bytes computed one after another, each with the registers that the one before left. -/
def thread (f : Registers → ι → Shifted) (r : Registers) : List ι → List Byte × Registers
  | [] => ([], r)
  | i :: inputs =>
    let new := f r i
    let rest := new.registers.thread f inputs
    (new.value :: rest.1, rest.2)

section

variable (f : Registers → ι → Shifted) (r : Registers) (i : ι) (inputs : List ι)

@[simp] theorem thread_nil : r.thread f [] = ([], r) := rfl

@[simp] theorem thread_cons_fst :
    (r.thread f (i :: inputs)).1 = (f r i).value :: ((f r i).registers.thread f inputs).1 := rfl

@[simp] theorem thread_cons_snd :
    (r.thread f (i :: inputs)).2 = ((f r i).registers.thread f inputs).2 := rfl

@[simp] theorem length_thread : (r.thread f inputs).1.length = inputs.length := by
  induction inputs generalizing r with
  | nil => rfl
  | cons i inputs ih => rw [thread_cons_fst, List.length_cons, List.length_cons, ih]

end

/-- Each transaction `t r k` takes its input from memory and the registers `r`, and stores the byte that `f` makes of it
in the cell of `k`. -/
def Computes (t : Registers → κ → Transaction Registers) (f : Registers → ι → Shifted) (input : FlatMemory → κ → ι)
    (cell : κ → Addr) : Prop :=
  ∀ r k m, (t r k).run m = ((f r (input m k)).registers, m.poke (cell k) (f r (input m k)).value)

variable {t : Registers → κ → Transaction Registers} {f : Registers → ι → Shifted} {input : FlatMemory → κ → ι}
  {cell : κ → Addr}

/-- No other cells change. -/
theorem Computes.peek_foldlM (h : Computes t f input cell) {addr : Addr} {links : List κ}
    (haddr : ∀ k ∈ links, cell k ≠ addr) (r : Registers) (m : FlatMemory) :
    ((links.foldlM t r).run m).2.peek addr = m.peek addr := by
  induction links generalizing r m with
  | nil => rfl
  | cons k links ih =>
    rw [List.foldlM_cons, Transaction.run_bind, h, ih fun k' hk' => haddr k' (List.mem_cons_of_mem k hk'),
      FlatMemory.peek_poke, if_neg (haddr k List.mem_cons_self)]

/-- Memory can be put aside where no cell is stored to twice and none is an input afterwards. -/
theorem Computes.run_foldlM (h : Computes t f input cell) {links : List κ}
    (hapart : links.Pairwise fun k later =>
      cell k ≠ cell later ∧ ∀ m value, input (m.poke (cell k) value) later = input m later)
    (r : Registers) (m : FlatMemory) :
    let out := (links.foldlM t r).run m
    ((links.map cell).map out.2.peek, out.1) = r.thread f (links.map (input m)) := by
  induction links generalizing r m with
  | nil => rfl
  | cons k links ih =>
    obtain ⟨hlater, hrest⟩ := List.pairwise_cons.mp hapart
    have hinput : links.map (input (m.poke (cell k) (f r (input m k)).value)) = links.map (input m) :=
      List.map_congr_left fun later hmem => (hlater later hmem).2 m _
    have hstored := h.peek_foldlM (fun later hmem => (hlater later hmem).1.symm) (f r (input m k)).registers
      (m.poke (cell k) (f r (input m k)).value)
    rw [FlatMemory.peek_poke, if_pos rfl] at hstored
    have hthread := ih hrest (f r (input m k)).registers (m.poke (cell k) (f r (input m k)).value)
    rw [hinput] at hthread
    simp only [List.foldlM_cons, Transaction.run_bind, h r k m, List.map_cons, thread, hstored, ← hthread]

end Registers

end Nes
