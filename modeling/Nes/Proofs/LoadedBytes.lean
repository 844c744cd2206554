import Mathlib.Data.List.Induction
import Mathlib.Order.Bounds.Basic
import Nes.Memory.Flat

/-!
# Bytes loaded into flat memory

`FlatMemory.load` stores bytes one after another and goes on at the bottom of memory when it has passed the top, for as
long as there are bytes. So more than one byte can fall on the same address, and the last of them stays.

* Loading can stop and go on at the address that is reached (`FlatMemory.load_append`), so the last byte can be looked
  at on its own (`FlatMemory.load_concat`).
* `fallingOn` is the set of the bytes that fall on an address, and what is found there in the end is told by its
  greatest element (`FlatMemory.load_determined`).
-/

namespace Nes.FlatMemory

variable (m : FlatMemory) (addr : Addr)

/-! ## One part after another -/

/-- Loading goes on where it stopped. -/
theorem load_append (xs ys : List Byte) :
    m.load addr (xs ++ ys) = (m.load addr xs).load (addr + BitVec.ofNat 16 xs.length) ys := by
  induction xs generalizing m addr with
  | nil => simp
  | cons b xs ih =>
    have hplace : addr + 1 + BitVec.ofNat 16 xs.length = addr + BitVec.ofNat 16 (xs.length + 1) := by
      rw [BitVec.ofNat_add, BitVec.add_assoc, BitVec.add_comm (BitVec.ofNat 16 xs.length)]
      rfl
    rw [List.cons_append, load_cons, load_cons, ih, hplace, List.length_cons]

/-- The last byte is stored last. -/
theorem load_concat (xs : List Byte) (b : Byte) :
    m.load addr (xs ++ [b]) = (m.load addr xs).poke (addr + BitVec.ofNat 16 xs.length) b := by
  rw [load_append, load_cons, load_nil]

/-! ## What falls where -/

/-- Of `n` bytes that are stored from `addr` on, those that fall on `target`. -/
def fallingOn (addr : Addr) (n : Nat) (target : Addr) : Set Nat :=
  {i | i < n ∧ (addr.toNat + i) % 0x10000 = target.toNat}

variable {addr} {target : Addr} {n i : Nat}

theorem mem_fallingOn : i ∈ fallingOn addr n target ↔ i < n ∧ addr + BitVec.ofNat 16 i = target := by
  have hplace : (addr + BitVec.ofNat 16 i).toNat = (addr.toNat + i) % 0x10000 := by
    rw [BitVec.toNat_add, BitVec.toNat_ofNat, Nat.add_mod_mod]
  rw [← BitVec.toNat_inj, hplace]
  rfl

theorem fallingOn_zero : fallingOn addr 0 target = ∅ := by
  ext i
  simp [mem_fallingOn]

/-- A byte that falls elsewhere makes no difference. -/
theorem fallingOn_succ_of_ne (h : addr + BitVec.ofNat 16 n ≠ target) :
    fallingOn addr (n + 1) target = fallingOn addr n target := by
  ext i
  rw [mem_fallingOn, mem_fallingOn]
  constructor
  · rintro ⟨hlt, hplace⟩
    have hne : i ≠ n := fun he => h (he ▸ hplace)
    exact ⟨by omega, hplace⟩
  · rintro ⟨hlt, hplace⟩
    exact ⟨by omega, hplace⟩

/-- A byte that falls there is the last one so far. -/
theorem isGreatest_fallingOn_succ (h : addr + BitVec.ofNat 16 n = target) :
    IsGreatest (fallingOn addr (n + 1) target) n := by
  refine ⟨mem_fallingOn.mpr ⟨by omega, h⟩, ?_⟩
  intro i hi
  have := (mem_fallingOn.mp hi).1
  omega

/-! ## What is found -/

/-- An address holds the last of the bytes that fall on it, or what it held before. -/
theorem peek_load (bytes : List Byte) :
    (∃ i, IsGreatest (fallingOn addr bytes.length target) i ∧ bytes[i]? = some ((m.load addr bytes).peek target)) ∨
      fallingOn addr bytes.length target = ∅ ∧ (m.load addr bytes).peek target = m.peek target := by
  -- the bytes are taken away from the end, where the one that counts is
  induction bytes using List.reverseRecOn with
  | nil => exact .inr ⟨fallingOn_zero, rfl⟩
  | append_singleton xs b ih =>
    rw [load_concat, peek_poke, List.length_append, List.length_singleton]
    by_cases hplace : addr + BitVec.ofNat 16 xs.length = target
    · rw [if_pos hplace]
      exact .inl ⟨xs.length, isGreatest_fallingOn_succ hplace, List.getElem?_concat_length⟩
    · rw [if_neg hplace, fallingOn_succ_of_ne hplace]
      refine ih.imp_left ?_
      rintro ⟨i, hgreatest, hbyte⟩
      have hlt : i < xs.length := (mem_fallingOn.mp hgreatest.1).1
      exact ⟨i, hgreatest, by rw [List.getElem?_append_left hlt, hbyte]⟩

variable (addr)

/-- **Where bytes fall on the same address the last one stays.** Bytes are loaded from an address on, as many as there
are; past the top of memory comes the bottom.

* Each address holds the byte with the greatest index among those that fall on it, or what it held before if there are
  none.
* Loading one list and then another behind it is the same as loading both at once. -/
theorem load_determined :
    (∀ (bytes : List Byte) (target : Addr),
      (∃ i, IsGreatest (fallingOn addr bytes.length target) i ∧ bytes[i]? = some ((m.load addr bytes).peek target)) ∨
        fallingOn addr bytes.length target = ∅ ∧ (m.load addr bytes).peek target = m.peek target) ∧
    ∀ xs ys : List Byte,
      m.load addr (xs ++ ys) = (m.load addr xs).load (BitVec.ofNat 16 ((addr.toNat + xs.length) % 0x10000)) ys := by
  refine ⟨fun bytes target => m.peek_load bytes, fun xs ys => ?_⟩
  have hplace : BitVec.ofNat 16 ((addr.toNat + xs.length) % 0x10000) = addr + BitVec.ofNat 16 xs.length := by
    apply BitVec.eq_of_toNat_eq
    rw [BitVec.toNat_add, BitVec.toNat_ofNat, BitVec.toNat_ofNat, Nat.mod_mod, Nat.add_mod_mod]
  rw [hplace, load_append]

end Nes.FlatMemory
