/-!
# Bytes and addresses

The machine moves bytes over a bus of 16 address lines. An address is a page number (its high byte) and a place in the
page (its low byte); the zero page and the stack page are pages 0 and 1.
-/

namespace Nes

/-- A byte, with arithmetic modulo 256. -/
abbrev Byte := BitVec 8

/-- An address, with arithmetic modulo 65536. -/
abbrev Addr := BitVec 16

/-- The bytes are the numbers below 256. -/
theorem Byte.mem_map_range (b : Byte) : b ∈ (List.range 256).map (BitVec.ofNat 8) := by
  refine List.mem_map.mpr ⟨b.toNat, List.mem_range.mpr b.isLt, ?_⟩
  rw [BitVec.ofNat_toNat, BitVec.setWidth_eq]

/-! ## Halves of a byte -/

/-- Bits 0 to 3. -/
def Byte.lowNibble (b : Byte) : BitVec 4 := b.extractLsb' 0 4

/-- Bits 4 to 7. -/
def Byte.highNibble (b : Byte) : BitVec 4 := b.extractLsb' 4 4

/-- A flag as the byte 0 or 1. -/
def Byte.ofBool (b : Bool) : Byte := if b then 1 else 0

/-- Whether two bytes have a set bit in common. -/
def Byte.meets (b mask : Byte) : Bool := b &&& mask != 0

/-! ## Halves of an address -/

/-- The address with the given low and high byte. -/
def Addr.ofBytes (low high : Byte) : Addr := high ++ low

/-- The place in the page. -/
def Addr.low (a : Addr) : Byte := a.extractLsb' 0 8

/-- The page number. -/
def Addr.high (a : Addr) : Byte := a.extractLsb' 8 8

/-- An address of the zero page. -/
def Addr.zeroPage (b : Byte) : Addr := Addr.ofBytes b 0

/-- An address of the stack page. -/
def Addr.stackPage (b : Byte) : Addr := Addr.ofBytes b 1

/-- Whether two addresses lie on different pages. -/
def Addr.crosses (a b : Addr) : Bool := a.high != b.high

theorem Addr.toNat_ofBytes (low high : Byte) :
    (Addr.ofBytes low high).toNat = 256 * high.toNat + low.toNat := by
  have h : (high ++ low).toNat = high.toNat <<< 8 ||| low.toNat := BitVec.toNat_append high low
  rw [Nat.shiftLeft_eq, Nat.mul_comm, ← Nat.two_pow_add_eq_or_of_lt low.isLt] at h
  exact h

theorem Addr.toNat_low (a : Addr) : a.low.toNat = a.toNat % 256 := by
  simp [Addr.low]

theorem Addr.toNat_high (a : Addr) : a.high.toNat = a.toNat / 256 := by
  have := a.isLt
  simp only [Addr.high, BitVec.extractLsb'_toNat, Nat.shiftRight_eq_div_pow]
  omega

@[simp] theorem Addr.low_ofBytes (low high : Byte) : (Addr.ofBytes low high).low = low := by
  apply BitVec.eq_of_toNat_eq
  rw [Addr.toNat_low, Addr.toNat_ofBytes]
  have := low.isLt
  omega

@[simp] theorem Addr.high_ofBytes (low high : Byte) : (Addr.ofBytes low high).high = high := by
  apply BitVec.eq_of_toNat_eq
  rw [Addr.toNat_high, Addr.toNat_ofBytes]
  have := low.isLt
  omega

@[simp] theorem Addr.ofBytes_low_high (a : Addr) : Addr.ofBytes a.low a.high = a := by
  apply BitVec.eq_of_toNat_eq
  rw [Addr.toNat_ofBytes, Addr.toNat_low, Addr.toNat_high]
  omega

end Nes
