import Nes.Word

/-!
# Hexadecimal text

Bytes and addresses are written with two and four digits, the most significant first, `A` to `F` as capitals.
-/

namespace Nes

/-- The digit of a nibble. -/
def hexDigit (d : BitVec 4) : Char := Char.ofNat (d.toNat + if d.toNat < 10 then 0x30 else 0x37)

/-- Two digits. -/
def Byte.hex (b : Byte) : String := String.ofList [hexDigit b.highNibble, hexDigit b.lowNibble]

/-- Four digits. -/
def Addr.hex (a : Addr) : String := a.high.hex ++ a.low.hex

@[simp] theorem Byte.length_hex (b : Byte) : b.hex.length = 2 := by
  simp [Byte.hex]

@[simp] theorem Addr.length_hex (a : Addr) : a.hex.length = 4 := by
  simp [Addr.hex]

end Nes
