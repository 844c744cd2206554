import Nes.Word
import Nes.Text.Numeral

/-!
# Addresses on the command line

An address is hexadecimal. Any number of dollar signs may stand in front, then any number of `0x`, then any number of
`0X`.
-/

namespace Nes.CommandLine

/-- Drops a two-character mark from the front as often as it stands there. -/
def dropMark (first second : Char) : List Char → List Char
  | a :: b :: rest => if a = first ∧ b = second then dropMark first second rest else a :: b :: rest
  | cs => cs

/-- The digits of an address, with their sign. -/
def dropMarks (cs : List Char) : List Char := dropMark '0' 'X' (dropMark '0' 'x' (cs.dropWhile (· = '$')))

/-- Reads an address. -/
def readAddress (s : String) : Except NumeralError Addr :=
  (Numeral.read 16 0x10000 (dropMarks s.toList)).map (BitVec.ofNat 16)

end Nes.CommandLine
