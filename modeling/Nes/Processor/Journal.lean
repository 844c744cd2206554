import Nes.Processor.Registers
import Nes.Text.Decimal

/-!
# The journal

A journal entry describes one executed instruction: when and where its opcode was fetched, and the registers after it.
-/

namespace Nes

/-- One executed instruction. -/
structure JournalEntry where
  /-- The processor's clock at the fetch. -/
  clock : Nat
  /-- The address of the opcode. -/
  pc : Addr
  opcode : Byte
  mnemonic : String
  a : Byte
  x : Byte
  y : Byte
  sp : Byte
  status : Byte
  deriving DecidableEq

namespace JournalEntry

/-- The entry for an instruction that left the registers as given. -/
def ofRegisters (clock : Nat) (pc : Addr) (opcode : Byte) (mnemonic : String) (r : Registers) : JournalEntry :=
  ⟨clock, pc, opcode, mnemonic, r.a, r.x, r.y, r.sp, r.status⟩

/-- An entry as one line; the clock has a column of ten and the mnemonic one of three. -/
def text (e : JournalEntry) : String :=
  alignRight 10 (decimal e.clock) ++ "  PC:" ++ e.pc.hex ++ " " ++ e.opcode.hex ++ " " ++ alignLeft 3 e.mnemonic ++
    "  A:" ++ e.a.hex ++ " X:" ++ e.x.hex ++ " Y:" ++ e.y.hex ++ " " ++ Flag.text e.status ++ " SP:" ++ e.sp.hex

end JournalEntry

end Nes
