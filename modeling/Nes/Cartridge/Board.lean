import Nes.Cartridge.Header
import Nes.Cartridge.LoadError

/-!
# Boards

A board decides which cell of the cartridge's storage an address selects. Two boards are supported: one without
circuits of its own, and one with a register that selects a bank of graphics storage.

* Program RAM answers at `$6000` to `$7FFF`, over and over if it is smaller than that.
* Program ROM answers from `$8000` on; a single bank answers twice.
* The bank register takes any write from `$8000` on.
-/

namespace Nes

/-- What a processor access to the cartridge selects. -/
inductive Target
  /-- A byte of program ROM. -/
  | rom (offset : Nat)
  /-- A byte of program RAM. -/
  | ram (offset : Nat)
  /-- A register of the board. -/
  | register
  deriving DecidableEq

/-- The storage that a board is wired to. -/
structure Layout where
  prgBanks : Nat
  chrBanks : Nat
  prgRamSize : Nat
  deriving DecidableEq

namespace Layout

/-- The layout that a header describes. -/
def ofHeader (h : Header) : Layout := ⟨h.prgBanks, h.chrBanks, h.prgRamSize⟩

/-- What an address of the processor selects. -/
def target (l : Layout) (addr : Addr) : Option Target :=
  if addr < 0x6000 then none
  else if addr < 0x8000 then
    if l.prgRamSize = 0 then none else some (.ram ((addr.toNat - 0x6000) % l.prgRamSize))
  else if l.prgBanks = 0 then none
  else some (.rom (addr.toNat % if l.prgBanks = 1 then prgBankSize else 2 * prgBankSize))

/-- The place in a bank that an address of the graphics side selects. -/
def chrOffset (addr : Addr) : Option Nat := if addr < 0x2000 then some addr.toNat else none

end Layout

/-- The supported boards. -/
inductive Board
  | nrom (layout : Layout)
  | cnrom (layout : Layout) (bank : Nat)
  deriving DecidableEq

namespace Board

def layout : Board → Layout
  | .nrom layout => layout
  | .cnrom layout _ => layout

/-- The number of the board's mapper. -/
def mapper : Board → Nat
  | .nrom _ => 0
  | .cnrom _ _ => 3

def name (b : Board) : String := boardName b.mapper

/-- The board that a header asks for. -/
def ofHeader (h : Header) : Except LoadError Board :=
  match h.mapper with
  | 0 => .ok (.nrom (.ofHeader h))
  | 3 => .ok (.cnrom (.ofHeader h) 0)
  | mapper => .error (.unsupportedMapper mapper)

/-- Selects the first bank. -/
def reset : Board → Board
  | .nrom layout => .nrom layout
  | .cnrom layout _ => .cnrom layout 0

/-- What a read by the processor selects. -/
def readTarget (b : Board) (addr : Addr) : Option Target := b.layout.target addr

/-- What a write by the processor selects, and the board after it. Of the value written the bank register takes two
bits, reduced to the banks there are. -/
def writeTarget (b : Board) (addr : Addr) (value : Byte) : Option Target × Board :=
  match b with
  | .nrom layout => (layout.target addr, b)
  | .cnrom layout _ =>
    if 0x8000 ≤ addr then (some .register, .cnrom layout ((value &&& 0x03).toNat % max layout.chrBanks 1))
    else (layout.target addr, b)

/-- The byte of graphics storage that a read selects. -/
def chrReadOffset (b : Board) (addr : Addr) : Option Nat :=
  match b with
  | .nrom _ => Layout.chrOffset addr
  | .cnrom _ bank => (Layout.chrOffset addr).map (bank * chrBankSize + ·)

/-- The byte of graphics storage that a write selects; only graphics RAM can be written. -/
def chrWriteOffset (b : Board) (addr : Addr) : Option Nat :=
  if b.layout.chrBanks = 0 then Layout.chrOffset addr else none

end Board

end Nes
