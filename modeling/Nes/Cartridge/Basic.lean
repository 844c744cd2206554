import Nes.Cartridge.Board

/-!
# Cartridges

A cartridge is a board with its storage. The board selects a cell and the cartridge moves the byte; an address that the
board leaves alone is answered with nothing, so that the console can look elsewhere.
-/

namespace Nes

/-- A board with its storage. -/
structure Cartridge where
  header : Header
  board : Board
  prgRom : Array Byte
  prgRam : Array Byte
  /-- Graphics ROM, or graphics RAM if the header declares no ROM. -/
  chr : Array Byte
  /-- Whether graphics storage is RAM. -/
  chrIsRam : Bool
  deriving DecidableEq

namespace Cartridge

/-- Puts the board in its first state; storage stays as it is. -/
def reset (c : Cartridge) : Cartridge := { c with board := c.board.reset }

/-! ## The processor's side -/

/-- The byte at an address, if the cartridge answers there. -/
def read (c : Cartridge) (addr : Addr) : Option Byte :=
  match c.board.readTarget addr with
  | some (.rom offset) => c.prgRom[offset]?
  | some (.ram offset) => c.prgRam[offset]?
  | some .register | none => none

/-- Whether the cartridge takes a write, and the cartridge after it. ROM takes a write and keeps its byte. -/
def write (c : Cartridge) (addr : Addr) (value : Byte) : Bool × Cartridge :=
  let (target, board) := c.board.writeTarget addr value
  match target with
  | some (.ram offset) => (true, { c with board, prgRam := c.prgRam.setIfInBounds offset value })
  | some (.rom _) | some .register => (true, { c with board })
  | none => (false, { c with board })

/-! ## The graphics side -/

/-- The byte of graphics storage at an address, if the cartridge answers there. -/
def readGraphics (c : Cartridge) (addr : Addr) : Option Byte :=
  match c.board.chrReadOffset addr with
  | some offset => c.chr[offset]?
  | none => none

/-- Whether the cartridge takes a write to graphics storage, and the cartridge after it. -/
def writeGraphics (c : Cartridge) (addr : Addr) (value : Byte) : Bool × Cartridge :=
  match c.board.chrWriteOffset addr with
  | some offset => (true, { c with chr := c.chr.setIfInBounds offset value })
  | none => (false, c)

end Cartridge

end Nes
