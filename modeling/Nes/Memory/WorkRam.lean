import Nes.Word

/-!
# Work RAM

Two kilobytes of storage behind eleven address lines, so the contents repeat every 2048 addresses.
-/

namespace Nes

/-- The console's own memory. -/
structure WorkRam where
  cells : Vector Byte 0x800

namespace WorkRam

/-- Zero everywhere. -/
def zero : WorkRam := ⟨.replicate 0x800 0⟩

/-- The cell that an address selects: its low eleven bits. -/
def index (addr : Addr) : Fin 0x800 := (addr.setWidth 11).toFin

/-- The byte of the cell that an address selects. -/
def read (m : WorkRam) (addr : Addr) : Byte := m.cells[index addr]

/-- Stores a byte in the cell that an address selects. -/
def write (m : WorkRam) (addr : Addr) (value : Byte) : WorkRam :=
  ⟨m.cells.set (index addr).val value (index addr).isLt⟩

theorem val_index (addr : Addr) : (index addr).val = addr.toNat % 2048 := by
  simp [index]

@[simp] theorem read_zero (addr : Addr) : zero.read addr = 0 := by
  simp [zero, read]

theorem read_write (m : WorkRam) (a b : Addr) (value : Byte) :
    (m.write a value).read b = if index a = index b then value else m.read b := by
  simp [read, write, Vector.getElem_set, Fin.ext_iff]

end WorkRam

end Nes
